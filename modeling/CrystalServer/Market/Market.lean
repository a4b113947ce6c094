import CrystalServer.Account.Account
import CrystalServer.Items.Item
import CrystalServer.Lib.Chunks

/-! # The market

The rows of `market_offers`, the players with what the market reads of them, and the items that the market takes from a player
or makes for one; `Game::playerCreateMarketOffer`, `playerCancelMarketOffer` and `playerAcceptMarketOffer` (`game/game.cpp`), and
`IOMarket` (`io/iomarket.cpp`) with the expiry of offers: a query takes a snapshot, its callback runs later. Every
statement of the database succeeds. -/

namespace CrystalServer.Market

/-- `ITEM_STORE_COIN`. -/
def ITEM_STORE_COIN : UInt16 := 22118

/-- `CoinType::Transferable`. -/
def Transferable : UInt8 := 3

/-- `MarketAction_t`. -/
inductive MarketAction_t
  | BUY
  | SELL
  deriving DecidableEq

/-- What the market reads beside the offers. A type that is registered has its own id, a stack takes between 1 and 255
items, and a fee, computed in floating point, comes to 1000000 at most. In the data files every type with a ware can be
picked up, and none is one that `CreateItem` turns into another. -/
structure MarketEnv where
  items : UInt16 → ItemType
  wareId : UInt16 → UInt16
  FORGE_MAX_ITEM_TIER : UInt8
  MARKET_OFFER_DURATION : Int32
  MARKET_PREMIUM : Bool
  MAX_MARKET_OFFERS_AT_A_TIME_PER_PLAYER : UInt32
  fee : UInt64 → UInt64
  registered : ∀ id, (items id).id = 0 ∨ (items id).id = id
  stackSize_pos : ∀ id, 0 < (items id).stackSize
  fee_le : ∀ totalPrice, fee totalPrice ≤ 1000000
  pickupable : ∀ id, wareId id ≠ 0 → (items id).pickupable = true
  untransformed : ∀ id, wareId id ≠ 0 → Item.ItemTransformationMap.lookup id = none

/-- A row of `market_offers`. -/
structure Offer where
  id : Nat
  player_id : UInt32
  sale : MarketAction_t
  itemtype : UInt16
  amount : UInt16
  created : Int
  price : UInt64
  tier : UInt8
  deriving DecidableEq

/-- An item in a depot locker, or in the inbox in it, with the tier that `getTier` answers. The market may take it if it
is no store item and has market attributes. -/
structure Ware where
  id : UInt16
  count : UInt8
  tier : UInt8
  sellable : Bool
  deriving DecidableEq

/-- A player, on line or not: the balance, the worth of the coins carried, the stash, the wares in the locker, and the
account. -/
structure Player where
  bankBalance : UInt64
  money : UInt64
  stash : UInt16 → Nat
  locker : List Ware
  account : Account

variable (env : MarketEnv)

/-! ### Making items -/

/-- `Item::CreateItem`, with the tier that is set where it is not zero. -/
def CreateItem (id count : UInt16) (tier : UInt8) : Ware :=
  let item := Item.CreateItem env.items id count
  ⟨item.id, item.count, tier, true⟩

/-- The items that a loop makes of an amount: stacks up to a limit, or one by one. -/
def makeItems (it : ItemType) (limit : Nat) (amount : UInt16) (tier : UInt8) : List Ware :=
  if it.stackable then
    (Lib.chunks limit amount.toNat amount.toNat).map fun stackCount => CreateItem env it.id (.ofNat stackCount) tier
  else
    let subType : Int := if it.charges ≠ 0 then it.charges.toInt32.toInt else -1
    List.replicate amount.toNat (CreateItem env it.id (.ofInt subType) tier)

/-- `Game::internalAddItem` to the inbox without a limit, for one item after the other until one is refused: the inbox
refuses what cannot be picked up. -/
def Player.addToInbox (p : Player) (wares : List Ware) : Player :=
  { p with locker := p.locker ++ wares.takeWhile fun ware => (env.items ware.id).pickupable }

/-- `IOMarket::getTierFromDatabaseTable`. -/
def getTierFromDatabaseTable (tier : UInt8) : UInt8 := if tier > env.FORGE_MAX_ITEM_TIER then 0 else tier

/-! ### Taking items -/

/-- `Player::removeItem`: what is left of the item. -/
def removeItem (ware : Ware) (count : Nat) : List Ware :=
  if (env.items ware.id).stackable ∧ count ≠ ware.count.toNat then [{ ware with count := ware.count - .ofNat count }]
  else []

/-- The loop of `removeOfferItems` over the items of the locker: the amount that is left to remove, and the locker. -/
def removeItems (sought : Ware → Bool) : Nat → List Ware → Nat × List Ware
  | left, [] => (left, [])
  | left, ware :: locker =>
    if sought ware ∧ left > 0 then
      let thisRemove := min left ware.count.toNat
      let rest := removeItems sought (left - thisRemove) locker
      (rest.1, removeItem env ware thisRemove ++ rest.2)
    else
      let rest := removeItems sought left locker
      (rest.1, ware :: rest.2)

/-- The items of `Player::getLockerItemsAndCountById`. -/
def sought (itemId : UInt16) (tier : UInt8) (ware : Ware) : Bool :=
  ware.sellable && env.wareId ware.id ≠ 0 && ware.tier = tier && ware.id = itemId

/-- `Player::withdrawItem`. -/
def Player.withdrawItem (p : Player) (itemId : UInt16) (amount : Nat) : Player :=
  { p with stash := Function.update p.stash itemId (p.stash itemId - amount) }

/-- What `removeOfferItems` takes from the stash. -/
def Player.fromStash (p : Player) (itemId amount : UInt16) (tier : UInt8) : Nat :=
  if tier = 0 then min amount.toNat (p.stash (env.wareId itemId)) else 0

/-- `removeOfferItems`. -/
def removeOfferItems (p : Player) (itemId amount : UInt16) (tier : UInt8) : Player × Bool :=
  let stashed := p.fromStash env itemId amount tier
  let p := if stashed > 0 then p.withdrawItem (env.wareId itemId) stashed else p
  let removeAmount := amount.toNat - stashed
  let totalCount : UInt16 := .ofNat (p.locker.filter (sought env itemId tier)).length
  if removeAmount > 0 then
    if totalCount = 0 then (p, false)
    else
      let removed := removeItems env (sought env itemId tier) removeAmount p.locker
      ({ p with locker := removed.2 }, removed.1 = 0)
  else (p, true)

/-! ### Money -/

/-- `Game::removeMoney` without flags: coins first, then the balance where that may be used. -/
def Player.removeMoney (p : Player) (money : UInt64) (useBalance : Bool) : Player × Bool :=
  if money = 0 then (p, true)
  else
    let balance := if useBalance then p.bankBalance else 0
    if p.money + balance < money then (p, false)
    else if money ≤ p.money then ({ p with money := p.money - money }, true)
    else
      let money := money - p.money
      let p := { p with money := 0 }
      if useBalance ∧ p.bankBalance ≥ money then ({ p with bankBalance := p.bankBalance - money }, true) else (p, true)

end CrystalServer.Market

/-! ### Offers and sessions -/

namespace CrystalServer.Market

/-- The players by guid, the accounts with their coins, and the table `market_offers` with the next id it gives. -/
structure State where
  guids : Finset UInt32
  player : UInt32 → Player
  accounts : Account.Database
  market_offers : List Offer
  AUTO_INCREMENT : Nat

/-- What an operation reads of the player who calls it. -/
structure Session where
  isInMarket : Bool
  canDoMarketAction : Bool
  isPremium : Bool
  hasDepotLocker : Bool

def noFaults : Account.Faults := ⟨false, false, false⟩

variable (env : MarketEnv)

namespace State
variable (s : State)

def setPlayer (guid : UInt32) (p : Player) : State := { s with player := Function.update s.player guid p }

/-- `player->getAccount()->getCoins` for transferable coins. -/
def getCoins (guid : UInt32) : UInt32 := ((s.player guid).account.getCoins noFaults s.accounts Transferable).1

/-- `player->getAccount()->addCoins` for transferable coins. -/
def addCoins (guid : UInt32) (amount : UInt16) (detail : String) : State :=
  { s with accounts :=
      ((s.player guid).account.addCoins noFaults s.accounts Transferable amount.toUInt32 detail).2 }

/-- `player->getAccount()->removeCoins` for transferable coins. -/
def removeCoins (guid : UInt32) (amount : UInt16) (detail : String) : State :=
  { s with accounts :=
      ((s.player guid).account.removeCoins noFaults s.accounts Transferable amount.toUInt32 detail).2 }

/-- `player->setBankBalance(player->getBankBalance() + money)`. -/
def addBalance (guid : UInt32) (money : UInt64) : State :=
  s.setPlayer guid { s.player guid with bankBalance := (s.player guid).bankBalance + money }

def addToInbox (guid : UInt32) (wares : List Ware) : State := s.setPlayer guid ((s.player guid).addToInbox env wares)

/-- `IOMarket::getPlayerOfferCount`. -/
def getPlayerOfferCount (guid : UInt32) : UInt32 :=
  .ofNat (s.market_offers.filter fun offer => offer.player_id = guid).length

/-- `IOMarket::createOffer`. -/
def createOffer (offer : Offer) : State :=
  { s with market_offers := s.market_offers ++ [offer], AUTO_INCREMENT := s.AUTO_INCREMENT + 1 }

/-- `IOMarket::getOfferByCounter`; the row keeps the tier that the database has. -/
def getOfferByCounter (timestamp : UInt32) (counter : UInt16) : Option Offer :=
  let created := timestamp.toInt32 - env.MARKET_OFFER_DURATION
  s.market_offers.find? fun offer => offer.created = created.toInt ∧ offer.id % 65536 = counter.toNat

/-- `IOMarket::deleteOffer`, and the deletion of `IOMarket::moveOfferToHistory`. -/
def deleteOffer (offerId : Nat) : State :=
  { s with market_offers := s.market_offers.filter fun offer => offer.id ≠ offerId }

/-- `IOMarket::acceptOffer`. -/
def acceptOffer (offerId : Nat) (amount : UInt16) : State :=
  { s with market_offers := s.market_offers.map fun offer =>
      if offer.id = offerId then { offer with amount := offer.amount - amount } else offer }

end State

/-! ### Creating -/

/-- `checkCanInitCreateMarketOffer`. -/
def checkCanInitCreateMarketOffer (s : State) (guid : UInt32) (session : Session) (type : UInt8) (itemId amount : UInt16)
    (price : UInt64) : Bool :=
  let it := env.items itemId
  if guid ∉ s.guids then false
  else if !session.isInMarket then false
  else if price = 0 then false
  else if price > 999999999999 then false
  else if type ≠ 0 ∧ type ≠ 1 then false
  else if it.id = 0 ∨ env.wareId itemId = 0 then false
  else if amount = 0 ∨ !it.stackable ∧ amount > 2000 ∨ it.stackable ∧ amount > 64000 then false
  else if env.MARKET_PREMIUM ∧ !session.isPremium then false
  else
    let maxOfferCount := env.MAX_MARKET_OFFERS_AT_A_TIME_PER_PLAYER
    if maxOfferCount ≠ 0 ∧ s.getPlayerOfferCount guid ≥ maxOfferCount then false else true

/-- `Game::playerCreateMarketOffer`: the state after it, and the offer if one is made. -/
def playerCreateMarketOffer (s : State) (guid : UInt32) (session : Session) (type : UInt8) (itemId amount : UInt16)
    (price : UInt64) (tier : UInt8) (now : Int) : State × Option Offer :=
  if !checkCanInitCreateMarketOffer env s guid session type itemId amount price then (s, none)
  else if !session.canDoMarketAction then (s, none)
  else
    let it := env.items itemId
    let player := s.player guid
    let totalPrice := price * amount.toUInt64
    let fee := env.fee totalPrice
    if type = 1 then
      if fee > player.money + player.bankBalance then (s, none)
      else if !session.hasDepotLocker then (s, none)
      else if it.id = ITEM_STORE_COIN then
        if amount.toUInt32 > s.getCoins guid then (s, none)
        else
          let s := s.removeCoins guid amount ""
          let s := s.setPlayer guid (player.removeMoney fee true).1
          let offer : Offer := ⟨s.AUTO_INCREMENT, guid, .SELL, it.id, amount, now, price, tier⟩
          (s.createOffer offer, some offer)
      else
        let tier := if player.stash (env.wareId itemId) > 0 then 0 else tier
        match removeOfferItems env player it.id amount tier with
        | (player, false) => (s.setPlayer guid player, none)
        | (player, true) =>
          let s := s.setPlayer guid (player.removeMoney fee true).1
          let offer : Offer := ⟨s.AUTO_INCREMENT, guid, .SELL, it.id, amount, now, price, tier⟩
          (s.createOffer offer, some offer)
    else
      let totalPrice := totalPrice + fee
      if totalPrice > player.money + player.bankBalance then (s, none)
      else
        let s := s.setPlayer guid (player.removeMoney totalPrice true).1
        let offer : Offer := ⟨s.AUTO_INCREMENT, guid, .BUY, it.id, amount, now, price, tier⟩
        (s.createOffer offer, some offer)

/-! ### Giving back -/

/-- The items of a sell offer that `processExpiredOffers` puts into the inbox. -/
def expiredItems (offer : Offer) : List Ware :=
  makeItems env (env.items offer.itemtype) 100 offer.amount (getTierFromDatabaseTable env offer.tier)

/-- The items that the market makes for an amount of an offer that is cancelled or accepted. -/
def offerItems (offer : Offer) (amount : UInt16) : List Ware :=
  let it := env.items offer.itemtype
  makeItems env it it.stackSize.toNat amount (getTierFromDatabaseTable env offer.tier)

/-- `Game::playerCancelMarketOffer`. -/
def playerCancelMarketOffer (s : State) (guid : UInt32) (session : Session) (timestamp : UInt32) (counter : UInt16) :
    State :=
  if guid ∉ s.guids then s
  else if !session.isInMarket then s
  else if !session.canDoMarketAction then s
  else
    match s.getOfferByCounter env timestamp counter with
    | none => s
    | some offer =>
      if offer.player_id ≠ guid then s
      else
        match offer.sale with
        | .BUY => (s.addBalance guid (offer.price * offer.amount.toUInt64)).deleteOffer offer.id
        | .SELL =>
          let it := env.items offer.itemtype
          if it.id = 0 then s
          else if it.id = ITEM_STORE_COIN then (s.addCoins guid offer.amount "").deleteOffer offer.id
          else (s.addToInbox env guid (offerItems env offer offer.amount)).deleteOffer offer.id

/-! ### Accepting -/

/-- What is left of the offer after so much of it was accepted. -/
def State.take (s : State) (offer : Offer) (amount : UInt16) : State :=
  if offer.amount - amount = 0 then s.deleteOffer offer.id else s.acceptOffer offer.id amount

/-- The goods of an accepted offer come to a player. -/
def State.deliver (s : State) (guid : UInt32) (offer : Offer) (amount : UInt16) : State :=
  if (env.items offer.itemtype).id = ITEM_STORE_COIN then s.addCoins guid amount "Purchased on Market"
  else s.addToInbox env guid (offerItems env offer amount)

/-- The player sells to the one who made a buy offer. -/
def sellToOffer (s : State) (guid : UInt32) (session : Session) (offer : Offer) (amount : UInt16) (sameAccount : Bool) :
    State :=
  let it := env.items offer.itemtype
  if !session.hasDepotLocker then s
  else if offer.player_id ∉ s.guids then s
  else if guid = offer.player_id ∨ sameAccount then s
  else
    let taken :=
      if it.id = ITEM_STORE_COIN then
        if amount.toUInt32 > s.getCoins guid then none else some (s.removeCoins guid amount "Sold on Market", true)
      else
        let (player, removed) :=
          removeOfferItems env (s.player guid) it.id amount (getTierFromDatabaseTable env offer.tier)
        some (s.setPlayer guid player, removed)
    match taken with
    | none => s
    | some (s, false) => s
    | some (s, true) =>
      ((s.addBalance guid (offer.price * amount.toUInt64)).deliver env offer.player_id offer amount).take offer amount

/-- The player buys from the one who made a sell offer. -/
def buyFromOffer (s : State) (guid : UInt32) (offer : Offer) (amount : UInt16) (sameAccount : Bool) : State :=
  let totalPrice := offer.price * amount.toUInt64
  let player := s.player guid
  if offer.player_id ∉ s.guids then s
  else if guid = offer.player_id ∨ sameAccount then s
  else if totalPrice > player.bankBalance + player.money then s
  else
    let player :=
      if totalPrice ≤ player.bankBalance then { player with bankBalance := player.bankBalance - totalPrice }
      else
        let remainsPrice := totalPrice - player.bankBalance
        ({ player with bankBalance := 0 }.removeMoney remainsPrice false).1
    (((s.setPlayer guid player).deliver env guid offer amount).addBalance offer.player_id totalPrice).take offer amount

/-- `Game::playerAcceptMarketOffer`. Two players on one account share it or have it loaded twice. -/
def playerAcceptMarketOffer (s : State) (guid : UInt32) (session : Session) (timestamp : UInt32) (counter : UInt16)
    (amount : UInt16) (sameAccount : Bool) : State :=
  if guid ∉ s.guids then s
  else if !session.isInMarket then s
  else if !session.canDoMarketAction then s
  else
    match s.getOfferByCounter env timestamp counter with
    | none => s
    | some offer =>
      let it := env.items offer.itemtype
      if it.id = 0 then s
      else if amount = 0 ∨ !it.stackable ∧ amount > 2000 ∨ it.stackable ∧ amount > 64000 ∨ amount > offer.amount then s
      else
        match offer.sale with
        | .BUY => sellToOffer env s guid session offer amount sameAccount
        | .SELL => buyFromOffer env s guid offer amount sameAccount

/-! ### Expiry -/

/-- The rows that the query of `IOMarket::checkExpiredOffers` finds. -/
def checkExpiredOffers (s : State) (lastExpireDate : Int) : List Offer :=
  s.market_offers.filter fun offer => offer.created ≤ lastExpireDate

/-- One round of `IOMarket::processExpiredOffers` on a row of the snapshot. -/
def processExpiredOffer (s : State) (row : Offer) : State :=
  if s.market_offers.all fun offer => offer.id ≠ row.id then s
  else
    let s := s.deleteOffer row.id
    match row.sale with
    | .SELL =>
      if (env.items row.itemtype).id = 0 then s
      else if row.player_id = 0 ∨ row.player_id ∉ s.guids then s
      else s.addToInbox env row.player_id (expiredItems env row)
    | .BUY =>
      if row.player_id ∉ s.guids then s else s.addBalance row.player_id (row.price * row.amount.toUInt64)

/-! ### Runs -/

inductive Op
  | playerCreateMarketOffer (guid : UInt32) (session : Session) (type : UInt8) (itemId amount : UInt16) (price : UInt64)
      (tier : UInt8) (now : Int)
  | playerCancelMarketOffer (guid : UInt32) (session : Session) (timestamp : UInt32) (counter : UInt16)
  | playerAcceptMarketOffer (guid : UInt32) (session : Session) (timestamp : UInt32) (counter : UInt16) (amount : UInt16)
      (sameAccount : Bool)
  | checkExpiredOffers (lastExpireDate : Int)
  | processExpiredOffers (query : Nat)

/-- The market, the snapshots whose callbacks have not run, and the fees paid so far. -/
structure System where
  state : State
  snapshots : List (List Offer)
  fees : Nat

def System.step (s : System) : Op → System
  | .playerCreateMarketOffer guid session type itemId amount price tier now =>
    let (state, offer) := Market.playerCreateMarketOffer env s.state guid session type itemId amount price tier now
    { s with state, fees := s.fees + if offer.isSome then (env.fee (price * amount.toUInt64)).toNat else 0 }
  | .playerCancelMarketOffer guid session timestamp counter =>
    { s with state := Market.playerCancelMarketOffer env s.state guid session timestamp counter }
  | .playerAcceptMarketOffer guid session timestamp counter amount sameAccount =>
    { s with state := Market.playerAcceptMarketOffer env s.state guid session timestamp counter amount sameAccount }
  | .checkExpiredOffers lastExpireDate =>
    { s with snapshots := s.snapshots ++ [Market.checkExpiredOffers s.state lastExpireDate] }
  | .processExpiredOffers query =>
    { s with
      state := (s.snapshots.getD query []).foldl (processExpiredOffer env) s.state
      snapshots := s.snapshots.eraseIdx query }

end CrystalServer.Market
