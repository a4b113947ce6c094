import CrystalServer.Game.PlayerAddItem
import CrystalServer.Game.Stash
import CrystalServer.Items.Attributes

/-! # Selling to an NPC

`Npc::onPlayerSellItem` and `Npc::onPlayerSellAllLoot` (`creatures/npcs/npc.cpp`), with the way of the coins to the player
in `Game::addMoney` (`game/game.cpp`). Messages and the script that hears of a sale are left out. -/

namespace CrystalServer

/-- `ShopBlock`, as far as a sale reads it. -/
structure ShopBlock where
  itemId : UInt16
  itemSellPrice : UInt32

/-- What a sale reads beside what taking items away reads: what giving items reads, the currency, and the shop as the player
    sees it. The imbuements of an item are looked up from its attributes. A new item of some types has a container part,
    with nothing in it; such types do not stack. -/
structure NpcEnv (τ : Type) extends MoneyEnv where
  type : UInt16 → ItemTypes
  addToPlayerTile : World → τ → Ref → τ × ReturnValue
  newContainer : UInt16 → Option Container
  itemEnv : ItemEnv
  hasImbuements : UInt16 → Option ItemAttribute → Bool
  getCurrency : UInt16
  shopVector : List ShopBlock
  empty : ∀ id k, newContainer id = some k → k.itemlist = []
  single : ∀ id k, newContainer id = some k → (items id).stackable = false

/-- What `internalPlayerAddItem` reads. -/
def NpcEnv.toPlayerAddEnv {τ : Type} (env : NpcEnv τ) : PlayerAddEnv τ where
  toEnv := env.toEnv
  AUTOBANK := env.AUTOBANK
  type := env.type
  addToTile := env.addToPlayerTile

/-- The items in memory, the tile, the settings of the player with the containers for loot beside those for obtained items,
    the bank, and the calls of `onPlayerSellAllLoot` that are scheduled, with `ignore` and `totalPrice`. -/
structure SaleState (τ : Type) where
  world : World
  tile : τ
  looting : Looting
  lootContainers : ObjectCategory → Option Ref
  bankBalance : UInt64
  scheduled : List (Bool × UInt64)

namespace SaleState
variable {τ : Type}

/-- For what is obtained. -/
def obtaining (s : SaleState τ) : PlayerAddState τ := ⟨s.world, s.looting, s.tile⟩

/-- For loot. -/
def collecting (s : SaleState τ) : PlayerAddState τ :=
  ⟨s.world, { s.looting with m_managedContainers := s.lootContainers }, s.tile⟩

end SaleState

/-! ### The player -/

namespace Player
variable (env : Env) (w : World) (p : PlayerRef)

/-- `Player::updateInventoryWeight`. -/
def updateInventoryWeight : World :=
  let player := w.players p
  if player.HasInfiniteCapacity then w
  else
    let inventoryWeight := (((List.range' 1 11).filterMap player.inventory).map (w.getWeight env.items)).sum
    { w with players := Function.update w.players p { player with inventoryWeight := inventoryWeight } }

/-- `Player::getInventoryItemsFromId`. -/
def getInventoryItemsFromId (itemId : UInt16) (ignore : Bool) : List Ref :=
  ((List.range' 1 11).filterMap (w.players p).inventory).flatMap fun item =>
    (if !ignore ∧ (w.item item).id = itemId then [item] else []) ++
      if w.isContainer item then (Container.iterator env w item).filter fun r => (w.item r).id = itemId else []

/-- `Player::getLootPouch`. -/
def getLootPouch : Option Ref :=
  ((getInventoryItemsFromId env w p ITEM_GOLD_POUCH true).head?).filter w.isContainer

/-- The loop of `Item::getHoldingPlayer`. -/
def getHoldingPlayerLoop : Nat → Option Cylinder → Option PlayerRef
  | _, none => none
  | _, some (.player p) => some p
  | 0, some (.container _) => none
  | n + 1, some (.container c) => getHoldingPlayerLoop n (w.getParent c)

def getHoldingPlayer (item : Ref) : Option PlayerRef := getHoldingPlayerLoop w (w.next + 1) (w.getParent item)

/-- `Player::checkLootContainers`, for the containers of one kind. -/
def checkLootContainers (container : Ref) (managed : ObjectCategory → Option Ref) : ObjectCategory → Option Ref :=
  fun category => (managed category).filter fun c =>
    !(getHoldingPlayer w container ≠ some p ∧ (container = c ∨ c ∈ Container.iterator env w container))

end Player

namespace Npc
variable {τ : Type} (env : NpcEnv τ)

/-! ### What is bought -/

/-- `Item::hasMarketAttributes`. -/
def hasMarketAttributes (w : World) (item : Ref) : Bool :=
  let i := w.item item
  match i.attributePtr with
  | none => true
  | some as =>
    (as.attributeVector.all fun a =>
      !(a.type = .charges ∧ (UInt16.ofInt a.getInteger).toUInt32 ≠ (env.items i.id).charges) &&
        !(a.type = .duration ∧ UInt32.ofInt a.getInteger ≠ (env.items i.id).decayTime * 1000) &&
        !(a.type = .tier ∧ ((UInt8.ofInt a.getInteger).toNat : Int) ≠ i.getTier env.itemEnv)) &&
      !env.hasImbuements i.id i.attributePtr && !i.isStoreItem && !w.hasOwner item

/-- The checks that both passes make. -/
def isEligible (w : World) (parent : Option Ref) (item : Ref) : Bool :=
  let i := w.item item
  !(i.getTier env.itemEnv > 0 ∨ env.hasImbuements i.id i.attributePtr) && !(w.isContainer item ∧ w.itemlist item ≠ []) &&
    !(parent.isSome ∧ w.getParentContainer item ≠ parent) && hasMarketAttributes env w item

/-- The last block for the item that has a price. -/
def sellPrice (itemId : UInt16) : UInt32 :=
  env.shopVector.foldl (fun sellPrice shopBlock =>
    if (env.items itemId).id = shopBlock.itemId ∧ shopBlock.itemSellPrice ≠ 0 then shopBlock.itemSellPrice else sellPrice) 0

/-- The first pass. -/
def eligibleLoop (w : World) (parent : Option Ref) (amount : UInt16) : List Ref → UInt32 → UInt32
  | [], eligibleCount => eligibleCount
  | item :: rest, eligibleCount =>
    if !isEligible env w parent item then eligibleLoop w parent amount rest eligibleCount
    else
      let eligibleCount := eligibleCount + .ofNat (w.item item).getItemCount
      if eligibleCount ≥ amount.toUInt32 then eligibleCount else eligibleLoop w parent amount rest eligibleCount

def willRemove (w : World) (p : PlayerRef) (itemId amount : UInt16) (ignore : Bool) (parent : Option Ref) : UInt32 :=
  min amount.toUInt32 (eligibleLoop env w parent amount (Player.getInventoryItemsFromId env.toEnv w p itemId ignore) 0)

/-- The check for the coins, where they do not go to the bank. -/
def hasRoomForCoins (w : World) (p : PlayerRef) (sellPrice willRemove : UInt32) : Bool :=
  if env.getCurrency = ITEM_GOLD_COIN ∧ !env.AUTOBANK then
    let prospectiveTotal := sellPrice.toUInt64 * willRemove.toUInt64
    let crystalCoins := (prospectiveTotal / 10000).toUInt32
    let remainder := (prospectiveTotal % 10000).toUInt32
    let platinumCoins := remainder / 100
    let goldCoins := remainder % 100
    let stacksNeeded := ((crystalCoins + 99) / 100 + (platinumCoins + 99) / 100 + (goldCoins + 99) / 100).toUInt16
    if stacksNeeded > 0 ∧ Stash.getFreeBackpackSlots w p < stacksNeeded then false
    else
      let weight (id : UInt16) := (env.items id).weight.toUInt64
      let totalWeight := goldCoins.toUInt64 * weight ITEM_GOLD_COIN + platinumCoins.toUInt64 * weight ITEM_PLATINUM_COIN +
        crystalCoins.toUInt64 * weight ITEM_CRYSTAL_COIN
      !((w.players p).getFreeCapacity.toUInt64 < totalWeight)
  else true

/-! ### Taking -/

/-- What the player does about an item that was taken from him, in `Player::postRemoveNotification`. -/
def postRemoveNotification (s : SaleState τ) (p : PlayerRef) (item : Ref) : SaleState τ :=
  let w := Player.updateInventoryWeight env.toEnv s.world p
  let check (managed : ObjectCategory → Option Ref) :=
    if w.isContainer item then Player.checkLootContainers env.toEnv w p item managed else managed
  { s with world := w
           looting := { s.looting with m_managedContainers := check s.looting.m_managedContainers }
           lootContainers := check s.lootContainers }

/-- The second pass, with what is left to take. -/
def sellLoop (p : PlayerRef) (parent : Option Ref) : List Ref → SaleState τ → UInt16 → SaleState τ × UInt16
  | [], s, toRemove => (s, toRemove)
  | item :: rest, s, toRemove =>
    if !isEligible env s.world parent item then sellLoop p parent rest s toRemove
    else
      let removeCount := min toRemove (.ofNat (s.world.item item).getItemCount)
      let (w, ret) := Game.internalRemoveItem env.toMoneyEnv s.world item removeCount.toNat
      if ret ≠ .NOERROR then sellLoop p parent rest { s with world := w } toRemove
      else
        let s := postRemoveNotification env { s with world := w } p item
        let toRemove := toRemove - removeCount
        if toRemove = 0 then (s, toRemove) else sellLoop p parent rest s toRemove

/-! ### Paying -/

/-- One round of `addCoins` for a player whose coins are not for the bank. -/
def addCoins (p : PlayerRef) (s : SaleState τ) (coins : UInt16 × UInt16) : SaleState τ :=
  let remaindItem := s.world.next
  let w := s.world.new (Item.CreateItem env.items coins.1 coins.2)
  let (w, looting, ret) := Game.internalCollectManagedItems env.toPlayerAddEnv w s.collecting.looting p remaindItem
    (Game.getObjectCategory env.toPlayerAddEnv (w.item remaindItem))
  let (w, ret) :=
    if ret ≠ .NOERROR then
      let (w, ret, _) := Game.internalAddItem env.toEnv w (.player p) remaindItem INDEX_WHEREEVER 0 false
      (w, ret)
    else (w, ret)
  { s with world := Player.updateInventoryWeight env.toEnv w p
           tile := if ret ≠ .NOERROR then (env.addToPlayerTile w s.tile remaindItem).1 else s.tile
           lootContainers := looting.m_managedContainers }

/-- `Item::CreateItem`. A type with a class of its own is made by its constructor. -/
def createItem (itemId count : UInt16) : Option Item :=
  if (env.items itemId).id = 0 then none
  else
    match env.newContainer itemId with
    | some k => some { Item.make env.items itemId 0 with container := some k }
    | none => some (Item.CreateItem env.items itemId count)

/-- One item of the currency is created. -/
def addCurrency (p : PlayerRef) (s : SaleState τ) (totalCost : UInt64) : SaleState τ :=
  match createItem env env.getCurrency totalCost.toUInt16 with
  | none => s
  | some newItem =>
    let (added, _) := Game.internalPlayerAddItem env.toPlayerAddEnv { s.obtaining with world := s.world.new newItem } p
      s.world.next true CONST_SLOT_WHEREEVER
    { s with world := Player.updateInventoryWeight env.toEnv added.world p
             tile := added.tile
             looting := added.looting }

def pay (p : PlayerRef) (s : SaleState τ) (totalCost : UInt64) : SaleState τ :=
  if env.getCurrency = ITEM_GOLD_COIN then
    if env.AUTOBANK then { s with bankBalance := s.bankBalance + totalCost }
    else (Game.moneyStacks totalCost).foldl (addCoins env p) s
  else addCurrency env p s totalCost

/-! ### The sales -/

/-- `Npc::onPlayerSellItem`, with `totalPrice`. -/
def onPlayerSellItem (s : SaleState τ) (p : PlayerRef) (itemId amount : UInt16) (ignore : Bool) (totalPrice : UInt64)
    (parent : Option Ref) : SaleState τ × UInt64 :=
  if itemId = ITEM_GOLD_POUCH then ({ s with scheduled := s.scheduled ++ [(ignore, 0)] }, totalPrice)
  else
    let sellPrice := sellPrice env itemId
    if sellPrice = 0 then (s, totalPrice)
    else
      let willRemove := willRemove env s.world p itemId amount ignore parent
      if willRemove = 0 then (s, totalPrice)
      else if !hasRoomForCoins env s.world p sellPrice willRemove then (s, totalPrice)
      else
        let items := Player.getInventoryItemsFromId env.toEnv s.world p itemId ignore
        let (s, toRemove) := sellLoop env p parent items s amount
        let totalRemoved := amount - toRemove
        if totalRemoved = 0 then (s, totalPrice)
        else
          -- a 32-bit product
          let totalCost := (sellPrice * totalRemoved.toUInt32).toUInt64
          if totalCost > 0 then
            (pay env p s totalCost, if env.getCurrency = ITEM_GOLD_COIN then totalPrice + totalCost else totalPrice)
          else (s, totalPrice)

/-- What is to be sold in one batch. -/
structure Batch where
  toSell : List (UInt16 × UInt16)
  processedCount : UInt32
  hasMore : Bool

/-- `toSell[id] += amount`. -/
def Batch.add (toSell : List (UInt16 × UInt16)) (id amount : UInt16) : List (UInt16 × UInt16) :=
  if toSell.any (·.1 = id) then toSell.map fun e => if e.1 = id then (id, e.2 + amount) else e
  else toSell ++ [(id, amount)]

def batchLoop (w : World) : List Ref → Batch → Batch
  | [], b => b
  | item :: rest, b =>
    let i := w.item item
    let toSell := Batch.add b.toSell i.id (.ofNat i.getItemCount)
    let stackable := i.isStackable env.items
    let MAX_BATCH_SIZE : UInt32 := if stackable then 100 else 10
    let processedCount := b.processedCount + if stackable then 1 else .ofNat i.getItemCount
    if processedCount ≥ MAX_BATCH_SIZE then ⟨toSell, processedCount, true⟩
    else batchLoop w rest ⟨toSell, processedCount, false⟩

def batch (w : World) (container : Ref) : Batch :=
  batchLoop env w (Container.iterator env.toEnv w container) ⟨[], 0, false⟩

/-- The sales of `Npc::onPlayerSellAllLoot`, with the entries of `toSell` as the hash map gives them, and the next call. -/
def onPlayerSellAllLoot (s : SaleState τ) (p : PlayerRef) (ignore : Bool) (totalPrice : UInt64) (container : Ref)
    (toSell : List (UInt16 × UInt16)) : SaleState τ :=
  let preSize := Container.size s.world container
  let hasMore := (batch env s.world container).hasMore
  let sold := toSell.foldl (fun (sold : SaleState τ × UInt64) e =>
    onPlayerSellItem env sold.1 p e.1 e.2 ignore sold.2 (some container)) (s, totalPrice)
  let madeProgress := sold.2 > totalPrice ∨ Container.size sold.1.world container ≠ preSize
  if hasMore ∧ madeProgress then { sold.1 with scheduled := sold.1.scheduled ++ [(ignore, sold.2)] } else sold.1

/-- What happens at a shop: the player sells, or a scheduled call comes up, for a player that may have left. -/
inductive Op where
  | onPlayerSellItem (itemId amount : UInt16) (ignore : Bool)
  | onPlayerSellAllLoot (index : Nat) (stays : Bool) (toSell : List (UInt16 × UInt16))

def step (p : PlayerRef) (s : SaleState τ) : Op → SaleState τ
  | .onPlayerSellItem itemId amount ignore => (onPlayerSellItem env s p itemId amount ignore 0 none).1
  | .onPlayerSellAllLoot index stays toSell =>
    match s.scheduled[index]? with
    | none => s
    | some (ignore, totalPrice) =>
      let s := { s with scheduled := s.scheduled.eraseIdx index }
      match if stays then Player.getLootPouch env.toEnv s.world p else none with
      | none => s
      | some container =>
        if toSell.isPerm (batch env s.world container).toSell then
          onPlayerSellAllLoot env s p ignore totalPrice container toSell
        else s

end Npc
end CrystalServer
