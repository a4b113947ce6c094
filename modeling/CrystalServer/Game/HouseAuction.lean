import CrystalServer.Lib.SumBy

/-! # House auctions

Bids, transfers and what becomes of them (`Game::playerCyclopediaHouseBid` to `Game::processBankAuction` and
`IOMapSerialize::loadHouseInfo`). A balance is one number, in memory or in the database; amounts stay below 2^63. The
messages to the clients and the items in the houses are left out. -/

namespace CrystalServer.HouseAuction

abbrev Guid := Nat
abbrev HouseId := Nat

/-- A `std::string`. -/
abbrev Name := List Char

def asLowerCaseString (s : Name) : Name := s.map Char.toLower

structure Player where
  guid : Guid
  name : Name
  accountId : Nat
  isPremium : Bool := true
  /-- The vocation is `VOCATION_NONE`. -/
  rookgaard : Bool := false
  /-- `getAccount()->getHouseBidId()`. -/
  houseBidId : Nat := 0
  deriving DecidableEq

inductive CyclopediaHouseState where
  | Available
  | Rented
  | Transfer
  | MoveOut
  deriving DecidableEq

structure House where
  rent : Nat
  owner : Guid := 0
  ownerAccountId : Nat := 0
  bidder : Guid := 0
  bidderName : Name := []
  highestBid : Nat := 0
  internalBid : Nat := 0
  bidHolderLimit : Nat := 0
  bidEndDate : Nat := 0
  state : CyclopediaHouseState := .Available
  transferStatus : Bool := false

/-- The players, with names that differ in more than the case of letters, the houses, and `MAX_HOUSES_LIMIT`. -/
structure Realm where
  players : List Player
  houses : List HouseId
  maxHousesLimit : Nat
  guids : (players.map Player.guid).Nodup
  names : (players.map fun p => asLowerCaseString p.name).Nodup
  named : ∀ p ∈ players, p.guid ≠ 0 ∧ p.name ≠ []
  nodup : houses.Nodup

structure State where
  balance : Guid → Nat
  house : HouseId → House

variable (env : Realm) (s : State)

/-- `getPlayerByID` and `getPlayerByGUID`. -/
def getPlayerByGUID (guid : Guid) : Option Player := env.players.find? fun p => p.guid = guid

/-- `getPlayerByName`, or `getGuidByName` for a player who is offline. -/
def getPlayerByName (name : Name) : Option Player :=
  if name = [] then none else env.players.find? fun p => asLowerCaseString p.name = asLowerCaseString name

def getHouseCountByAccount (accountId : Nat) : Nat :=
  (env.houses.filter fun h => (s.house h).ownerAccountId = accountId).length

def getHighestBidCountByPlayerName (playerName : Name) : Nat :=
  (env.houses.filter fun h => (s.house h).bidderName = playerName).length

def State.setBankBalance (guid : Guid) (balance : Nat) : State :=
  { s with balance := Function.update s.balance guid balance }

def State.setHouse (houseId : HouseId) (house : House) : State :=
  { s with house := Function.update s.house houseId house }

/-- What is given back to the player of this name, if there is one. -/
def refund (name : Name) (amount : Nat) : State :=
  match getPlayerByName env name with
  | none => s
  | some p => s.setBankBalance p.guid (s.balance p.guid + amount)

/-- What is given back to the player of this guid, online or through `increaseBankBalance`. -/
def credit (guid : Guid) (amount : Nat) : State :=
  match getPlayerByGUID env guid with
  | none => s
  | some p => s.setBankBalance p.guid (s.balance p.guid + amount)

/-- `Game::processBankAuction`; none is a refusal. -/
def processBankAuction (player : Player) (house : House) (bid : Nat) (replace : Bool) : Option State :=
  if bid = 0 then none
  else
    let balance := s.balance player.guid
    if !replace ∧ balance < house.rent + bid then none
    else if balance < bid then none
    else
      let s :=
        if replace then s.setBankBalance player.guid (balance + house.internalBid - bid)
        else s.setBankBalance player.guid (balance - (house.rent + bid))
      if house.bidderName ≠ player.name then some (refund env s house.bidderName (house.bidHolderLimit + house.rent))
      else some s

/-- Houses that he owns or bids on do not keep the player from this bid. -/
def mayBid (player : Player) : Bool :=
  getHouseCountByAccount env s player.accountId < env.maxHousesLimit &&
    getHighestBidCountByPlayerName env s player.name < 1

/-- `Game::playerCyclopediaHouseBid`, where what `canBidHouse` answers is only reported. The end of an auction that the
    bid opens is given. -/
def playerCyclopediaHouseBid (playerId : Guid) (houseId : HouseId) (bidValue : Nat) (bidEndDate : Nat) : State :=
  match getPlayerByGUID env playerId with
  | none => s
  | some player =>
    if houseId ∉ env.houses then s
    else if !mayBid env s player then s
    else
      let house := s.house houseId
      if house.bidderName = [] then
        match processBankAuction env s player house bidValue false with
        | none => s
        | some s =>
          s.setHouse houseId { house with
            highestBid := 0, internalBid := bidValue, bidHolderLimit := bidValue
            bidderName := player.name, bidder := player.guid, bidEndDate := bidEndDate }
      else if house.bidderName = player.name then
        match processBankAuction env s player house bidValue true with
        | none => s
        | some s => s.setHouse houseId { house with internalBid := bidValue, bidHolderLimit := bidValue }
      else if bidValue ≤ house.internalBid then s.setHouse houseId { house with highestBid := bidValue }
      else
        match processBankAuction env s player house bidValue false with
        | none => s
        | some s =>
          s.setHouse houseId { house with
            highestBid := house.internalBid + 1, internalBid := bidValue, bidHolderLimit := bidValue
            bidderName := player.name, bidder := player.guid }

/-- `Player::canTransferHouse` finds no error. -/
def canTransferHouse (owner newOwner : Player) (house : House) : Bool :=
  owner.guid = house.owner && owner.guid ≠ newOwner.guid && !newOwner.rookgaard && newOwner.isPremium &&
    newOwner.houseBidId = 0

/-- The checks of a transfer. -/
def mayTransfer (owner newOwner : Player) (house : House) : Bool :=
  house.state = .Rented && getHouseCountByAccount env s newOwner.accountId < env.maxHousesLimit &&
    canTransferHouse owner newOwner house

def playerCyclopediaHouseTransfer (playerId : Guid) (houseId : HouseId) (timestamp : Nat) (newOwnerName : Name)
    (bidValue : Nat) : State :=
  match getPlayerByGUID env playerId, getPlayerByName env newOwnerName with
  | some owner, some newOwner =>
    let house := s.house houseId
    if houseId ∉ env.houses then s
    else if !mayTransfer env s owner newOwner house then s
    else
      s.setHouse houseId { house with
        bidderName := newOwnerName, bidder := newOwner.guid, internalBid := bidValue, bidEndDate := timestamp
        state := .Transfer }
  | _, _ => s

/-- What a transfer that ends leaves of its house, and the new owner's money back if he has paid. -/
def endTransfer (houseId : HouseId) : State :=
  let house := s.house houseId
  let s := if house.transferStatus then credit env s house.bidder (house.internalBid + house.rent) else s
  s.setHouse houseId { house with
    bidderName := [], bidder := 0, internalBid := 0, bidEndDate := 0, state := .Rented, transferStatus := false }

def playerCyclopediaHouseCancelTransfer (playerId : Guid) (houseId : HouseId) : State :=
  match getPlayerByGUID env playerId with
  | none => s
  | some player =>
    if houseId ∉ env.houses ∨ (s.house houseId).state ≠ .Transfer then s
    else if (s.house houseId).owner ≠ player.guid then s
    else endTransfer env s houseId

/-- `Player::canAcceptTransferHouse` finds no error. -/
def canAcceptTransferHouse (player : Player) (house : House) : Bool :=
  player.guid = house.bidder && player.isPremium && player.houseBidId = 0 && !player.rookgaard &&
    house.rent + house.internalBid ≤ s.balance player.guid && !house.transferStatus

def playerCyclopediaHouseAcceptTransfer (playerId : Guid) (houseId : HouseId) : State :=
  match getPlayerByGUID env playerId with
  | none => s
  | some player =>
    let house := s.house houseId
    if houseId ∉ env.houses ∨ house.state ≠ .Transfer then s
    else if !canAcceptTransferHouse s player house then s
    else
      match processBankAuction env s player house house.internalBid false with
      | none => s
      | some s => s.setHouse houseId { house with transferStatus := true }

def playerCyclopediaHouseRejectTransfer (playerId : Guid) (houseId : HouseId) : State :=
  match getPlayerByGUID env playerId with
  | none => s
  | some player =>
    if houseId ∉ env.houses ∨ (s.house houseId).bidder ≠ player.guid ∨ (s.house houseId).state ≠ .Transfer then s
    else endTransfer env s houseId

inductive Op where
  | bid (playerId : Guid) (houseId : HouseId) (bidValue bidEndDate : Nat)
  | transfer (playerId : Guid) (houseId : HouseId) (timestamp : Nat) (newOwnerName : Name) (bidValue : Nat)
  | cancelTransfer (playerId : Guid) (houseId : HouseId)
  | acceptTransfer (playerId : Guid) (houseId : HouseId)
  | rejectTransfer (playerId : Guid) (houseId : HouseId)

def step : Op → State
  | .bid playerId houseId bidValue bidEndDate => playerCyclopediaHouseBid env s playerId houseId bidValue bidEndDate
  | .transfer playerId houseId timestamp newOwnerName bidValue =>
    playerCyclopediaHouseTransfer env s playerId houseId timestamp newOwnerName bidValue
  | .cancelTransfer playerId houseId => playerCyclopediaHouseCancelTransfer env s playerId houseId
  | .acceptTransfer playerId houseId => playerCyclopediaHouseAcceptTransfer env s playerId houseId
  | .rejectTransfer playerId houseId => playerCyclopediaHouseRejectTransfer env s playerId houseId

/-! ### The restart -/

/-- `House::setOwner` on a house that was just made. -/
def setOwner (house : House) (guid : Guid) : House :=
  match getPlayerByGUID env guid with
  | none => house
  | some p => { house with owner := guid, ownerAccountId := p.accountId, state := .Rented }

/-- `IOMapSerialize::loadHouseInfo` for one row, which holds the house as it was saved; the bids are read as 32-bit
    numbers. `newOwner` is a pending change of the owner, if not negative. -/
def loadHouseInfo (isTransferOnRestart : Bool) (newOwner : Int) (timeNow : Nat) (houseId : HouseId) : State :=
  let row := s.house houseId
  let highestBid := row.highestBid % 2 ^ 32
  let internalBid := row.internalBid % 2 ^ 32
  let made : House := { rent := row.rent }
  let loaded : House := { row with highestBid := highestBid, internalBid := internalBid, bidHolderLimit := internalBid }
  if isTransferOnRestart ∧ 0 ≤ newOwner then
    let house := setOwner env made newOwner.toNat
    s.setHouse houseId { loaded with owner := house.owner, ownerAccountId := house.ownerAccountId, state := house.state }
  else if row.state = .Available ∧ row.bidEndDate < timeNow ∧ 0 < row.bidder then
    let s := if highestBid < internalBid then credit env s row.bidder (internalBid - highestBid) else s
    s.setHouse houseId { setOwner env made row.bidder with transferStatus := row.transferStatus }
  else if row.state = .Transfer ∧ row.bidEndDate < timeNow ∧ 0 < row.bidder then
    if row.transferStatus then
      (credit env s row.owner internalBid).setHouse houseId
        { setOwner env made row.bidder with highestBid := highestBid }
    else s.setHouse houseId { setOwner env made row.owner with highestBid := highestBid }
  else if row.state = .MoveOut ∧ row.bidEndDate < timeNow then
    s.setHouse houseId { loaded with owner := 0, ownerAccountId := 0, bidEndDate := 0, state := .Available }
  else
    let house := setOwner env made row.owner
    s.setHouse houseId { loaded with owner := house.owner, ownerAccountId := house.ownerAccountId }

end CrystalServer.HouseAuction
