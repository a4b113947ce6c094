import CrystalServer.Game.AddItem

/-! # Giving an item to a player

`Game::internalPlayerAddItem` with the search for a managed container (`game/game.cpp`,
`creatures/players/player.cpp`), for an item that has no parent yet. -/

namespace CrystalServer

def SLOTP_HAND : UInt16 := SLOTP_LEFT ||| SLOTP_RIGHT

/-- The values of `ItemTypes_t` that have a category. -/
inductive ItemTypes where
  | FOOD | POTION | RUNE | VALUABLE | CREATUREPRODUCT | other
  deriving DecidableEq

/-- `ObjectCategory_t`, as far as `getObjectCategory` gives it. -/
inductive ObjectCategory where
  | ARMORS | NECKLACES | BOOTS | CONTAINERS | FOOD | HELMETS | LEGS | OTHERS | POTIONS | RINGS | RUNES | SHIELDS
  | VALUABLES | AMMO | AXES | CLUBS | DISTANCEWEAPONS | SWORDS | WANDS | CREATUREPRODUCTS | FISTS | GOLD | DEFAULT
  deriving DecidableEq

/-- `QuickLootFilter_t`. -/
inductive QuickLootFilter where
  | SKIPPEDLOOT | ACCEPTEDLOOT
  deriving DecidableEq

/-- What is read beside what adding reads. The tile of the player is what it is; `addToTile` is `internalAddItem` to it,
    anywhere and with `FLAG_NOLIMIT`. -/
structure PlayerAddEnv (τ : Type) extends Env where
  AUTOBANK : Bool
  type : UInt16 → ItemTypes
  addToTile : World → τ → Ref → τ × ReturnValue

/-- How a player wants things sorted, with the containers set for obtained items. -/
structure Looting where
  isPremium : Bool
  m_managedContainers : ObjectCategory → Option Ref
  quickLootFallbackToMainContainer : Bool
  quickLootFilter : QuickLootFilter
  quickLootListItemIds : List UInt16

/-- The items in memory, the player's settings and his tile. -/
structure PlayerAddState (τ : Type) where
  world : World
  looting : Looting
  tile : τ

/-! ### Categories -/

/-- `Game::getObjectCategory` for a type. -/
def ItemType.getObjectCategory (it : ItemType) (type : ItemTypes) : ObjectCategory :=
  match it.weaponType with
  | .fist => .FISTS
  | .sword => .SWORDS
  | .club => .CLUBS
  | .axe => .AXES
  | .shield => .SHIELDS
  | .missile => .DISTANCEWEAPONS
  | .distance => .DISTANCEWEAPONS
  | .wand => .WANDS
  | .ammo => .AMMO
  | .none =>
    if it.slotPosition ≠ SLOTP_HAND then
      if it.slotPosition &&& SLOTP_HEAD ≠ 0 then .HELMETS
      else if it.slotPosition &&& SLOTP_NECKLACE ≠ 0 then .NECKLACES
      else if it.slotPosition &&& SLOTP_BACKPACK ≠ 0 then .CONTAINERS
      else if it.slotPosition &&& SLOTP_ARMOR ≠ 0 then .ARMORS
      else if it.slotPosition &&& SLOTP_LEGS ≠ 0 then .LEGS
      else if it.slotPosition &&& SLOTP_FEET ≠ 0 then .BOOTS
      else if it.slotPosition &&& SLOTP_RING ≠ 0 then .RINGS
      else .DEFAULT
    else match type with
      | .RUNE => .RUNES
      | .CREATUREPRODUCT => .CREATUREPRODUCTS
      | .FOOD => .FOOD
      | .VALUABLE => .VALUABLES
      | .POTION => .POTIONS
      | .other => .OTHERS

/-- `Player::getManagedContainer`. -/
def Looting.getManagedContainer (looting : Looting) (category : ObjectCategory) : Option Ref :=
  let category := if category ≠ .DEFAULT ∧ !looting.isPremium then .DEFAULT else category
  (looting.m_managedContainers category).or
    (if category ≠ .DEFAULT then looting.m_managedContainers .DEFAULT else none)

namespace Game

variable {τ : Type} (env : PlayerAddEnv τ)

/-- `Game::getObjectCategory`. -/
def getObjectCategory (item : Item) : ObjectCategory :=
  if item.getWorth ≠ 0 then .GOLD else (env.items item.id).getObjectCategory (env.type item.id)

/-- `getInventoryItem(CONST_SLOT_BACKPACK)`, if it is a container. -/
def mainBackpack (w : World) (p : PlayerRef) : Option Ref :=
  ((w.players p).getInventoryItem CONST_SLOT_BACKPACK).filter w.isContainer

/-- `Game::findManagedContainer`: the container, and `fallbackConsumed`. The attributes by which a container knows its
    categories are left out. -/
def findManagedContainer (w : World) (looting : Looting) (p : PlayerRef) (category : ObjectCategory) :
    Option (Ref × Bool) × Looting :=
  match looting.getManagedContainer category with
  | some lootContainer => (some (lootContainer, false), looting)
  | none =>
    match if looting.quickLootFallbackToMainContainer then mainBackpack w p else none with
    | some mainBackpack =>
      (some (mainBackpack, true),
        { looting with m_managedContainers := Function.update looting.m_managedContainers .DEFAULT (some mainBackpack) })
    | none => (none, looting)

/-! ### The containers tried -/

/-- What `findNextAvailableContainer` gives, call by call, until it gives none, and the `lastSubContainer` that it
    leaves: the containers that the iterator meets, then the last item in the last of them. -/
def availableContainers (w : World) (iterator : List Ref) (lastSubContainer : Option Ref) : List Ref × Option Ref :=
  let subContainers := iterator.filter w.isContainer
  let lastSubContainer := subContainers.getLast?.or lastSubContainer
  match lastSubContainer.bind fun c => (w.itemlist c).getLast? with
  | some cur => (subContainers ++ [cur].filter w.isContainer, none)
  | none => (subContainers, lastSubContainer)

/-- The containers that the rounds of `processLootItems` come to while no round changes anything: after those of the
    container that was found those of the main backpack, unless that was the one. -/
def lootContainers (w : World) (looting : Looting) (p : PlayerRef) (lootContainer : Ref) (fallbackConsumed : Bool) :
    List Ref :=
  let (available, lastSubContainer) := availableContainers w (Container.iterator env.toEnv w lootContainer) none
  let fallback :=
    if fallbackConsumed ∨ !looting.quickLootFallbackToMainContainer then [] else
      match mainBackpack w p with
      | some fallbackItem =>
        fallbackItem :: (availableContainers w (Container.iterator env.toEnv w fallbackItem) lastSubContainer).1
      | none => []
  lootContainer :: available ++ fallback

/-- The rounds of `processLootItems`. -/
def lootRounds (item : Ref) : List Ref → World → ReturnValue → World × ReturnValue
  | [], w, ret => (w, ret)
  | lootContainer :: rest, w, _ =>
    let (w, ret, _) := internalAddItem env.toEnv w (.container lootContainer) item INDEX_WHEREEVER 0 false
    if ret ≠ .CONTAINERNOTENOUGHROOM then (w, ret) else lootRounds item rest w ret

/-- `Game::processLootItems`. -/
def processLootItems (w : World) (looting : Looting) (p : PlayerRef) (lootContainer : Ref) (item : Ref)
    (fallbackConsumed : Bool) : World × ReturnValue :=
  lootRounds env item (lootContainers env w looting p lootContainer fallbackConsumed) w .CONTAINERNOTENOUGHROOM

/-- `internalCollectManagedItems` comes to the search: coins are for the bank, but have no parent to be taken from; and
    the filter of the player lets the item through. -/
def collects (looting : Looting) (itemId : UInt16) : Bool :=
  if env.AUTOBANK ∧ (itemId = ITEM_GOLD_COIN ∨ itemId = ITEM_PLATINUM_COIN ∨ itemId = ITEM_CRYSTAL_COIN) then false
  else if looting.quickLootListItemIds ≠ [] then
    let isInList := looting.quickLootListItemIds.contains itemId
    !(looting.quickLootFilter = .ACCEPTEDLOOT && !isInList || looting.quickLootFilter = .SKIPPEDLOOT && isInList)
  else true

/-- `Game::internalCollectManagedItems` for an item without a parent, into the containers for obtained items. -/
def internalCollectManagedItems (w : World) (looting : Looting) (p : PlayerRef) (item : Ref)
    (category : ObjectCategory) : World × Looting × ReturnValue :=
  if !collects env looting (w.item item).id then (w, looting, .NOTPOSSIBLE)
  else
    match findManagedContainer w looting p category with
    | (none, looting) => (w, looting, .NOTPOSSIBLE)
    | (some (lootContainer, fallbackConsumed), looting) =>
      let (w, ret) := processLootItems env w looting p lootContainer item fallbackConsumed
      (w, looting, ret)

/-- What is left over comes to the tile as a new item. -/
def addRemainder (s : PlayerAddState τ) (itemId : UInt16) (remainderCount : Nat) : PlayerAddState τ :=
  if remainderCount ≠ 0 then
    let w := s.world.new (Item.CreateItem env.items itemId (.ofNat remainderCount))
    { s with world := w, tile := (env.addToTile w s.tile s.world.next).1 }
  else s

/-- `Game::internalPlayerAddItem`. -/
def internalPlayerAddItem (s : PlayerAddState τ) (p : PlayerRef) (item : Ref) (dropOnMap : Bool) (slot : Int) :
    PlayerAddState τ × ReturnValue :=
  let (w, looting, ret) :=
    if slot = CONST_SLOT_WHEREEVER then
      internalCollectManagedItems env s.world s.looting p item (getObjectCategory env (s.world.item item))
    else (s.world, s.looting, .NOTPOSSIBLE)
  let (w, ret, remainderCount) :=
    if ret ≠ .NOERROR then internalAddItem env.toEnv w (.player p) item slot 0 false else (w, ret, 0)
  let s := addRemainder env { s with world := w, looting := looting } (w.item item).id remainderCount
  if ret ≠ .NOERROR ∧ dropOnMap then
    let (tile, ret) := env.addToTile s.world s.tile item
    ({ s with tile := tile }, ret)
  else (s, ret)

end Game
end CrystalServer
