import CrystalServer.Game.Money
import CrystalServer.Lib.Forest

/-! # The stash

`Player::addItemFromStash` and `Player::stowItem`, with what they call (`creatures/players/player.cpp`). What is sent to the
client is left out. Weights are whole numbers below 2^32, which `double` keeps exactly. -/

namespace CrystalServer

def ITEM_GOLD_POUCH : UInt16 := 23721

/-- What the stash reads beside what paying reads. A new item of some types has a container part, with nothing in it; such
    types do not stack. An id and the one that `Item::CreateItem` makes of it stack alike. -/
structure StashEnv extends MoneyEnv where
  STASH_MANAGE_AMOUNT : UInt32
  newContainer : UInt16 → Option Container
  isStowable : Item → Bool
  canDecay : World → Ref → Bool
  isInsideDepot : World → Ref → Bool
  limited : STASH_MANAGE_AMOUNT.toNat < 2 ^ 31
  empty : ∀ id k, newContainer id = some k → k.itemlist = []
  single : ∀ id k, newContainer id = some k → (items id).stackable = false
  alike : ∀ e ∈ Item.ItemTransformationMap,
    (items e.2).stackable = (items e.1).stackable ∧ (items e.2).stackSize = (items e.1).stackSize

/-- The items in memory, and the stash of the player. -/
structure StashState where
  world : World
  stashItems : UInt16 → Option UInt32

namespace Stash

def addItemOnStash (stashItems : UInt16 → Option UInt32) (itemId : UInt16) (amount : UInt32) : UInt16 → Option UInt32 :=
  Function.update stashItems itemId (some ((stashItems itemId).getD 0 + amount))

/-- `none` where it returns `false`. -/
def withdrawItem (stashItems : UInt16 → Option UInt32) (itemId : UInt16) (amount : UInt32) :
    Option (UInt16 → Option UInt32) :=
  match stashItems itemId with
  | none => none
  | some n =>
    if n > amount then some (Function.update stashItems itemId (some (n - amount)))
    else if n = amount then some (Function.update stashItems itemId none)
    else none

variable (env : StashEnv)

/-! ### What there is room for -/

section
variable (w : World) (p : PlayerRef)

/-- `Player::getBackpack`. -/
def getBackpack : Option Ref := ((w.players p).getInventoryItem CONST_SLOT_BACKPACK).filter w.isContainer

/-- `Player::getAllContainers`. -/
def getAllContainers : List Ref :=
  Lib.walk w.itemlist w.isContainer w.next
    (((List.range' 1 10).filterMap fun slot : Nat => (w.players p).getInventoryItem slot).filter w.isContainer)

/-- `Container::getFreeSlots`. -/
def getFreeSlots : Nat → Ref → UInt16
  | 0, _ => 0
  | n + 1, c =>
    ((w.itemlist c).filter w.isContainer).foldl (fun counter k => counter + getFreeSlots n k)
      (.ofInt ((Container.capacity w c).toNat - Container.size w c))

def getFreeBackpackSlots : UInt16 := (getBackpack w p).elim 0 (getFreeSlots w (w.next + 1))

/-- `capacity() - size()`. -/
def freeContainerSlots (c : Ref) : UInt32 := .ofInt ((Container.capacity w c).toNat - Container.size w c)

def hasFreeSlot (c : Ref) : Bool := (Container.capacity w c).toNat > Container.size w c

/-- `getStackSize() - getItemCount()`. -/
def availableSpace (x : Ref) : UInt32 :=
  .ofNat ((w.item x).getStackSize env.items) - .ofNat (w.item x).getItemCount

/-- Where the items may go. -/
structure Caches where
  containersCache : List Ref
  stackableItemsCache : List Ref

/-- The caches, for what `findManagedContainer` returns. -/
def findCaches (itemId : UInt16) : Option Ref → Caches
  | some obtainContainer =>
    let inside := Container.iterator env.toEnv w obtainContainer
    { containersCache :=
        (if hasFreeSlot w obtainContainer then [obtainContainer] else []) ++
          inside.filter fun x => w.isContainer x && hasFreeSlot w x
      stackableItemsCache := inside.filter fun x =>
        (w.item x).id = itemId && (w.item x).isStackable env.items && availableSpace env w x > 0 }
  | none => { containersCache := getAllContainers w p, stackableItemsCache := [] }

def freeStackSpace (c : Caches) : UInt32 := (c.stackableItemsCache.map (availableSpace env w)).sum

def maxBySlots (itemType : ItemType) (c : Caches) : UInt32 :=
  let freeSlots := (getFreeBackpackSlots w p).toUInt32
  if itemType.stackable then freeStackSpace env w c + freeSlots * itemType.stackSize.toUInt32 else freeSlots

def canAddItems (itemType : ItemType) (c : Caches) (finalRetrievable : UInt32) : Bool :=
  if itemType.stackable then
    freeStackSpace env w c + (c.containersCache.map fun c => freeContainerSlots w c * itemType.stackSize.toUInt32).sum
      ≥ finalRetrievable
  else (c.containersCache.map (freeContainerSlots w)).sum ≥ finalRetrievable

/-- `retrievableCount`. -/
def retrievableCount (itemType : ItemType) (itemCount : UInt32) : UInt32 :=
  min ((w.players p).getFreeCapacity / itemType.weight) itemCount

end

/-! ### Placing -/

/-- `Item::createItemBatch`. A type with a class of its own is made by its constructor. -/
def createItemBatch (itemId : UInt16) (count : Nat) : Item :=
  let it := env.items itemId
  let count := if !it.stackable ∧ it.charges > 0 then it.charges.toUInt16 else .ofNat count
  match env.newContainer itemId with
  | some k => { Item.make env.items itemId 0 with container := some k }
  | none => Item.CreateItem env.items itemId count

/-- Where the placing of one chunk stands. -/
structure Chunk where
  world : World
  availableCapacity : Int
  addedItemCount : Nat
  addValue : Nat
  itemAdded : Bool

/-- So many units have come to the containers. -/
def Chunk.add (k : Chunk) (w : World) (itemWeight : UInt32) (n : Nat) : Chunk where
  world := w
  availableCapacity := k.availableCapacity - n * itemWeight.toNat
  addedItemCount := k.addedItemCount + n
  addValue := k.addValue - n
  itemAdded := true

/-- `getParent()->updateThing`. -/
def updateStack (w : World) (stackableItem : Ref) (count : Nat) : World :=
  match w.getParent stackableItem with
  | none => w
  | some parent => parent.updateThing env.toEnv w stackableItem (w.item stackableItem).id (.ofNat count)

/-- The loop over the stacks, with those that stay in the cache. -/
def fillStacks (itemWeight : UInt32) : List Ref → Chunk → Chunk × List Ref
  | [], k => (k, [])
  | stackableItem :: rest, k =>
    if k.addValue = 0 then (k, stackableItem :: rest)
    else
      let count := (k.world.item stackableItem).getItemCount
      let stackableCount := min (availableSpace env k.world stackableItem).toNat k.addValue
      if stackableCount > 0 then
        let k := k.add (updateStack env k.world stackableItem (count + stackableCount)) itemWeight stackableCount
        let full := (k.world.item stackableItem).getItemCount ≥ (k.world.item stackableItem).getStackSize env.items
        let (k, rest) := fillStacks itemWeight rest k
        (k, if full then rest else stackableItem :: rest)
      else
        let (k, rest) := fillStacks itemWeight rest k
        (k, stackableItem :: rest)

/-- A new item comes into a container. -/
def createIn (w : World) (targetContainer : Ref) (itemId : UInt16) (count : Nat) : World :=
  Container.addThing env.items (w.new (createItemBatch env itemId count)) targetContainer 0 (some w.next)

/-- The loop over the containers from `cacheIndex` on, with those that are left. Every round makes an item or leaves a
container. -/
def fillContainers (itemId : UInt16) : Nat → List Ref → Chunk → Chunk × List Ref
  | 0, containers, k => (k, containers)
  | _ + 1, [], k => (k, [])
  | n + 1, targetContainer :: rest, k =>
    let itemType := env.items itemId
    if k.addValue = 0 then (k, targetContainer :: rest)
    else if hasFreeSlot k.world targetContainer then
      let toCreate := min k.addValue itemType.stackSize.toNat
      if k.availableCapacity < toCreate * itemType.weight.toNat then (k, targetContainer :: rest)
      else
        let k := k.add (createIn env k.world targetContainer itemId toCreate) itemType.weight toCreate
        fillContainers itemId n (if hasFreeSlot k.world targetContainer then targetContainer :: rest else rest) k
    else fillContainers itemId n rest k

/-- Where the placing stands. -/
structure Placing where
  world : World
  availableCapacity : Int
  addedItemCount : Nat
  containersCache : List Ref
  stackableItemsCache : List Ref

/-- One round of the loop over the chunks, and whether it goes on. -/
def placeChunk (itemId : UInt16) (addValue : Nat) (s : Placing) : Placing × Bool :=
  let itemType := env.items itemId
  let k : Chunk := ⟨s.world, s.availableCapacity, s.addedItemCount, addValue, false⟩
  let (k, cached) := fillStacks env itemType.weight s.stackableItemsCache k
  let (k, containers) := fillContainers env itemId (k.addValue + s.containersCache.length) s.containersCache k
  (⟨k.world, k.availableCapacity, k.addedItemCount, containers, cached⟩, k.itemAdded || k.addValue = 0)

/-- The loop for what stacks. A round takes at least one unit, for a stack size of at least one. -/
def placeStacks (itemId : UInt16) : Nat → Nat → Placing → Placing
  | 0, _, s => s
  | n + 1, remainingToRetrieve, s =>
    let itemType := env.items itemId
    if remainingToRetrieve > 0 ∧ s.availableCapacity ≥ itemType.weight.toNat then
      let addValue := min itemType.stackSize.toNat remainingToRetrieve
      let (s, goesOn) := placeChunk env itemId addValue s
      if goesOn then placeStacks itemId n (remainingToRetrieve - addValue) s else s
    else s

/-- The loop for what does not stack. -/
def placeSingles (itemId : UInt16) : Nat → Nat → Placing → Placing
  | 0, _, s => s
  | n + 1, finalRetrievable, s =>
    match s.containersCache with
    | [] => s
    | targetContainer :: rest =>
      if finalRetrievable = 0 then s
      else if hasFreeSlot s.world targetContainer then
        let w := createIn env s.world targetContainer itemId 1
        placeSingles itemId n (finalRetrievable - 1)
          { s with
            world := w
            addedItemCount := s.addedItemCount + 1
            containersCache := if hasFreeSlot w targetContainer then targetContainer :: rest else rest }
      else placeSingles itemId n finalRetrievable { s with containersCache := rest }

/-- `Player::addItemFromStash`, with what `findManagedContainer` returns. -/
def addItemFromStash (s : StashState) (p : PlayerRef) (itemId : UInt16) (itemCount : UInt32)
    (obtainContainer : Option Ref) : StashState × ReturnValue :=
  let itemType := env.items itemId
  if itemType.id = 0 then (s, .NOTPOSSIBLE)
  else
    let retrievableCount := retrievableCount s.world p itemType itemCount
    if retrievableCount = 0 then (s, .NOTENOUGHROOM)
    else
      let caches := findCaches env s.world p itemId obtainContainer
      let finalRetrievable := min (maxBySlots env s.world p itemType caches) retrievableCount
      if !canAddItems env s.world itemType caches finalRetrievable then (s, .NOTENOUGHROOM)
      else
        match withdrawItem s.stashItems itemId finalRetrievable with
        | none => (s, .NOTPOSSIBLE)
        | some stashItems =>
          let n := finalRetrievable.toNat
          let placing : Placing := ⟨s.world, (s.world.players p).getFreeCapacity.toNat, 0, caches.containersCache,
            caches.stackableItemsCache⟩
          let placed :=
            if itemType.stackable then placeStacks env itemId n n placing
            else placeSingles env itemId (n + caches.containersCache.length) n placing
          (⟨placed.world, stashItems⟩, if placed.addedItemCount > 0 then .NOERROR else .NOTENOUGHROOM)

/-! ### Stowing -/

section
variable (w : World)

/-- `Item::isItemStorable`. -/
def isItemStorable (x : Ref) : Bool :=
  if (w.item x).isStoreItem || w.hasOwner x || env.canDecay w x then false
  else env.isStowable (w.item x) || w.isContainer x && w.itemlist x ≠ []

/-- `Container::getStowableItems`. -/
def getStowableItems : Nat → Ref → List (Ref × UInt32)
  | 0, _ => []
  | n + 1, c =>
    (w.itemlist c).flatMap fun x =>
      if w.isContainer x then getStowableItems n x
      else if isItemStorable env w x then [(x, .ofNat (w.item x).getItemCount)]
      else []

/-- The list of what is stowed, and how much it comes to. -/
structure Stowing where
  itemDict : List (Ref × UInt32)
  totalItemsToStow : UInt32

/-- An item is put on the list, up to the limit. -/
def Stowing.add (s : Stowing) (x : Ref) (count : UInt32) : Stowing :=
  let stowableToAdd := min count (env.STASH_MANAGE_AMOUNT - s.totalItemsToStow)
  ⟨s.itemDict ++ [(x, stowableToAdd)], s.totalItemsToStow + stowableToAdd⟩

/-- The loop over the stowable items, for one id or for all. -/
def Stowing.addAll (id : Option UInt16) : List (Ref × UInt32) → Stowing → Stowing
  | [], s => s
  | (x, count) :: rest, s =>
    if s.totalItemsToStow ≥ env.STASH_MANAGE_AMOUNT then s
    else if id.any (· ≠ (w.item x).id) then addAll id rest s
    else addAll id rest (s.add env x count)

def sendStowItems (item stowItem : Ref) (s : Stowing) : Stowing :=
  let s := if (w.item stowItem).id = (w.item item).id then s.add env stowItem (.ofNat (w.item stowItem).getItemCount) else s
  if w.isContainer stowItem then s.addAll env w (some (w.item item).id) (getStowableItems env w (w.next + 1) stowItem) else s

/-- The list that `stowItem` makes, for the items of the depot locker. -/
def stowSelection (p : PlayerRef) (item : Ref) (count : UInt32) (allItems : Bool) (lockerItems : List Ref) :
    List (Ref × UInt32) :=
  let s : Stowing := ⟨[], 0⟩
  if allItems then
    if env.isInsideDepot w item then (lockerItems.foldl (fun s x => sendStowItems env w item x s) s).itemDict
    else
      let s := (getBackpack w p).elim s fun backpack => sendStowItems env w item backpack s
      let lootPouch := ((w.getParent item).bind Cylinder.getItem).filter fun c => (w.item c).id = ITEM_GOLD_POUCH
      (lootPouch.elim s fun lootPouch => sendStowItems env w item lootPouch s).itemDict
  else if w.isContainer item then (s.addAll env w none (getStowableItems env w (w.next + 1) item)).itemDict
  else (s.add env item count).itemDict

end

/-- One round of `Player::stashContainer`. -/
def stashEntry (s : StashState) (e : Ref × UInt32) : StashState :=
  let iteratorCID := (s.world.item e.1).id
  let (w, ret) := Game.internalRemoveItem env.toMoneyEnv s.world e.1 e.2.toInt32.toInt
  ⟨w, if ret = .NOERROR then addItemOnStash s.stashItems iteratorCID e.2 else s.stashItems⟩

/-- `Player::stashContainer`. -/
def stashContainer (s : StashState) (itemDict : List (Ref × UInt32)) : StashState := itemDict.foldl (stashEntry env) s

/-- `Player::stowItem`. -/
def stowItem (s : StashState) (p : PlayerRef) (item : Ref) (count : UInt32) (allItems : Bool) (lockerItems : List Ref) :
    StashState :=
  if !isItemStorable env s.world item ∧ (s.world.item item).id ≠ ITEM_GOLD_POUCH then s
  else if allItems ∧ s.world.isContainer item then s
  else stashContainer env s (stowSelection env s.world p item count allItems lockerItems)

end Stash
end CrystalServer

/-! ## Taking so many of an item

`Player::hasItemCountById` and `Player::removeItemCountById` (`creatures/players/player.cpp`). Notifications are left
out. -/

namespace CrystalServer

/-- `Player::getAllInventoryItems`, with what is equipped and what has a tier. -/
def Player.getAllInventoryItems (env : Env) (w : World) (p : PlayerRef) : List Ref :=
  ((List.range' 1 11).filterMap (w.players p).inventory).flatMap fun item =>
    item :: if w.isContainer item then Container.iterator env w item else []

namespace Stash
variable (env : StashEnv)

/-- `Player::hasItemCountById`. -/
def hasItemCountById (s : StashState) (p : PlayerRef) (itemId : UInt16) (itemAmount : UInt32) (checkStash : Bool) : Bool :=
  let items := (Player.getAllInventoryItems env.toEnv s.world p).filter fun item => (s.world.item item).id = itemId
  let newCount := (items.map fun item => UInt32.ofNat (s.world.item item).getItemCount).sum
  let newCount := if checkStash then newCount + (s.stashItems itemId).getD 0 else newCount
  newCount ≥ itemAmount

/-- The loop over the items, with `amountToRemove`; `none` where it returns `true`. -/
def removeLoop (itemId : UInt16) : List Ref → World → UInt32 → World × Option UInt32
  | [], w, amountToRemove => (w, some amountToRemove)
  | item :: rest, w, amountToRemove =>
    if (w.item item).id ≠ itemId then removeLoop itemId rest w amountToRemove
    else if UInt32.ofNat (w.item item).getItemCount ≥ amountToRemove then
      ((Game.internalRemoveItem env.toMoneyEnv w item amountToRemove.toInt32.toInt).1, none)
    else
      let w := (Game.internalRemoveItem env.toMoneyEnv w item (-1)).1
      removeLoop itemId rest w (amountToRemove - .ofNat (w.item item).getItemCount)

/-- `Player::removeItemCountById`. -/
def removeItemCountById (s : StashState) (p : PlayerRef) (itemId : UInt16) (itemAmount : UInt32) (removeFromStash : Bool) :
    StashState × Bool :=
  if !hasItemCountById env s p itemId itemAmount removeFromStash then (s, false)
  else
    match removeLoop env itemId (Player.getAllInventoryItems env.toEnv s.world p) s.world itemAmount with
    | (w, none) => ({ s with world := w }, true)
    | (w, some amountToRemove) =>
      if removeFromStash ∧ amountToRemove > 0 then
        match withdrawItem s.stashItems itemId amountToRemove with
        | some stashItems => (⟨w, stashItems⟩, true)
        | none => ({ s with world := w }, false)
      else ({ s with world := w }, false)

end Stash
end CrystalServer
