import CrystalServer.Items.ContainerQuery

/-! # Players: the queries, and what changes a slot

`queryMaxCount`, `queryRemove`, `queryDestination`, `addThing`, `updateThing` and `removeThing` of `Player`
(`creatures/players/player.cpp`).
What is sent to the client is left out. -/

namespace CrystalServer

/-- The cylinder, the index and the item that `queryDestination` settles on. -/
structure Place where
  cylinder : Cylinder
  index : Int
  destItem : Option Ref

namespace Player
open Container

variable (env : Env) (w : World) (this : PlayerRef)

def getThing (index : Int) : Option Ref :=
  if CONST_SLOT_FIRST ≤ index ∧ index ≤ CONST_SLOT_LAST then (w.players this).inventory index.toNat else none

/-- `getThingIndex`, where an item in no slot has none. -/
def getThingIndex (thing : Ref) : Option Nat :=
  (List.range' 1 11).find? fun i => (w.players this).inventory i = some thing

/-! ### queryMaxCount -/

/-- What the containers in a slot take: the outer one and all that its iterator meets. -/
def queryMaxCountContainers (item subContainer : Ref) (flags : UInt32) : UInt32 :=
  ((subContainer :: (iterator env w subContainer).filter w.isContainer).map fun c =>
    (Container.queryMaxCount env w c INDEX_WHEREEVER item (.ofNat (w.item item).getItemCount) flags).2).sum

/-- What one slot takes. -/
def queryMaxCountSlot (item : Ref) (flags : UInt32) (slotIndex : Nat) : UInt32 :=
  match (w.players this).inventory slotIndex with
  | some inventoryItem =>
    if w.isContainer inventoryItem then queryMaxCountContainers env w item inventoryItem flags
    else
      let stackSize := (w.item inventoryItem).getStackSize env.items
      let count := (w.item inventoryItem).getItemCount
      if (w.item inventoryItem).isStackable env.items ∧ w.equals item inventoryItem ∧ count < stackSize then
        let remainder := UInt32.ofNat (stackSize - count)
        if queryAdd env w this slotIndex item remainder flags = .NOERROR then remainder else 0
      else 0
  | none =>
    if queryAdd env w this slotIndex item (.ofNat (w.item item).getItemCount) flags = .NOERROR then
      if (w.item item).isStackable env.items then .ofNat ((w.item item).getStackSize env.items) else 1
    else 0

/-- `Player::queryMaxCount`, with `maxQueryCount`, which callers set to 0 before. -/
def queryMaxCount (index : Int) (item : Ref) (count flags : UInt32) : ReturnValue × UInt32 :=
  let answer (maxQueryCount : UInt32) : ReturnValue × UInt32 :=
    (if maxQueryCount < count then .NOTENOUGHROOM else .NOERROR, maxQueryCount)
  if index = INDEX_WHEREEVER then answer ((List.range' 1 11).map (queryMaxCountSlot env w this item flags)).sum
  else
    match getThing w this index with
    | some destItem =>
      let stackSize := (w.item destItem).getStackSize env.items
      let destCount := (w.item destItem).getItemCount
      answer (if (w.item destItem).isStackable env.items ∧ w.equals item destItem ∧ destCount < stackSize then
        .ofNat (stackSize - destCount) else 0)
    | none =>
      if queryAdd env w this index item count flags = .NOERROR then
        (.NOERROR, if (w.item item).isStackable env.items then .ofNat ((w.item item).getStackSize env.items) else 1)
      else answer 0

/-- `Player::queryRemove`. -/
def queryRemove (item : Ref) (count flags : UInt32) : ReturnValue :=
  if getThingIndex w this item = none then .NOTPOSSIBLE
  else if count = 0 ∨ (w.item item).isStackable env.items ∧ count.toNat > (w.item item).getItemCount then .NOTPOSSIBLE
  else if !(env.items (w.item item).id).movable ∧ !hasBitSet FLAG_IGNORENOTMOVABLE flags then .NOTMOVABLE
  else .NOERROR

/-! ### queryDestination -/

/-- The loop of `queryDestination` over the slots: a place, or the containers in them. -/
def queryDestinationSlots (item : Ref) (flags : UInt32) : List Nat → List Ref → Place ⊕ List Ref
  | [], containers => .inr containers
  | slotIndex :: slots, containers =>
    let count := UInt32.ofNat (w.item item).getItemCount
    let autoStack := !hasBitSet FLAG_IGNOREAUTOSTACK flags
    match (w.players this).inventory slotIndex with
    | some inventoryItem =>
      if some inventoryItem = (w.players this).tradeItem ∨ inventoryItem = item then
        queryDestinationSlots item flags slots containers
      else if autoStack ∧ (w.item item).isStackable env.items ∧ queryAdd env w this slotIndex item count 0 = .NOERROR
          ∧ takesMore env w inventoryItem item then
        .inl ⟨.player this, slotIndex, some inventoryItem⟩
      else
        queryDestinationSlots item flags slots
          (if w.isContainer inventoryItem then containers ++ [inventoryItem] else containers)
    | none =>
      if queryAdd env w this slotIndex item count flags = .NOERROR then .inl ⟨.player this, slotIndex, none⟩
      else queryDestinationSlots item flags slots containers

/-- The search for an empty place in a container, with `n` counting down. -/
def emptyPlaceLoop (tmpContainer item : Ref) (flags : UInt32) : Nat → Option Int
  | 0 => none
  | n + 1 =>
    let index := (Container.capacity w tmpContainer - .ofNat (n + 1)).toInt32.toInt
    let count := UInt32.ofNat (w.item item).getItemCount
    if Container.queryAdd env w tmpContainer index item count flags = .NOERROR then some index
    else emptyPlaceLoop tmpContainer item flags n

/-- The search for a stack in a container: the place, or the index after it and the containers on the way. -/
def stackLoop (tmpContainer item : Ref) : List Ref → Nat → List Ref → Place ⊕ Nat × List Ref
  | [], n, containers => .inr (n, containers)
  | tmpItem :: rest, n, containers =>
    if some tmpItem = (w.players this).tradeItem ∨ tmpItem = item then stackLoop tmpContainer item rest n containers
    else if takesMore env w tmpItem item then .inl ⟨.container tmpContainer, n, some tmpItem⟩
    else
      stackLoop tmpContainer item rest (n + 1)
        (if w.isContainer tmpItem then containers ++ [tmpItem] else containers)

/-- The loop of `queryDestination` over the containers. Each is met once at most. -/
def queryDestinationContainers (item : Ref) (flags : UInt32) : Nat → List Ref → Option Place
  | 0, _ => none
  | _ + 1, [] => none
  | fuel + 1, tmpContainer :: containers =>
    let count := UInt32.ofNat (w.item item).getItemCount
    let autoStack := !hasBitSet FLAG_IGNOREAUTOSTACK flags
    if !autoStack ∨ !(w.item item).isStackable env.items then
      let n := Container.capacity w tmpContainer - .ofNat (Container.size w tmpContainer)
      match emptyPlaceLoop env w tmpContainer item flags n.toNat with
      | some index => some ⟨.container tmpContainer, index, none⟩
      | none =>
        queryDestinationContainers item flags fuel (containers ++ (w.itemlist tmpContainer).filter w.isContainer)
    else
      match stackLoop env w this tmpContainer item (w.itemlist tmpContainer) 0 containers with
      | .inl place => some place
      | .inr (n, containers) =>
        if n < (Container.capacity w tmpContainer).toNat ∧ Container.queryAdd env w tmpContainer n item count flags = .NOERROR then
          some ⟨.container tmpContainer, n, none⟩
        else queryDestinationContainers item flags fuel containers

/-- `Player::queryDestination`. -/
def queryDestination (index : Int) (item : Ref) (destItem : Option Ref) (flags : UInt32) : Place :=
  if index = 0 ∨ index = INDEX_WHEREEVER then
    match queryDestinationSlots env w this item flags (List.range' 1 10) [] with
    | .inl place => place
    | .inr containers =>
      (queryDestinationContainers env w this item flags (w.next + 1) containers).getD ⟨.player this, index, none⟩
  else
    let destThing := getThing w this index
    let destItem := destThing.or destItem
    let movingAmmoToQuiver := destItem.any fun destItem =>
      (env.items (w.item destItem).id).isQuiver && (env.items (w.item item).id).isAmmo
    if index = CONST_SLOT_RIGHT ∧ !movingAmmoToQuiver then ⟨.player this, index, destItem⟩
    else match destThing with
      | some subCylinder =>
        if w.isContainer subCylinder then ⟨.container subCylinder, INDEX_WHEREEVER, none⟩
        else ⟨.player this, index, destItem⟩
      | none => ⟨.player this, index, destItem⟩

/-! ### Changes -/

/-- `Player::addThing`. -/
def addThing (w : World) (this : PlayerRef) (index : Int) (thing : Option Ref) : World :=
  match thing with
  | none => w
  | some item =>
    if index < CONST_SLOT_FIRST ∨ index > CONST_SLOT_LAST then w
    else (w.setParent item (.player this)).setInventory this index.toNat (some item)

/-- `Player::updateThing`. -/
def updateThing (w : World) (this : PlayerRef) (thing : Ref) (itemId : UInt16) (count : UInt32) : World :=
  match getThingIndex w this thing with
  | none => w
  | some _ => w.modify thing fun i => (i.setID env.items itemId).setSubType env.items count.toUInt16

/-- `Player::removeThing`. -/
def removeThing (w : World) (this : PlayerRef) (thing : Ref) (count : UInt32) : World :=
  match getThingIndex w this thing with
  | none => w
  | some index =>
    if (w.item thing).isStackable env.items ∧ count.toNat ≠ (w.item thing).getItemCount then
      w.modify thing (·.setItemCount (countLeft (w.item thing) count))
    else (w.resetParent thing).setInventory this index none

end Player
end CrystalServer
