import CrystalServer.Items.Container
import CrystalServer.Creatures.Player

/-! # Containers: the queries

`queryAdd`, `queryMaxCount`, `queryRemove` and `queryDestination` of `Container`. The top parent of an item in
a container is a container or a player, never a house tile. `RewardChest::queryAdd` and `Reward::queryAdd`
(`items/containers/rewards`) stand in for `queryAdd`; the constructors of both make them locked and with pagination. The
containers of a depot are left out. -/

namespace CrystalServer
namespace Container

variable (env : Env) (w : World) (this : Ref)

def hasPagination : Bool := w.containerField this (·.pagination) false

/-- The loop of `queryAdd` over the cylinders above. -/
def queryAddParents (item : Ref) (noLimit : Bool) : Nat → Option Cylinder → ReturnValue
  | n + 1, some (.container cylinder) =>
    if cylinder = item then .THISISIMPOSSIBLE
    else if !noLimit ∧ w.containerField cylinder (·.isInbox) false then .CONTAINERNOTENOUGHROOM
    else if w.getParent cylinder = some (.container cylinder) then .NOTPOSSIBLE
    else queryAddParents item noLimit n (w.getParent cylinder)
  | _, _ => .NOERROR

/-- The part of `queryAdd` about owners. -/
def queryAddOwner (item : Ref) : Bool :=
  w.hasOwner item
    && ((match w.getTopParent this with
        | some (.player toPlayer) => !env.isOwner (w.getOwnerId item) toPlayer
        | _ => false)
      || w.hasOwner this && w.getOwnerId this != w.getOwnerId item)

/-- The part of `queryAdd` about what the outermost container holds. -/
def queryAddHolding (item : Ref) : Bool :=
  let topParentContainer := w.getTopParentContainer this
  if w.isContainer item then
    getContainerHoldingCount env w item + 1 + getContainerHoldingCount env w topParentContainer
        > env.MAX_CONTAINER.toNat
      || getItemHoldingCount env w item + 1 + getItemHoldingCount env w topParentContainer
        > (w.containerField this (·.m_maxItems) 0).toNat
  else getItemHoldingCount env w topParentContainer + 1 > (w.containerField this (·.m_maxItems) 0).toNat

/-- `Container::queryAdd`. -/
def queryAdd (addIndex : Int) (item : Ref) (addCount flags : UInt32) : ReturnValue :=
  let it := env.items (w.item item).id
  let noLimit := hasBitSet FLAG_NOLIMIT flags
  if hasBitSet FLAG_CHILDISOWNER flags then .NOERROR
  else if !w.containerField this (·.unlocked) false then .NOTPOSSIBLE
  else if !it.pickupable then .CANNOTPICKUP
  else if item = this then .THISISIMPOSSIBLE
  else if queryAddOwner env w this item then .ITEMISNOTYOURS
  else if queryAddParents w item noLimit w.next (w.getParent this) ≠ .NOERROR then
    queryAddParents w item noLimit w.next (w.getParent this)
  else if !noLimit ∧ addIndex = INDEX_WHEREEVER ∧ size w this ≥ (capacity w this).toNat ∧ !hasPagination w this then
    .CONTAINERNOTENOUGHROOM
  else if queryAddHolding env w this item then .CONTAINERISFULL
  else if (env.items (w.item this).id).isQuiver ∧ it.weaponType ≠ .ammo then .ONLYAMMOINQUIVER
  else match w.getTopParent this with
    | some (.player topParent) =>
      Player.queryAdd env w topParent INDEX_WHEREEVER item addCount (flags ||| FLAG_CHILDISOWNER)
    -- another container has the child for its owner
    | _ => .NOERROR

/-- `Container::getItemByIndex`, for a signed index that becomes a `size_t`. -/
def getItemByIndex (index : Int) : Option Ref := if index < 0 then none else (w.itemlist this)[index.toNat]?

/-- The room on the stacks that take more of an item: the loop of `queryMaxCount`, with `slotIndex`. -/
def queryMaxCountLoop (item : Ref) (flags : UInt32) : List Ref → Nat → UInt32 → UInt32
  | [], _, n => n
  | containerItem :: rest, slotIndex, n =>
    let stackSize := (w.item containerItem).getStackSize env.items
    let count := (w.item containerItem).getItemCount
    if containerItem ≠ item ∧ w.equals containerItem item ∧ count < stackSize then
      let remainder := UInt32.ofNat (stackSize - count)
      let n := if queryAdd env w this slotIndex item remainder flags = .NOERROR then n + remainder else n
      queryMaxCountLoop item flags rest (slotIndex + 1) n
    else queryMaxCountLoop item flags rest slotIndex n

/-- `Container::queryMaxCount`, with `maxQueryCount`. The number of items is an `int32_t`. -/
def queryMaxCount (index : Int) (item : Ref) (count flags : UInt32) : ReturnValue × UInt32 :=
  if hasBitSet FLAG_NOLIMIT flags ∨ hasPagination w this then (.NOERROR, max 1 count)
  else
    let freeSlots := UInt32.ofNat ((capacity w this).toNat - size w this)
    if (w.item item).isStackable env.items then
      let n :=
        if index = INDEX_WHEREEVER then queryMaxCountLoop env w this item flags (w.itemlist this) 0 0
        else match getItemByIndex w this index with
          | some destItem =>
            let stackSize := (w.item destItem).getStackSize env.items
            let destCount := (w.item destItem).getItemCount
            if w.equals item destItem ∧ destCount < stackSize then .ofNat (stackSize - destCount) else 0
          | none => 0
      let maxQueryCount := freeSlots * .ofNat ((w.item item).getStackSize env.items) + n
      (if maxQueryCount < count then .CONTAINERNOTENOUGHROOM else .NOERROR, maxQueryCount)
    else (if freeSlots = 0 then .CONTAINERNOTENOUGHROOM else .NOERROR, freeSlots)

/-- `Container::getFreeSlots`, down to a depth. The difference is of a `uint32_t` and a `size_t`, and is cut to 16 bits
    before `std::max` sees it. -/
def getFreeSlotsLoop : Nat → Ref → UInt16
  | 0, _ => 0
  | n + 1, this =>
    let counter := max 0 ((capacity w this).toUInt64 - UInt64.ofNat (size w this)).toUInt16
    (w.itemlist this).foldl (fun counter item =>
      if w.isContainer item then counter + max 0 (getFreeSlotsLoop n item) else counter) counter

/-- `Container::getFreeSlots`. A way down passes less than `w.next + 1` containers. -/
def getFreeSlots : UInt16 := getFreeSlotsLoop w (w.next + 1) this

/-- `Container::queryRemove`. -/
def queryRemove (item : Ref) (count flags : UInt32) : ReturnValue :=
  if item ∉ w.itemlist this then .NOTPOSSIBLE
  else if count = 0 ∨ (w.item item).isStackable env.items ∧ count.toNat > (w.item item).getItemCount then .NOTPOSSIBLE
  else if !(env.items (w.item item).id).movable ∧ !hasBitSet FLAG_IGNORENOTMOVABLE flags then .NOTMOVABLE
  else .NOERROR

/-- The cylinder, the index and the item that `queryDestination` settles on. -/
structure Destination where
  cylinder : Ref
  index : Int
  destItem : Option Ref

/-- A stack that takes more of the item. -/
def takesMore (listItem item : Ref) : Bool :=
  w.equals listItem item && (w.item listItem).getItemCount < (w.item listItem).getStackSize env.items

/-- The end of `queryDestination`: a stack to add to. -/
def queryDestinationStack (index : Int) (item : Ref) (destItem : Option Ref) (flags : UInt32) : Destination :=
  let autoStack := !hasBitSet FLAG_IGNOREAUTOSTACK flags
  if autoStack ∧ (w.item item).isStackable env.items ∧ w.getParent item ≠ some (.container this) then
    if destItem.any fun destItem => takesMore env w destItem item then ⟨this, index, destItem⟩
    else
      match (w.itemlist this).findIdx? fun listItem => listItem ≠ item && takesMore env w listItem item with
      | some n => ⟨this, n, (w.itemlist this)[n]?⟩
      | none => ⟨this, index, destItem⟩
  else ⟨this, index, destItem⟩

/-- `Container::queryDestination`. -/
def queryDestination (index : Int) (item : Ref) (destItem : Option Ref) (flags : UInt32) : Destination :=
  if !w.containerField this (·.unlocked) false then ⟨this, index, none⟩
  else if index = 254 then ⟨(w.getParentContainer this).getD this, INDEX_WHEREEVER, none⟩
  else
    let wherever := index = 255 ∨ index ≥ (capacity w this).toNat ∧ !hasPagination w this
    let index := if wherever then INDEX_WHEREEVER else index
    let destItem := if wherever then none else destItem
    if index ≠ INDEX_WHEREEVER then
      let destItem := (getItemByIndex w this index).or destItem
      match destItem with
      | some subCylinder =>
        if w.isContainer subCylinder then ⟨subCylinder, INDEX_WHEREEVER, none⟩
        else queryDestinationStack env w this index item destItem flags
      | none => queryDestinationStack env w this index item destItem flags
    else queryDestinationStack env w this index item destItem flags

end Container

/-! ### Reward containers -/

/-- The class of a container object. -/
inductive ContainerClass where
  | Container
  | Reward
  | RewardChest
  deriving DecidableEq

/-- `RewardChest::queryAdd`; of the creature that moves the item it looks only whether there is one. -/
def RewardChest.queryAdd (actor : Bool) : ReturnValue := if actor then .NOTPOSSIBLE else .NOERROR

/-- `Reward::queryAdd`. -/
def Reward.queryAdd (env : Env) (w : World) (this item : Ref) (actor : Bool) : ReturnValue :=
  if actor then .NOTPOSSIBLE
  else if item = this then .THISISIMPOSSIBLE
  else if !(env.items (w.item item).id).pickupable then .CANNOTPICKUP
  else .NOERROR

namespace Virtual
variable (env : Env) (classOf : Ref → ContainerClass) (w : World)

/-- What a class answers that overrides `queryAdd`. -/
def override (this item : Ref) (actor : Bool) : Option ReturnValue :=
  match classOf this with
  | .Container => none
  | .Reward => some (Reward.queryAdd env w this item actor)
  | .RewardChest => some (RewardChest.queryAdd actor)

/-- `queryAdd` on a container of any class. -/
def queryAdd (this : Ref) (addIndex : Int) (item : Ref) (addCount flags : UInt32) (actor : Bool) : ReturnValue :=
  match override env classOf w this item actor with
  | some ret => ret
  | none =>
    let ret := Container.queryAdd env w this addIndex item addCount flags
    if ret ≠ .NOERROR ∨ hasBitSet FLAG_CHILDISOWNER flags then ret
    else match w.getTopParent this with
      -- `topParent->queryAdd`
      | some (.container topParent) => (override env classOf w topParent item actor).getD .NOERROR
      | _ => .NOERROR

end Virtual
end CrystalServer
