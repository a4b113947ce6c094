import Mathlib.Data.UInt

/-! # Items, and items in memory

`ItemType` (`items/items.hpp`), the attributes of an item (`items/functions/item/attribute.cpp`) and what
`Item` does without looking at other items (`items/item.cpp`). Of a subclass of `Item` only the container
part is kept. Items refer to each other by pointers: a world holds the item that each pointer leads to, and for the
players what their slots hold. -/

namespace CrystalServer

/-- A pointer to an item. -/
abbrev Ref := Nat

/-- A pointer to a player. -/
abbrev PlayerRef := Nat

def ITEM_GOLD_COIN : UInt16 := 3031
def ITEM_PLATINUM_COIN : UInt16 := 3035
def ITEM_CRYSTAL_COIN : UInt16 := 3043
def ITEM_REWARD_CONTAINER : UInt16 := 19202

/-! ### Item types -/

/-- `ItemGroup_t`. -/
inductive ItemGroup where
  | none
  | ground
  | container
  | splash
  | fluid
  deriving DecidableEq

/-- `WeaponType_t`. -/
inductive WeaponType where
  | none
  | sword
  | club
  | axe
  | shield
  | distance
  | wand
  | ammo
  | missile
  | fist
  deriving DecidableEq

/-- `ItemType`. The types of the data files that stack are plain ones: no containers, fluids or splashes. -/
structure ItemType where
  id : UInt16
  group : ItemGroup
  stackable : Bool
  stackSize : UInt8
  weight : UInt32
  charges : UInt32
  decayTime : UInt32
  decayTo : Int
  stopTime : Bool
  pickupable : Bool
  movable : Bool
  isCorpse : Bool
  isQuiver : Bool
  isAmmo : Bool
  weaponType : WeaponType
  slotPosition : UInt16
  plain : stackable = true → group = .none

/-- A type of no group may stack or not. -/
theorem ItemType.plain_none (stackable : Bool) : stackable = true → ItemGroup.none = .none := fun _ => rfl

/-! ### Attributes -/

/-- `ItemAttribute_t`. -/
inductive AttributeType where
  | actionid | uniqueid | description | text | date | writer | name | article | pluralname | weight | attack
  | defense | extradefense | armor | hitchance | shootrange | owner | duration | decaystate | corpseowner
  | charges | fluidtype | doorid | special | imbuement_slot | opencontainer | quicklootcontainer
  | duration_timestamp | amount | tier | store | custom | lootmessage_suffix | store_inbox_category
  | obtaincontainer | augments
  deriving DecidableEq

namespace AttributeType

/-- `ItemAttributeHelper::isAttributeInteger`. -/
def isAttributeInteger : AttributeType → Bool
  | store | actionid | uniqueid | date | weight | attack | defense | extradefense | armor | hitchance | shootrange
  | owner | duration | decaystate | corpseowner | charges | fluidtype | doorid | imbuement_slot | opencontainer
  | quicklootcontainer | obtaincontainer | duration_timestamp | tier | amount => true
  | _ => false

/-- `ItemAttributeHelper::isAttributeString`. -/
def isAttributeString : AttributeType → Bool
  | description | text | writer | name | article | pluralname | special | lootmessage_suffix
  | store_inbox_category => true
  | _ => false

end AttributeType

/-- The variant in `Attributes`; a string is its bytes. -/
inductive AttributeValue where
  | integer (n : Int)
  | string (s : List UInt8)
  deriving DecidableEq

/-- `Attributes`. -/
structure Attribute where
  type : AttributeType
  value : AttributeValue
  deriving DecidableEq

namespace Attribute

def getInteger (a : Attribute) : Int :=
  match a.value with
  | .integer n => n
  | .string _ => 0

def getString (a : Attribute) : List UInt8 :=
  match a.value with
  | .integer _ => []
  | .string s => s

end Attribute

/-- The variant in `CustomAttribute`; a double is its bit pattern. -/
inductive CustomAttribute where
  | integer (n : Int64)
  | string (s : List UInt8)
  | double (bits : UInt64)
  | boolean (b : Bool)
  deriving DecidableEq

/-- `ItemAttribute`. -/
structure ItemAttribute where
  customAttributeMap : List (List UInt8 × CustomAttribute)
  attributeVector : List Attribute
  deriving DecidableEq

namespace ItemAttribute

def empty : ItemAttribute := ⟨[], []⟩

/-- `ItemAttribute::setAttribute` for an integer. -/
def setAttribute (as : ItemAttribute) (type : AttributeType) (value : Int) : ItemAttribute :=
  if !type.isAttributeInteger then as
  else if as.attributeVector.any (·.type = type) then
    { as with attributeVector := as.attributeVector.map fun a =>
        if a.type = type then { a with value := .integer value } else a }
  else { as with attributeVector := as.attributeVector ++ [⟨type, .integer value⟩] }

/-- `ItemAttribute::removeAttribute`: the last attribute takes the place of the removed one. -/
def removeAttribute (as : ItemAttribute) (type : AttributeType) : ItemAttribute :=
  match as.attributeVector.findIdx? (·.type = type), as.attributeVector.getLast? with
  | some i, some last => { as with attributeVector := (as.attributeVector.set i last).dropLast }
  | _, _ => as

end ItemAttribute

/-! ### Items -/

/-- What holds an item. -/
inductive Cylinder where
  | container (c : Ref)
  | player (p : PlayerRef)
  deriving DecidableEq

/-- `Thing::getContainer`. -/
def Cylinder.getContainer : Cylinder → Option Ref
  | .container c => some c
  | .player _ => none

/-- The part of `Container` beside `Item`. Every constructor takes a 16-bit size. -/
structure Container where
  m_maxItems : UInt32
  maxSize : UInt16
  totalWeight : UInt32
  itemlist : List Ref
  unlocked : Bool
  pagination : Bool
  isInbox : Bool

/-- `Item`: an object that is a container has the container part. -/
structure Item where
  id : UInt16
  count : UInt8
  attributePtr : Option ItemAttribute
  m_parent : Option Cylinder
  container : Option Container

namespace Item

/-- `Container::getItemList`; an item that is no container lists nothing. -/
def getItemList (item : Item) : List Ref := (item.container.map (·.itemlist)).getD []

def getTotalWeight (item : Item) : UInt32 := (item.container.map (·.totalWeight)).getD 0

def getAttributeVector (item : Item) : List Attribute := (item.attributePtr.map (·.attributeVector)).getD []

def hasAttribute (item : Item) (type : AttributeType) : Bool := item.getAttributeVector.any (·.type = type)

/-- `ItemProperties::getInteger`. -/
def getInteger (item : Item) (type : AttributeType) : Int :=
  if type.isAttributeInteger then ((item.getAttributeVector.find? (·.type = type)).map (·.getInteger)).getD 0 else 0

def setAttribute (item : Item) (type : AttributeType) (value : Int) : Item :=
  { item with attributePtr := some ((item.attributePtr.getD .empty).setAttribute type value) }

def removeAttribute (item : Item) (type : AttributeType) : Item :=
  { item with attributePtr := item.attributePtr.map (·.removeAttribute type) }

def isStoreItem (item : Item) : Bool := item.getInteger .store > 0

/-- `Item::getOwnerId`, which a container overrides. -/
def getOwnerId (item : Item) : UInt32 := .ofInt (item.getInteger .owner)

/-- `ItemDecayState_t`. -/
def DECAYING_FALSE : UInt8 := 0
def DECAYING_TRUE : UInt8 := 1
def DECAYING_PENDING : UInt8 := 2
def DECAYING_STOPPING : UInt8 := 3

/-- `ItemProperties::setDecaying`. -/
def setDecaying (item : Item) (decayState : UInt8) : Item :=
  let item := item.setAttribute .decaystate decayState.toNat
  if decayState = DECAYING_FALSE then item.removeAttribute .duration_timestamp else item

/-- `ItemProperties::setDuration`. -/
def setDuration (item : Item) (time : Int) : Item := item.setAttribute .duration (max 0 time)

def isRewardCorpse (item : Item) : Bool := UInt32.ofInt (item.getInteger .corpseowner) == 2147483647

variable (items : UInt16 → ItemType)

def isStackable (item : Item) : Bool := (items item.id).stackable

def getStackSize (item : Item) : Nat := if item.isStackable items then (items item.id).stackSize.toNat else 1

/-- `Item::getItemCount`. -/
def getItemCount (item : Item) : Nat := item.count.toNat

/-- `Item::setItemCount`, with the cast of its argument. -/
def setItemCount (item : Item) (n : Nat) : Item := { item with count := .ofNat n }

/-- `Item::setSubType`; the argument is a `uint16_t`. -/
def setSubType (item : Item) (n : UInt16) : Item :=
  let it := items item.id
  if it.group = .fluid ∨ it.group = .splash then item.setAttribute .fluidtype n.toNat
  else if it.stackable then item.setItemCount n.toNat
  else if it.charges ≠ 0 then item.setAttribute .charges n.toNat
  else item.setItemCount n.toNat

/-- `Item::setID`. -/
def setID (item : Item) (newid : UInt16) : Item :=
  let prevIt := items item.id
  let item := { item with id := newid }
  let it := items newid
  let newDuration := it.decayTime * 1000
  let item :=
    if newDuration = 0 ∧ !it.stopTime ∧ it.decayTo < 0 then
      let item := if item.hasAttribute .decaystate then item.setDecaying DECAYING_STOPPING else item
      item.removeAttribute .duration
    else item
  let item := if !item.isRewardCorpse then item.removeAttribute .corpseowner else item
  if newDuration > 0 ∧ (!prevIt.stopTime ∨ !item.hasAttribute .duration) then
    (item.setDecaying DECAYING_PENDING).setDuration newDuration.toInt32.toInt
  else item

/-- `Item::getBaseWeight`. -/
def getBaseWeight (item : Item) : UInt32 :=
  if item.hasAttribute .weight then .ofInt (item.getInteger .weight) else (items item.id).weight

/-- `Item::getWeight`. -/
def getWeight (item : Item) : UInt32 :=
  let baseWeight := item.getBaseWeight items
  if item.isStackable items then baseWeight * max 1 (.ofNat item.getItemCount) else baseWeight

/-- `Item::getWorth`. -/
def getWorth (item : Item) : UInt32 :=
  if item.id = ITEM_GOLD_COIN then .ofNat item.getItemCount
  else if item.id = ITEM_PLATINUM_COIN then .ofNat (item.getItemCount * 100)
  else if item.id = ITEM_CRYSTAL_COIN then .ofNat (item.getItemCount * 10000)
  else 0

/-! ### Making items -/

/-- `ItemTransformationMap` of `Item::CreateItem`. -/
def ItemTransformationMap : List (UInt16 × UInt16) :=
  [(3094, 3091), (3096, 3093), (3099, 3097), (3100, 3098), (3086, 3049), (3090, 3053), (3549, 6529), (6300, 6299),
    (16264, 16114), (25757, 35901)]

/-- The constructor of `Item`. -/
def make (itemId itemCount : UInt16) : Item :=
  let it := items itemId
  let item : Item := ⟨itemId, 1, none, none, none⟩
  let item :=
    if it.group = .fluid ∨ it.group = .splash then item.setAttribute .fluidtype (max 1 (min 18 itemCount.toNat))
    else if it.stackable then
      if itemCount ≠ 0 then item.setItemCount itemCount.toNat
      else if it.charges ≠ 0 then item.setItemCount it.charges.toNat
      else item
    else if it.charges ≠ 0 then
      item.setAttribute .charges (if itemCount ≠ 0 then itemCount.toNat else it.charges.toUInt16.toNat)
    else item
  let duration := it.decayTime * 1000
  if duration ≠ 0 then item.setDuration duration.toInt32.toInt else item

/-- `Item::CreateItem` for a type that has no class of its own. -/
def CreateItem (type count : UInt16) : Item :=
  let it := items type
  let count := if it.stackable ∧ count = 0 then 1 else count
  make items ((ItemTransformationMap.lookup type).getD type) count

/-- `Item::clone`. -/
def clone (item : Item) : Item :=
  let new := CreateItem items item.id item.count.toUInt16
  match item.attributePtr with
  | some as => { new with attributePtr := some as }
  | none => new

end Item

/-! ### Items in memory -/

/-- What the cylinder functions read of a `Player`. -/
structure Player where
  inventory : Nat → Option Ref
  tradeItem : Option Ref
  CannotPickupItem : Bool
  HasInfiniteCapacity : Bool
  capacity : UInt32
  inventoryWeight : UInt32
  onTile : Bool

/-- No item was made at a reference from `next` on. -/
structure World where
  item : Ref → Item
  next : Ref
  players : PlayerRef → Player

namespace World

def modify (w : World) (r : Ref) (f : Item → Item) : World :=
  { w with item := Function.update w.item r (f (w.item r)) }

/-- Puts a new item in memory, at `w.next`. -/
def new (w : World) (item : Item) : World :=
  { w with item := Function.update w.item w.next item
           next := w.next + 1 }

def setParent (w : World) (r : Ref) (c : Cylinder) : World := w.modify r fun i => { i with m_parent := some c }

def resetParent (w : World) (r : Ref) : World := w.modify r fun i => { i with m_parent := none }

def setInventory (w : World) (p : PlayerRef) (slot : Nat) (item : Option Ref) : World :=
  { w with players := Function.update w.players p
             { w.players p with inventory := Function.update (w.players p).inventory slot item } }

/-! ### Containers -/

def getParent (w : World) (r : Ref) : Option Cylinder := (w.item r).m_parent

/-- `Container::getParentContainer`. -/
def getParentContainer (w : World) (r : Ref) : Option Ref := (w.getParent r).bind (·.getContainer)

def isContainer (w : World) (r : Ref) : Bool := (w.item r).container.isSome

def itemlist (w : World) (c : Ref) : List Ref := (w.item c).getItemList

def totalWeight (w : World) (c : Ref) : UInt32 := (w.item c).getTotalWeight

def setItemlist (w : World) (c : Ref) (l : List Ref) : World :=
  w.modify c fun i => { i with container := i.container.map fun k => { k with itemlist := l } }

def setTotalWeight (w : World) (c : Ref) (t : UInt32) : World :=
  w.modify c fun i => { i with container := i.container.map fun k => { k with totalWeight := t } }

variable (items : UInt16 → ItemType)

/-- `Item::getWeight` and `Container::getWeight`. -/
def getWeight (w : World) (r : Ref) : UInt32 := (w.item r).getWeight items + w.totalWeight r

end World
end CrystalServer
