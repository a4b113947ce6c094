import CrystalServer.Items.Item
import CrystalServer.Lib.LittleEndian
import CrystalServer.Lib.SortedMap
import CrystalServer.Utils.Tools

/-! # Attributes of items

The setters and getters of `ItemProperties`, `ItemAttribute` and `Item` that the saving of items rests on
(`items/item.hpp`, `items/item.cpp`, `items/functions/item/attribute.cpp`). -/

namespace CrystalServer
open Lib

/-- What items read beside themselves: the types, the configuration, the clocks, and whether a unique id is free. -/
structure ItemEnv where
  items : UInt16 → ItemType
  upgradeClassification : UInt16 → UInt8
  FORGE_MAX_ITEM_TIER : Int
  OTSYS_TIME : Int64
  getTimeNow : Int64
  addUniqueItem : UInt16 → Bool

namespace ItemAttribute

/-- `ItemAttribute::setAttribute` for a string. -/
def setString (as : ItemAttribute) (type : AttributeType) (value : List UInt8) : ItemAttribute :=
  if !type.isAttributeString then as
  else if value = [] then as
  else if as.attributeVector.any (·.type = type) then
    { as with attributeVector := as.attributeVector.map fun a =>
        if a.type = type then { a with value := .string value } else a }
  else { as with attributeVector := as.attributeVector ++ [⟨type, .string value⟩] }

/-- `ItemAttribute::addCustomAttribute`, and `setCustomAttribute` for each kind of value. -/
def addCustomAttribute (as : ItemAttribute) (key : List UInt8) (customAttribute : CustomAttribute) : ItemAttribute :=
  { as with customAttributeMap := SortedMap.insert (asLowerCaseString key) customAttribute as.customAttributeMap }

end ItemAttribute

namespace Item

/-- `ItemProperties::getString`. -/
def getString (item : Item) (type : AttributeType) : List UInt8 :=
  if type.isAttributeString then ((item.getAttributeVector.find? (·.type = type)).map (·.getString)).getD [] else []

/-- `ItemProperties::getAttribute<T>`. -/
def getAttribute (item : Item) (t : IntType) (type : AttributeType) : Int := t.cast (item.getInteger type)

def setString (item : Item) (type : AttributeType) (value : List UInt8) : Item :=
  { item with attributePtr := some ((item.attributePtr.getD .empty).setString type value) }

def getCustomAttributeMap (item : Item) : List (List UInt8 × CustomAttribute) :=
  (item.attributePtr.map (·.customAttributeMap)).getD []

def getCustomAttribute (item : Item) (attributeName : List UInt8) : Option CustomAttribute :=
  item.getCustomAttributeMap.lookup (asLowerCaseString attributeName)

def addCustomAttribute (item : Item) (key : List UInt8) (customAttribute : CustomAttribute) : Item :=
  { item with attributePtr := some ((item.attributePtr.getD .empty).addCustomAttribute key customAttribute) }

/-- `ItemProperties::getDecaying`. -/
def getDecaying (item : Item) : UInt8 := .ofInt (item.getInteger .decaystate)

/-- `ItemProperties::getDuration`. -/
def getDuration (OTSYS_TIME : Int64) (item : Item) : Int :=
  if item.getDecaying = DECAYING_TRUE ∨ item.getDecaying = DECAYING_STOPPING then
    max 0 (Int32.ofInt (item.getInteger .duration_timestamp) - OTSYS_TIME.toInt32).toInt
  else item.getAttribute int32_t .duration

variable (env : ItemEnv)

/-- `Item::getSubType`. -/
def getSubType (item : Item) : Int :=
  let it := env.items item.id
  if it.group = .fluid ∨ it.group = .splash then item.getAttribute uint16_t .fluidtype
  else if it.stackable then item.count.toNat
  else if it.charges ≠ 0 then item.getAttribute uint16_t .charges
  else item.count.toNat

/-- `Item::getTier`. -/
def getTier (item : Item) : Int :=
  if !item.hasAttribute .tier then 0
  else
    let tier := item.getAttribute uint8_t .tier
    if tier > env.FORGE_MAX_ITEM_TIER then 0 else tier

/-- `Item::setTier`. -/
def setTier (item : Item) (tier : UInt8) : Item :=
  if tier.toNat > env.FORGE_MAX_ITEM_TIER then item
  else if env.upgradeClassification item.id ≠ 0 then item.setAttribute .tier tier.toNat else item

/-- `Item::addUniqueId`. -/
def addUniqueId (item : Item) (uniqueId : UInt16) : Item :=
  if item.hasAttribute .uniqueid then item
  else if env.addUniqueItem uniqueId then item.setAttribute .uniqueid uniqueId.toNat else item

/-- The public setters, with the types of their arguments. -/
inductive Setter
  | setSubType (n : UInt16)
  | setAttribute (type : AttributeType) (value : Int64)
  | setString (type : AttributeType) (value : List UInt8)
  | setDuration (time : Int32)
  | setDurationTimestamp (timestamp : Int64)
  | setDecaying (decayState : UInt8)
  | setOwner (owner : UInt32)
  | setTier (tier : UInt8)
  | setCustomAttribute (key : List UInt8) (value : CustomAttribute)

def Setter.apply (item : Item) : Setter → Item
  | .setSubType n => item.setSubType env.items n
  | .setAttribute type value => item.setAttribute type value.toInt
  | .setString type value => item.setString type value
  | .setDuration time => item.setDuration time.toInt
  | .setDurationTimestamp timestamp => item.setAttribute .duration_timestamp timestamp.toInt
  | .setDecaying decayState => item.setDecaying decayState
  | .setOwner owner => item.setAttribute .owner owner.toNat
  | .setTier tier => item.setTier env tier
  | .setCustomAttribute key value => item.addCustomAttribute key value

/-- An item that was made and set. -/
def set (itemId itemCount : UInt16) (setters : List Setter) : Item :=
  setters.foldl (Setter.apply env) (make env.items itemId itemCount)

end Item
end CrystalServer
