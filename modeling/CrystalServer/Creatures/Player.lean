import CrystalServer.Items.Cylinder

/-! # Players: what may go into a slot

`Player::hasCapacity` and `Player::queryAdd` (`creatures/players/player.cpp`). -/

namespace CrystalServer

def CONST_SLOT_WHEREEVER : Int := 0
def CONST_SLOT_HEAD : Int := 1
def CONST_SLOT_NECKLACE : Int := 2
def CONST_SLOT_BACKPACK : Int := 3
def CONST_SLOT_ARMOR : Int := 4
def CONST_SLOT_RIGHT : Int := 5
def CONST_SLOT_LEFT : Int := 6
def CONST_SLOT_LEGS : Int := 7
def CONST_SLOT_FEET : Int := 8
def CONST_SLOT_RING : Int := 9
def CONST_SLOT_AMMO : Int := 10
def CONST_SLOT_FIRST : Int := 1
def CONST_SLOT_LAST : Int := 11

def SLOTP_HEAD : UInt16 := 1
def SLOTP_NECKLACE : UInt16 := 2
def SLOTP_BACKPACK : UInt16 := 4
def SLOTP_ARMOR : UInt16 := 8
def SLOTP_RIGHT : UInt16 := 16
def SLOTP_LEFT : UInt16 := 32
def SLOTP_LEGS : UInt16 := 64
def SLOTP_FEET : UInt16 := 128
def SLOTP_RING : UInt16 := 256
def SLOTP_AMMO : UInt16 := 512
def SLOTP_TWO_HAND : UInt16 := 2048

namespace Player

/-- `Player::getInventoryItem`; the slot is the low byte of the index. -/
def getInventoryItem (player : Player) (index : Int) : Option Ref :=
  let slot := (UInt8.ofInt index).toNat
  if slot < CONST_SLOT_FIRST ∨ slot > CONST_SLOT_LAST then none else player.inventory slot

/-- `Player::getFreeCapacity`, with `getCapacity` for a player that has one. -/
def getFreeCapacity (player : Player) : UInt32 :=
  if player.CannotPickupItem then 0
  else if player.HasInfiniteCapacity then 4294967295
  else .ofInt (max 0 (player.capacity - player.inventoryWeight).toInt32.toInt)

variable (env : Env) (w : World) (this : PlayerRef)

/-- `Player::hasCapacity`. -/
def hasCapacity (item : Ref) (count : UInt32) : Bool :=
  let player := w.players this
  if player.CannotPickupItem then false
  else if player.HasInfiniteCapacity ∨ w.getTopParent item = some (.player this) then true
  else
    let itemWeight := if w.isContainer item then w.getWeight env.items item else (w.item item).getBaseWeight env.items
    let itemWeight := if (w.item item).isStackable env.items then itemWeight * count else itemWeight
    itemWeight ≤ player.getFreeCapacity

/-- The slots that take an item by its slot position alone. -/
def queryAddSlot (ret : ReturnValue) (slotPosition slotp : UInt16) : ReturnValue :=
  if slotPosition &&& slotp ≠ 0 then .NOERROR else ret

/-- `queryAdd` for two hands that hold a shield and a weapon for the fists. -/
def queryAddFist (type : WeaponType) (otherType : Option WeaponType) (ret : ReturnValue) : ReturnValue :=
  if ret ≠ .NOERROR then ret
  else if type = .shield then if otherType = some .fist then .CANNOTBEDRESSED else ret
  else if type = .fist then if otherType = some .shield then .CANNOTBEDRESSED else ret
  else ret

/-- `queryAdd` for a hand while the other one holds a weapon or a shield. -/
def queryAddOther (type otherType : WeaponType) : ReturnValue :=
  if otherType = .shield ∧ type = .shield then .CANONLYUSEONESHIELD
  else if otherType = .none ∨ type = .none ∨ otherType = .shield ∨ otherType = .ammo ∨ type = .shield
      ∨ type = .ammo then .NOERROR
  else .CANONLYUSEONEWEAPON

def queryAddRight (item : Ref) (count : UInt32) : ReturnValue :=
  let it := env.items (w.item item).id
  let leftItem := (w.players this).inventory CONST_SLOT_LEFT.toNat
  let left (r : Ref) := env.items (w.item r).id
  let ret :=
    if it.slotPosition &&& SLOTP_RIGHT ≠ 0 then
      if it.weaponType ≠ .shield ∧ !it.isQuiver then .CANNOTBEDRESSED
      else match leftItem with
        | some leftItem =>
          if ((left leftItem).slotPosition ||| it.slotPosition) &&& SLOTP_TWO_HAND ≠ 0 then
            if it.isQuiver ∧ (left leftItem).weaponType = .distance then .NOERROR else .BOTHHANDSNEEDTOBEFREE
          else .NOERROR
        | none => .NOERROR
    else if it.slotPosition &&& SLOTP_TWO_HAND ≠ 0 then .CANNOTBEDRESSED
    else match leftItem with
      | some leftItem =>
        if it.isQuiver ∧ (left leftItem).weaponType = .distance then .NOERROR
        else if (left leftItem).slotPosition &&& SLOTP_TWO_HAND ≠ 0 then .DROPTWOHANDEDITEM
        else if item = leftItem ∧ count.toNat = (w.item item).getItemCount then .NOERROR
        else queryAddOther it.weaponType (left leftItem).weaponType
      | none => .NOERROR
  queryAddFist it.weaponType (leftItem.map fun r => (left r).weaponType) ret

def queryAddLeft (item : Ref) (count : UInt32) : ReturnValue :=
  let it := env.items (w.item item).id
  let rightItem := (w.players this).inventory CONST_SLOT_RIGHT.toNat
  let right (r : Ref) := env.items (w.item r).id
  let ret :=
    if it.isQuiver then .CANNOTBEDRESSED
    else if it.slotPosition &&& SLOTP_TWO_HAND ≠ 0 then
      match rightItem with
      | some rightItem =>
        if it.weaponType = .distance ∧ (right rightItem).isQuiver then .NOERROR else .BOTHHANDSNEEDTOBEFREE
      | none => .NOERROR
    else if it.slotPosition &&& SLOTP_LEFT ≠ 0 then
      if it.weaponType = .none ∨ it.weaponType = .shield ∨ it.weaponType = .ammo then .CANNOTBEDRESSED else .NOERROR
    else match rightItem with
      | some rightItem =>
        if (right rightItem).slotPosition &&& SLOTP_TWO_HAND ≠ 0 then .DROPTWOHANDEDITEM
        else if item = rightItem ∧ count.toNat = (w.item item).getItemCount then .NOERROR
        else queryAddOther it.weaponType (right rightItem).weaponType
      | none => .NOERROR
  queryAddFist it.weaponType (rightItem.map fun r => (right r).weaponType) ret

/-- `queryAdd` before it looks at the slot. -/
def queryAddDressed (index : Int) (slotPosition : UInt16) : ReturnValue :=
  if env.ENABLE_PLAYER_PUT_ITEM_IN_AMMO_SLOT ∧ index = CONST_SLOT_AMMO then .NOERROR
  else if slotPosition &&& (SLOTP_HEAD ||| SLOTP_NECKLACE ||| SLOTP_BACKPACK ||| SLOTP_ARMOR ||| SLOTP_LEGS
      ||| SLOTP_FEET ||| SLOTP_RING) ≠ 0 then .CANNOTBEDRESSED
  else if slotPosition &&& SLOTP_TWO_HAND ≠ 0 then .PUTTHISOBJECTINBOTHHANDS
  else if slotPosition &&& (SLOTP_RIGHT ||| SLOTP_LEFT) ≠ 0 then .CANNOTBEDRESSED
  else .NOERROR

/-- The `switch` of `queryAdd`. -/
def queryAddSwitch (index : Int) (item : Ref) (count : UInt32) : ReturnValue :=
  let slotPosition := (env.items (w.item item).id).slotPosition
  let ret := queryAddDressed env index slotPosition
  if index = CONST_SLOT_HEAD then queryAddSlot ret slotPosition SLOTP_HEAD
  else if index = CONST_SLOT_NECKLACE then queryAddSlot ret slotPosition SLOTP_NECKLACE
  else if index = CONST_SLOT_BACKPACK then queryAddSlot ret slotPosition SLOTP_BACKPACK
  else if index = CONST_SLOT_ARMOR then queryAddSlot ret slotPosition SLOTP_ARMOR
  else if index = CONST_SLOT_RIGHT then queryAddRight env w this item count
  else if index = CONST_SLOT_LEFT then queryAddLeft env w this item count
  else if index = CONST_SLOT_LEGS then queryAddSlot ret slotPosition SLOTP_LEGS
  else if index = CONST_SLOT_FEET then queryAddSlot ret slotPosition SLOTP_FEET
  else if index = CONST_SLOT_RING then queryAddSlot ret slotPosition SLOTP_RING
  else if index = CONST_SLOT_AMMO then
    if env.ENABLE_PLAYER_PUT_ITEM_IN_AMMO_SLOT then .NOERROR else queryAddSlot ret slotPosition SLOTP_AMMO
  else if index = CONST_SLOT_WHEREEVER ∨ index = -1 then .NOTENOUGHROOM
  else .NOTPOSSIBLE

/-- `Player::queryAdd`. -/
def queryAdd (index : Int) (item : Ref) (count flags : UInt32) : ReturnValue :=
  if w.hasOwner item ∧ !env.isOwner (w.getOwnerId item) this then .ITEMISNOTYOURS
  else if hasBitSet FLAG_CHILDISOWNER flags then
    if hasBitSet FLAG_NOLIMIT flags ∨ hasCapacity env w this item count then .NOERROR else .NOTENOUGHCAPACITY
  else if !(env.items (w.item item).id).pickupable then .CANNOTPICKUP
  else
    let ret := queryAddSwitch env w this index item count
    if ret = .NOERROR ∨ ret = .NOTENOUGHROOM then
      let exchange := match (w.players this).getInventoryItem index with
        | some inventoryItem =>
          !(w.item inventoryItem).isStackable env.items || (w.item inventoryItem).id != (w.item item).id
        | none => false
      if exchange then .NEEDEXCHANGE
      else if !hasCapacity env w this item count then .NOTENOUGHCAPACITY
      else if !env.onPlayerEquip w this item index then .CANNOTBEDRESSED
      else ret
    else ret

end Player
end CrystalServer
