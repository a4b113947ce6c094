import CrystalServer.Items.Item

/-! # Containers

What changes a container (`items/containers/container.cpp`). A signed difference of weights and the unsigned
total that it is added to are the same 32 bits. What is sent to clients is left out. -/

namespace CrystalServer
namespace Container

/-- The loop of `Container::updateItemWeight`. The way up visits less than `w.next` containers. -/
def updateItemWeightLoop (diff : UInt32) : Nat → Ref → World → World
  | 0, this, w => w.setTotalWeight this (w.totalWeight this + diff)
  | n + 1, this, w =>
    match w.getParentContainer this with
    | none => w.setTotalWeight this (w.totalWeight this + diff)
    | some parentContainer =>
      updateItemWeightLoop diff n parentContainer (w.setTotalWeight this (w.totalWeight this + diff))

def updateItemWeight (w : World) (this : Ref) (diff : UInt32) : World := updateItemWeightLoop diff w.next this w

variable (items : UInt16 → ItemType)

def capacity (w : World) (this : Ref) : UInt32 := ((w.item this).container.map (·.maxSize.toUInt32)).getD 0

def size (w : World) (this : Ref) : Nat := (w.itemlist this).length

/-- What `addThing` does once it takes the item, and all of `internalAddThing`. -/
def internalAddThing (w : World) (this : Ref) (thing : Option Ref) : World :=
  match thing with
  | none => w
  | some item =>
    let w := (w.setParent item (.container this)).setItemlist this (item :: w.itemlist this)
    updateItemWeight w this (w.getWeight items item)

/-- `Container::addThing`; the index says only whether the item is taken. -/
def addThing (w : World) (this : Ref) (index : Int) (thing : Option Ref) : World :=
  if index ≥ (capacity w this).toNat then w else internalAddThing items w this thing

/-- `Container::addItem`. -/
def addItem (w : World) (this item : Ref) : World :=
  (w.setItemlist this (w.itemlist this ++ [item])).setParent item (.container this)

def addItemBack (w : World) (this item : Ref) : World :=
  let w := addItem w this item
  updateItemWeight w this (w.getWeight items item)

/-- `Container::updateThing`. -/
def updateThing (w : World) (this thing : Ref) (itemId : UInt16) (count : UInt32) : World :=
  if thing ∈ w.itemlist this then
    let oldWeight := w.getWeight items thing
    let w := w.modify thing fun i => (i.setID items itemId).setSubType items count.toUInt16
    updateItemWeight w this (-oldWeight + w.getWeight items thing)
  else w

/-- `Container::replaceThing`. -/
def replaceThing (w : World) (this : Ref) (index : UInt32) (thing : Option Ref) : World :=
  match thing, (w.itemlist this)[index.toNat]? with
  | some item, some replacedItem =>
    let w := (w.setItemlist this ((w.itemlist this).set index.toNat item)).setParent item (.container this)
    (updateItemWeight w this (-w.getWeight items replacedItem + w.getWeight items item)).resetParent replacedItem
  | _, _ => w

/-- `static_cast<uint8_t>(std::max<int32_t>(0, item->getItemCount() - count))` in `removeThing`. -/
def countLeft (item : Item) (count : UInt32) : Nat :=
  (UInt8.ofInt (max 0 (item.count.toUInt32 - count).toInt32.toInt)).toNat

/-- `Container::removeThing`. -/
def removeThing (w : World) (this thing : Ref) (count : UInt32) : World :=
  if thing ∈ w.itemlist this then
    if (w.item thing).isStackable items ∧ count.toNat ≠ (w.item thing).getItemCount then
      let oldWeight := w.getWeight items thing
      let newCount := countLeft (w.item thing) count
      let w := w.modify thing (·.setItemCount newCount)
      updateItemWeight w this (-oldWeight + w.getWeight items thing)
    else
      let w := (updateItemWeight w this (-w.getWeight items thing)).resetParent thing
      w.setItemlist this ((w.itemlist this).erase thing)
  else w

/-- `Container::removeItem`. -/
def removeItem (w : World) (this : Ref) (thing : Option Ref) : World :=
  match thing with
  | none => w
  | some itemToRemove =>
    if itemToRemove ∈ w.itemlist this then
      (w.setItemlist this ((w.itemlist this).erase itemToRemove)).resetParent itemToRemove
    else w

/-- A call to one of the functions that change containers. -/
inductive Op where
  | addThing (this : Ref) (index : Int) (thing : Option Ref)
  | addItemBack (this item : Ref)
  | internalAddThing (this : Ref) (thing : Option Ref)
  | updateThing (this thing : Ref) (itemId : UInt16) (count : UInt32)
  | replaceThing (this : Ref) (index : UInt32) (thing : Option Ref)
  | removeThing (this thing : Ref) (count : UInt32)
  | removeItem (this : Ref) (thing : Option Ref)

def step (w : World) : Op → World
  | .addThing this index thing => addThing items w this index thing
  | .addItemBack this item => addItemBack items w this item
  | .internalAddThing this thing => internalAddThing items w this thing
  | .updateThing this thing itemId count => updateThing items w this thing itemId count
  | .replaceThing this index thing => replaceThing items w this index thing
  | .removeThing this thing count => removeThing items w this thing count
  | .removeItem this thing => removeItem w this thing

end Container
end CrystalServer
