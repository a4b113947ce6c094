import CrystalServer.Lib.Run
import CrystalServer.Items.Container

/-! # Tiles

What lies and stands on a tile (`items/tile.cpp`, `items/tile.hpp`): one vector for the items, split by a counter, and
the flags that walking and throwing read. The tile has no house, nobody browses it, and no script runs. -/

namespace CrystalServer

/-- A pointer to a creature. -/
abbrev CreatureRef := Nat

inductive Thing where
  | item (r : Ref)
  | creature (c : CreatureRef)
  deriving DecidableEq

/-- The class of the object behind an item. -/
inductive ItemClass where
  | Item | Container | DepotLocker | Teleport | MagicField | Mailbox | TrashHolder | BedItem
  deriving DecidableEq

/-- `ItemProperty`. -/
inductive ItemProperty where
  | BLOCKSOLID | HASHEIGHT | BLOCKPROJECTILE | BLOCKPATH | ISVERTICAL | ISHORIZONTAL | MOVABLE | IMMOVABLEBLOCKSOLID
  | IMMOVABLEBLOCKPATH | IMMOVABLENOFIELDBLOCKPATH | NOFIELDBLOCKPATH | SUPPORTHANGABLE
  deriving DecidableEq

/-- The bits of `TILESTATE_FLOORCHANGE`. -/
inductive FloorChange where
  | DOWN | NORTH | SOUTH | EAST | WEST | SOUTH_ALT | EAST_ALT
  deriving DecidableEq

/-- The other bits of `TileFlags_t` that items set. -/
inductive TileFlag where
  | TELEPORT | MAGICFIELD | MAILBOX | TRASHHOLDER | BED | DEPOT | BLOCKSOLID | BLOCKPATH | IMMOVABLEBLOCKSOLID
  | IMMOVABLEBLOCKPATH | IMMOVABLENOFIELDBLOCKPATH | NOFIELDBLOCKPATH | SUPPORTS_HANGABLE | MOVABLE | ISHORIZONTAL
  | ISVERTICAL | BLOCKPROJECTILE | HASHEIGHT
  deriving DecidableEq

/-- The property or the class of an item that sets the flag. -/
def TileFlag.cause : TileFlag → ItemProperty ⊕ ItemClass
  | .TELEPORT => .inr .Teleport
  | .MAGICFIELD => .inr .MagicField
  | .MAILBOX => .inr .Mailbox
  | .TRASHHOLDER => .inr .TrashHolder
  | .BED => .inr .BedItem
  | .DEPOT => .inr .DepotLocker
  | .BLOCKSOLID => .inl .BLOCKSOLID
  | .BLOCKPATH => .inl .BLOCKPATH
  | .IMMOVABLEBLOCKSOLID => .inl .IMMOVABLEBLOCKSOLID
  | .IMMOVABLEBLOCKPATH => .inl .IMMOVABLEBLOCKPATH
  | .IMMOVABLENOFIELDBLOCKPATH => .inl .IMMOVABLENOFIELDBLOCKPATH
  | .NOFIELDBLOCKPATH => .inl .NOFIELDBLOCKPATH
  | .SUPPORTS_HANGABLE => .inl .SUPPORTHANGABLE
  | .MOVABLE => .inl .MOVABLE
  | .ISHORIZONTAL => .inl .ISHORIZONTAL
  | .ISVERTICAL => .inl .ISVERTICAL
  | .BLOCKPROJECTILE => .inl .BLOCKPROJECTILE
  | .HASHEIGHT => .inl .HASHEIGHT

/-- What a tile reads of an `ItemType` beside the rest. -/
structure TileItemType extends ItemType where
  alwaysOnTopOrder : UInt8
  isMagicField : Bool
  replaceable : Bool
  blockSolid : Bool
  hasHeight : Bool
  blockProjectile : Bool
  blockPathFind : Bool
  isVertical : Bool
  isHorizontal : Bool
  floorChange : Option FloorChange

namespace TileItemType

def isGroundTile (it : TileItemType) : Bool := it.group = .ground

def isSplash (it : TileItemType) : Bool := it.group = .splash

end TileItemType

def IMMOVABLE_ACTION_ID : Int := 100
def ITEM_WATERBALL_SPLASH : UInt16 := 619
def ITEM_WATERBALL : UInt16 := 893

/-- The table of the types, and the class that each item was made with. -/
structure TileEnv where
  items : UInt16 → TileItemType
  classOf : Ref → ItemClass

def TileEnv.types (env : TileEnv) (id : UInt16) : ItemType := (env.items id).toItemType

namespace Item
variable (items : UInt16 → TileItemType)

def canBeMoved (item : Item) : Bool :=
  if item.hasAttribute .uniqueid then false
  else if item.hasAttribute .actionid ∧ (UInt16.ofInt (item.getInteger .actionid)).toNat = IMMOVABLE_ACTION_ID then false
  else (items item.id).movable

def hasProperty (item : Item) : ItemProperty → Bool
  | .BLOCKSOLID => (items item.id).blockSolid
  | .MOVABLE => item.canBeMoved items
  | .HASHEIGHT => (items item.id).hasHeight
  | .BLOCKPROJECTILE => (items item.id).blockProjectile
  | .BLOCKPATH => (items item.id).blockPathFind
  | .ISVERTICAL => (items item.id).isVertical
  | .ISHORIZONTAL => (items item.id).isHorizontal
  | .IMMOVABLEBLOCKSOLID => (items item.id).blockSolid && !item.canBeMoved items
  | .IMMOVABLEBLOCKPATH => (items item.id).blockPathFind && !item.canBeMoved items
  | .IMMOVABLENOFIELDBLOCKPATH =>
    !(items item.id).isMagicField && (items item.id).blockPathFind && !item.canBeMoved items
  | .NOFIELDBLOCKPATH => !(items item.id).isMagicField && (items item.id).blockPathFind
  | .SUPPORTHANGABLE => (items item.id).isHorizontal || (items item.id).isVertical

def isAlwaysOnTop (item : Item) : Bool := (items item.id).alwaysOnTopOrder ≠ 0

end Item

/-- `Tile`, with `TileItemVector` as a list and its counter. -/
structure Tile where
  ground : Option Ref
  items : List Ref
  downItemCount : Nat
  creatures : List CreatureRef
  flags : TileFlag → Bool
  floorChange : Option FloorChange

namespace Tile

/-- From `getBeginDownItem` to `getEndDownItem`. -/
def downItems (t : Tile) : List Ref := t.items.take t.downItemCount

/-- From `getBeginTopItem` to `getEndTopItem`. -/
def topItems (t : Tile) : List Ref := t.items.drop t.downItemCount

def getTopItemCount (t : Tile) : Nat := t.items.length - t.downItemCount

def getThingCount (t : Tile) : Nat := t.creatures.length + t.items.length + t.ground.toList.length

end Tile

/-- The tile, the items there and elsewhere, and the things whose parent is the tile. -/
structure TileWorld extends Tile where
  item : Ref → Item
  isParentOf : Thing → Bool

namespace TileWorld

/-- An empty tile. -/
def start (item : Ref → Item) : TileWorld := ⟨⟨none, [], 0, [], fun _ => false, none⟩, item, fun _ => false⟩

def modify (w : TileWorld) (r : Ref) (f : Item → Item) : TileWorld :=
  { w with item := Function.update w.item r (f (w.item r)) }

def setParent (w : TileWorld) (thing : Thing) : TileWorld :=
  { w with isParentOf := Function.update w.isParentOf thing true }

def resetParent (w : TileWorld) (thing : Thing) : TileWorld :=
  { w with isParentOf := Function.update w.isParentOf thing false }

variable (env : TileEnv) (w : TileWorld)

def itemType (r : Ref) : TileItemType := env.items (w.item r).id

def isAlwaysOnTop (r : Ref) : Bool := (w.item r).isAlwaysOnTop env.items

/-! ### Flags -/

/-- `Tile::hasProperty`: an item other than `exclude` has the property. -/
def hasProperty (exclude : Ref) (prop : ItemProperty) : Bool :=
  (w.ground.any fun g => exclude ≠ g ∧ (w.item g).hasProperty env.items prop) ||
    w.items.any fun r => r ≠ exclude ∧ (w.item r).hasProperty env.items prop

/-- The item has what sets the flag. -/
def gives (r : Ref) (flag : TileFlag) : Bool :=
  match flag.cause with
  | .inl prop => (w.item r).hasProperty env.items prop
  | .inr c => env.classOf r = c

def setTileFlags (item : Ref) : TileWorld :=
  { w with flags := fun flag => w.flags flag || w.gives env item flag
           floorChange := w.floorChange.or (w.itemType env item).floorChange }

/-- `!hasProperty(item, prop)` in `resetTileFlags`, which does not stand in the branches of the classes and of
    `CONST_PROP_SUPPORTHANGABLE`. -/
def mayReset (item : Ref) (flag : TileFlag) : Bool :=
  match flag.cause with
  | .inl .SUPPORTHANGABLE => true
  | .inl prop => !w.hasProperty env item prop
  | .inr _ => true

def resetTileFlags (item : Ref) : TileWorld :=
  { w with flags := fun flag => w.flags flag && !(w.gives env item flag && w.mayReset env item flag)
           floorChange := if (w.itemType env item).floorChange.isSome then none else w.floorChange }

/-! ### Places -/

def getThingIndex (thing : Thing) : Int :=
  let n : Int := if w.ground.isSome then 1 else 0
  match thing with
  | .item r =>
    if w.ground = some r then 0
    else if w.isAlwaysOnTop env r then
      match w.topItems.idxOf? r with
      | some i => n + i
      | none => -1
    else
      match w.downItems.idxOf? r with
      | some i => n + w.getTopItemCount + w.creatures.length + i
      | none => -1
  | .creature c =>
    match w.creatures.idxOf? c with
    | some i => n + w.getTopItemCount + i
    | none => -1

/-- `Tile::getThing` for what is not the ground. -/
def getThingAbove (index : Nat) : Option Thing :=
  if index < w.getTopItemCount then w.items[w.downItemCount + index]?.map .item
  else
    let index := index - w.getTopItemCount
    if index < w.creatures.length then w.creatures[index]?.map .creature
    else
      let index := index - w.creatures.length
      if index < w.downItemCount then w.items[index]?.map .item else none

def getThing (index : Nat) : Option Thing :=
  match w.ground, index with
  | some ground, 0 => some (.item ground)
  | some _, index + 1 => w.getThingAbove index
  | none, index => w.getThingAbove index

/-! ### Changes -/

/-- `Tile::removeThing`. -/
def removeThing (thing : Thing) (count : UInt32) : TileWorld :=
  match thing with
  | .creature c => { w with creatures := w.creatures.erase c }
  | .item r =>
    if w.getThingIndex env (.item r) = -1 then w
    else if w.ground = some r then
      let w := w.resetParent (.item r)
      resetTileFlags env { w with ground := none } r
    else if w.isAlwaysOnTop env r then
      if r ∈ w.topItems then
        (resetTileFlags env { w with items := w.downItems ++ w.topItems.erase r } r).resetParent (.item r)
      else w
    else if r ∈ w.downItems then
      if (w.itemType env r).stackable ∧ count.toNat ≠ (w.item r).getItemCount then
        w.modify r (·.setItemCount (Container.countLeft (w.item r) count))
      else
        let w := w.resetParent (.item r)
        resetTileFlags env { w with items := w.downItems.erase r ++ w.topItems
                                    downItemCount := w.downItemCount - 1 } r
    else w

/-- The old splash on the tile. -/
def oldSplash : Option Ref := w.topItems.find? fun r => (w.itemType env r).isSplash

/-- The first magic field on the tile. -/
def oldField : Option Ref := w.downItems.find? fun r => env.classOf r = .MagicField

/-- `removeThing` and `resetParent` of what the new item displaces. -/
def displace (old : Ref) : TileWorld := (w.removeThing env (.item old) 1).resetParent (.item old)

/-- Puts an item that is always on top before the first one that `before` names. -/
def insertTop (before : Ref → Bool) (r : Ref) : TileWorld :=
  { w with items := w.downItems ++ w.topItems.takeWhile (fun x => !before x) ++
             r :: w.topItems.dropWhile (fun x => !before x) }

/-- Puts an item in front. -/
def insertDown (r : Ref) : TileWorld :=
  { w with items := r :: w.items
           downItemCount := w.downItemCount + 1 }

/-- `item->setID(ITEM_WATERBALL)`. -/
def setWaterball (r : Ref) : TileWorld :=
  if (w.item r).id = ITEM_WATERBALL_SPLASH ∧ !w.flags .TRASHHOLDER then w.modify r (·.setID env.types ITEM_WATERBALL)
  else w

def addCreature (c : CreatureRef) : TileWorld :=
  let w := w.setParent (.creature c)
  { w with creatures := c :: w.creatures }

/-- `addThing` for a ground. The reference `oldGround` is to the field `ground`, which holds the new one by the time
    that its flags are reset. -/
def addGround (r : Ref) : TileWorld :=
  match w.ground with
  | none => setTileFlags env { w with ground := some r } r
  | some ground =>
    let w := w.resetParent (.item ground)
    let w : TileWorld := { w with ground := some r }
    (w.resetTileFlags env r).setTileFlags env r

/-- `addThing` for an item that is always on top. -/
def addTopItem (r : Ref) : TileWorld :=
  let it := w.itemType env r
  let w := match w.oldSplash env with
    | some old => if it.isSplash then w.displace env old else w
    | none => w
  (w.insertTop (fun x => it.alwaysOnTopOrder ≤ (w.itemType env x).alwaysOnTopOrder) r).setTileFlags env r

/-- `addThing` for any other item, once no field stands against it. -/
def addDownItem (r : Ref) : TileWorld :=
  let w := w.setWaterball env r
  (w.insertDown r).setTileFlags env r

/-- `Tile::addThing`. -/
def addThing (thing : Thing) : TileWorld :=
  match thing with
  | .creature c => w.addCreature c
  | .item r =>
    if w.items.length ≥ 0xFFFF then w
    else
      let w := w.setParent (.item r)
      if (w.itemType env r).isGroundTile then w.addGround env r
      else if w.isAlwaysOnTop env r then w.addTopItem env r
      else if (w.itemType env r).isMagicField then
        match w.oldField env with
        | some old =>
          if (w.itemType env old).replaceable then (w.displace env old).addDownItem env r
          else w.resetParent (.item r)
        | none => w.addDownItem env r
      else w.addDownItem env r

/-- `Tile::internalAddThing`. -/
def internalAddThing (thing : Thing) : TileWorld :=
  match thing with
  | .creature c => w.addCreature c
  | .item r =>
    let w := w.setParent (.item r)
    let it := w.itemType env r
    if it.isGroundTile then
      match w.ground with
      | none => setTileFlags env { w with ground := some r } r
      | some _ => w
    else if w.items.length ≥ 0xFFFF then w
    else if w.isAlwaysOnTop env r then
      (w.insertTop (fun x => it.alwaysOnTopOrder < (w.itemType env x).alwaysOnTopOrder) r).setTileFlags env r
    else (w.insertDown r).setTileFlags env r

/-- `Tile::updateThing`. -/
def updateThing (thing : Thing) (itemId : UInt16) (count : UInt32) : TileWorld :=
  match thing with
  | .creature _ => w
  | .item r =>
    if w.getThingIndex env (.item r) = -1 then w
    else
      let w := w.resetTileFlags env r
      let w := w.modify r fun i => (i.setID env.types itemId).setSubType env.types count.toUInt16
      w.setTileFlags env r

/-- `Tile::replaceThing` for what is not the ground: the old item, and the tile with the new one in its place. -/
def replaceAbove (pos : Nat) (r : Ref) : Option (Ref × TileWorld) :=
  let put (i : Nat) : Option (Ref × TileWorld) := w.items[i]?.map fun old => (old, { w with items := w.items.set i r })
  if pos < w.getTopItemCount then put (w.downItemCount + pos)
  else
    let pos := pos - w.getTopItemCount
    if pos < w.creatures.length then none
    else
      let pos := pos - w.creatures.length
      if pos < w.downItemCount then put pos else none

/-- The old item at a position of `getThing`, and the tile with the new one in its place. -/
def replaceAt (index : Nat) (r : Ref) : Option (Ref × TileWorld) :=
  match w.ground, index with
  | some ground, 0 => some (ground, { w with ground := some r })
  | some _, pos + 1 => w.replaceAbove pos r
  | none, pos => w.replaceAbove pos r

/-- `Tile::replaceThing`; the index is one that `getThingIndex` gave. -/
def replaceThing (index : Nat) (thing : Thing) : TileWorld :=
  match thing with
  | .creature _ => w
  | .item r =>
    match w.replaceAt index r with
    | some (old, w) => (((w.setParent (.item r)).resetTileFlags env old).setTileFlags env r).resetParent (.item old)
    | none => w

/-! ### Runs -/

inductive Action where
  | addThing (thing : Thing)
  | internalAddThing (thing : Thing)
  | updateThing (thing : Thing) (itemId : UInt16) (count : UInt32)
  | replaceThing (index : Nat) (thing : Thing)
  | removeThing (thing : Thing) (count : UInt32)

def step : Action → TileWorld
  | .addThing thing => w.addThing env thing
  | .internalAddThing thing => w.internalAddThing env thing
  | .updateThing thing itemId count => w.updateThing env thing itemId count
  | .replaceThing index thing => w.replaceThing env index thing
  | .removeThing thing count => w.removeThing env thing count

end TileWorld
end CrystalServer
