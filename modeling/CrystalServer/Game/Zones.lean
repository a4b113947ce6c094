import CrystalServer.Items.Tile

/-! # Zones

What the tiles report to their zones (`items/tile.cpp`, `game/zones/zone.cpp`). A mutator of a tile is that of `Items.Tile`, and
beside it stand the calls that it makes to each zone of the tile. The items live on; parents are not read here. -/

namespace CrystalServer.Zones

/-- A pointer to a tile. -/
abbrev TileRef := Nat

/-- A pointer to a zone. -/
abbrev ZoneRef := Nat

/-- `Zone::thingAdded` and `Zone::itemRemoved` with an item. -/
inductive Call where
  | thingAdded (item : Ref)
  | itemRemoved (item : Ref)

def Call.apply (itemsCache : Finset Ref) : Call → Finset Ref
  | .thingAdded item => insert item itemsCache
  | .itemRemoved item => itemsCache.erase item

/-! ### The calls of the mutators -/

section
variable (env : TileEnv) (w : TileWorld)

/-- `Tile::removeThing` calls `onRemoveTileItem`, which calls `itemRemoved`. -/
def removeThingCalls (item : Ref) (count : UInt32) : List Call :=
  if w.getThingIndex env (.item item) = -1 then []
  else if w.ground = some item then [.itemRemoved item]
  else if w.isAlwaysOnTop env item then if item ∈ w.topItems then [.itemRemoved item] else []
  else if item ∈ w.downItems then
    if (w.itemType env item).stackable ∧ count.toNat ≠ (w.item item).getItemCount then [] else [.itemRemoved item]
  else []

/-- `Tile::addThing`: what is displaced goes through `removeThing`. Neither `onAddTileItem` nor `onUpdateTileItem` calls a
    zone. -/
def addThingCalls (item : Ref) : List Call :=
  if w.items.length ≥ 0xFFFF then []
  else if (w.itemType env item).isGroundTile then []
  else if w.isAlwaysOnTop env item then
    match w.oldSplash env with
    | some old => if (w.itemType env item).isSplash then removeThingCalls env w old 1 else []
    | none => []
  else if (w.itemType env item).isMagicField then
    match w.oldField env with
    | some old => if (w.itemType env old).replaceable then removeThingCalls env w old 1 else []
    | none => []
  else []

end

/-! ### Tiles and zones -/

structure World where
  tiles : TileRef → Tile
  item : Ref → Item
  zones : TileRef → Finset ZoneRef
  itemsCache : ZoneRef → Finset Ref

namespace World

def tile (s : World) (t : TileRef) : TileWorld := ⟨s.tiles t, s.item, fun _ => false⟩

/-- The calls to each zone of the tile. -/
def report (s : World) (t : TileRef) (calls : List Call) : World :=
  { s with itemsCache := fun z => if z ∈ s.zones t then calls.foldl Call.apply (s.itemsCache z) else s.itemsCache z }

/-- The tile as a mutator leaves it. -/
def setTile (s : World) (t : TileRef) (w : TileWorld) : World :=
  { s with tiles := Function.update s.tiles t w.toTile
           item := w.item }

variable (env : TileEnv) (isStatic : ZoneRef → Bool) (s : World)

def addThing (t : TileRef) (item : Ref) : World :=
  (s.setTile t ((s.tile t).addThing env (.item item))).report t (addThingCalls env (s.tile t) item)

/-- `Tile::internalAddThing` calls the zones before anything else. -/
def internalAddThing (t : TileRef) (item : Ref) : World :=
  (s.setTile t ((s.tile t).internalAddThing env (.item item))).report t [.thingAdded item]

/-- `Tile::replaceThing` calls no zone. -/
def replaceThing (t : TileRef) (index : Nat) (item : Ref) : World :=
  s.setTile t ((s.tile t).replaceThing env index (.item item))

def removeThing (t : TileRef) (item : Ref) (count : UInt32) : World :=
  (s.setTile t ((s.tile t).removeThing env (.item item) count)).report t (removeThingCalls env (s.tile t) item count)

/-- `Tile::addZone`. -/
def addZone (t : TileRef) (zone : ZoneRef) : World :=
  { s with zones := Function.update s.zones t (insert zone (s.zones t))
           itemsCache := Function.update s.itemsCache zone
             (((s.tiles t).items.map Call.thingAdded).foldl Call.apply (s.itemsCache zone)) }

/-- `Tile::clearZones`. -/
def clearZones (t : TileRef) : World :=
  { s with zones := Function.update s.zones t ((s.zones t).filter fun zone => isStatic zone)
           itemsCache := fun zone =>
             if zone ∈ s.zones t ∧ !isStatic zone then
               ((s.tiles t).items.map Call.itemRemoved).foldl Call.apply (s.itemsCache zone)
             else s.itemsCache zone }

end World

inductive Operation where
  | addThing (t : TileRef) (item : Ref)
  | internalAddThing (t : TileRef) (item : Ref)
  | replaceThing (t : TileRef) (index : Nat) (item : Ref)
  | removeThing (t : TileRef) (item : Ref) (count : UInt32)
  | addZone (t : TileRef) (zone : ZoneRef)
  | clearZones (t : TileRef)

def step (env : TileEnv) (isStatic : ZoneRef → Bool) (s : World) : Operation → World
  | .addThing t item => s.addThing env t item
  | .internalAddThing t item => s.internalAddThing env t item
  | .replaceThing t index item => s.replaceThing env t index item
  | .removeThing t item count => s.removeThing env t item count
  | .addZone t zone => s.addZone t zone
  | .clearZones t => s.clearZones isStatic t

end CrystalServer.Zones
