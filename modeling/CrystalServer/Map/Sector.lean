import CrystalServer.Map.BasicItem
import CrystalServer.Lib.Dedup

/-! # Positions, creatures and map sectors

`Position` (`game/movement/position.hpp`), the sectors of the map (`map/utils/mapsector.hpp`) and how they
are found and linked (`map/mapcache.cpp`). A sector is named by its index in `mapSectors`, which also
stands for a pointer to it. -/

namespace CrystalServer

def MAP_MAX_VIEW_PORT_X : Int := 11
def MAP_MAX_VIEW_PORT_Y : Int := 11
def MAP_MAX_LAYERS : Nat := 16
def MAP_INIT_SURFACE_LAYER : Int := 7
def MAP_LAYER_VIEW_LIMIT : Int := 2
def SECTOR_SIZE : Nat := 16
def SECTOR_MASK : Nat := SECTOR_SIZE - 1

structure Position where
  x : UInt16
  y : UInt16
  z : UInt8
  deriving DecidableEq

/-- The subclass of a creature. -/
inductive CreatureKind where
  | player
  | monster
  | npc
  deriving DecidableEq

/-- A creature: its identity, its class and where it stands. -/
structure Creature where
  id : Nat
  kind : CreatureKind
  position : Position
  deriving DecidableEq

/-- `Floor`: the tile cache, one slot for each square of the sector. -/
structure Floor where
  tileCache : Nat → Nat → Option BasicTile

/-- `MapSector`. -/
structure MapSector where
  sectorS : Option UInt32
  sectorE : Option UInt32
  creature_list : List Creature
  player_list : List Creature
  monster_list : List Creature
  npc_list : List Creature
  floors : Fin MAP_MAX_LAYERS → Option Floor

/-- `mapSectors`. -/
abbrev MapSectors := UInt32 → Option MapSector

namespace Floor

def empty : Floor := ⟨fun _ _ => none⟩

def getTileCache (f : Floor) (x y : UInt16) : Option BasicTile :=
  f.tileCache (x.toNat &&& SECTOR_MASK) (y.toNat &&& SECTOR_MASK)

def setTileCache (f : Floor) (x y : UInt16) (newTile : Option BasicTile) : Floor where
  tileCache i j :=
    if i = x.toNat &&& SECTOR_MASK ∧ j = y.toNat &&& SECTOR_MASK then newTile else f.tileCache i j

end Floor

namespace MapSector

def empty : MapSector := ⟨none, none, [], [], [], [], fun _ => none⟩

/-- `MapSector::createFloor` followed by a change of the floor. -/
def onFloor (s : MapSector) (z : Fin MAP_MAX_LAYERS) (f : Floor → Floor) : MapSector :=
  { s with floors := fun i => if i = z then some (f ((s.floors z).getD Floor.empty)) else s.floors i }

/-- `MapSector::addCreature`. -/
def addCreature (s : MapSector) (c : Creature) : MapSector :=
  let s := { s with creature_list := s.creature_list ++ [c] }
  match c.kind with
  | .player => { s with player_list := s.player_list ++ [c] }
  | .monster => { s with monster_list := s.monster_list ++ [c] }
  | .npc => { s with npc_list := s.npc_list ++ [c] }

end MapSector

namespace MapSectors

def empty : MapSectors := fun _ => none

/-- The index of the sector of a square: `x / SECTOR_SIZE | y / SECTOR_SIZE << 16`. -/
def index (x y : UInt32) : UInt32 := x / 16 ||| (y / 16) <<< (16 : UInt32)

/-- `MapCache::getMapSector`. -/
def getMapSector (m : MapSectors) (x y : UInt32) : Option MapSector := m (index x y)

/-- Changes the sector with an index, if there is one. -/
def update (m : MapSectors) (i : UInt32) (f : MapSector → MapSector) : MapSectors :=
  fun j => if j = i then (m j).map f else m j

/-- Changes the sector with index `i` if there is one with index `neighbour`. -/
def link (m : MapSectors) (neighbour i : UInt32) (f : MapSector → MapSector) : MapSectors :=
  if (m neighbour).isSome then m.update i f else m

/-- `MapCache::getBestMapSector` where `createMapSector` makes a new sector: the neighbours that exist are
    linked with it. -/
def linkNew (m : MapSectors) (x y : UInt32) : MapSectors :=
  let sector := index x y
  let m : MapSectors := fun j => if j = sector then some .empty else m j
  let north := index x (y - 16)
  let m := m.link north north fun s => { s with sectorS := some sector }
  let west := index (x - 16) y
  let m := m.link west west fun s => { s with sectorE := some sector }
  let south := index x (y + 16)
  let m := m.link south sector fun s => { s with sectorS := some south }
  let east := index (x + 16) y
  m.link east sector fun s => { s with sectorE := some east }

/-- `MapCache::getBestMapSector`. -/
def getBestMapSector (m : MapSectors) (x y : UInt32) : MapSectors :=
  if (m.getMapSector x y).isSome then m else m.linkNew x y

/-- The common part of `Map::setTile` and `MapCache::setBasicTile`: changes the floor of a square, in a
    sector that is made and linked if there is none. -/
def onFloor (m : MapSectors) (x y : UInt16) (z : Fin MAP_MAX_LAYERS) (f : Floor → Floor) : MapSectors :=
  (m.getBestMapSector x.toUInt32 y.toUInt32).update (index x.toUInt32 y.toUInt32) fun s => s.onFloor z f

/-- `Map::setTile`. The tile itself stands in a slot of its own, which nothing here reads. -/
def setTile (m : MapSectors) (x y : UInt16) (z : UInt8) : MapSectors :=
  if hz : z.toNat < MAP_MAX_LAYERS then m.onFloor x y ⟨z.toNat, hz⟩ id else m

/-- The end of `Map::placeCreature`: the creature stands on a tile and is entered in the sector of the tile. -/
def placeCreature (m : MapSectors) (c : Creature) : MapSectors :=
  if hz : c.position.z.toNat < MAP_MAX_LAYERS then
    m.update (index c.position.x.toUInt32 c.position.y.toUInt32) fun s =>
      if (s.floors ⟨c.position.z.toNat, hz⟩).isSome then s.addCreature c else s
  else m

/-- What builds a map. -/
inductive Op where
  | setTile (x y : UInt16) (z : UInt8)
  | setTileCache (x y : UInt16) (z : Fin MAP_MAX_LAYERS) (tile : Option BasicTile)
  | placeCreature (c : Creature)

def step (m : MapSectors) : Op → MapSectors
  | .setTile x y z => m.setTile x y z
  | .setTileCache x y z tile => m.onFloor x y z fun f => f.setTileCache x y tile
  | .placeCreature c => m.placeCreature c

end MapSectors
end CrystalServer

/-! ## The cache of map items and tiles

`static_tryGetItemFromCache`, `static_tryGetTileFromCache`, `setBasicTile` and `tryReplaceItemFromCache`
(`map/mapcache.cpp`). `H` stands for `size_t`: `seed` is the hash that everything starts from. -/

namespace CrystalServer
open Lib

/-- The static tables `items` and `tiles`, and the sectors of the map. -/
structure MapCache (H : Type) [DecidableEq H] where
  items : Table H BasicItem
  tiles : Table H BasicTile
  mapSectors : MapSectors

namespace MapCache
variable {H : Type} [DecidableEq H] (hash_combine : H → HashValue → H) (seed : H)

def empty : MapCache H := ⟨∅, ∅, .empty⟩

/-- `BasicItem::hash()`. -/
def itemHash (item : BasicItem) : H := item.hash hash_combine seed

/-- `BasicTile::hash()`. -/
def tileHash (tile : BasicTile) : H := tile.hash hash_combine seed

/-- `MapCache::tryReplaceItemFromCache`. -/
def tryReplaceItemFromCache (m : MapCache H) (ref : Option BasicItem) : Option BasicItem × MapCache H :=
  match ref with
  | some item =>
    let r := tryEmplace (itemHash hash_combine seed) m.items item
    (some r.1, { m with items := r.2 })
  | none => (none, m)

/-- `static_tryGetTileFromCache`. -/
def tryGetTileFromCache (m : MapCache H) (ref : Option BasicTile) : Option BasicTile × MapCache H :=
  match ref with
  | some tile =>
    let r := tryEmplace (tileHash hash_combine seed) m.tiles tile
    (some r.1, { m with tiles := r.2 })
  | none => (none, m)

/-- `MapCache::setBasicTile`. -/
def setBasicTile (m : MapCache H) (x y : UInt16) (z : UInt8) (newTile : Option BasicTile) : MapCache H :=
  if hz : z.toNat < MAP_MAX_LAYERS then
    let r := tryGetTileFromCache hash_combine seed m newTile
    { r.2 with mapSectors := r.2.mapSectors.onFloor x y ⟨z.toNat, hz⟩ fun f => f.setTileCache x y r.1 }
  else m

/-- What the tile cache holds for a square. -/
def getTileCache (m : MapCache H) (x y : UInt16) (z : Fin MAP_MAX_LAYERS) : Option BasicTile := do
  let sector ← m.mapSectors.getMapSector x.toUInt32 y.toUInt32
  let floor ← sector.floors z
  floor.getTileCache x y

/-- A call on the cache. -/
inductive Op where
  | tryReplaceItemFromCache (ref : Option BasicItem)
  | setBasicTile (x y : UInt16) (z : UInt8) (newTile : Option BasicTile)

/-- The state after a call. -/
def step (m : MapCache H) : Op → MapCache H
  | .tryReplaceItemFromCache ref => (tryReplaceItemFromCache hash_combine seed m ref).2
  | .setBasicTile x y z newTile => setBasicTile hash_combine seed m x y z newTile

end MapCache
end CrystalServer
