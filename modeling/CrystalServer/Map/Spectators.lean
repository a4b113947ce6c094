import CrystalServer.Map.Sector
import CrystalServer.Lib.Run
import Mathlib.Algebra.Group.Int.Defs

/-! # Spectators

`Spectators::getSpectators`, `checkCache` and `find` (`map/spectators.cpp`). The three flags `onlyPlayers`,
`onlyMonsters` and `onlyNpcs` come from one template parameter, so one kind or none stands for them. Sums of
`int32_t` are exact: one that overflows has no value in the source. -/

namespace CrystalServer

/-- `static_cast<uint32_t>` of an `int32_t`. -/
def castUInt32 (n : Int) : Int := n % 2 ^ 32

/-- `static_cast<int8_t>`. -/
def castInt8 (n : Int) : Int := n.bmod 256

/-- `static_cast<uint8_t>`. -/
def castUInt8 (n : Int) : Int := n % 256

/-- `Position::getOffsetZ`. -/
def Position.getOffsetZ (p1 p2 : Position) : Int := p1.z.toNat - p2.z.toNat

/-- The range of a search around its centre. -/
structure Range where
  minRangeX : Int
  maxRangeX : Int
  minRangeY : Int
  maxRangeY : Int
  deriving DecidableEq

/-- `SpectatorsCache::FloorData`. -/
structure FloorData where
  floor : Option (List Creature)
  multiFloor : Option (List Creature)

/-- `SpectatorsCache`. -/
structure SpectatorsCache where
  range : Range
  creatures : FloorData
  monsters : FloorData
  npcs : FloorData
  players : FloorData

namespace MapSector

/-- The list of a sector that a search goes through. -/
def nodeList (s : MapSector) : Option CreatureKind → List Creature
  | some .player => s.player_list
  | some .monster => s.monster_list
  | some .npc => s.npc_list
  | none => s.creature_list

end MapSector

namespace SpectatorsCache

def data (cache : SpectatorsCache) : Option CreatureKind → FloorData
  | some .player => cache.players
  | some .monster => cache.monsters
  | some .npc => cache.npcs
  | none => cache.creatures

/-- An entry with no list filled. -/
def empty (range : Range) : SpectatorsCache :=
  ⟨range, ⟨none, none⟩, ⟨none, none⟩, ⟨none, none⟩, ⟨none, none⟩⟩

end SpectatorsCache

namespace FloorData

def list (d : FloorData) (multifloor : Bool) : Option (List Creature) :=
  if multifloor then d.multiFloor else d.floor

def setList (d : FloorData) (multifloor : Bool) (l : List Creature) : FloorData :=
  if multifloor then { d with multiFloor := some l } else { d with floor := some l }

end FloorData

namespace SpectatorsCache

/-- Fills the list of the entry for a kind and a floor mode. -/
def setList (cache : SpectatorsCache) (multifloor : Bool) (l : List Creature) : Option CreatureKind → SpectatorsCache
  | some .player => { cache with players := cache.players.setList multifloor l }
  | some .monster => { cache with monsters := cache.monsters.setList multifloor l }
  | some .npc => { cache with npcs := cache.npcs.setList multifloor l }
  | none => { cache with creatures := cache.creatures.setList multifloor l }

end SpectatorsCache

namespace Spectators

/-! ### The search -/

/-- `minRangeZ` and `maxRangeZ` of a search. -/
def rangeZ (centerPos : Position) (multifloor : Bool) : Int × Int :=
  let z : Int := centerPos.z.toNat
  if multifloor then
    if z > MAP_INIT_SURFACE_LAYER then
      (castUInt8 (max (castInt8 (z - MAP_LAYER_VIEW_LIMIT)) 0),
        castUInt8 (min (castInt8 (z + MAP_LAYER_VIEW_LIMIT)) (MAP_MAX_LAYERS - 1)))
    else if z = MAP_INIT_SURFACE_LAYER - 1 then (0, MAP_INIT_SURFACE_LAYER - 1 + MAP_LAYER_VIEW_LIMIT)
    else if z = MAP_INIT_SURFACE_LAYER then (0, MAP_INIT_SURFACE_LAYER + MAP_LAYER_VIEW_LIMIT)
    else (0, MAP_INIT_SURFACE_LAYER)
  else (z, z)

/-- `std::min<int32_t>(0xFFFF, std::max<int32_t>(0, n))`. -/
def clampCoordinate (n : Int) : Nat := (min 0xFFFF (max 0 n)).toNat

/-- The first square of the sector of a coordinate. -/
def sectorStart (n : Nat) : Nat := n - (n &&& SECTOR_MASK)

/-- How often `for (n = start; n <= last; n += SECTOR_SIZE)` goes round, for two first squares of sectors. -/
def rounds (start last : Nat) : Nat := (last + SECTOR_SIZE - start) / SECTOR_SIZE

/-- The inner loop: the sectors of a row from `nx` on. It follows the link of a sector that exists and looks
    the next one up where there is none. -/
def sectorsEast (m : MapSectors) (ny : Nat) : Nat → Nat → Option MapSector → List MapSector
  | 0, _, _ => []
  | n + 1, nx, some sectorE => sectorE :: sectorsEast m ny n (nx + SECTOR_SIZE) (sectorE.sectorE.bind m)
  | n + 1, nx, none =>
    sectorsEast m ny n (nx + SECTOR_SIZE) (m.getMapSector (.ofNat (nx + SECTOR_SIZE)) (.ofNat ny))

/-- The outer loop: the rows from `ny` on. -/
def sectorsSouth (m : MapSectors) (startx1 columns : Nat) : Nat → Nat → Option MapSector → List MapSector
  | 0, _, _ => []
  | n + 1, ny, sectorS =>
    let next := match sectorS with
      | some s => s.sectorS.bind m
      | none => m.getMapSector (.ofNat startx1) (.ofNat (ny + SECTOR_SIZE))
    sectorsEast m ny columns startx1 sectorS ++ sectorsSouth m startx1 columns n (ny + SECTOR_SIZE) next

/-- The test on each creature of a sector. -/
def sees (centerPos : Position) (multifloor : Bool) (range : Range) (c : Creature) : Bool :=
  let (minRangeZ, maxRangeZ) := rangeZ centerPos multifloor
  let min_y := centerPos.y.toNat + range.minRangeY
  let min_x := centerPos.x.toNat + range.minRangeX
  let max_y := centerPos.y.toNat + range.maxRangeY
  let max_x := centerPos.x.toNat + range.maxRangeX
  let width := castUInt32 (max_x - min_x)
  let height := castUInt32 (max_y - min_y)
  let depth := castUInt32 (maxRangeZ - minRangeZ)
  let cpos := c.position
  let offsetZ := centerPos.getOffsetZ cpos
  castUInt32 (cpos.z.toNat - minRangeZ) ≤ depth ∧
    castUInt32 (cpos.x.toNat - offsetZ - min_x) ≤ width ∧ castUInt32 (cpos.y.toNat - offsetZ - min_y) ≤ height

/-- `Spectators::getSpectators`. -/
def getSpectators (m : MapSectors) (centerPos : Position) (multifloor : Bool) (only : Option CreatureKind)
    (range : Range) : List Creature :=
  let (minRangeZ, maxRangeZ) := rangeZ centerPos multifloor
  let minoffset := centerPos.z.toNat - maxRangeZ
  let x1 := clampCoordinate (centerPos.x.toNat + range.minRangeX + minoffset)
  let y1 := clampCoordinate (centerPos.y.toNat + range.minRangeY + minoffset)
  let maxoffset := centerPos.z.toNat - minRangeZ
  let x2 := clampCoordinate (centerPos.x.toNat + range.maxRangeX + maxoffset)
  let y2 := clampCoordinate (centerPos.y.toNat + range.maxRangeY + maxoffset)
  let startx1 := sectorStart x1
  let starty1 := sectorStart y1
  let endx2 := sectorStart x2
  let endy2 := sectorStart y2
  let startSector := m.getMapSector (.ofNat startx1) (.ofNat starty1)
  let sectors := sectorsSouth m startx1 (rounds startx1 endx2) (rounds starty1 endy2) starty1 startSector
  sectors.flatMap fun s => (s.nodeList only).filter (sees centerPos multifloor range)

/-! ### The cache -/

/-- The arguments of `Spectators::find`. -/
structure Query where
  centerPos : Position
  multifloor : Bool
  only : Option CreatureKind
  minRangeX : Int32
  maxRangeX : Int32
  minRangeY : Int32
  maxRangeY : Int32
  useCache : Bool

/-- The range that is searched, with the view port for what is 0. -/
def Query.range (q : Query) : Range where
  minRangeX := if q.minRangeX = 0 then -MAP_MAX_VIEW_PORT_X else -q.minRangeX.toInt
  maxRangeX := if q.maxRangeX = 0 then MAP_MAX_VIEW_PORT_X else q.maxRangeX.toInt
  minRangeY := if q.minRangeY = 0 then -MAP_MAX_VIEW_PORT_Y else -q.minRangeY.toInt
  maxRangeY := if q.maxRangeY = 0 then MAP_MAX_VIEW_PORT_Y else q.maxRangeY.toInt

/-- `spectatorsCache`. -/
abbrev Cache := Position → Option SpectatorsCache

def clearCache : Cache := fun _ => none

def Cache.put (cache : Cache) (centerPos : Position) (entry : SpectatorsCache) : Cache :=
  fun p => if p = centerPos then some entry else cache p

end Spectators

namespace Range

/-- The range goes beyond another one. -/
def exceeds (range cached : Range) : Bool :=
  range.minRangeX < cached.minRangeX ∨ range.maxRangeX > cached.maxRangeX ∨
    range.minRangeY < cached.minRangeY ∨ range.maxRangeY > cached.maxRangeY

def merge (range cached : Range) : Range where
  minRangeX := min range.minRangeX cached.minRangeX
  maxRangeX := max range.maxRangeX cached.maxRangeX
  minRangeY := min range.minRangeY cached.minRangeY
  maxRangeY := max range.maxRangeY cached.maxRangeY

/-- The distance test of `checkCache`. -/
def near (range : Range) (centerPos specPos : Position) : Bool :=
  ¬((centerPos.x.toNat - specPos.x.toNat : Int) < range.minRangeX ∨
    (centerPos.x.toNat - specPos.x.toNat : Int) > range.maxRangeX ∨
    (centerPos.y.toNat - specPos.y.toNat : Int) < range.minRangeY ∨
    (centerPos.y.toNat - specPos.y.toNat : Int) > range.maxRangeY)

end Range

namespace Spectators

/-- `Spectators::checkCache`: what it puts in, and `none` where it returns `false`. -/
def checkCache (specData : FloorData) (only : Option CreatureKind) (centerPos : Position)
    (checkDistance multifloor : Bool) (range : Range) : Option (List Creature) :=
  let list := if multifloor || specData.floor.isNone then specData.multiFloor else specData.floor
  let checkDistance := checkDistance || (!multifloor && specData.floor.isNone)
  list.map fun list =>
    if checkDistance then
      list.filter fun c => range.near centerPos c.position && (multifloor || c.position.z == centerPos.z) &&
        only.all (· == c.kind)
    else list

/-- The part of `find` that answers from an entry whose range holds the range asked for. -/
def fromCache (entry : SpectatorsCache) (q : Query) (range : Range) : Option (List Creature) :=
  let checkDistance : Bool := range ≠ entry.range
  match q.only with
  | some _ =>
    match checkCache (entry.data q.only) q.only q.centerPos checkDistance q.multifloor range with
    | some list => some list
    | none => checkCache entry.creatures q.only q.centerPos true q.multifloor range
  | none => checkCache entry.creatures none q.centerPos checkDistance q.multifloor range

/-- The part of `find` that searches and fills a list of the entry. -/
def search (m : MapSectors) (cache : Cache) (q : Query) (range : Range) (entry : SpectatorsCache) :
    List Creature × Cache :=
  let spectators := getSpectators m q.centerPos q.multifloor q.only range
  (spectators, cache.put q.centerPos (entry.setList q.multifloor spectators q.only))

/-- `Spectators::find`. -/
def find (m : MapSectors) (cache : Cache) (q : Query) : List Creature × Cache :=
  if !q.useCache then (getSpectators m q.centerPos q.multifloor q.only q.range, cache)
  else match cache q.centerPos with
    | some entry =>
      if q.range.exceeds entry.range then
        let range := q.range.merge entry.range
        search m cache q range { entry with range := range }
      else match fromCache entry q q.range with
        | some list => (list, cache)
        | none => search m cache q q.range entry
    | none => search m cache q q.range (.empty q.range)

/-- The cache after a call. -/
def step (m : MapSectors) (cache : Cache) (q : Query) : Cache := (find m cache q).2

end Spectators
end CrystalServer

/-! ## Creatures on the map

How a creature comes into the list of its sector, and into that of another one when it moves (`MapSector::removeCreature` in
`map/utils/mapsector.cpp`, the middle of `Map::moveCreature` in `map/map.cpp`, `Tile::removeCreature` in `items/tile.cpp`). -/

namespace CrystalServer

/-- `*iter = list.back(); list.pop_back()`, where `std::ranges::find` finds the creature. -/
def swapRemove (l : List Creature) (c : Creature) : List Creature :=
  match l.findIdx? (fun x => x = c), l.getLast? with
  | some i, some back => (l.set i back).dropLast
  | _, _ => l

namespace MapSector

/-- `MapSector::removeCreature`. -/
def removeCreature (s : MapSector) (c : Creature) : MapSector :=
  if c ∈ s.creature_list then
    let s := { s with creature_list := swapRemove s.creature_list c }
    match c.kind with
    | .player => { s with player_list := swapRemove s.player_list c }
    | .monster => { s with monster_list := swapRemove s.monster_list c }
    | .npc => { s with npc_list := swapRemove s.npc_list c }
  else s

/-- What the lists hold of a creature that stays in its sector: they point to it, wherever it stands. -/
def relocate (s : MapSector) (c c' : Creature) : MapSector :=
  let move := fun l : List Creature => l.map fun x => if x = c then c' else x
  { s with creature_list := move s.creature_list, player_list := move s.player_list, monster_list := move s.monster_list,
           npc_list := move s.npc_list }

end MapSector

namespace MapSectors

def sectorOf (p : Position) : UInt32 := index p.x.toUInt32 p.y.toUInt32

/-- The floor of a position is there, so that it may have a tile. -/
def hasFloor (m : MapSectors) (p : Position) : Bool :=
  if hz : p.z.toNat < MAP_MAX_LAYERS then (m (sectorOf p)).any fun s => (s.floors ⟨p.z.toNat, hz⟩).isSome else false

/-- The switch of the node ownership in `Map::moveCreature`. -/
def moveCreature (m : MapSectors) (c : Creature) (newPos : Position) : MapSectors :=
  let c' := { c with position := newPos }
  if sectorOf c.position ≠ sectorOf newPos then
    (m.update (sectorOf c.position) fun s => s.removeCreature c).update (sectorOf newPos) fun s => s.addCreature c'
  else m.update (sectorOf c.position) fun s => s.relocate c c'

end MapSectors

/-- A map with the creatures that stand on it. -/
structure Populated where
  sectors : MapSectors
  creatures : List Creature

namespace Populated

/-- What happens to a map: a creature that is new comes to a tile, or one that is there moves to a tile or leaves. -/
inductive Change where
  | setTile (x y : UInt16) (z : UInt8)
  | setTileCache (x y : UInt16) (z : Fin MAP_MAX_LAYERS) (tile : Option BasicTile)
  | placeCreature (c : Creature)
  | moveCreature (c : Creature) (newPos : Position)
  | removeCreature (c : Creature)

def step (p : Populated) : Change → Populated
  | .setTile x y z => { p with sectors := p.sectors.step (.setTile x y z) }
  | .setTileCache x y z tile => { p with sectors := p.sectors.step (.setTileCache x y z tile) }
  | .placeCreature c =>
    if p.sectors.hasFloor c.position ∧ ∀ c' ∈ p.creatures, c'.id ≠ c.id then
      ⟨p.sectors.placeCreature c, p.creatures ++ [c]⟩
    else p
  | .moveCreature c newPos =>
    if c ∈ p.creatures ∧ p.sectors.hasFloor newPos then
      ⟨p.sectors.moveCreature c newPos, p.creatures.map fun x => if x = c then { c with position := newPos } else x⟩
    else p
  | .removeCreature c =>
    if c ∈ p.creatures then
      ⟨p.sectors.update (MapSectors.sectorOf c.position) fun s => s.removeCreature c, p.creatures.filter (· ≠ c)⟩
    else p

def empty : Populated := ⟨.empty, []⟩

end Populated
end CrystalServer
