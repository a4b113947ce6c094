import CrystalServer.Map.Sector
import CrystalServer.Network.TileDescription
import CrystalServer.Creatures.Party

/-! # What a client is sent of the map, and of the creatures on it

`ProtocolGame::checkCreatureAsKnown`, `removeCreature`, `GetMapDescription` and `GetFloorDescription`
(`server/network/protocol/protocolgame.cpp`). The description is the tiles of some floors, and between them how many squares
without a tile follow. The message has room: it is the bytes that are added. The numbers of the squares do not overflow. -/

/-! ### The creatures that the client knows -/

namespace CrystalServer

def MAX_KNOWN_CREATURES : Nat := 1300

/-- What a call reads of the game and of the player. -/
structure Surroundings where
  player : PlayerRef
  getCreatureByID : UInt32 → Option CreatureRef
  getPlayer : CreatureRef → Option PlayerRef
  getParty : PlayerRef → Option PartyRef
  canSee : CreatureRef → Bool

structure KnownCreatures where
  knownCreatureSet : Finset UInt32
  creatureOrder : List UInt32

namespace KnownCreatures

def removeCreature (s : KnownCreatures) (id : UInt32) : KnownCreatures :=
  ⟨s.knownCreatureSet.erase id, s.creatureOrder.filter (· ≠ id)⟩

/-- The creature is gone, or out of sight and, if it is a player, in another party. -/
def canBeRemoved (env : Surroundings) (creatureId : UInt32) : Bool :=
  match env.getCreatureByID creatureId with
  | none => true
  | some creature =>
    match env.getPlayer creature with
    | some checkPlayer => env.getParty checkPlayer != env.getParty env.player && !env.canSee creature
    | none => !env.canSee creature

/-- `checkCreatureAsKnown`, with what it leaves in `known` and in `removedKnown`. -/
def checkCreatureAsKnown (s : KnownCreatures) (env : Surroundings) (id removedKnown : UInt32) :
    KnownCreatures × Bool × UInt32 :=
  if id ∈ s.knownCreatureSet then (s, true, removedKnown)
  else
    let s : KnownCreatures := ⟨insert id s.knownCreatureSet, s.creatureOrder ++ [id]⟩
    if s.knownCreatureSet.card > MAX_KNOWN_CREATURES then
      match s.creatureOrder.find? fun creatureId => creatureId ≠ id && canBeRemoved env creatureId with
      | some creatureId => (s.removeCreature creatureId, false, creatureId)
      | none =>
        -- the list has an element, `id` at least
        let oldestCreature := s.creatureOrder.headD id
        (s.removeCreature oldestCreature, false, oldestCreature)
    else (s, false, 0)

end KnownCreatures

/-! ### The map -/

/-- What is written of a tile, one after the other: the effects of the old protocol, an item, or a creature with what
    `checkCreatureAsKnown` says of it. -/
inductive Written where
  | environment
  | item (item : Ref)
  | creature (creature : CreatureRef) (known : Bool) (removedKnown : UInt32)

/-- The connection, its player and the game, with the bytes that `AddItem` and `AddCreature` write. -/
structure MapView where
  oldProtocol : Bool
  position : Position
  id : CreatureRef
  canSeeCreature : CreatureRef → Bool
  canSeeCreature_self : canSeeCreature id = true
  surroundings : Surroundings
  getID : CreatureRef → UInt32
  getTile : UInt16 → UInt16 → UInt8 → Option Tile
  AddItem : Ref → List UInt8
  AddCreature : CreatureRef → Bool → UInt32 → List UInt8

/-- The message, the squares to be skipped and the known creatures, between two squares. -/
structure MapWriter where
  msg : List UInt8
  skip : Int
  known : KnownCreatures

namespace MapView
variable (view : MapView)

/-- The player, as the description of the tile at a position sees it. -/
def viewerAt (position : Position) : Viewer where
  id := view.id
  isHere := decide (position = view.position)
  canSeeCreature := view.canSeeCreature
  canSeeCreature_self := view.canSeeCreature_self

def encode : Written → List UInt8
  | .environment => [0, 0]
  | .item item => view.AddItem item
  | .creature creature known removedKnown => view.AddCreature creature known removedKnown

/-- `AddItem`, or `checkCreatureAsKnown` and `AddCreature`; of a known creature `removedKnown` is not read. -/
def writeThing (known : KnownCreatures) : Thing → KnownCreatures × Written
  | .item item => (known, .item item)
  | .creature creature =>
    let answer := known.checkCreatureAsKnown view.surroundings (view.getID creature) 0
    (answer.1, .creature creature answer.2.1 answer.2.2)

def writeThings (known : KnownCreatures) : List Thing → KnownCreatures × List Written
  | [] => (known, [])
  | thing :: things =>
    let first := view.writeThing known thing
    let rest := writeThings first.1 things
    (rest.1, first.2 :: rest.2)

/-- `GetTileDescription`, with the things that it writes. -/
def writeTile (known : KnownCreatures) (position : Position) (tile : Tile) : KnownCreatures × List Written :=
  let things := view.writeThings known (ProtocolGame.GetTileDescription (view.viewerAt position) tile)
  (things.1, (if view.oldProtocol then [.environment] else []) ++ things.2)

/-- The position that the numbers of a square are cast to. -/
def square (x y z : Int) : Position := ⟨.ofInt x, .ofInt y, .ofInt z⟩

/-- The body of the loops of `GetFloorDescription`. -/
def describeSquare (w : MapWriter) (position : Position) : MapWriter :=
  match view.getTile position.x position.y position.z with
  | some tile =>
    let msg := if w.skip ≥ 0 then w.msg ++ [.ofInt w.skip, 0xFF] else w.msg
    let written := view.writeTile w.known position tile
    ⟨msg ++ written.2.flatMap view.encode, 0, written.1⟩
  | none =>
    if w.skip = 0xFE then ⟨w.msg ++ [0xFF, 0xFF], -1, w.known⟩ else { w with skip := w.skip + 1 }

/-- `GetFloorDescription`. -/
def GetFloorDescription (w : MapWriter) (x y z width height offset : Int) : MapWriter :=
  (List.range width.toNat).foldl (fun w nx =>
    (List.range height.toNat).foldl (fun w ny => view.describeSquare w (square (x + nx + offset) (y + ny + offset) z)) w) w

/-- Where the floors begin and end, and the step between them. -/
def startz (z : Int) : Int := if z > MAP_INIT_SURFACE_LAYER then z - MAP_LAYER_VIEW_LIMIT else MAP_INIT_SURFACE_LAYER

def endz (z : Int) : Int :=
  if z > MAP_INIT_SURFACE_LAYER then min (MAP_MAX_LAYERS - 1) (z + MAP_LAYER_VIEW_LIMIT) else 0

def zstep (z : Int) : Int := if z > MAP_INIT_SURFACE_LAYER then 1 else -1

/-- The loop over the floors. -/
def floorBody (x y z width height : Int) (s : Int × MapWriter) : (Int × MapWriter) ⊕ MapWriter :=
  if s.1 ≠ endz z + zstep z then
    .inl (s.1 + zstep z, view.GetFloorDescription s.2 x y s.1 width height (z - s.1))
  else .inr s.2

/-- `GetMapDescription`, for so many rounds of the loop; what it adds to the message, and the known creatures. -/
def GetMapDescription (rounds : Nat) (known : KnownCreatures) (x y z width height : Int) :
    Option (List UInt8 × KnownCreatures) :=
  (Lib.loop (view.floorBody x y z width height) rounds (startz z, ⟨[], -1, known⟩)).map fun w =>
    (if w.skip ≥ 0 then w.msg ++ [.ofInt w.skip, 0xFF] else w.msg, w.known)

end MapView
end CrystalServer
