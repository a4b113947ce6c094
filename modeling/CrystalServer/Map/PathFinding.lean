import CrystalServer.Creatures.Combat.CombatDamage
import CrystalServer.Creatures.Combat.Condition
import CrystalServer.Items.Cylinder
import CrystalServer.Map.SightLine

/-! # Path finding

The search of `Map::getPathMatchingCond` (`map/map.cpp`) over the nodes of `map/utils/astarnodes.cpp`, with the condition of
`creatures/creature.cpp`. A pointer to a node is its index in the table. The costs of at most `MAX_NODES` nodes stay within
`int_fast32_t`, so they are exact here. -/

namespace CrystalServer

/-- `Direction`. -/
inductive Direction where
  | NORTH | EAST | SOUTH | WEST | SOUTHWEST | SOUTHEAST | NORTHWEST | NORTHEAST
  deriving DecidableEq

/-- `getNextPosition`. -/
def getNextPosition (direction : Direction) (pos : Position) : Position :=
  match direction with
  | .NORTH => { pos with y := pos.y - 1 }
  | .SOUTH => { pos with y := pos.y + 1 }
  | .WEST => { pos with x := pos.x - 1 }
  | .EAST => { pos with x := pos.x + 1 }
  | .SOUTHWEST => { pos with x := pos.x - 1, y := pos.y + 1 }
  | .NORTHWEST => { pos with x := pos.x - 1, y := pos.y - 1 }
  | .NORTHEAST => { pos with x := pos.x + 1, y := pos.y - 1 }
  | .SOUTHEAST => { pos with x := pos.x + 1, y := pos.y + 1 }

/-- `FindPathParams`. -/
structure FindPathParams where
  fullPathSearch : Bool := true
  clearSight : Bool := true
  keepDistance : Bool := false
  maxSearchDist : Int := 0
  minTargetDist : Int := -1
  maxTargetDist : Int := -1

/-- The two functions of a path condition. The first also writes `bestMatchDist`. -/
structure PathingCondition where
  call : Position → Position → FindPathParams → Int → Bool × Int
  isInRange : Position → Position → FindPathParams → Bool

namespace FrozenPathingConditionCall
variable (map : Map) (targetPos startPos testPos : Position) (fpp : FindPathParams)

def isInRange : Bool :=
  let testX : Int := testPos.x.toNat
  let testY : Int := testPos.y.toNat
  let targetX : Int := targetPos.x.toNat
  let targetY : Int := targetPos.y.toNat
  if fpp.fullPathSearch then
    !(testX > targetX + fpp.maxTargetDist || testX < targetX - fpp.maxTargetDist ||
      testY > targetY + fpp.maxTargetDist || testY < targetY - fpp.maxTargetDist)
  else
    let dx := startPos.getOffsetX targetPos
    let dxMax := if dx ≥ 0 then fpp.maxTargetDist else 0
    let dxMin := if dx ≤ 0 then fpp.maxTargetDist else 0
    let dy := startPos.getOffsetY targetPos
    let dyMax := if dy ≥ 0 then fpp.maxTargetDist else 0
    let dyMin := if dy ≤ 0 then fpp.maxTargetDist else 0
    !(testX > targetX + dxMax || testX < targetX - dxMin || testY > targetY + dyMax || testY < targetY - dyMin)

/-- `operator()`. -/
def call (bestMatchDist : Int) : Bool × Int :=
  if !isInRange targetPos startPos testPos fpp then (false, bestMatchDist)
  else if fpp.clearSight && !map.isSightClear testPos targetPos true then (false, bestMatchDist)
  else
    let testDist : Int := max (targetPos.getDistanceX testPos) (targetPos.getDistanceY testPos)
    if fpp.maxTargetDist = 1 then
      (!(testDist < fpp.minTargetDist || testDist > fpp.maxTargetDist), bestMatchDist)
    else if testDist ≤ fpp.maxTargetDist then
      if testDist < fpp.minTargetDist then (false, bestMatchDist)
      else if testDist = fpp.maxTargetDist then (true, 0)
      else if testDist > bestMatchDist then (true, testDist)
      else (false, bestMatchDist)
    else (false, bestMatchDist)

def condition : PathingCondition where
  call startPos testPos fpp bestMatchDist := call map targetPos startPos testPos fpp bestMatchDist
  isInRange startPos testPos fpp := isInRange targetPos startPos testPos fpp

end FrozenPathingConditionCall

/-- `Combat::DamageToConditionType`. The `case CONDITION_AGONY` is no value of `CombatType_t`. -/
def Combat.damageToConditionType : CombatType → ConditionType_t
  | .FIREDAMAGE => .FIRE
  | .ENERGYDAMAGE => .ENERGY
  | .DROWNDAMAGE => .DROWN
  | .EARTHDAMAGE => .POISON
  | .ICEDAMAGE => .FREEZING
  | .HOLYDAMAGE => .DAZZLED
  | .DEATHDAMAGE => .CURSED
  | .PHYSICALDAMAGE => .BLEEDING
  | _ => .NONE

/-- A creature that looks for a path, with what it asks of the tiles. `T` are the pointers to tiles. -/
structure Walker (T : Type) where
  position : Position
  isRemoved : Bool
  getTile : Option T
  /-- `Tile::queryAdd` for the creature, with the flags of `canWalkTo`. -/
  queryAdd : T → ReturnValue
  getTopVisibleCreature : T → Option CreatureRef
  /-- The combat type of the field on a tile. -/
  getFieldItem : T → Option Combat.CombatType
  isImmune : Combat.CombatType → Bool
  hasCondition : ConditionType_t → Bool
  /-- `canWalkOnFieldType` of a monster. -/
  getMonster : Option (Combat.CombatType → Bool)

structure AStarNode where
  parent : Option Nat := none
  f : Int := 0
  g : Int := 0
  c : Int := 0
  x : UInt16 := 0
  y : UInt16 := 0

structure AStarNodes where
  nodes : Nat → AStarNode
  closedNodes : Int
  curNode : Nat
  openNodes : Nat → Bool

namespace AStarNodes

def MAX_NODES : Nat := 512
def MAP_NORMALWALKCOST : Int := 10
def MAP_DIAGONALWALKCOST : Int := 25
def INT32_MAX : Int := 2147483647

/-- The constructor. -/
def start (x y : UInt16) (extraCost : Int) : AStarNodes where
  nodes i := if i = 0 then ⟨none, 0, 0, extraCost, x, y⟩ else {}
  closedNodes := 0
  curNode := 1
  openNodes i := i = 0

variable (s : AStarNodes)

/-- `none` where it returns `false`. -/
def createOpenNode (parent : Nat) (x y : UInt16) (f heuristic extraCost : Int) : Option AStarNodes :=
  if s.curNode ≥ MAX_NODES then none
  else some { s with
    nodes := Function.update s.nodes s.curNode ⟨some parent, f, heuristic, extraCost, x, y⟩
    curNode := s.curNode + 1
    openNodes := Function.update s.openNodes s.curNode true }

/-- `total_cost`, an `int32_t`. -/
def totalCost (i : Nat) : Int := ((s.nodes i).f + (s.nodes i).g).bmod (2 ^ 32)

/-- `getBestNode` of the builds without vector instructions. -/
def getBestNode : Option Nat :=
  ((List.range s.curNode).foldl (fun (best : Option Nat × Int) pos =>
    if s.openNodes pos && s.totalCost pos < best.2 then (some pos, s.totalCost pos) else best) (none, INT32_MAX)).1

/-- `calculatedNodes`. -/
def calculatedNode (i : Nat) : Int := if s.openNodes i then s.totalCost i else INT32_MAX

/-- `minindices` and `minvalues` of a lane, where there are so many. -/
def laneMinimum (lanes lane : Nat) : Nat × Int :=
  (List.range ((s.curNode - 1) / lanes)).foldl (fun best k =>
    let pos := (k + 1) * lanes + lane
    if s.calculatedNode pos < best.2 then (pos, s.calculatedNode pos) else best) (lane, s.calculatedNode lane)

/-- `getBestNode` of the builds with vector instructions, with 16, 8 or 4 lanes. -/
def getBestNodeOfLanes (lanes : Nat) : Option Nat :=
  let best_node := ((List.range lanes).foldl (fun best lane =>
    let minimum := s.laneMinimum lanes lane
    if minimum.2 < best.2 then minimum else best) (s.laneMinimum lanes 0)).1
  if s.openNodes best_node then some best_node else none

def closeNode (node : Nat) : AStarNodes :=
  { s with openNodes := Function.update s.openNodes node false, closedNodes := s.closedNodes + 1 }

def openNode (node : Nat) : AStarNodes :=
  { s with
    closedNodes := s.closedNodes - if s.openNodes node then 0 else 1
    openNodes := Function.update s.openNodes node true }

/-- The writes of a cheaper way to a node. -/
def setParent (node parent : Nat) (f : Int) : AStarNodes :=
  { s with nodes := Function.update s.nodes node { s.nodes node with f := f, parent := some parent } }

/-- No two nodes have the same square, so the order of the comparisons does not matter. -/
def getNodeByPosition (x y : UInt16) : Option Nat :=
  (List.range s.curNode).find? fun i => (s.nodes i).x = x ∧ (s.nodes i).y = y

def getMapWalkCost (node : AStarNode) (neighborPos : Position) : Int :=
  (((node.x.toNat - neighborPos.x.toNat : Int).natAbs + (node.y.toNat - neighborPos.y.toNat : Int).natAbs : Int) - 1) *
    MAP_DIAGONALWALKCOST + MAP_NORMALWALKCOST

def getTileWalkCost {T : Type} (creature : Walker T) (tile : Option T) : Int :=
  match tile with
  | none => 0
  | some tile =>
    let cost := if (creature.getTopVisibleCreature tile).isSome then MAP_NORMALWALKCOST * 4 else 0
    match creature.getFieldItem tile with
    | none => cost
    | some combatType =>
      if combatType ≠ .NONE ∧ !creature.isImmune combatType ∧
          !creature.hasCondition (Combat.damageToConditionType combatType) ∧
          creature.getMonster.any fun canWalkOnFieldType => !canWalkOnFieldType combatType
      then cost + MAP_NORMALWALKCOST * 18 else cost

end AStarNodes

/-- A build's `getBestNode`. They differ in which of the cheapest nodes they take. -/
structure BestNode where
  get : AStarNodes → Option Nat
  isOpen : ∀ s i, get s = some i → s.openNodes i

namespace PathFinding
open AStarNodes

/-- The tables of neighbours. -/
def dirNeighbors : Direction → List (Int × Int)
  | .NORTH => [(-1, 0), (0, 1), (1, 0), (1, 1), (-1, 1)]
  | .EAST => [(-1, 0), (0, 1), (0, -1), (-1, -1), (-1, 1)]
  | .SOUTH => [(-1, 0), (1, 0), (0, -1), (-1, -1), (1, -1)]
  | .WEST => [(0, 1), (1, 0), (0, -1), (1, -1), (1, 1)]
  | .SOUTHWEST => [(1, 0), (0, -1), (-1, -1), (1, -1), (1, 1)]
  | .SOUTHEAST => [(-1, 0), (0, -1), (-1, -1), (1, -1), (-1, 1)]
  | .NORTHWEST => [(0, 1), (1, 0), (1, -1), (1, 1), (-1, 1)]
  | .NORTHEAST => [(-1, 0), (0, 1), (-1, -1), (1, 1), (-1, 1)]

def allNeighbors : List (Int × Int) := [(-1, 0), (0, 1), (1, 0), (0, -1), (-1, -1), (1, -1), (1, 1), (-1, 1)]

/-- Where the parent lies. -/
def parentDirection (offset_x offset_y : Int) : Direction :=
  if offset_y = 0 then if offset_x = -1 then .WEST else .EAST
  else if offset_x = 0 then if offset_y = -1 then .NORTH else .SOUTH
  else if offset_y = -1 then if offset_x = -1 then .NORTHWEST else .NORTHEAST
  else if offset_x = -1 then .SOUTHWEST
  else .SOUTHEAST

def neighbors (nodes : AStarNodes) (node : AStarNode) : List (Int × Int) :=
  match node.parent with
  | none => allNeighbors
  | some parent =>
    dirNeighbors (parentDirection ((nodes.nodes parent).x.toNat - node.x.toNat) ((nodes.nodes parent).y.toNat - node.y.toNat))

/-- The direction for a step of the way back, as it goes into the list. -/
def stepDirection (dx dy : Int) : Option Direction :=
  if dx = 1 then if dy = 1 then some .NORTHWEST else if dy = -1 then some .SOUTHWEST else some .WEST
  else if dx = -1 then if dy = 1 then some .NORTHEAST else if dy = -1 then some .SOUTHEAST else some .EAST
  else if dy = 1 then some .NORTH
  else if dy = -1 then some .SOUTH
  else none

/-- The last loop, for so many nodes; `none` if they are not enough. -/
def walkBack (nodes : AStarNodes) : Nat → Option Nat → Int → Int → Option (List Direction)
  | _, none, _, _ => some []
  | 0, some _, _, _ => none
  | n + 1, some found, prevx, prevy =>
    let node := nodes.nodes found
    (walkBack nodes n node.parent node.x.toNat node.y.toNat).map
      ((stepDirection (node.x.toNat - prevx) (node.y.toNat - prevy)).toList ++ ·)

end PathFinding

/-- The arguments of `getPathMatchingCond`, the tiles of the map, and the build. -/
structure PathSearch (T : Type) where
  getTile : Position → Option T
  creature : Walker T
  targetPos : Position
  pathCondition : PathingCondition
  fpp : FindPathParams
  best : BestNode

namespace PathSearch
open AStarNodes PathFinding
variable {T : Type} [DecidableEq T] (q : PathSearch T)

/-- `Map::canWalkTo`. -/
def canWalkTo (pos : Position) : Option T :=
  if q.creature.isRemoved then none
  else
    let tile := q.getTile pos
    if q.creature.getTile ≠ tile ∧ ¬tile.any (q.creature.queryAdd · = .NOERROR) then none else tile

/-- Out of the square of `maxSearchDist`. -/
def leaves (pos : Position) : Prop :=
  q.fpp.maxSearchDist ≠ 0 ∧
    (q.creature.position.getDistanceX pos > q.fpp.maxSearchDist ∨
      q.creature.position.getDistanceY pos > q.fpp.maxSearchDist)

instance (pos : Position) : Decidable (q.leaves pos) := inferInstanceAs (Decidable (_ ∧ _))

def neighborPos (node : AStarNode) (offset : Int × Int) : Position :=
  ⟨.ofInt (node.x.toNat + offset.1), .ofInt (node.y.toNat + offset.2), q.creature.position.z⟩

/-- The guess of the cost that is left. -/
def heuristic (pos : Position) : Int :=
  let sX := q.targetPos.getDistanceX q.creature.position
  let sY := q.targetPos.getDistanceY q.creature.position
  let dX := q.targetPos.getDistanceX pos
  let dY := q.targetPos.getDistanceY pos
  ((dX - sX : Int) * 8) + ((dY - sY : Int) * 8) + (max dX dY : Nat) * 8

/-- One neighbour of node `n`, which is `node`; `none` if there is no room for it. -/
def visit (n : Nat) (node : AStarNode) (nodes : AStarNodes) (offset : Int × Int) : Option AStarNodes :=
  let pos := q.neighborPos node offset
  if q.leaves pos then some nodes
  else if q.fpp.keepDistance ∧ !q.pathCondition.isInRange q.creature.position pos q.fpp then some nodes
  else
    match nodes.getNodeByPosition pos.x pos.y with
    | some neighborNode =>
      let newf := node.f + getMapWalkCost node pos + (nodes.nodes neighborNode).c
      if (nodes.nodes neighborNode).f ≤ newf then some nodes
      else some ((nodes.setParent neighborNode n newf).openNode neighborNode)
    | none =>
      match q.canWalkTo pos with
      | none => some nodes
      | some tile =>
        let extraCost := getTileWalkCost q.creature (some tile)
        nodes.createOpenNode n pos.x pos.y (node.f + getMapWalkCost node pos + extraCost) (q.heuristic pos) extraCost

/-- All neighbours of a node, and whether there was room for them. -/
def expand (n : Nat) (node : AStarNode) : List (Int × Int) → AStarNodes → AStarNodes × Bool
  | [], nodes => (nodes, true)
  | offset :: offsets, nodes =>
    match q.visit n node nodes offset with
    | none => (nodes, false)
    | some nodes => expand n node offsets nodes

/-- The variables of the loop. -/
structure State where
  nodes : AStarNodes
  bestMatch : Int
  endPos : Position
  found : Option Nat

def start : State where
  nodes := .start q.creature.position.x q.creature.position.y
    (getTileWalkCost q.creature (q.getTile q.creature.position))
  bestMatch := 0
  endPos := ⟨0, 0, 0⟩
  found := none

/-- The test of the condition at node `n`. -/
def test (s : State) (n : Nat) : Bool × State :=
  let pos : Position := ⟨(s.nodes.nodes n).x, (s.nodes.nodes n).y, q.creature.position.z⟩
  let (accepted, bestMatch) := q.pathCondition.call q.creature.position pos q.fpp s.bestMatch
  if accepted then (true, { s with bestMatch := bestMatch, found := some n, endPos := pos })
  else (false, { s with bestMatch := bestMatch })

/-- One round of the loop. It goes on with a state, leaves the loop with one, or returns `false`. -/
def round (s : State) : State ⊕ Option State :=
  match q.best.get s.nodes with
  | none => .inr (s.found.map fun _ => s)
  | some n =>
    let (accepted, s) := q.test s n
    if accepted && s.bestMatch = 0 then .inr (some s)
    else
      let node := s.nodes.nodes n
      let (nodes, room) := q.expand n node (neighbors s.nodes node) s.nodes
      if !room && s.found.isNone then .inr none
      else
        let s := { s with nodes := nodes.closeNode n }
        if q.fpp.maxSearchDist ≠ 0 ∨ s.nodes.closedNodes < 100 then .inl s else .inr (some s)

/-- What comes after the loop. -/
def finish (dirList : List Direction) : Option State → Option (Bool × List Direction)
  | none => some (false, dirList)
  | some s =>
    match s.found with
    | none => some (false, dirList)
    | some found =>
      (walkBack s.nodes s.nodes.curNode (s.nodes.nodes found).parent s.endPos.x.toNat s.endPos.y.toNat).map
        fun path => (true, dirList ++ path)

/-- `Map::getPathMatchingCond`, with so many rounds of its first loop; `none` if they are not enough. -/
def getPathMatchingCond (rounds : Nat) (dirList : List Direction) : Option (Bool × List Direction) :=
  (Lib.loop q.round rounds q.start).bind (finish dirList)

end PathSearch
end CrystalServer
