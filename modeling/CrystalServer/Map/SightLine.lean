import CrystalServer.Items.Tile
import CrystalServer.Map.Sector

/-! # Lines of sight

`Map::checkSightLine` and `Map::isSightClear` (`map/map.cpp`). For the distances of a throw an `int32_t` holds all values of a
line, so they are exact here. -/

namespace CrystalServer

/-- The tiles of a map, by sector, floor and square in the source. -/
structure Map where
  tiles : UInt16 → UInt16 → UInt8 → Option Tile

def Map.getTile (map : Map) (x y : UInt16) (z : UInt8) : Option Tile :=
  if x = 0 ∧ y = 0 ∧ z = 0 then none else if z.toNat ≥ MAP_MAX_LAYERS then none else map.tiles x y z

namespace Position

def getOffsetX (p1 p2 : Position) : Int := p1.x.toNat - p2.x.toNat

def getOffsetY (p1 p2 : Position) : Int := p1.y.toNat - p2.y.toNat

def getDistanceX (p1 p2 : Position) : Nat := (p1.getOffsetX p2).natAbs

def getDistanceY (p1 p2 : Position) : Nat := (p1.getOffsetY p2).natAbs

def getDistanceZ (p1 p2 : Position) : Nat := (p1.z.toNat - p2.z.toNat : Int).natAbs

/-- `Position::areInRange<deltax, deltay>`. -/
def areInRange (deltax deltay : Nat) (p1 p2 : Position) : Bool :=
  p1.getDistanceX p2 ≤ deltax ∧ p1.getDistanceY p2 ≤ deltay

end Position

namespace Sight

/-- A square of a floor, with coordinates as `int32_t`. -/
structure Square where
  x : Int
  y : Int
  deriving DecidableEq

def Square.of (p : Position) : Square := ⟨p.x.toNat, p.y.toNat⟩

/-- What `checkSightLine` computes before its loop. -/
structure Line where
  destination : Square
  stepX : Int
  stepY : Int
  a : Int
  b : Int
  c : Int

/-- `stepX` and `stepY`. -/
def stepTo (start destination : Int) : Int := if start < destination then 1 else if start = destination then 0 else -1

def line (start destination : Square) : Line :=
  let a := destination.y - start.y
  let b := start.x - destination.x
  ⟨destination, stepTo start.x destination.x, stepTo start.y destination.y, a, b, -(a * destination.x + b * destination.y)⟩

/-- How far a square is from the line, up to a factor. -/
def Line.off (l : Line) (x y : Int) : Nat := (l.a * x + l.b * y + l.c).natAbs

/-- The moves in one round of the loop. -/
def Line.move (l : Line) (start : Square) : Square :=
  let moveHorizontal := l.off (start.x + l.stepX) start.y
  let moveVertical := l.off start.x (start.y + l.stepY)
  let moveDiagonal := l.off (start.x + l.stepX) (start.y + l.stepY)
  let y :=
    if start.y ≠ l.destination.y ∧
      (start.x = l.destination.x ∨ moveHorizontal > moveVertical ∨ moveHorizontal > moveDiagonal)
    then start.y + l.stepY else start.y
  -- the second test reads the `y` of the first
  let x :=
    if start.x ≠ l.destination.x ∧ (y = l.destination.y ∨ moveVertical > moveHorizontal ∨ moveVertical > moveDiagonal)
    then start.x + l.stepX else start.x
  ⟨x, y⟩

/-- The loop, for so many rounds; `none` if they are not enough. -/
def Line.loop (l : Line) (blocks : Square → Bool) : Nat → Square → Option Bool
  | 0, _ => none
  | n + 1, start =>
    if start ≠ l.destination then
      let start := l.move start
      if start = l.destination then some true else if blocks start then some false else l.loop blocks n start
    else some true

def distance (start destination : Square) : Nat := (destination.x - start.x).natAbs + (destination.y - start.y).natAbs

/-! ### The loop in the widths of the source

A value that an `int32_t` does not hold wraps around. -/

/-- What `checkSightLine` computes before its loop, with `int32_t` values. -/
structure Line32 where
  destination : Position
  stepX : Int8
  stepY : Int8
  a : Int32
  b : Int32
  c : Int32

namespace Line32

def stepTo (start destination : UInt16) : Int8 := if start < destination then 1 else if start = destination then 0 else -1

/-- A coordinate in a product. -/
def coordinate (x : UInt16) : Int32 := .ofInt x.toNat

def of (start destination : Position) : Line32 :=
  let a := Int32.ofInt (destination.getOffsetY start)
  let b := Int32.ofInt (start.getOffsetX destination)
  ⟨destination, stepTo start.x destination.x, stepTo start.y destination.y, a, b,
    -(a * coordinate destination.x + b * coordinate destination.y)⟩

/-- `std::abs(a * x + b * y + c)`. -/
def off (l : Line32) (x y : Int32) : Int32 := (l.a * x + l.b * y + l.c).abs

/-- A coordinate `+=` a step. -/
def advance (x : UInt16) (step : Int8) : UInt16 := .ofInt (x.toNat + step.toInt)

/-- The moves in one round of the loop. -/
def move (l : Line32) (start : Position) : Position :=
  let nextX := coordinate start.x + l.stepX.toInt32
  let nextY := coordinate start.y + l.stepY.toInt32
  let moveHorizontal := l.off nextX (coordinate start.y)
  let moveVertical := l.off (coordinate start.x) nextY
  let moveDiagonal := l.off nextX nextY
  let y :=
    if start.y ≠ l.destination.y ∧
      (start.x = l.destination.x ∨ moveHorizontal > moveVertical ∨ moveHorizontal > moveDiagonal)
    then advance start.y l.stepY else start.y
  let x :=
    if start.x ≠ l.destination.x ∧ (y = l.destination.y ∨ moveVertical > moveHorizontal ∨ moveVertical > moveDiagonal)
    then advance start.x l.stepX else start.x
  ⟨x, y, start.z⟩

/-- The condition of the loop no longer holds. -/
def Done (l : Line32) (start : Position) : Prop := start.x = l.destination.x ∧ start.y = l.destination.y

instance (l : Line32) (start : Position) : Decidable (l.Done start) := inferInstanceAs (Decidable (_ ∧ _))

/-- The loop, for so many rounds, with the positions whose tile is looked at; `none` if the rounds are not enough. -/
def loop (l : Line32) (blocks : Position → Bool) : Nat → Position → Option (Bool × List Position)
  | 0, start => if l.Done start then some (true, []) else none
  | n + 1, start =>
    if l.Done start then some (true, [])
    else if l.Done (l.move start) then some (true, [])
    else if blocks (l.move start) then some (false, [l.move start])
    else (l.loop blocks n (l.move start)).map fun r => (r.1, l.move start :: r.2)

end Line32

end Sight

namespace Map
open Sight
variable (map : Map)

/-- The test on a tile in `checkSightLine`. -/
def blocksProjectile (z : UInt8) (s : Square) : Bool :=
  (map.getTile (.ofInt s.x) (.ofInt s.y) z).any fun tile => tile.flags .BLOCKPROJECTILE

/-- `Map::checkSightLine`. -/
def checkSightLine (start destination : Position) : Bool :=
  let startSquare := Square.of start
  let destinationSquare := Square.of destination
  let rounds := distance startSquare destinationSquare + 1
  ((line startSquare destinationSquare).loop (map.blocksProjectile start.z) rounds startSquare).getD false

/-- The test on the tiles above the source and above the target. -/
def isObstacle (x y : UInt16) (z : UInt8) : Bool :=
  (map.getTile x y z).any fun tile => tile.ground.isSome || tile.flags .BLOCKPROJECTILE

/-- The loop at the end of `isSightClear`, for so many rounds. -/
def jumpFloors (toPos : Position) : Nat → UInt8 → Bool
  | 0, _ => true
  | n + 1, startZ =>
    if startZ = toPos.z then true
    else if map.isObstacle toPos.x toPos.y startZ then false else jumpFloors toPos n (startZ + 1)

/-- `Map::isSightClear`. -/
def isSightClear (fromPos toPos : Position) (floorCheck : Bool) : Bool :=
  if floorCheck ∧ fromPos.z ≠ toPos.z then false
  else if fromPos.z = toPos.z ∧ (fromPos.areInRange 1 1 toPos ∨ (!floorCheck ∧ fromPos.z = 0)) then true
  else if fromPos.z > toPos.z ∧ fromPos.getDistanceZ toPos > 1 then false
  else
    let sightClear := map.checkSightLine fromPos toPos ||
      (fromPos.z = toPos.z && map.checkSightLine toPos fromPos)
    if floorCheck ∨ (fromPos.z = toPos.z ∧ sightClear) then sightClear
    else if sightClear ∧ fromPos.z ≤ toPos.z then map.jumpFloors toPos 256 fromPos.z
    else
      let aboveZ := fromPos.z - 1
      if map.isObstacle fromPos.x fromPos.y aboveZ ||
        !map.checkSightLine ⟨fromPos.x, fromPos.y, aboveZ⟩ ⟨toPos.x, toPos.y, toPos.z - 1⟩ then false
      else if fromPos.z > toPos.z then true
      else map.jumpFloors toPos 256 aboveZ

end Map
end CrystalServer
