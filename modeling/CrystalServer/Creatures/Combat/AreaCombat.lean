import CrystalServer.Map.PathFinding
import Mathlib.Data.List.ProdSigma

/-! # The areas of spells

`MatrixArea` and the part of `AreaCombat` that turns a list of cells into an area for each direction
(`creatures/combat/combat.cpp`). The sides are those of Lua tables, so that no number comes near the bounds of its type; a
centre that is taken below zero is outside of its matrix there as well, where it wraps around. -/

namespace CrystalServer

structure MatrixArea where
  centerX : Int
  centerY : Int
  rows : Nat
  cols : Nat
  data : Nat → Nat → Bool

inductive MatrixOperation where
  | COPY | MIRROR | FLIP | ROTATE90 | ROTATE180 | ROTATE270
  deriving DecidableEq

namespace MatrixArea

def new (initRows initCols : Nat) : MatrixArea := ⟨0, 0, initRows, initCols, fun _ _ => false⟩

/-- A write to `data_`; `none` outside of it, where `setValue` throws and the other writes go anywhere. -/
def write (area : MatrixArea) (row col : Int) (value : Bool) : Option MatrixArea :=
  if 0 ≤ row ∧ row < area.rows ∧ 0 ≤ col ∧ col < area.cols then
    some { area with data := fun y x => if y = row.toNat ∧ x = col.toNat then value else area.data y x }
  else none

def setCenter (area : MatrixArea) (y x : Int) : MatrixArea := { area with centerX := x, centerY := y }

end MatrixArea

namespace AreaCombat

/-- The writes of the loops of `copyArea`: row, column and value. -/
def copyWrites (input output : MatrixArea) (op : MatrixOperation) : List (Int × Int × Bool) :=
  let rotate (a b c d : Int) : List (Int × Int × Bool) :=
    let rotateCenterX : Int := (output.cols / 2 : Nat) - 1
    let rotateCenterY : Int := (output.rows / 2 : Nat) - 1
    (List.range input.cols ×ˢ List.range input.rows).map fun cell =>
      let newX := cell.1 - input.centerX
      let newY := cell.2 - input.centerY
      let rotatedX := newX * a + newY * b
      let rotatedY := newX * c + newY * d
      (rotatedY + rotateCenterY, rotatedX + rotateCenterX, input.data cell.2 cell.1)
  match op with
  | .COPY => (List.range input.rows ×ˢ List.range input.cols).map fun cell => (cell.1, cell.2, input.data cell.1 cell.2)
  | .MIRROR =>
    (List.range input.rows ×ˢ List.range input.cols).map fun cell =>
      (cell.1, cell.2, input.data cell.1 (input.cols - 1 - cell.2))
  | .FLIP =>
    (List.range input.cols ×ˢ List.range input.rows).map fun cell =>
      (cell.2, cell.1, input.data (input.rows - 1 - cell.2) cell.1)
  -- the cosine, the sine with its sign changed, the sine and the cosine
  | .ROTATE90 => rotate 0 (-1) 1 0
  | .ROTATE180 => rotate (-1) 0 0 (-1)
  | .ROTATE270 => rotate 0 1 (-1) 0

/-- The centre that `copyArea` sets, `y` first. -/
def copyCenter (input output : MatrixArea) (op : MatrixOperation) : Int × Int :=
  match op with
  | .COPY => (input.centerY, input.centerX)
  | .MIRROR => (input.centerY, input.rows - 1 - input.centerX)
  | .FLIP => (input.cols - 1 - input.centerY, input.centerX)
  | .ROTATE90 | .ROTATE180 | .ROTATE270 => ((output.rows / 2 : Nat) - 1, (output.cols / 2 : Nat) - 1)

def copyArea (input output : MatrixArea) (op : MatrixOperation) : Option MatrixArea := do
  let written ← (copyWrites input output op).foldlM (fun area w => area.write w.1 w.2.1 w.2.2) output
  let center := copyCenter input output op
  some (written.setCenter center.1 center.2)

/-- What `createArea` does with a value of the list. -/
def createCell (value : UInt32) (area : MatrixArea) (x y : Nat) : Option MatrixArea :=
  (if value = 1 ∨ value = 3 then area.write y x true else some area).map fun area =>
    if value = 2 ∨ value = 3 then area.setCenter y x else area

/-- The loop of `createArea`. -/
def createLoop (cols : Nat) : List UInt32 → MatrixArea → Nat → Nat → Option MatrixArea
  | [], area, _, _ => some area
  | value :: list, area, x, y => do
    let area ← createCell value area x y
    if cols = x + 1 then createLoop cols list area 0 (y + 1) else createLoop cols list area (x + 1) y

def createArea (list : List UInt32) (rows : Nat) : Option MatrixArea :=
  let cols := if rows = 0 then 0 else list.length / rows
  createLoop cols list (.new rows cols) 0 0

end AreaCombat

structure AreaCombat where
  areas : Direction → Option MatrixArea
  hasExtArea : Bool

namespace AreaCombat

/-- The default constructor. -/
def empty : AreaCombat := ⟨fun _ => none, false⟩

def setupArea (this : AreaCombat) (list : List UInt32) (rows : Nat) : Option AreaCombat := do
  let northArea ← createArea list rows
  let maxOutput := max northArea.cols northArea.rows * 2
  let southArea ← copyArea northArea (.new maxOutput maxOutput) .ROTATE180
  let eastArea ← copyArea northArea (.new maxOutput maxOutput) .ROTATE90
  let westArea ← copyArea northArea (.new maxOutput maxOutput) .ROTATE270
  some { this with
    areas := fun
      | .NORTH => some northArea
      | .SOUTH => some southArea
      | .EAST => some eastArea
      | .WEST => some westArea
      | direction => this.areas direction }

def setupExtArea (this : AreaCombat) (list : List UInt32) (rows : Nat) : Option AreaCombat :=
  if list.isEmpty then some this
  else do
    let nwArea ← createArea list rows
    let maxOutput := max nwArea.cols nwArea.rows * 2
    let neArea ← copyArea nwArea (.new maxOutput maxOutput) .MIRROR
    let swArea ← copyArea nwArea (.new maxOutput maxOutput) .FLIP
    let seArea ← copyArea swArea (.new maxOutput maxOutput) .MIRROR
    some {
      hasExtArea := true
      areas := fun
        | .NORTHWEST => some nwArea
        | .SOUTHWEST => some swArea
        | .NORTHEAST => some neArea
        | .SOUTHEAST => some seArea
        | direction => this.areas direction }

end AreaCombat
end CrystalServer
