import CrystalServer.Creatures.Combat.AreaCombat
import Mathlib.Algebra.BigOperators.Group.Finset.Basic

/-! # The shape of a spell area in each direction

A copy of an area writes each cell at a place of its own, and sets a centre. The offsets from the centre that are marked are
then those of the input, turned, and moved by as much as the centre is out of place. A rotation turns about the centre. A
mirror takes the centre from the wrong side of the matrix: it is out of place by the difference of the sides. -/

namespace CrystalServer
open Finset

namespace MatrixArea
variable {area : MatrixArea}

/-- The offsets from the centre that are marked, `x` first. -/
def marked (area : MatrixArea) : Finset (Int × Int) :=
  ((range area.rows ×ˢ range area.cols).filter fun cell => area.data cell.1 cell.2).image
    fun cell => (cell.2 - area.centerX, cell.1 - area.centerY)

/-- The centre is a cell. -/
def Centered (area : MatrixArea) : Prop :=
  0 ≤ area.centerX ∧ area.centerX < area.cols ∧ 0 ≤ area.centerY ∧ area.centerY < area.rows

theorem mem_marked {o : Int × Int} : o ∈ area.marked ↔ ∃ y x : Nat, y < area.rows ∧ x < area.cols ∧
    area.data y x = true ∧ o = (x - area.centerX, y - area.centerY) := by
  simp only [marked, mem_image, mem_filter, mem_product, mem_range, Prod.exists]
  constructor
  · rintro ⟨y, x, ⟨⟨hy, hx⟩, hdata⟩, rfl⟩
    exact ⟨y, x, hy, hx, hdata, rfl⟩
  · rintro ⟨y, x, hy, hx, hdata, rfl⟩
    exact ⟨y, x, ⟨⟨hy, hx⟩, hdata⟩, rfl⟩

/-- A place inside. -/
def Inside (area : MatrixArea) (row col : Int) : Prop := 0 ≤ row ∧ row < area.rows ∧ 0 ≤ col ∧ col < area.cols

/-- Writes inside, with one value for each place: the places that are written hold these values, the others what they
    held. -/
theorem foldlM_write {ws : List (Int × Int × Bool)} (hin : ∀ w ∈ ws, area.Inside w.1 w.2.1)
    (hsame : ∀ v ∈ ws, ∀ w ∈ ws, v.1 = w.1 → v.2.1 = w.2.1 → v.2.2 = w.2.2) :
    ∃ data, ws.foldlM (fun area w => area.write w.1 w.2.1 w.2.2) area = some { area with data := data } ∧
      ∀ y x : Nat, data y x = true ↔ ((y : Int), (x : Int), true) ∈ ws ∨
        (area.data y x = true ∧ ∀ w ∈ ws, ¬(w.1 = y ∧ w.2.1 = x)) := by
  induction ws generalizing area with
  | nil => exact ⟨area.data, rfl, by simp⟩
  | cons w ws ih =>
    obtain ⟨row, col, value⟩ := w
    have hw : area.Inside row col := hin _ List.mem_cons_self
    let next : MatrixArea :=
      { area with data := fun y x => if y = row.toNat ∧ x = col.toNat then value else area.data y x }
    have hwrite : area.write row col value = some next := if_pos hw
    have hplace : ∀ y x : Nat, (y = row.toNat ∧ x = col.toNat) ↔ (row = y ∧ col = x) := by
      obtain ⟨hrow, -, hcol, -⟩ := hw
      intro y x
      omega
    have hin' : ∀ v ∈ ws, next.Inside v.1 v.2.1 := fun v hv => hin v (List.mem_cons_of_mem _ hv)
    obtain ⟨data, hfold, hdata⟩ := ih hin' fun u hu v hv => hsame u (List.mem_cons_of_mem _ hu) v (List.mem_cons_of_mem _ hv)
    refine ⟨data, ?_, fun y x => ?_⟩
    · rw [List.foldlM_cons, hwrite]
      exact hfold
    · rw [hdata]
      by_cases hyx : row = y ∧ col = x
      · -- the place is written now, and perhaps again with the same value
        have hnext : next.data y x = value := if_pos ((hplace y x).mpr hyx)
        have hrest : ∀ w ∈ ws, w.1 = y → w.2.1 = x → w.2.2 = value := fun w hw hy hx =>
          (hsame _ List.mem_cons_self w (List.mem_cons_of_mem _ hw) (hyx.1.trans hy.symm) (hyx.2.trans hx.symm)).symm
        obtain ⟨rfl, rfl⟩ := hyx
        rw [hnext]
        constructor
        · rintro (hmem | ⟨rfl, -⟩)
          · exact Or.inl (List.mem_cons_of_mem _ hmem)
          · exact Or.inl List.mem_cons_self
        · rintro (hmem | ⟨-, hnone⟩)
          · rcases List.mem_cons.mp hmem with heq | hmem
            · by_cases hagain : ∃ w ∈ ws, w.1 = y ∧ w.2.1 = x
              · obtain ⟨⟨r, c, v⟩, hw, hy, hx⟩ := hagain
                have hv : v = value := hrest _ hw hy hx
                refine Or.inl ?_
                cases heq
                obtain rfl : r = y := hy
                obtain rfl : c = x := hx
                exact hv ▸ hw
              · cases heq
                exact Or.inr ⟨rfl, fun w hw hwyx => hagain ⟨w, hw, hwyx⟩⟩
            · exact Or.inl hmem
          · exact absurd ⟨rfl, rfl⟩ (hnone _ List.mem_cons_self)
      · have hnext : next.data y x = area.data y x := if_neg (mt (hplace y x).mp hyx)
        rw [hnext]
        refine or_congr ?_ (and_congr_right fun _ => ?_)
        · rw [List.mem_cons, or_iff_right]
          rintro ⟨⟩
          exact hyx ⟨rfl, rfl⟩
        · rw [List.forall_mem_cons]
          exact (and_iff_right hyx).symm

end MatrixArea

namespace AreaCombat
open MatrixArea

variable {input area : MatrixArea} {m : Nat} {op : MatrixOperation}

/-! ### Copies -/

/-- The turn of an offset from the centre. -/
def turn : MatrixOperation → Int × Int → Int × Int
  | .COPY, o => o
  | .MIRROR, o => (-o.1, o.2)
  | .FLIP, o => (o.1, -o.2)
  | .ROTATE90, o => (-o.2, o.1)
  | .ROTATE180, o => (-o.1, -o.2)
  | .ROTATE270, o => (o.2, -o.1)

/-- How far the centre is out of place. -/
def shift (input : MatrixArea) : MatrixOperation → Int × Int
  | .MIRROR => (input.cols - input.rows, 0)
  | .FLIP => (0, input.rows - input.cols)
  | _ => (0, 0)

/-- The place that the cell of an offset is written to. -/
def place (input : MatrixArea) (m : Nat) (op : MatrixOperation) (o : Int × Int) : Int × Int :=
  let center := copyCenter input (.new m m) op
  ((turn op o).1 + (shift input op).1 + center.2, (turn op o).2 + (shift input op).2 + center.1)

theorem turn_injective (op : MatrixOperation) : Function.Injective (turn op) := by
  rintro ⟨a, b⟩ ⟨c, d⟩ h
  cases op <;> simp only [turn, Prod.mk.injEq] at h <;> simp only [Prod.mk.injEq] <;> omega

/-- The write of a cell to its place. -/
def cellWrite (input : MatrixArea) (m : Nat) (op : MatrixOperation) (y x : Nat) : Int × Int × Bool :=
  ((place input m op (x - input.centerX, y - input.centerY)).2,
    (place input m op (x - input.centerX, y - input.centerY)).1, input.data y x)

/-- The writes of a copy: each cell, to its place. -/
theorem mem_copyWrites {w : Int × Int × Bool} : w ∈ copyWrites input (.new m m) op ↔
    ∃ y x : Nat, y < input.rows ∧ x < input.cols ∧ cellWrite input m op y x = w := by
  have hrotate : ∀ (f : Nat × Nat → Int × Int × Bool), (∀ y x : Nat, f (x, y) = cellWrite input m op y x) →
      (w ∈ (List.range input.cols ×ˢ List.range input.rows).map f ↔
        ∃ y x : Nat, y < input.rows ∧ x < input.cols ∧ cellWrite input m op y x = w) := by
    intro f hf
    simp only [List.mem_map, List.mem_product, List.mem_range, Prod.exists, hf]
    constructor
    · rintro ⟨x, y, ⟨hx, hy⟩, rfl⟩
      exact ⟨y, x, hy, hx, rfl⟩
    · rintro ⟨y, x, hy, hx, rfl⟩
      exact ⟨x, y, ⟨hx, hy⟩, rfl⟩
  cases op with
  | ROTATE90 | ROTATE180 | ROTATE270 =>
    refine hrotate _ fun y x => ?_
    simp only [cellWrite, place, turn, shift, copyCenter, new, Prod.mk.injEq, and_true]
    constructor <;> omega
  | COPY =>
    simp only [copyWrites, List.mem_map, List.mem_product, List.mem_range, Prod.exists]
    constructor
    · rintro ⟨y, x, ⟨hy, hx⟩, rfl⟩
      exact ⟨y, x, hy, hx, by simp [cellWrite, place, turn, shift, copyCenter]⟩
    · rintro ⟨y, x, hy, hx, rfl⟩
      exact ⟨y, x, ⟨hy, hx⟩, by simp [cellWrite, place, turn, shift, copyCenter]⟩
  | MIRROR =>
    simp only [copyWrites, List.mem_map, List.mem_product, List.mem_range, Prod.exists]
    have hcell : ∀ y x : Nat, x < input.cols → cellWrite input m .MIRROR y x =
        ((y : Int), ((input.cols - 1 - x : Nat) : Int), input.data y x) := fun y x hx => by
      simp only [cellWrite, place, turn, shift, copyCenter, Prod.mk.injEq, and_true]
      omega
    constructor
    · rintro ⟨y, rx, ⟨hy, hrx⟩, rfl⟩
      have hx : input.cols - 1 - rx < input.cols := by omega
      have hback : input.cols - 1 - (input.cols - 1 - rx) = rx := by omega
      exact ⟨y, input.cols - 1 - rx, hy, hx, by rw [hcell y _ hx, hback]⟩
    · rintro ⟨y, x, hy, hx, rfl⟩
      have hrx : input.cols - 1 - x < input.cols := by omega
      have hback : input.cols - 1 - (input.cols - 1 - x) = x := by omega
      exact ⟨y, input.cols - 1 - x, ⟨hy, hrx⟩, by rw [hcell y x hx, hback]⟩
  | FLIP =>
    simp only [copyWrites, List.mem_map, List.mem_product, List.mem_range, Prod.exists]
    have hcell : ∀ y x : Nat, y < input.rows → cellWrite input m .FLIP y x =
        (((input.rows - 1 - y : Nat) : Int), (x : Int), input.data y x) := fun y x hy => by
      simp only [cellWrite, place, turn, shift, copyCenter, Prod.mk.injEq, and_true]
      omega
    constructor
    · rintro ⟨x, ry, ⟨hx, hry⟩, rfl⟩
      have hy : input.rows - 1 - ry < input.rows := by omega
      have hback : input.rows - 1 - (input.rows - 1 - ry) = ry := by omega
      exact ⟨input.rows - 1 - ry, x, hy, hx, by rw [hcell _ x hy, hback]⟩
    · rintro ⟨y, x, hy, hx, rfl⟩
      have hry : input.rows - 1 - y < input.rows := by omega
      have hback : input.rows - 1 - (input.rows - 1 - y) = y := by omega
      exact ⟨x, input.rows - 1 - y, ⟨hx, hry⟩, by rw [hcell y x hy, hback]⟩

/-- The cells of the input have a place in the output. -/
def Fits (input : MatrixArea) (m : Nat) (op : MatrixOperation) : Prop :=
  ∀ y x : Nat, y < input.rows → x < input.cols →
    (new m m).Inside (cellWrite input m op y x).1 (cellWrite input m op y x).2.1

theorem cellWrite_injective {y x y' x' : Nat} (hrow : (cellWrite input m op y x).1 = (cellWrite input m op y' x').1)
    (hcol : (cellWrite input m op y x).2.1 = (cellWrite input m op y' x').2.1) : y = y' ∧ x = x' := by
  have hturn : turn op (x - input.centerX, y - input.centerY) = turn op (x' - input.centerX, y' - input.centerY) := by
    simp only [cellWrite, place] at hrow hcol
    exact Prod.ext (by omega) (by omega)
  have hcell := turn_injective op hturn
  simp only [Prod.mk.injEq] at hcell
  omega

/-- A copy into an empty matrix: the marked offsets are turned, and moved by the shift. -/
theorem copyArea_spec (h : Fits input m op) : ∃ output, copyArea input (.new m m) op = some output ∧
    output.rows = m ∧ output.cols = m ∧ (output.centerY, output.centerX) = copyCenter input (.new m m) op ∧
    output.marked = input.marked.image fun o => turn op o + shift input op := by
  have hin : ∀ w ∈ copyWrites input (.new m m) op, (new m m).Inside w.1 w.2.1 := fun w hw => by
    obtain ⟨y, x, hy, hx, rfl⟩ := mem_copyWrites.mp hw
    exact h y x hy hx
  have hsame : ∀ v ∈ copyWrites input (.new m m) op, ∀ w ∈ copyWrites input (.new m m) op,
      v.1 = w.1 → v.2.1 = w.2.1 → v.2.2 = w.2.2 := fun v hv w hw hrow hcol => by
    obtain ⟨y, x, hy, hx, rfl⟩ := mem_copyWrites.mp hv
    obtain ⟨y', x', hy', hx', rfl⟩ := mem_copyWrites.mp hw
    obtain ⟨rfl, rfl⟩ := cellWrite_injective hrow hcol
    rfl
  obtain ⟨data, hfold, hdata⟩ := foldlM_write hin hsame
  refine ⟨_, by rw [copyArea, hfold]; rfl, rfl, rfl, rfl, ?_⟩
  ext o
  rw [mem_marked, mem_image]
  constructor
  · rintro ⟨row, col, hrow, hcol, hmark, rfl⟩
    rcases (hdata row col).mp hmark with hw | ⟨hnew, -⟩
    · obtain ⟨y, x, hy, hx, hcell⟩ := mem_copyWrites.mp hw
      simp only [cellWrite, place, Prod.mk.injEq] at hcell
      refine ⟨_, mem_marked.mpr ⟨y, x, hy, hx, hcell.2.2, rfl⟩, Prod.ext ?_ ?_⟩
      · simp only [setCenter, Prod.fst_add]
        omega
      · simp only [setCenter, Prod.snd_add]
        omega
    · cases hnew
  · rintro ⟨o, ho, rfl⟩
    obtain ⟨y, x, hy, hx, hmark, rfl⟩ := mem_marked.mp ho
    obtain ⟨hrow0, hrow, hcol0, hcol⟩ := h y x hy hx
    have hcell : cellWrite input m op y x = (((cellWrite input m op y x).1.toNat : Int),
        ((cellWrite input m op y x).2.1.toNat : Int), true) := by
      refine Prod.ext (Int.toNat_of_nonneg hrow0).symm (Prod.ext (Int.toNat_of_nonneg hcol0).symm hmark)
    refine ⟨(cellWrite input m op y x).1.toNat, (cellWrite input m op y x).2.1.toNat, ?_, ?_, ?_, Prod.ext ?_ ?_⟩
    · exact (Int.toNat_lt hrow0).mpr hrow
    · exact (Int.toNat_lt hcol0).mpr hcol
    · exact (hdata _ _).mpr (Or.inl (hcell ▸ mem_copyWrites.mpr ⟨y, x, hy, hx, rfl⟩))
    · simp only [Prod.fst_add, Int.toNat_of_nonneg hcol0, setCenter]
      simp only [cellWrite, place]
      omega
    · simp only [Prod.snd_add, Int.toNat_of_nonneg hrow0, setCenter]
      simp only [cellWrite, place]
      omega

theorem fits_rotate (h : input.Centered) (hop : op = .ROTATE90 ∨ op = .ROTATE180 ∨ op = .ROTATE270) :
    Fits input (max input.cols input.rows * 2) op := by
  obtain ⟨hx0, hx, hy0, hy⟩ := h
  intro y x hyr hxc
  rcases hop with rfl | rfl | rfl <;>
    simp only [Inside, cellWrite, place, turn, shift, copyCenter, new] <;> omega

theorem fits_mirror (hcols : input.cols ≤ m) (hrows : input.rows ≤ m) : Fits input m .MIRROR := by
  intro y x hyr hxc
  simp only [Inside, cellWrite, place, turn, shift, copyCenter, new]
  omega

theorem fits_flip (hcols : input.cols ≤ m) (hrows : input.rows ≤ m) : Fits input m .FLIP := by
  intro y x hyr hxc
  simp only [Inside, cellWrite, place, turn, shift, copyCenter, new]
  omega

/-- A set that is not empty is not the same when it is moved. -/
theorem image_add_eq_iff {S : Finset (Int × Int)} {s : Int × Int} : S.image (· + s) = S ↔ s = 0 ∨ S = ∅ := by
  constructor
  · intro h
    have hsum : ∑ o ∈ S.image (· + s), o = ∑ o ∈ S, (o + s) := sum_image fun a _ b _ hab => add_right_cancel hab
    rw [h, sum_add_distrib, sum_const, left_eq_add] at hsum
    by_cases hS : S = ∅
    · exact Or.inr hS
    · have hcard : (S.card : Int) ≠ 0 := by simpa using hS
      have hx : (S.card : Int) * s.1 = 0 := by simpa using congrArg Prod.fst hsum
      have hy : (S.card : Int) * s.2 = 0 := by simpa using congrArg Prod.snd hsum
      exact Or.inl (Prod.ext ((Int.mul_eq_zero.mp hx).resolve_left hcard) ((Int.mul_eq_zero.mp hy).resolve_left hcard))
  · rintro (rfl | rfl)
    · simp
    · rfl

/-- A copy has the shape that it is to have just where nothing is out of place, or nothing is marked. -/
theorem marked_eq_iff {output : MatrixArea} (h : output.marked = input.marked.image fun o => turn op o + shift input op) :
    output.marked = input.marked.image (turn op) ↔ shift input op = 0 ∨ input.marked = ∅ := by
  have himage : input.marked.image (fun o => turn op o + shift input op) =
      (input.marked.image (turn op)).image (· + shift input op) := by
    rw [image_image]
    rfl
  rw [h, himage, image_add_eq_iff, image_eq_empty]

/-! ### The list of cells -/

/-- A cell that is marked. -/
def IsMarked (value : UInt32) : Prop := value = 1 ∨ value = 3

/-- A cell that is the centre. -/
def IsCenter (value : UInt32) : Prop := value = 2 ∨ value = 3

instance : DecidablePred IsCenter := fun value => inferInstanceAs (Decidable (value = 2 ∨ value = 3))

theorem next_cell {cols : Nat} (hcols : 0 < cols) (i : Nat) :
    (cols = i % cols + 1 → (i + 1) % cols = 0 ∧ (i + 1) / cols = i / cols + 1) ∧
      (cols ≠ i % cols + 1 → (i + 1) % cols = i % cols + 1 ∧ (i + 1) / cols = i / cols) := by
  have hi := Nat.div_add_mod i cols
  have hlt := Nat.mod_lt i hcols
  constructor
  · intro hend
    have hnext : i + 1 = cols * (i / cols + 1) := by
      rw [Nat.mul_add, Nat.mul_one]
      omega
    rw [hnext]
    exact ⟨Nat.mul_mod_right .., Nat.mul_div_cancel_left _ hcols⟩
  · intro hmid
    have hnext : i + 1 = i % cols + 1 + cols * (i / cols) := by omega
    have hsmall : i % cols + 1 < cols := by omega
    constructor
    · conv_lhs => rw [hnext]
      rw [Nat.add_mul_mod_self_left, Nat.mod_eq_of_lt hsmall]
    · conv_lhs => rw [hnext]
      rw [Nat.add_mul_div_left _ _ hcols, Nat.div_eq_of_lt hsmall, Nat.zero_add]

/-- A cell is marked, and is the centre, as its value says. -/
theorem createCell_spec {x y : Nat} (value : UInt32) (hin : area.Inside y x) :
    ∃ output, createCell value area x y = some output ∧ output.rows = area.rows ∧ output.cols = area.cols ∧
      (∀ r c, output.data r c = true ↔ area.data r c = true ∨ (IsMarked value ∧ r = y ∧ c = x)) ∧
      (¬IsCenter value → output.centerX = area.centerX ∧ output.centerY = area.centerY) ∧
      (IsCenter value → output.centerX = x ∧ output.centerY = y) := by
  obtain ⟨marked, hmarked, hrows, hcols, hX, hY, hdata⟩ : ∃ marked, (if value = 1 ∨ value = 3 then
      area.write y x true else some area) = some marked ∧ marked.rows = area.rows ∧ marked.cols = area.cols ∧
      marked.centerX = area.centerX ∧ marked.centerY = area.centerY ∧
      ∀ r c, marked.data r c = true ↔ area.data r c = true ∨ (IsMarked value ∧ r = y ∧ c = x) := by
    by_cases hv : IsMarked value
    · refine ⟨_, (if_pos hv).trans (if_pos hin), rfl, rfl, rfl, rfl, fun r c => ?_⟩
      simp only [Int.toNat_natCast]
      by_cases hrc : r = y ∧ c = x
      · simp [hrc, hv]
      · simp [hrc]
    · exact ⟨area, if_neg hv, rfl, rfl, rfl, rfl, fun r c => by simp [hv]⟩
  unfold createCell
  rw [hmarked]
  by_cases hc : IsCenter value
  · exact ⟨_, congrArg some (if_pos hc), hrows, hcols, hdata, fun hnot => absurd hc hnot, fun _ => ⟨rfl, rfl⟩⟩
  · exact ⟨_, congrArg some (if_neg hc), hrows, hcols, hdata, fun _ => ⟨hX, hY⟩, fun hcenter => absurd hcenter hc⟩

/-- From a cell on the loop marks the cells that are to be marked, and the one centre is the centre. -/
theorem createLoop_spec {cols : Nat} (hcols : 0 < cols) (list : List UInt32) (area : MatrixArea) (i : Nat)
    (hac : area.cols = cols) (hlen : i + list.length ≤ area.rows * cols) :
    ∃ output, createLoop cols list area (i % cols) (i / cols) = some output ∧ output.rows = area.rows ∧ output.cols = cols ∧
      (∀ r c, output.data r c = true ↔ area.data r c = true ∨
        ∃ j v, list[j]? = some v ∧ IsMarked v ∧ r = (i + j) / cols ∧ c = (i + j) % cols) ∧
      ((∀ v ∈ list, ¬IsCenter v) → output.centerX = area.centerX ∧ output.centerY = area.centerY) ∧
      ∀ j v, list[j]? = some v → IsCenter v → (∀ k w, list[k]? = some w → IsCenter w → k = j) →
        output.centerX = ((i + j) % cols : Nat) ∧ output.centerY = ((i + j) / cols : Nat) := by
  induction list generalizing area i with
  | nil => exact ⟨area, rfl, rfl, hac, by simp, fun _ => ⟨rfl, rfl⟩, by simp⟩
  | cons value list ih =>
    rw [List.length_cons] at hlen
    have hrow : i / cols < area.rows := (Nat.div_lt_iff_lt_mul hcols).mpr (by omega)
    have hcol : i % cols < area.cols := (Nat.mod_lt i hcols).trans_eq hac.symm
    have hin : area.Inside (i / cols : Nat) (i % cols : Nat) :=
      ⟨Int.natCast_nonneg _, Int.ofNat_lt.mpr hrow, Int.natCast_nonneg _, Int.ofNat_lt.mpr hcol⟩
    obtain ⟨next, hnext, hrows, hncols, hdata, hkeep, hset⟩ := createCell_spec value hin
    have hloop : createLoop cols (value :: list) area (i % cols) (i / cols) =
        createLoop cols list next ((i + 1) % cols) ((i + 1) / cols) := by
      rw [createLoop, hnext]
      by_cases hend : cols = i % cols + 1
      · rw [((next_cell hcols i).1 hend).1, ((next_cell hcols i).1 hend).2]
        exact if_pos hend
      · rw [((next_cell hcols i).2 hend).1, ((next_cell hcols i).2 hend).2]
        exact if_neg hend
    have hlen' : i + 1 + list.length ≤ next.rows * cols := by
      rw [hrows]
      omega
    have hlater : ∀ j, i + 1 + j = i + (j + 1) := fun j => by omega
    obtain ⟨output, hout, horows, hocols, hodata, hnone, hone⟩ := ih next (i + 1) (hncols.trans hac) hlen'
    simp only [hlater] at hodata hone
    refine ⟨output, hloop.trans hout, horows.trans hrows, hocols, fun r c => ?_, fun hno => ?_, fun j v hj hv honly => ?_⟩
    · rw [hodata, hdata, or_assoc]
      refine or_congr_right ?_
      constructor
      · rintro (⟨hv, hr, hc⟩ | ⟨j, v, hj, hv, hr, hc⟩)
        · exact ⟨0, value, rfl, hv, hr, hc⟩
        · exact ⟨j + 1, v, hj, hv, hr, hc⟩
      · rintro ⟨j, v, hj, hv, hr, hc⟩
        rcases j with - | j
        · cases hj
          exact Or.inl ⟨hv, hr, hc⟩
        · exact Or.inr ⟨j, v, hj, hv, hr, hc⟩
    · obtain ⟨hX, hY⟩ := hnone fun v hv => hno v (List.mem_cons_of_mem _ hv)
      obtain ⟨hX', hY'⟩ := hkeep (hno value List.mem_cons_self)
      exact ⟨hX.trans hX', hY.trans hY'⟩
    · rcases j with - | j
      · cases hj
        -- the centre is here, and not later
        have hrest : ∀ v ∈ list, ¬IsCenter v := fun v hv hcv => by
          obtain ⟨k, hk⟩ := List.mem_iff_getElem?.mp hv
          exact absurd (honly (k + 1) v hk hcv) (by simp)
        obtain ⟨hX, hY⟩ := hnone hrest
        obtain ⟨hX', hY'⟩ := hset hv
        exact ⟨hX.trans hX', hY.trans hY'⟩
      · exact hone j v hj hv fun k w hk hw => Nat.succ_inj.mp (honly (k + 1) w hk hw)

/-- A list of `rows * cols` cells, one of them the centre. -/
structure Cells (list : List UInt32) (rows cols : Nat) : Prop where
  length : list.length = rows * cols
  center : list.countP (fun value => decide (IsCenter value)) = 1

/-- Where the centre stands in a list. -/
def centerIndex (list : List UInt32) : Nat := list.findIdx fun value => decide (IsCenter value)

variable {list : List UInt32} {rows cols : Nat}

theorem centerIndex_spec (h : list.countP (fun value => decide (IsCenter value)) = 1) :
    ∃ v, list[centerIndex list]? = some v ∧ IsCenter v ∧
      ∀ k w, list[k]? = some w → IsCenter w → k = centerIndex list := by
  unfold centerIndex
  induction list with
  | nil => cases h
  | cons value list ih =>
    rw [List.findIdx_cons]
    by_cases hv : IsCenter value
    · rw [List.countP_cons_of_pos (by simpa using hv)] at h
      have hnone : ∀ w ∈ list, ¬IsCenter w := by simpa using List.countP_eq_zero.mp (Nat.succ_inj.mp h)
      refine ⟨value, by simp [hv], hv, fun k w hk hw => ?_⟩
      rcases k with - | k
      · simp [hv]
      · exact absurd hw (hnone w (List.mem_of_getElem? hk))
    · rw [List.countP_cons_of_neg (by simpa using hv)] at h
      obtain ⟨v, hj, hcenter, honly⟩ := ih h
      refine ⟨v, by simpa [hv] using hj, hcenter, fun k w hk hw => ?_⟩
      rcases k with - | k
      · cases hk
        exact absurd hw hv
      · simp [hv, honly k w hk hw]

theorem Cells.pos (h : Cells list rows cols) : 0 < rows ∧ 0 < cols := by
  obtain ⟨v, hj, -⟩ := centerIndex_spec h.center
  obtain ⟨hlt, -⟩ := List.getElem?_eq_some_iff.mp hj
  rw [h.length] at hlt
  have hprod : rows * cols ≠ 0 := by omega
  exact ⟨Nat.pos_of_ne_zero fun h0 => hprod (by rw [h0, Nat.zero_mul]), Nat.pos_of_ne_zero fun h0 => hprod (by rw [h0, Nat.mul_zero])⟩

/-- The area of a list: the cells in rows, and the centre. -/
theorem createArea_spec (h : Cells list rows cols) : ∃ area, createArea list rows = some area ∧ area.rows = rows ∧
    area.cols = cols ∧ area.Centered ∧ area.centerX = (centerIndex list % cols : Nat) ∧
    area.centerY = (centerIndex list / cols : Nat) ∧ (area.marked = ∅ ↔ ∀ v ∈ list, ¬IsMarked v) := by
  obtain ⟨hrows, hcols⟩ := h.pos
  obtain ⟨v, hj, hv, honly⟩ := centerIndex_spec h.center
  obtain ⟨area, harea, harows, hacols, hdata, -, hcenter⟩ := createLoop_spec hcols list (new rows cols) 0 rfl
    (by rw [Nat.zero_add, h.length]; rfl)
  have hplace : ∀ {j w}, list[j]? = some w → j / cols < rows ∧ j % cols < cols := fun {j w} hw => by
    obtain ⟨hlt, -⟩ := List.getElem?_eq_some_iff.mp hw
    exact ⟨(Nat.div_lt_iff_lt_mul hcols).mpr (h.length ▸ hlt), Nat.mod_lt _ hcols⟩
  obtain ⟨hX, hY⟩ := hcenter (centerIndex list) v hj hv honly
  rw [Nat.zero_add] at hX hY
  simp only [Nat.zero_add] at hdata
  have hcreate : createArea list rows = some area := by
    have hdiv : list.length / rows = cols := by rw [h.length, Nat.mul_div_cancel_left _ hrows]
    rw [createArea, if_neg (Nat.ne_of_gt hrows), hdiv]
    rwa [Nat.zero_mod, Nat.zero_div] at harea
  refine ⟨area, hcreate, harows, hacols, ?_, hX, hY, ?_⟩
  · rw [Centered, hX, hY, harows, hacols]
    exact ⟨Int.natCast_nonneg _, Int.ofNat_lt.mpr (hplace hj).2, Int.natCast_nonneg _, Int.ofNat_lt.mpr (hplace hj).1⟩
  · rw [eq_empty_iff_forall_notMem]
    constructor
    · intro hempty w hw hmark
      obtain ⟨j, hj⟩ := List.mem_iff_getElem?.mp hw
      refine hempty _ (mem_marked.mpr ⟨j / cols, j % cols, ?_, ?_, ?_, rfl⟩)
      · exact harows ▸ (hplace hj).1
      · exact hacols ▸ (hplace hj).2
      · exact (hdata _ _).mpr (Or.inr ⟨j, w, hj, hmark, rfl, rfl⟩)
    · intro hnone o ho
      obtain ⟨y, x, -, -, hmark, -⟩ := mem_marked.mp ho
      rcases (hdata y x).mp hmark with hnew | ⟨j, w, hj, hw, -⟩
      · cases hnew
      · exact hnone w (List.mem_of_getElem? hj) hw

/-! ### The directions -/

/-- An area is another one, turned, and has its centre inside. -/
structure Turned (f : Int × Int → Int × Int) (input output : MatrixArea) : Prop where
  marked : output.marked = input.marked.image f
  centered : output.Centered

/-- The areas of `setupArea` have one shape. -/
def Rotated (area : AreaCombat) : Prop :=
  ∃ n e s w, area.areas .NORTH = some n ∧ area.areas .EAST = some e ∧ area.areas .SOUTH = some s ∧
    area.areas .WEST = some w ∧ n.Centered ∧ Turned (turn .ROTATE90) n e ∧ Turned (turn .ROTATE180) n s ∧
    Turned (turn .ROTATE270) n w

/-- The areas of `setupExtArea` have one shape. -/
def Mirrored (area : AreaCombat) : Prop :=
  ∃ nw ne sw se, area.areas .NORTHWEST = some nw ∧ area.areas .NORTHEAST = some ne ∧ area.areas .SOUTHWEST = some sw ∧
    area.areas .SOUTHEAST = some se ∧ nw.Centered ∧ Turned (turn .MIRROR) nw ne ∧ Turned (turn .FLIP) nw sw ∧
    Turned (turn .MIRROR ∘ turn .FLIP) nw se

/-- A rotation about the centre keeps the shape. -/
theorem rotate_spec (h : input.Centered) (hop : op = .ROTATE90 ∨ op = .ROTATE180 ∨ op = .ROTATE270) :
    ∃ output, copyArea input (.new (max input.cols input.rows * 2) (max input.cols input.rows * 2)) op = some output ∧
      Turned (turn op) input output := by
  obtain ⟨output, hcopy, hrows, hcols, hcenter, hmarked⟩ := copyArea_spec (fits_rotate h hop)
  have hshift : shift input op = 0 := by rcases hop with rfl | rfl | rfl <;> rfl
  refine ⟨output, hcopy, (marked_eq_iff hmarked).mpr (Or.inl hshift), ?_⟩
  obtain ⟨hx0, hx, hy0, hy⟩ := h
  have hmiddle : copyCenter input (.new (max input.cols input.rows * 2) (max input.cols input.rows * 2)) op =
      (((max input.cols input.rows : Nat) : Int) - 1, ((max input.cols input.rows : Nat) : Int) - 1) := by
    rcases hop with rfl | rfl | rfl <;> simp [copyCenter, new]
  rw [hmiddle, Prod.mk.injEq] at hcenter
  unfold Centered
  omega

/-- `setupArea` keeps the shape. -/
theorem setupArea_rotated (this : AreaCombat) (h : Cells list rows cols) :
    ∃ area, setupArea this list rows = some area ∧ Rotated area := by
  obtain ⟨n, hn, -, -, hcentered, -⟩ := createArea_spec h
  obtain ⟨s, hs, hsouth⟩ := rotate_spec hcentered (Or.inr (Or.inl rfl))
  obtain ⟨e, he, heast⟩ := rotate_spec hcentered (Or.inl rfl)
  obtain ⟨w, hw, hwest⟩ := rotate_spec hcentered (Or.inr (Or.inr rfl))
  unfold setupArea
  simp only [hn, hs, he, hw, Option.bind_eq_bind, Option.bind_some]
  exact ⟨_, rfl, n, e, s, w, rfl, rfl, rfl, rfl, hcentered, heast, hsouth, hwest⟩

theorem shift_mirror_eq_zero : shift input .MIRROR = 0 ↔ input.rows = input.cols := by
  simp only [shift, Prod.ext_iff, Prod.fst_zero, Prod.snd_zero, and_true]
  omega

theorem shift_flip_eq_zero : shift input .FLIP = 0 ↔ input.rows = input.cols := by
  simp only [shift, Prod.ext_iff, Prod.fst_zero, Prod.snd_zero, true_and]
  omega

/-- A mirror keeps the shape just where the sides are the same, or nothing is marked and the centre falls inside. -/
theorem mirror_spec (h : input.Centered) (hcols : input.cols ≤ m) (hrows : input.rows ≤ m) :
    ∃ output, copyArea input (.new m m) .MIRROR = some output ∧ output.rows = m ∧ output.cols = m ∧
      (Turned (turn .MIRROR) input output ↔
        (input.rows = input.cols ∨ input.marked = ∅) ∧ input.centerX < input.rows) := by
  obtain ⟨output, hcopy, horows, hocols, hcenter, hmarked⟩ := copyArea_spec (fits_mirror hcols hrows)
  refine ⟨output, hcopy, horows, hocols, ?_⟩
  rw [← shift_mirror_eq_zero, ← marked_eq_iff hmarked]
  obtain ⟨hx0, hx, hy0, hy⟩ := h
  rw [copyCenter, Prod.mk.injEq] at hcenter
  have hcentered : output.Centered ↔ input.centerX < input.rows := by
    unfold Centered
    omega
  rw [← hcentered]
  exact ⟨fun ht => ⟨ht.marked, ht.centered⟩, fun ht => ⟨ht.1, ht.2⟩⟩

/-- And so does a flip. -/
theorem flip_spec (h : input.Centered) (hcols : input.cols ≤ m) (hrows : input.rows ≤ m) :
    ∃ output, copyArea input (.new m m) .FLIP = some output ∧ output.rows = m ∧ output.cols = m ∧
      output.centerX = input.centerX ∧
      (Turned (turn .FLIP) input output ↔
        (input.rows = input.cols ∨ input.marked = ∅) ∧ input.centerY < input.cols) := by
  obtain ⟨output, hcopy, horows, hocols, hcenter, hmarked⟩ := copyArea_spec (fits_flip hcols hrows)
  rw [copyCenter, Prod.mk.injEq] at hcenter
  refine ⟨output, hcopy, horows, hocols, hcenter.2, ?_⟩
  rw [← shift_flip_eq_zero, ← marked_eq_iff hmarked]
  obtain ⟨hx0, hx, hy0, hy⟩ := h
  have hcentered : output.Centered ↔ input.centerY < input.cols := by
    unfold Centered
    omega
  rw [← hcentered]
  exact ⟨fun ht => ⟨ht.marked, ht.centered⟩, fun ht => ⟨ht.1, ht.2⟩⟩

/-- `setupExtArea` keeps the shape just for a square, or where nothing is marked and the centre falls inside. -/
theorem setupExtArea_mirrored_iff (this : AreaCombat) (h : Cells list rows cols) :
    (∃ area, setupExtArea this list rows = some area ∧ Mirrored area) ↔ rows = cols ∨
      (∀ v ∈ list, ¬IsMarked v) ∧ centerIndex list % cols < rows ∧ centerIndex list / cols < cols := by
  obtain ⟨nw, hnw, hrows, hcols, hcentered, hX, hY, hempty⟩ := createArea_spec h
  have hcm : nw.cols ≤ max nw.cols nw.rows * 2 := by omega
  have hrm : nw.rows ≤ max nw.cols nw.rows * 2 := by omega
  obtain ⟨ne, hne, -, -, hneTurned⟩ := mirror_spec hcentered hcm hrm
  obtain ⟨sw, hsw, hswrows, hswcols, hswX, hswTurned⟩ := flip_spec hcentered hcm hrm
  obtain ⟨se, hse, hserows, hsecols, hsecenter, hsemarked⟩ :=
    copyArea_spec (fits_mirror (Nat.le_of_eq hswcols) (Nat.le_of_eq hswrows))
  have hlist : list.isEmpty = false := by
    obtain ⟨hrows, hcols⟩ := h.pos
    have hlen : 0 < list.length := h.length ▸ Nat.mul_pos hrows hcols
    simpa using List.ne_nil_of_length_pos hlen
  have hsquare : sw.rows = sw.cols := hswrows.trans hswcols.symm
  have hseShape : se.marked = sw.marked.image (turn .MIRROR) :=
    (marked_eq_iff hsemarked).mpr (Or.inl (shift_mirror_eq_zero.mpr hsquare))
  -- the last area has the shape and the height of the one before
  have hseTurned : Turned (turn .FLIP) nw sw → Turned (turn .MIRROR ∘ turn .FLIP) nw se := fun ht => by
    refine ⟨by rw [hseShape, ht.marked, image_image], ?_⟩
    obtain ⟨hx0, hx, hy0, hy⟩ := ht.centered
    rw [copyCenter, Prod.mk.injEq] at hsecenter
    unfold Centered
    omega
  unfold setupExtArea
  simp only [hlist, hnw, hne, hsw, hse, Option.bind_eq_bind, Option.bind_some, Bool.false_eq_true, if_false]
  have hcx : nw.centerX < nw.rows ↔ centerIndex list % cols < rows := by rw [hX, hrows, Int.ofNat_lt]
  have hcy : nw.centerY < nw.cols ↔ centerIndex list / cols < cols := by rw [hY, hcols, Int.ofNat_lt]
  rw [hcx, hrows, hcols, hempty] at hneTurned
  rw [hcy, hrows, hcols, hempty] at hswTurned
  constructor
  · rintro ⟨area, ⟨⟩, nw', ne', sw', se', ⟨⟩, ⟨⟩, ⟨⟩, ⟨⟩, -, htne, htsw, -⟩
    obtain ⟨hshape, hx⟩ := hneTurned.mp htne
    obtain ⟨-, hy⟩ := hswTurned.mp htsw
    exact hshape.imp_right fun hnone => ⟨hnone, hx, hy⟩
  · intro hcond
    have hinside : centerIndex list % cols < rows ∧ centerIndex list / cols < cols := by
      rcases hcond with rfl | ⟨-, hin⟩
      · obtain ⟨-, hx, -, hy⟩ := hcentered
        rw [hX, hcols, Int.ofNat_lt] at hx
        rw [hY, hrows, Int.ofNat_lt] at hy
        exact ⟨hx, hy⟩
      · exact hin
    have hshape := hcond.imp_right And.left
    have htsw := hswTurned.mpr ⟨hshape, hinside.2⟩
    exact ⟨_, rfl, nw, ne, sw, se, rfl, rfl, rfl, rfl, hcentered, hneTurned.mpr ⟨hshape, hinside.1⟩, htsw, hseTurned htsw⟩

/-- Both calls keep the shape in every direction just for a square, or where nothing is marked and the centre falls inside
    the matrices that are mirrored. -/
theorem areas_keep_shape_iff (this : AreaCombat) (h : Cells list rows cols) :
    ((∃ area, setupArea this list rows = some area ∧ Rotated area) ∧
      ∃ area, setupExtArea this list rows = some area ∧ Mirrored area) ↔ rows = cols ∨
      (∀ v ∈ list, ¬IsMarked v) ∧ centerIndex list % cols < rows ∧ centerIndex list / cols < cols :=
  (and_iff_right (setupArea_rotated this h)).trans (setupExtArea_mirrored_iff this h)

theorem cells_square : Cells [0, 1, 1, 3] 2 2 := ⟨rfl, by decide⟩

theorem areas_keep_shape_square : (∃ area, setupArea .empty [0, 1, 1, 3] 2 = some area ∧ Rotated area) ∧
    ∃ area, setupExtArea .empty [0, 1, 1, 3] 2 = some area ∧ Mirrored area :=
  (areas_keep_shape_iff .empty cells_square).mpr (Or.inl rfl)

/-- A column of two cells is moved. -/
theorem areas_moved : ¬∀ (this : AreaCombat) (list : List UInt32) (rows cols : Nat), Cells list rows cols →
    (∃ area, setupArea this list rows = some area ∧ Rotated area) ∧
      ∃ area, setupExtArea this list rows = some area ∧ Mirrored area := by
  intro h
  have hcells : Cells [1, 3] 2 1 := ⟨rfl, by decide⟩
  rcases (setupExtArea_mirrored_iff .empty hcells).mp (h .empty [1, 3] 2 1 hcells).2 with hsquare | ⟨hnone, -⟩
  · cases hsquare
  · exact hnone 1 List.mem_cons_self (Or.inl rfl)

end AreaCombat
end CrystalServer
