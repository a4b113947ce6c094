import CrystalServer.Map.SightLine
import Mathlib.Algebra.Order.Ring.Int
import Mathlib.Data.Nat.Prime.Basic
import Mathlib.Tactic.Ring

/-! # Lines of sight there and back

A line leads to its destination, over squares that only the two ends decide. The ways there and back can go around a corner on
different sides, so sight on one floor is the same both ways only where both are tested or have the same free.

In the widths of the source the loop computes the same as long as no product overflows. It stays in the rectangle of the
two ends, and ends after at most as many rounds as its sides are long. -/

namespace CrystalServer
namespace Sight
variable {l : Line} {s destination : Square} {blocks : Square → Bool}

/-- The squares between the ends, in the order of the loop. -/
def Line.way (l : Line) : Nat → Square → List Square
  | 0, _ => []
  | n + 1, start =>
    if start = l.destination ∨ l.move start = l.destination then [] else l.move start :: l.way n (l.move start)

/-- The steps lead from the square to the destination, and the line has their direction. -/
structure Line.Leads (l : Line) (s : Square) : Prop where
  x : s.x = l.destination.x ∨ (s.x < l.destination.x ∧ l.stepX = 1 ∧ l.b < 0) ∨
    l.destination.x < s.x ∧ l.stepX = -1 ∧ 0 < l.b
  y : s.y = l.destination.y ∨ (s.y < l.destination.y ∧ l.stepY = 1 ∧ 0 < l.a) ∨
    l.destination.y < s.y ∧ l.stepY = -1 ∧ l.a < 0

theorem line_leads (start destination : Square) : (line start destination).Leads start := by
  rcases lt_trichotomy start.x destination.x with hx | hx | hx <;>
    rcases lt_trichotomy start.y destination.y with hy | hy | hy <;>
      constructor <;> simp only [line, stepTo] <;> split_ifs <;> omega

theorem Line.off_eq (l : Line) (x y dx dy : Int) :
    l.off (x + dx) (y + dy) = (l.a * x + l.b * y + l.c + l.a * dx + l.b * dy).natAbs := by
  unfold Line.off
  congr 1
  ring

/-- Two steps in directions that lead to different sides of the line and are as far from it: both together are closer. -/
theorem tie {f u v : Int} (h : (0 < u ∧ v < 0) ∨ (u < 0 ∧ 0 < v)) (heq : (f + u).natAbs = (f + v).natAbs) :
    (f + u + v).natAbs < (f + u).natAbs := by
  omega

theorem Line.Leads.sides (h : l.Leads s) (hx : s.x ≠ l.destination.x) (hy : s.y ≠ l.destination.y) :
    (0 < l.a * l.stepX ∧ l.b * l.stepY < 0) ∨ (l.a * l.stepX < 0 ∧ 0 < l.b * l.stepY) := by
  obtain hx' | ⟨-, hstepX, hb⟩ | ⟨-, hstepX, hb⟩ := h.x
  · exact absurd hx' hx
  all_goals
    obtain hy' | ⟨-, hstepY, ha⟩ | ⟨-, hstepY, ha⟩ := h.y
    · exact absurd hy' hy
    all_goals
      rw [hstepX, hstepY]
      omega

/-- A round moves on one axis or on both, where the destination is not reached yet. -/
theorem Line.Leads.move_cases (h : l.Leads s) (hs : s ≠ l.destination) :
    (l.move s = ⟨s.x + l.stepX, s.y⟩ ∧ s.x ≠ l.destination.x) ∨ (l.move s = ⟨s.x, s.y + l.stepY⟩ ∧ s.y ≠ l.destination.y) ∨
      l.move s = ⟨s.x + l.stepX, s.y + l.stepY⟩ ∧ s.x ≠ l.destination.x ∧ s.y ≠ l.destination.y := by
  have hH := l.off_eq s.x s.y l.stepX 0
  have hV := l.off_eq s.x s.y 0 l.stepY
  have hD := l.off_eq s.x s.y l.stepX l.stepY
  simp only [add_zero, mul_zero] at hH hV
  have hmoves := fun hx hy => tie (f := l.a * s.x + l.b * s.y + l.c) (h.sides hx hy)
  rw [← hH, ← hV, ← hD] at hmoves
  unfold Line.move
  dsimp only
  split_ifs with hy hx hx
  · exact .inr (.inr ⟨rfl, hx.1, hy.1⟩)
  · exact .inr (.inl ⟨rfl, hy.1⟩)
  · exact .inl ⟨rfl, hx.1⟩
  · -- the rounds in which nothing would move
    by_cases hxd : s.x = l.destination.x <;> by_cases hyd : s.y = l.destination.y
    · refine absurd ?_ hs
      rcases s with ⟨x, y⟩
      exact congrArg₂ Square.mk hxd hyd
    · exact absurd ⟨hyd, .inl hxd⟩ hy
    · exact absurd ⟨hxd, .inl hyd⟩ hx
    · have hle := not_or.mp fun hor => hy ⟨hyd, .inr hor⟩
      have hge := not_or.mp fun hor => hx ⟨hxd, .inr hor⟩
      have hlt := hmoves hxd hyd (by omega)
      omega

/-- A round moves closer, and never past the destination. -/
theorem Line.Leads.move (h : l.Leads s) (hs : s ≠ l.destination) :
    l.Leads (l.move s) ∧ distance (l.move s) l.destination < distance s l.destination := by
  have hx := h.x
  have hy := h.y
  unfold distance
  obtain ⟨heq, hxd⟩ | ⟨heq, hyd⟩ | ⟨heq, hxd, hyd⟩ := h.move_cases hs <;>
    rw [heq] <;> refine ⟨⟨?_, ?_⟩, ?_⟩ <;> dsimp only <;> omega

/-- The loop ends in so many rounds, and looks at the squares of the way. -/
theorem Line.Leads.loop_eq (h : l.Leads s) {n : Nat} (hn : distance s l.destination < n) :
    l.loop blocks n s = some ((l.way n s).all fun t => !blocks t) := by
  induction n generalizing s with
  | zero => exact absurd hn (Nat.not_lt_zero _)
  | succ n ih =>
    unfold Line.loop Line.way
    by_cases hs : s = l.destination
    · simp [hs]
    · obtain ⟨hleads, hlt⟩ := h.move hs
      by_cases hmove : l.move s = l.destination
      · simp [hs, hmove]
      · have hrest := ih hleads (by omega)
        rcases hb : blocks (l.move s) <;> simp [hs, hmove, hb, hrest]

/-- The squares between two squares. -/
def between (start destination : Square) : List Square := (line start destination).way (distance start destination + 1) start

end Sight

open Sight
namespace Map
variable {map : Map} {p q : Position}

/-- No tile between the positions, on the floor of the first, blocks projectiles. -/
def Free (map : Map) (p q : Position) : Prop := ∀ s ∈ between (.of p) (.of q), map.blocksProjectile p.z s = false

instance (map : Map) (p q : Position) : Decidable (map.Free p q) := inferInstanceAs (Decidable (∀ _ ∈ _, _))

/-- A line is clear where the way is free: the loop comes to its end. -/
theorem checkSightLine_iff : map.checkSightLine p q ↔ map.Free p q := by
  have heq : (line (.of p) (.of q)).loop (map.blocksProjectile p.z) (distance (.of p) (.of q) + 1) (.of p) = some _ :=
    (line_leads (.of p) (.of q)).loop_eq (Nat.lt_succ_self _)
  unfold checkSightLine
  dsimp only
  rw [heq]
  simp [Free, between]

/-- The position one floor up. -/
def above (p : Position) : Position := { p with z := p.z - 1 }

/-- There is ground over the position, or something that blocks projectiles. -/
def Covered (map : Map) (p : Position) : Prop := map.isObstacle p.x p.y (p.z - 1)

instance (map : Map) (p : Position) : Decidable (map.Covered p) := inferInstanceAs (Decidable (_ = true))

theorem areInRange_comm (deltax deltay : Nat) (p q : Position) :
    p.areInRange deltax deltay q = q.areInRange deltax deltay p := by
  have hx : p.getDistanceX q = q.getDistanceX p := by
    unfold Position.getDistanceX Position.getOffsetX
    omega
  have hy : p.getDistanceY q = q.getDistanceY p := by
    unfold Position.getDistanceY Position.getOffsetY
    omega
  unfold Position.areInRange
  rw [hx, hy]

/-- From one floor up, the jump looks at the tile over the target only. -/
theorem jumpFloors_above (map : Map) (q : Position) : map.jumpFloors q 256 (q.z - 1) = !map.isObstacle q.x q.y (q.z - 1) := by
  have hne : q.z - 1 ≠ q.z := fun h => absurd (sub_eq_self.mp h) (by decide)
  have hback : q.z - 1 + 1 = q.z := UInt8.sub_add_cancel ..
  unfold jumpFloors
  rw [if_neg hne, hback]
  unfold jumpFloors
  rw [if_pos rfl]
  cases map.isObstacle q.x q.y (q.z - 1) <;> rfl

/-- Sight on one floor: next to each other, over free squares on the floor, or above them. -/
theorem isSightClear_iff (hz : p.z = q.z) (floorCheck : Bool) : map.isSightClear p q floorCheck ↔
    p.areInRange 1 1 q ∨ (!floorCheck ∧ p.z = 0) ∨ (map.Free p q ∨ map.Free q p) ∨
      !floorCheck ∧ ¬map.Covered p ∧ ¬map.Covered q ∧ map.Free (above p) (above q) := by
  have hdist : p.getDistanceZ q = 0 := by
    unfold Position.getDistanceZ
    rw [hz, Int.sub_self]
    rfl
  have habove : map.checkSightLine ⟨p.x, p.y, p.z - 1⟩ ⟨q.x, q.y, q.z - 1⟩ ↔ map.Free (above p) (above q) := checkSightLine_iff
  have hjump := jumpFloors_above map q
  unfold isSightClear
  rw [← checkSightLine_iff, ← checkSightLine_iff, ← habove, hz, hdist]
  unfold Covered
  rw [hz]
  dsimp only
  rw [hjump]
  by_cases hnear : p.areInRange 1 1 q
  · simp [hnear]
  by_cases hline : map.checkSightLine p q ∨ map.checkSightLine q p
  · simp [hnear, hline]
  · obtain ⟨hthere, hback⟩ := not_or.mp hline
    simp [hnear, hthere, hback, and_comm, and_left_comm]

/-- Sight is the same both ways just where the way above is, unless it does not count. -/
theorem isSightClear_comm_iff (hz : p.z = q.z) (floorCheck : Bool) :
    map.isSightClear p q floorCheck = map.isSightClear q p floorCheck ↔
      floorCheck ∨ p.z = 0 ∨ p.areInRange 1 1 q ∨ map.Free p q ∨ map.Free q p ∨ map.Covered p ∨ map.Covered q ∨
        (map.Free (above p) (above q) ↔ map.Free (above q) (above p)) := by
  rw [Bool.eq_iff_iff, isSightClear_iff hz, isSightClear_iff hz.symm, areInRange_comm 1 1 q p, ← hz]
  cases floorCheck <;> grind

/-! Two walls stand at the corner on the floor of the ends, so that no ray gets through. Above them there is one wall, on the
    way there and not on the way back. -/

def wall : Tile := ⟨none, [], 0, [], fun flag => flag = .BLOCKPROJECTILE, none⟩

def corner : Map where
  tiles x y z :=
    if (x = 100 ∧ y = 101 ∧ (z = 7 ∨ z = 6)) ∨ (x = 101 ∧ y = 101 ∧ z = 7) then some wall else none

theorem isSightClear_comm_diagonal :
    corner.isSightClear ⟨100, 100, 7⟩ ⟨102, 102, 7⟩ false = corner.isSightClear ⟨102, 102, 7⟩ ⟨100, 100, 7⟩ false :=
  have hz : (⟨100, 100, 7⟩ : Position).z = (⟨102, 102, 7⟩ : Position).z := rfl
  (isSightClear_comm_iff hz false).mpr (by decide)

theorem isSightClear_not_comm :
    corner.isSightClear ⟨100, 100, 7⟩ ⟨101, 102, 7⟩ false ≠ corner.isSightClear ⟨101, 102, 7⟩ ⟨100, 100, 7⟩ false := by
  decide

end Map

/-! ### In the widths of the source -/

namespace Sight.Line32
variable {start destination p : Position}

/-- An `int32_t` holds the value. -/
def Holds (v : Int) : Prop := -2 ^ 31 ≤ v ∧ v < 2 ^ 31

/-- No product of an offset and a coordinate overflows at either end, nor between them. -/
structure ProductsFit (start destination : Position) : Prop where
  startX : Holds (destination.getOffsetY start * start.x.toNat)
  destinationX : Holds (destination.getOffsetY start * destination.x.toNat)
  startY : Holds (start.getOffsetX destination * start.y.toNat)
  destinationY : Holds (start.getOffsetX destination * destination.y.toNat)

/-- A coordinate lies between two others. -/
def Between (u v x : UInt16) : Prop := (u ≤ x ∧ x ≤ v) ∨ (v ≤ x ∧ x ≤ u)

/-- A position lies in the rectangle of two others, on the floor of the first. -/
structure Within (start destination p : Position) : Prop where
  x : Between start.x destination.x p.x
  y : Between start.y destination.y p.y
  z : p.z = start.z

/-- A coordinate stays, or goes one step closer to the destination. -/
def Closer (destination u v : UInt16) : Prop :=
  v = u ∨ (u < destination ∧ v.toNat = u.toNat + 1) ∨ (destination < u ∧ v.toNat + 1 = u.toNat)

/-- One coordinate or both go one step closer to the destination, and none past it. -/
structure Advances (destination p q : Position) : Prop where
  x : Closer destination.x p.x q.x
  y : Closer destination.y p.y q.y
  z : q.z = p.z
  moved : q ≠ p

theorem Closer.between {u v x y : UInt16} (h : Closer v x y) (hx : Between u v x) : Between u v y := by
  unfold Closer at h
  unfold Between at hx ⊢
  simp only [UInt16.le_iff_toNat_le, UInt16.lt_iff_toNat_lt, ← UInt16.toNat_inj] at h hx ⊢
  omega

theorem Within.advances {q : Position} (hp : Within start destination p) (h : Advances destination p q) :
    Within start destination q :=
  ⟨h.x.between hp.x, h.y.between hp.y, h.z.trans hp.z⟩

/-- The one value that an `int32_t` holds with one sign only is no product of a coordinate and an offset. -/
theorem mul_ne_of_le {m n : Nat} (hm : m < 2 ^ 16) (hn : n < 2 ^ 16) : m * n ≠ 2 ^ 31 := by
  intro h
  obtain ⟨i, -, rfl⟩ := (Nat.dvd_prime_pow Nat.prime_two).mp (Dvd.intro n h)
  obtain ⟨j, -, rfl⟩ := (Nat.dvd_prime_pow Nat.prime_two).mp (Dvd.intro_left _ h)
  have hi := (Nat.pow_lt_pow_iff_right (by decide)).mp hm
  have hj := (Nat.pow_lt_pow_iff_right (by decide)).mp hn
  rw [← Nat.pow_add] at h
  have hsum := Nat.pow_right_injective (le_refl 2) h
  omega

theorem ProductsFit.offsets (h : ProductsFit start destination) :
    (destination.getOffsetY start * start.getOffsetX destination).natAbs < 2 ^ 31 := by
  have hle : (destination.getOffsetY start * start.getOffsetX destination).natAbs ≤ 2 ^ 31 := by
    obtain ⟨h₁, h₂⟩ := h.startX
    obtain ⟨h₃, h₄⟩ := h.destinationX
    have hsub : destination.getOffsetY start * start.getOffsetX destination =
        destination.getOffsetY start * start.x.toNat - destination.getOffsetY start * destination.x.toNat := by
      rw [← mul_sub]
      rfl
    rw [hsub]
    rcases le_total 0 (destination.getOffsetY start) with ha | ha
    · have hs := mul_nonneg ha (Int.natCast_nonneg start.x.toNat)
      have hd := mul_nonneg ha (Int.natCast_nonneg destination.x.toNat)
      omega
    · have hs := mul_nonpos_of_nonpos_of_nonneg ha (Int.natCast_nonneg start.x.toNat)
      have hd := mul_nonpos_of_nonpos_of_nonneg ha (Int.natCast_nonneg destination.x.toNat)
      omega
  refine lt_of_le_of_ne hle ?_
  rw [Int.natAbs_mul]
  have h₁ := start.x.toNat_lt
  have h₂ := start.y.toNat_lt
  have h₃ := destination.x.toNat_lt
  have h₄ := destination.y.toNat_lt
  refine mul_ne_of_le ?_ ?_ <;> simp only [Position.getOffsetX, Position.getOffsetY] <;> omega

theorem toInt_abs_ofInt {v : Int} (h : v.natAbs < 2 ^ 31) : (Int32.ofInt v).abs.toInt = v.natAbs := by
  have hv : (Int32.ofInt v).toInt = v := Int32.toInt_ofInt_of_le (by omega) (by omega)
  have hmin : (Int32.ofInt v).toBitVec ≠ BitVec.intMin 32 := by
    intro heq
    have hval := congrArg BitVec.toInt heq
    change (Int32.ofInt v).toInt = _ at hval
    rw [hv, show (BitVec.intMin 32).toInt = -2 ^ 31 by decide] at hval
    omega
  have habs := BitVec.toInt_abs_eq_natAbs_of_ne_intMin hmin
  change (Int32.ofInt v).abs.toInt = (Int32.ofInt v).toInt.natAbs at habs
  rw [habs, hv]

/-- How far a square is from the line fits an `int32_t`, even where the sums on the way to it wrap around. -/
theorem toInt_off {x y : Int} (h : (line (.of start) (.of destination)).off x y < 2 ^ 31) :
    ((of start destination).off (.ofInt x) (.ofInt y)).toInt = (line (.of start) (.of destination)).off x y := by
  have habs := toInt_abs_ofInt h
  rw [Line.off, ← habs]
  simp only [off, of, coordinate, ← Int32.ofInt_mul, ← Int32.ofInt_add, ← Int32.ofInt_neg]
  rfl

theorem mul_between {u w : Int} (a : Int) (h : (0 ≤ u ∧ u ≤ w) ∨ (w ≤ u ∧ u ≤ 0)) :
    (0 ≤ a * u ∧ a * u ≤ a * w) ∨ (a * w ≤ a * u ∧ a * u ≤ 0) := by
  rcases h with ⟨h₀, hw⟩ | ⟨hw, h₀⟩ <;> rcases le_total 0 a with ha | ha
  · exact .inl ⟨mul_nonneg ha h₀, mul_le_mul_of_nonneg_left hw ha⟩
  · exact .inr ⟨mul_le_mul_of_nonpos_left hw ha, mul_nonpos_of_nonpos_of_nonneg ha h₀⟩
  · exact .inr ⟨mul_le_mul_of_nonneg_left hw ha, mul_nonpos_of_nonneg_of_nonpos ha h₀⟩
  · exact .inl ⟨mul_nonneg_of_nonpos_of_nonpos ha h₀, mul_le_mul_of_nonpos_left hw ha⟩

/-- A number lies between two coordinates. -/
def Among (u v : UInt16) (x : Int) : Prop := (u.toNat ≤ x ∧ x ≤ v.toNat) ∨ (v.toNat ≤ x ∧ x ≤ u.toNat)

/-- In the rectangle no square is farther from the line than the product of the offsets. -/
theorem off_lt (h : ProductsFit start destination) {x y : Int}
    (hx : Among start.x destination.x x) (hy : Among start.y destination.y y) :
    (line (.of start) (.of destination)).off x y < 2 ^ 31 := by
  refine lt_of_le_of_lt ?_ h.offsets
  have heq : (line (.of start) (.of destination)).off x y =
      (destination.getOffsetY start * (x - destination.x.toNat) +
        start.getOffsetX destination * (y - destination.y.toNat)).natAbs := by
    simp only [Line.off, line, Square.of, Position.getOffsetX, Position.getOffsetY]
    congr 1
    ring
  have hau := mul_between (u := x - destination.x.toNat) (w := start.getOffsetX destination)
    (destination.getOffsetY start) (by unfold Among at hx; unfold Position.getOffsetX; omega)
  have hbv := mul_between (u := y - destination.y.toNat) (w := -destination.getOffsetY start)
    (start.getOffsetX destination) (by unfold Among at hy; unfold Position.getOffsetY; omega)
  have hneg : start.getOffsetX destination * -destination.getOffsetY start =
      -(destination.getOffsetY start * start.getOffsetX destination) := by rw [mul_neg, mul_comm]
  rw [heq]
  omega

theorem toInt_stepTo (u v : UInt16) : (stepTo u v).toInt = Sight.stepTo u.toNat v.toNat := by
  have hlt : u < v ↔ (u.toNat : Int) < v.toNat := by rw [UInt16.lt_iff_toNat_lt, Int.ofNat_lt]
  have heq : u = v ↔ (u.toNat : Int) = v.toNat := by rw [← UInt16.toNat_inj, Int.ofNat_inj]
  unfold stepTo Sight.stepTo
  simp only [hlt, heq]
  split_ifs <;> rfl

/-- One step from a coordinate that is not the destination's. -/
theorem toNat_advance {u v x : UInt16} (hx : Between u v x) (hne : x ≠ v) :
    ((advance x (stepTo u v)).toNat : Int) = x.toNat + Sight.stepTo u.toNat v.toNat ∧
      Among u v (x.toNat + Sight.stepTo u.toNat v.toNat) ∧ Closer v x (advance x (stepTo u v)) := by
  have hstep : Among u v (x.toNat + Sight.stepTo u.toNat v.toNat) ∧
      ((x < v ∧ Sight.stepTo u.toNat v.toNat = 1) ∨ (v < x ∧ Sight.stepTo u.toNat v.toNat = -1)) := by
    unfold Between at hx
    unfold Among Sight.stepTo
    simp only [UInt16.le_iff_toNat_le, UInt16.lt_iff_toNat_lt, ne_eq, ← UInt16.toNat_inj] at hx hne ⊢
    split_ifs <;> omega
  obtain ⟨hamong, hdir⟩ := hstep
  have hcast : ((advance x (stepTo u v)).toNat : Int) = x.toNat + Sight.stepTo u.toNat v.toNat := by
    have hu := u.toNat_lt
    have hv := v.toNat_lt
    unfold advance
    rw [toInt_stepTo, UInt16.ofInt, UInt16.toNat_ofNat']
    unfold Among at hamong
    omega
  refine ⟨hcast, hamong, .inr ?_⟩
  simp only [UInt16.lt_iff_toNat_lt] at hdir ⊢
  omega

/-- In the rectangle the distances of two squares compare as their values. -/
theorem off_lt_off_iff (h : ProductsFit start destination) {x y x' y' : Int} (hx : Among start.x destination.x x)
    (hy : Among start.y destination.y y) (hx' : Among start.x destination.x x')
    (hy' : Among start.y destination.y y') :
    (of start destination).off (.ofInt x) (.ofInt y) < (of start destination).off (.ofInt x') (.ofInt y') ↔
      (line (.of start) (.of destination)).off x y < (line (.of start) (.of destination)).off x' y' := by
  rw [Int32.lt_iff_toInt_lt, toInt_off (off_lt h hx hy), toInt_off (off_lt h hx' hy'), Int.ofNat_lt]

theorem among_of_between {u v x : UInt16} (h : Between u v x) : Among u v x.toNat := by
  unfold Between at h
  unfold Among
  simp only [UInt16.le_iff_toNat_le] at h
  omega

/-- In the rectangle the moves are those of the exact line. -/
theorem of_move (h : ProductsFit start destination) (hp : Within start destination p) :
    Square.of ((of start destination).move p) = (line (.of start) (.of destination)).move (.of p) := by
  have hnext (x : UInt16) (u v : UInt16) :
      coordinate x + (stepTo u v).toInt32 = .ofInt (x.toNat + Sight.stepTo u.toNat v.toNat) := by
    rw [Int32.ofInt_add, ← toInt_stepTo, Int32.ofInt_int8ToInt]
    rfl
  have hxa := among_of_between hp.x
  have hya := among_of_between hp.y
  have hxeq (x : UInt16) : x = destination.x ↔ (x.toNat : Int) = destination.x.toNat := by
    rw [← UInt16.toNat_inj, Int.ofNat_inj]
  have hyeq (y : UInt16) : y = destination.y ↔ (y.toNat : Int) = destination.y.toNat := by
    rw [← UInt16.toNat_inj, Int.ofNat_inj]
  by_cases hpx : p.x = destination.x
  · have hpx' := (hxeq p.x).mp hpx
    by_cases hpy : p.y = destination.y
    · have hpy' := (hyeq p.y).mp hpy
      simp only [move, Line.move, Square.of, of, line, hpx, hpy, ne_eq, not_true_eq_false, false_and, if_false]
    · have hpy' := mt (hyeq p.y).mpr hpy
      obtain ⟨hay, -, -⟩ := toNat_advance hp.y hpy
      simp only [move, Line.move, Square.of, of, line, hpx, hpy, hpy', ne_eq, not_true_eq_false, not_false_eq_true,
        true_and, true_or, false_and, if_false, if_true, hay]
  · have hpx' := mt (hxeq p.x).mpr hpx
    obtain ⟨hax, hxs, -⟩ := toNat_advance hp.x hpx
    by_cases hpy : p.y = destination.y
    · have hpy' := (hyeq p.y).mp hpy
      simp only [move, Line.move, Square.of, of, line, hpx, hpx', hpy, ne_eq, not_true_eq_false, not_false_eq_true,
        true_and, true_or, false_and, if_false, if_true, hax]
    · have hpy' := mt (hyeq p.y).mpr hpy
      obtain ⟨hay, hys, -⟩ := toNat_advance hp.y hpy
      have hyd := hyeq (advance p.y (stepTo start.y destination.y))
      rw [hay] at hyd
      have hHV := off_lt_off_iff h hxa hys hxs hya
      have hHD := off_lt_off_iff h hxs hys hxs hya
      have hVH := off_lt_off_iff h hxs hya hxa hys
      have hVD := off_lt_off_iff h hxs hys hxa hys
      have hcoordinate (x : UInt16) : Int32.ofInt x.toNat = coordinate x := rfl
      simp only [← hnext, hcoordinate] at hHV hHD hVH hVD
      have hstepX : (of start destination).stepX = stepTo start.x destination.x := rfl
      have hstepY : (of start destination).stepY = stepTo start.y destination.y := rfl
      have hdest : (of start destination).destination = destination := rfl
      have hstepX' : (line (.of start) (.of destination)).stepX = Sight.stepTo start.x.toNat destination.x.toNat := rfl
      have hstepY' : (line (.of start) (.of destination)).stepY = Sight.stepTo start.y.toNat destination.y.toNat := rfl
      have hdest' : (line (.of start) (.of destination)).destination = .of destination := rfl
      simp only [move, Line.move, hstepX, hstepY, hdest, hstepX', hstepY', hdest', gt_iff_lt, hHV, hHD, hVH, hVD]
      simp only [Square.of, hpx, hpy, hpx', hpy', ne_eq, not_false_eq_true, true_and, false_or]
      generalize (line _ _).off (p.x.toNat + _) p.y.toNat = moveHorizontal
      generalize (line _ _).off p.x.toNat (p.y.toNat + _) = moveVertical
      generalize (line _ _).off (p.x.toNat + _) (p.y.toNat + _) = moveDiagonal
      by_cases hy : moveVertical < moveHorizontal ∨ moveDiagonal < moveHorizontal
      · simp only [if_pos hy, hyd, hay]
        split_ifs <;> simp only [hax]
      · simp only [if_neg hy, hpy, hpy', false_or]
        split_ifs <;> simp only [hax]

theorem done_iff : (of start destination).Done p ↔ Square.of p = (line (.of start) (.of destination)).destination := by
  change _ ↔ Square.mk _ _ = Square.mk _ _
  rw [Square.mk.injEq, Int.ofNat_inj, Int.ofNat_inj, UInt16.toNat_inj, UInt16.toNat_inj]
  rfl

/-- A round that begins before the destination. -/
theorem move_advances (h : ProductsFit start destination) (hp : Within start destination p)
    (hleads : (line (.of start) (.of destination)).Leads (.of p)) (hdone : ¬(of start destination).Done p) :
    Advances destination p ((of start destination).move p) ∧
      (line (.of start) (.of destination)).Leads (.of ((of start destination).move p)) ∧
      distance (.of ((of start destination).move p)) (.of destination) < distance (.of p) (.of destination) := by
  obtain ⟨hleads', hlt⟩ := hleads.move (mt done_iff.mpr hdone)
  rw [← of_move h hp] at hleads' hlt
  refine ⟨⟨?_, ?_, rfl, ?_⟩, hleads', hlt⟩
  · dsimp only [move]
    split_ifs with hy hx hx
    · exact (toNat_advance hp.x hx.1).2.2
    · exact .inl rfl
    · exact (toNat_advance hp.x hx.1).2.2
    · exact .inl rfl
  · dsimp only [move]
    split_ifs with hy
    · exact (toNat_advance hp.y hy.1).2.2
    · exact .inl rfl
  · intro heq
    rw [heq] at hlt
    exact lt_irrefl _ hlt

/-- The loop ends in so many rounds with the result of the exact line, and looks at tiles of the rectangle. -/
theorem loop_eq (h : ProductsFit start destination) (blocks : Position → Bool) (blocked : Square → Bool)
    (hblocks : ∀ q, q.z = start.z → blocks q = blocked (.of q)) {n : Nat} (hp : Within start destination p)
    (hleads : (line (.of start) (.of destination)).Leads (.of p))
    (hn : distance (.of p) (.of destination) ≤ n) :
    ∃ clear examined, (of start destination).loop blocks n p = some (clear, examined) ∧
      (line (.of start) (.of destination)).loop blocked (n + 1) (.of p) = some clear ∧
      ∀ q ∈ examined, Within start destination q := by
  induction n generalizing p with
  | zero =>
    have hzero := Nat.eq_zero_of_le_zero hn
    have hdone : (of start destination).Done p := by
      by_contra hdone
      have hlt := (move_advances h hp hleads hdone).2.2
      rw [hzero] at hlt
      exact absurd hlt (Nat.not_lt_zero _)
    have hsquare : Square.of p = (line (.of start) (.of destination)).destination := done_iff.mp hdone
    exact ⟨true, [], if_pos hdone, by rw [Line.loop, if_neg (not_not.mpr hsquare)], List.forall_mem_nil _⟩
  | succ n ih =>
    by_cases hdone : (of start destination).Done p
    · have hsquare : Square.of p = (line (.of start) (.of destination)).destination := done_iff.mp hdone
      exact ⟨true, [], if_pos hdone, by rw [Line.loop, if_neg (not_not.mpr hsquare)], List.forall_mem_nil _⟩
    · obtain ⟨hadv, hleads', hlt⟩ := move_advances h hp hleads hdone
      have hsquare : Square.of p ≠ (line (.of start) (.of destination)).destination := mt done_iff.mpr hdone
      have hmove := of_move h hp
      have hb := hblocks ((of start destination).move p) hp.z
      have hwithin := hp.advances hadv
      rw [loop, if_neg hdone, Line.loop, if_pos hsquare]
      dsimp only
      rw [← hmove, hb]
      by_cases hdone' : (of start destination).Done ((of start destination).move p)
      · exact ⟨true, [], if_pos hdone', if_pos (done_iff.mp hdone'), List.forall_mem_nil _⟩
      · rw [if_neg hdone', if_neg (mt done_iff.mpr hdone')]
        by_cases hblocked : blocked (.of ((of start destination).move p)) = true
        · exact ⟨false, [_], if_pos hblocked, if_pos hblocked, List.forall_mem_singleton.mpr hwithin⟩
        · obtain ⟨clear, examined, hloop, hexact, hexamined⟩ := ih hwithin hleads' (by omega)
          refine ⟨clear, _ :: examined, ?_, ?_, List.forall_mem_cons.mpr ⟨hwithin, hexamined⟩⟩
          · rw [if_neg hblocked, hloop]
            rfl
          · rw [if_neg hblocked, hexact]

theorem ofInt_toNat (x : UInt16) : UInt16.ofInt x.toNat = x := by
  rw [UInt16.ofInt, ← UInt16.toNat_inj, UInt16.toNat_ofNat']
  have hx := x.toNat_lt
  omega

theorem distance_of (start destination : Position) : distance (.of start) (.of destination) =
    start.getDistanceX destination + start.getDistanceY destination := by
  unfold distance Position.getDistanceX Position.getDistanceY Position.getOffsetX Position.getOffsetY
  dsimp only [Square.of]
  omega

/-- As long as the loop goes on it stays in the rectangle, and its rounds go on to lead to the destination. -/
theorem iterate_within (h : ProductsFit start destination) {k : Nat}
    (hk : ∀ j < k, ¬(of start destination).Done ((of start destination).move^[j] start)) :
    Within start destination ((of start destination).move^[k] start) ∧
      (line (.of start) (.of destination)).Leads (.of ((of start destination).move^[k] start)) := by
  induction k with
  | zero =>
    have hends (u v : UInt16) : Between u v u := by
      unfold Between
      simp only [UInt16.le_iff_toNat_le]
      omega
    exact ⟨⟨hends .., hends .., rfl⟩, line_leads (.of start) (.of destination)⟩
  | succ k ih =>
    obtain ⟨hwithin, hleads⟩ := ih fun j hj => hk j (Nat.lt_succ_of_lt hj)
    obtain ⟨hadv, hleads', -⟩ := move_advances h hwithin hleads (hk k (Nat.lt_succ_self k))
    rw [Function.iterate_succ_apply']
    exact ⟨hwithin.advances hadv, hleads'⟩

/-- Each round of `checkSightLine` goes one step closer on one axis or on both, and never past the destination. The loop
    ends after at most as many rounds as the two distances together, and looks at tiles of the rectangle only. -/
theorem checkSightLine_bounded (start destination : Position) (h : ProductsFit start destination) :
    (∀ k, (∀ j ≤ k, ¬(of start destination).Done ((of start destination).move^[j] start)) →
      Advances destination ((of start destination).move^[k] start) ((of start destination).move^[k + 1] start)) ∧
    ∀ blocks, ∃ clear examined, (of start destination).loop blocks
        (start.getDistanceX destination + start.getDistanceY destination) start = some (clear, examined) ∧
      ∀ q ∈ examined, Within start destination q := by
  constructor
  · intro k hk
    obtain ⟨hwithin, hleads⟩ := iterate_within h fun j hj => hk j hj.le
    rw [Function.iterate_succ_apply']
    exact (move_advances h hwithin hleads (hk k le_rfl)).1
  · intro blocks
    obtain ⟨hwithin, hleads⟩ := iterate_within h (k := 0) fun j hj => absurd hj (Nat.not_lt_zero j)
    have hblocks (q : Position) (hq : q.z = start.z) :
        blocks q = (fun s : Square => blocks ⟨.ofInt s.x, .ofInt s.y, start.z⟩) (.of q) := by
      obtain ⟨x, y, z⟩ := q
      cases hq
      dsimp only [Square.of]
      rw [ofInt_toNat, ofInt_toNat]
    obtain ⟨clear, examined, hloop, -, hexamined⟩ := loop_eq h blocks
      (fun s => blocks ⟨.ofInt s.x, .ofInt s.y, start.z⟩) hblocks hwithin hleads
      (distance_of start destination).le
    exact ⟨clear, examined, hloop, hexamined⟩

/-- A line of sight over three squares. -/
theorem checkSightLine_bounded_knight : ∃ clear examined,
    (of ⟨100, 100, 7⟩ ⟨102, 101, 7⟩).loop (fun _ => false) 3 ⟨100, 100, 7⟩ = some (clear, examined) ∧
      ∀ q ∈ examined, Within ⟨100, 100, 7⟩ ⟨102, 101, 7⟩ q :=
  (checkSightLine_bounded ⟨100, 100, 7⟩ ⟨102, 101, 7⟩ (by constructor <;> constructor <;> decide)).2 fun _ => false

end Sight.Line32

namespace Map
open Line32

end Map

end CrystalServer
