import Mathlib.Algebra.BigOperators.Ring.Finset
import Mathlib.Data.Int.ModEq
import CrystalServer.Items.ContainerQuery
import CrystalServer.Theorems.Items.World

/-! # The free slots of a container

What `getFreeSlots` counts are the free slots of the containers of a tree less what the overfull ones among them hold too
much, in 16 bits. -/

namespace CrystalServer.Container
open Finset

variable {w : World} {this : Ref}

/-- How many slots a container has left, below zero where it holds more than its capacity. -/
def slotsLeft (w : World) (c : Ref) : Int := (capacity w c).toNat - size w c

open scoped Classical in
/-- A container and all that are in it. -/
noncomputable def tree (w : World) (this : Ref) : Finset Ref :=
  (insert this (range w.next)).filter fun c => c = this ∨ Lib.Below w.getParentContainer c this

/-- The free slots of the tree. -/
noncomputable def free (w : World) (this : Ref) : Nat := ∑ c ∈ tree w this, ((capacity w c).toNat - size w c)

/-- What the containers of the tree hold beyond their capacities. -/
noncomputable def surplus (w : World) (this : Ref) : Nat := ∑ c ∈ tree w this, (size w c - (capacity w c).toNat)

theorem zero_max (n : UInt16) : max 0 n = n := by
  have hle : (0 : UInt16) ≤ n := by simp [UInt16.le_iff_toNat_le]
  exact if_pos hle

theorem own_modEq (w : World) (c : Ref) :
    ((((capacity w c).toUInt64 - UInt64.ofNat (size w c)).toUInt16).toNat : Int) ≡ slotsLeft w c [ZMOD 65536] := by
  have hcut : (((capacity w c).toUInt64 - UInt64.ofNat (size w c)).toUInt16).toNat =
      (18446744073709551616 - size w c % 18446744073709551616 + (capacity w c).toNat) % 18446744073709551616 % 65536 := by
    rw [UInt64.toNat_toUInt16, UInt64.toNat_sub, UInt64.toNat_ofNat', UInt32.toNat_toUInt64]
  rw [hcut, Int.ModEq, slotsLeft]
  omega

/-- What does not hold items adds nothing. -/
theorem subtreeSum_of_not_container {c : Ref} (hc : ¬w.isContainer c) (n : Nat) :
    Lib.subtreeSum w.itemlist (slotsLeft w) n c = 0 := by
  have hnone : (w.item c).container = none := by simpa [World.isContainer] using hc
  have hlist : w.itemlist c = [] := by simp [World.itemlist, Item.getItemList, hnone]
  cases n with
  | zero => rfl
  | succ n => simp [Lib.subtreeSum, slotsLeft, capacity, size, hlist, hnone]

theorem getFreeSlotsLoop_modEq (w : World) (n : Nat) (this : Ref) :
    ((getFreeSlotsLoop w n this).toNat : Int) ≡ Lib.subtreeSum w.itemlist (slotsLeft w) n this [ZMOD 65536] := by
  induction n generalizing this with
  | zero => exact Int.ModEq.refl _
  | succ n ih =>
    rw [getFreeSlotsLoop, Lib.subtreeSum]
    simp only [zero_max]
    have hloop : ∀ (l : List Ref) (counter : UInt16) (z : Int), (counter.toNat : Int) ≡ z [ZMOD 65536] →
        ((l.foldl (fun counter item => if w.isContainer item then counter + getFreeSlotsLoop w n item else counter)
          counter).toNat : Int) ≡ z + (l.map (Lib.subtreeSum w.itemlist (slotsLeft w) n)).sum [ZMOD 65536] := by
      intro l
      induction l with
      | nil => exact fun counter z hz => by simpa using hz
      | cons item l ihl =>
        intro counter z hz
        rw [List.foldl_cons, List.map_cons, List.sum_cons, ← add_assoc]
        refine ihl _ _ ?_
        split
        · have hadd : ((counter + getFreeSlotsLoop w n item).toNat : Int) ≡
              counter.toNat + (getFreeSlotsLoop w n item).toNat [ZMOD 65536] := by
            rw [UInt16.toNat_add, Int.ModEq]
            omega
          exact hadd.trans (hz.add (ih item))
        · next hc =>
          rw [subtreeSum_of_not_container hc, add_zero]
          exact hz
    exact hloop _ _ _ (own_modEq w this)

theorem surplus_eq (h : w.Forest) (this : Ref) :
    Lib.subtreeSum w.itemlist (slotsLeft w) (w.next + 1) this = (free w this : Int) - surplus w this := by
  classical
  have hnodes : ∀ c, c = this ∨ Lib.Below w.getParentContainer c this → c ∈ insert this (range w.next) := by
    rintro c (rfl | hb)
    · exact mem_insert_self _ _
    · obtain ⟨p, hp, -⟩ := Lib.below_cases hb
      exact mem_insert_of_mem (mem_range.mpr (h.made c p hp).1)
  rw [Lib.subtreeSum_eq_sum h.lists h.acyclic (slotsLeft w) (h.low this) hnodes, free, surplus, Nat.cast_sum, Nat.cast_sum,
    ← sum_sub_distrib]
  unfold tree
  refine sum_congr (filter_congr_decidable ..) fun c _ => ?_
  rw [slotsLeft]
  omega

/-- The count is the free slots less the surplus, in 16 bits. -/
theorem getFreeSlots_modEq (h : w.Forest) (this : Ref) :
    ((getFreeSlots w this).toNat : Int) ≡ free w this - surplus w this [ZMOD 65536] :=
  surplus_eq h this ▸ getFreeSlotsLoop_modEq w (w.next + 1) this

/-- The free slots of a tree, as far as 16 bits go, are counted exactly when the surplus is what is above that, in 16
    bits. -/
theorem getFreeSlots_eq_iff (h : w.Forest) (this : Ref) :
    (getFreeSlots w this).toNat = min (free w this) 65535 ↔ surplus w this % 65536 = (free w this - 65535) % 65536 := by
  have hmod := getFreeSlots_modEq h this
  have hlt := (getFreeSlots w this).toNat_lt
  rw [Int.ModEq] at hmod
  generalize free w this = m at hmod ⊢
  generalize surplus w this = n at hmod ⊢
  generalize (getFreeSlots w this).toNat = k at hmod hlt ⊢
  omega

/-- Where nothing is overfull the free slots are counted, up to the range of the result. -/
theorem getFreeSlots_of_surplus (h : w.Forest) (hs : surplus w this = 0) (hf : free w this ≤ 65535) :
    (getFreeSlots w this).toNat = free w this := by
  have heq := (getFreeSlots_eq_iff h this).mpr (by rw [hs, Nat.sub_eq_zero_of_le hf])
  rwa [Nat.min_eq_left hf] at heq

/-! ### A page too many -/

/-- A container of one slot, with pages, that holds two items. -/
def overfullWorld : World where
  item
    | 0 => ⟨2853, 1, none, none, some ⟨2000, 1, 0, [1, 2], true, true, false⟩⟩
    | 1 | 2 => ⟨3264, 1, none, some (.container 0), none⟩
    | _ + 3 => ⟨3264, 1, none, none, none⟩
  next := 3
  players _ := ⟨fun _ => none, none, false, false, 0, 0, false⟩

theorem parent_overfull {r c : Ref} : overfullWorld.getParentContainer r = some c ↔ c = 0 ∧ (r = 1 ∨ r = 2) := by
  rcases r with - | - | - | r
  · exact iff_of_false (by rintro ⟨⟩) (by simp)
  · simp [overfullWorld, World.getParentContainer, World.getParent, Cylinder.getContainer, eq_comm]
  · simp [overfullWorld, World.getParentContainer, World.getParent, Cylinder.getContainer, eq_comm]
  · exact iff_of_false (by rintro ⟨⟩) (by simp)

theorem itemlist_overfull (c : Ref) : overfullWorld.itemlist c = if c = 0 then [1, 2] else [] := by
  rcases c with - | - | - | c <;> rfl

theorem overfull_forest : overfullWorld.Forest where
  lists := by
    refine ⟨fun x p => ?_, fun p => ?_⟩
    · rw [parent_overfull, itemlist_overfull]
      by_cases hp : p = 0 <;> simp [hp]
    · rw [itemlist_overfull]
      by_cases hp : p = 0 <;> simp [hp]
  acyclic x hx := by
    obtain ⟨c, hc, hcx⟩ := Lib.below_cases hx
    obtain ⟨rfl, hx12⟩ := parent_overfull.mp hc
    have hroot : overfullWorld.getParentContainer 0 = none := rfl
    rcases hcx with rfl | hcx
    · rcases hx12 with h | h <;> cases h
    · exact Lib.not_below_of_root hroot hcx
  made r c h := by
    obtain ⟨rfl, rfl | rfl⟩ := parent_overfull.mp h <;> exact ⟨by decide, by decide⟩

theorem getFreeSlots_eq_iff_overfull : (getFreeSlots overfullWorld 0).toNat = min (free overfullWorld 0) 65535 ↔
    surplus overfullWorld 0 % 65536 = (free overfullWorld 0 - 65535) % 65536 :=
  getFreeSlots_eq_iff overfull_forest 0

/-- No slot is free, and 65535 are counted. -/
theorem getFreeSlots_overfull :
    ¬∀ (w : World) (this : Ref), w.Forest → (getFreeSlots w this).toNat = min (free w this) 65535 := by
  intro h
  have hcount := h overfullWorld 0 overfull_forest
  have hnone : free overfullWorld 0 = 0 := sum_eq_zero fun c _ => by
    rcases c with - | c
    · decide
    · rcases c with - | - | c <;> exact Nat.zero_sub _
  rw [hnone] at hcount
  revert hcount
  decide

end CrystalServer.Container
