import Mathlib.Data.UInt

/-! # Sums over lists of entries, and words as numbers

The sum of what the entries of a list count for, in any commutative monoid, machine integers included: what an entry adds
that comes in, leaves or is replaced. -/

namespace Lib

instance instAddCommMonoidInt8 : AddCommMonoid Int8 where
  add_assoc := Int8.add_assoc
  zero_add := Int8.zero_add
  add_zero := Int8.add_zero
  add_comm := Int8.add_comm
  nsmul := nsmulRec

instance instAddCommMonoidUInt8 : AddCommMonoid UInt8 where
  add_assoc := UInt8.add_assoc
  zero_add := UInt8.zero_add
  add_zero := UInt8.add_zero
  add_comm := UInt8.add_comm
  nsmul := nsmulRec

instance instAddCommMonoidInt32 : AddCommMonoid Int32 where
  add_assoc := Int32.add_assoc
  zero_add := Int32.zero_add
  add_zero := Int32.add_zero
  add_comm := Int32.add_comm
  nsmul := nsmulRec

variable {α R : Type*} [AddCommMonoid R] {f : α → R} {l : List α} {a : α} {i : Nat}

def sumBy (f : α → R) (l : List α) : R := l.foldr (fun a n => f a + n) 0

@[simp] theorem sumBy_nil (f : α → R) : sumBy f [] = 0 := rfl

@[simp] theorem sumBy_cons (f : α → R) (a : α) (l : List α) : sumBy f (a :: l) = f a + sumBy f l := rfl

theorem sumBy_concat (f : α → R) (l : List α) (a : α) : sumBy f (l ++ [a]) = sumBy f l + f a := by
  induction l with
  | nil => exact add_comm (f a) 0
  | cons b l ih => rw [List.cons_append, sumBy_cons, sumBy_cons, ih, add_assoc]

theorem sumBy_eraseIdx (h : l[i]? = some a) (f : α → R) : sumBy f l = f a + sumBy f (l.eraseIdx i) := by
  induction l generalizing i with
  | nil => cases h
  | cons b l ih =>
    cases i with
    | zero =>
      cases h
      rfl
    | succ i => rw [List.eraseIdx_cons_succ, sumBy_cons, sumBy_cons, ih (i := i) h, add_left_comm]

theorem sumBy_set (h : l[i]? = some a) (f : α → R) (b : α) : sumBy f (l.set i b) + f a = sumBy f l + f b := by
  induction l generalizing i with
  | nil => cases h
  | cons c l ih =>
    cases i with
    | zero =>
      cases h
      rw [List.set_cons_zero, sumBy_cons, sumBy_cons, add_comm (f b), add_comm (f a), add_right_comm]
    | succ i => rw [List.set_cons_succ, sumBy_cons, sumBy_cons, add_assoc, ih (i := i) h, add_assoc]

theorem sumBy_congr {g : α → R} (h : ∀ b ∈ l, f b = g b) : sumBy f l = sumBy g l := by
  induction l with
  | nil => rfl
  | cons b l ih =>
    rw [sumBy_cons, sumBy_cons, h b List.mem_cons_self, ih fun c hc => h c (List.mem_cons_of_mem b hc)]

/-- What one entry of the list counts for changes. -/
theorem sumBy_update {g : α → R} (hl : l.Nodup) (ha : a ∈ l) (h : ∀ b ∈ l, b ≠ a → g b = f b) :
    sumBy g l + f a = sumBy f l + g a := by
  induction l with
  | nil => cases ha
  | cons b l ih =>
    obtain ⟨hb, hl⟩ := List.nodup_cons.mp hl
    rw [sumBy_cons, sumBy_cons]
    rcases List.mem_cons.mp ha with rfl | ha
    · have : sumBy g l = sumBy f l :=
        sumBy_congr fun c hc => h c (List.mem_cons_of_mem a hc) fun hca => hb (hca ▸ hc)
      rw [this, add_comm (g a), add_comm (f a), add_right_comm]
    · have hne : b ≠ a := fun hba => hb (hba ▸ ha)
      rw [h b List.mem_cons_self hne, add_assoc, add_assoc, ih hl ha fun c hc => h c (List.mem_cons_of_mem b hc)]

theorem sumBy_zero (l : List α) : sumBy (fun _ => (0 : R)) l = 0 := by
  induction l with
  | nil => rfl
  | cons b l ih => rw [sumBy_cons, ih, add_zero]

theorem sumBy_add (f g : α → R) (l : List α) : sumBy (fun a => f a + g a) l = sumBy f l + sumBy g l := by
  induction l with
  | nil => exact (add_zero 0).symm
  | cons b l ih => rw [sumBy_cons, sumBy_cons, sumBy_cons, ih, add_add_add_comm]

theorem sumBy_comm {β : Type*} (f : α → β → R) (l : List α) (m : List β) :
    sumBy (fun a => sumBy (f a) m) l = sumBy (fun b => sumBy (fun a => f a b) l) m := by
  induction l with
  | nil => exact (sumBy_zero m).symm
  | cons a l ih => simp only [sumBy_cons, ih, sumBy_add]

/-- Of distinct keys one counts. -/
theorem sumBy_key {κ : Type*} [DecidableEq κ] {key : α → κ} (hn : (l.map key).Nodup) (ha : a ∈ l) (r : R) :
    sumBy (fun b => if key a = key b then r else 0) l = r := by
  induction l with
  | nil => cases ha
  | cons b l ih =>
    obtain ⟨hb, hn⟩ := List.nodup_cons.mp hn
    rw [sumBy_cons]
    rcases List.mem_cons.mp ha with rfl | ha
    · have : sumBy (fun b => if key a = key b then r else 0) l = sumBy (fun _ => (0 : R)) l :=
        sumBy_congr fun c hc => if_neg fun h => hb (by rw [h]; exact List.mem_map_of_mem hc)
      rw [if_pos rfl, this, sumBy_zero, add_zero]
    · have hne : key a ≠ key b := fun h => hb (h ▸ List.mem_map_of_mem ha)
      rw [if_neg hne, ih hn ha, zero_add]

end Lib

/-! ## Words of 32 bits as numbers

What a cast or a sum of machine words is as a number, where nothing wraps. -/

namespace Lib

theorem toInt_toInt32_of_lt {x : UInt32} (h : x.toNat < 2 ^ 31) : x.toInt32.toInt = x.toNat := by
  have hint : x.toInt32.toInt = x.toBitVec.toInt := rfl
  rw [hint, BitVec.toInt_eq_toNat_of_lt (by rw [UInt32.toNat_toBitVec]; omega), UInt32.toNat_toBitVec]

theorem toNat_add_of_lt {x y : UInt32} (h : x.toNat + y.toNat < 2 ^ 32) : (x + y).toNat = x.toNat + y.toNat := by
  rw [UInt32.toNat_add, Nat.mod_eq_of_lt h]

theorem toNat_ofInt_natCast_of_lt {n : Nat} (h : n < 2 ^ 32) : (UInt32.ofInt n).toNat = n := by
  have hmod : ((n : Int) % 2 ^ 32).toNat = n := by omega
  rw [UInt32.ofInt, hmod]
  exact UInt32.toNat_ofNat_of_lt' h

theorem ofInt_natCast_of_lt {n : Nat} (h : n < 2 ^ 32) : UInt32.ofInt n = .ofNat n := by
  apply UInt32.toNat_inj.mp
  rw [toNat_ofInt_natCast_of_lt h, UInt32.toNat_ofNat_of_lt' h]

/-- A sum of words is the sum of their numbers, modulo the size of a word. -/
theorem toNat_sum {α : Type*} [Add α] [Zero α] {toNat : α → ℕ} {m : ℕ} (hzero : toNat 0 = 0)
    (hadd : ∀ a b, toNat (a + b) = (toNat a + toNat b) % m) (l : List α) : toNat l.sum = (l.map toNat).sum % m := by
  induction l with
  | nil => exact hzero.trans (Nat.zero_mod m).symm
  | cons a l ih => rw [List.sum_cons, hadd, ih, List.map_cons, List.sum_cons, Nat.add_mod_mod]

theorem toNat_sum_uint64 (l : List UInt64) : l.sum.toNat = (l.map UInt64.toNat).sum % 2 ^ 64 :=
  toNat_sum rfl UInt64.toNat_add l

theorem toNat_sum_uint32 (l : List UInt32) : l.sum.toNat = (l.map UInt32.toNat).sum % 2 ^ 32 :=
  toNat_sum rfl UInt32.toNat_add l

end Lib

/-! ## The additive group of 32 bits

Sums that wrap cancel exactly. -/

namespace Lib

instance instAddCommGroupInt32 : AddCommGroup Int32 where
  add_assoc := Int32.add_assoc
  zero_add := Int32.zero_add
  add_zero := Int32.add_zero
  neg_add_cancel := Int32.add_left_neg
  add_comm := Int32.add_comm
  sub_eq_add_neg := Int32.sub_eq_add_neg
  nsmul := nsmulRec
  zsmul := zsmulRec

end Lib
