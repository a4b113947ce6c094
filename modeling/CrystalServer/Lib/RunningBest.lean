import Mathlib.Algebra.Order.Group.Int
import Mathlib.Data.List.Basic

/-! # Loops that keep the best so far

A loop goes through a list with an element and its value, and takes a new element where a test says so. With the values
compared as they are it ends at the least. A loop in which a new element has a head start over the value so far ends at
the last one that gets over it. -/

namespace Lib
variable {α β : Type*}

section
variable [LinearOrder β] (value : α → β)

/-- The loop that takes what is less. -/
def takeLess (s : α × β) (a : α) : α × β := if value a < s.2 then (a, value a) else s

/-- Nothing is less than the start, or the loop ends at the least. -/
theorem foldl_takeLess (l : List α) (s : α × β) :
    (l.foldl (takeLess value) s = s ∧ ∀ a ∈ l, s.2 ≤ value a) ∨
      ∃ a ∈ l, l.foldl (takeLess value) s = (a, value a) ∧ value a < s.2 ∧ ∀ b ∈ l, value a ≤ value b := by
  induction l generalizing s with
  | nil => exact .inl ⟨rfl, by simp⟩
  | cons x l ih =>
    rw [List.foldl_cons]
    by_cases hx : value x < s.2
    · rw [takeLess, if_pos hx]
      rcases ih (x, value x) with ⟨hfold, hleast⟩ | ⟨a, ha, hfold, hlt, hleast⟩
      · exact .inr ⟨x, List.mem_cons_self, hfold, hx, List.forall_mem_cons.mpr ⟨le_refl _, hleast⟩⟩
      · exact .inr ⟨a, List.mem_cons_of_mem x ha, hfold, hlt.trans hx, List.forall_mem_cons.mpr ⟨hlt.le, hleast⟩⟩
    · rw [takeLess, if_neg hx]
      have hge := not_lt.mp hx
      rcases ih s with ⟨hfold, hleast⟩ | ⟨a, ha, hfold, hlt, hleast⟩
      · exact .inl ⟨hfold, List.forall_mem_cons.mpr ⟨hge, hleast⟩⟩
      · exact .inr ⟨a, List.mem_cons_of_mem x ha, hfold, hlt,
          List.forall_mem_cons.mpr ⟨hlt.le.trans hge, hleast⟩⟩

end

section
variable (value : α → Option ℤ) (start : ℤ)

/-- The loop that takes what gets over the value so far with a head start. -/
def takeOver (s : α × ℤ) (a : α) : α × ℤ :=
  match value a with
  | some v => if v + start > s.2 then (a, v) else s
  | none => s

variable {value start} {s : α × ℤ} {l : List α}

theorem takeOver_some {a : α} {v : ℤ} (hv : value a = some v) :
    takeOver value start s a = if v + start > s.2 then (a, v) else s := by
  simp only [takeOver, hv]

theorem takeOver_none {a : α} (hv : value a = none) : takeOver value start s a = s := by
  simp only [takeOver, hv]

/-- What does not get over the value so far changes nothing. -/
theorem foldl_takeOver_of_le (h : ∀ a ∈ l, ∀ v, value a = some v → v + start ≤ s.2) : l.foldl (takeOver value start) s = s := by
  induction l with
  | nil => rfl
  | cons x l ih =>
    obtain ⟨hx, hl⟩ := List.forall_mem_cons.mp h
    have hkeep : takeOver value start s x = s := by
      cases hv : value x with
      | none => exact takeOver_none hv
      | some v => rw [takeOver_some hv, if_neg (not_lt.mpr (hx v hv))]
    rw [List.foldl_cons, hkeep]
    exact ih hl

variable (value start) in
/-- The loop ends where it began, or at an element over which nothing after it gets; the first that it took got over the
    start. -/
theorem foldl_takeOver (l : List α) (s : α × ℤ) :
    (l.foldl (takeOver value start) s = s ∧ ∀ a ∈ l, ∀ v, value a = some v → v + start ≤ s.2) ∨
      ∃ xs a ys v, l = xs ++ a :: ys ∧ value a = some v ∧ l.foldl (takeOver value start) s = (a, v) ∧
        (∀ b ∈ ys, ∀ w, value b = some w → w + start ≤ v) ∧ ∃ b ∈ l, ∃ w, value b = some w ∧ s.2 < w + start := by
  induction l generalizing s with
  | nil => exact .inl ⟨rfl, by simp⟩
  | cons x l ih =>
    rw [List.foldl_cons]
    by_cases hx : ∃ v, value x = some v ∧ v + start > s.2
    · obtain ⟨v, hv, hx⟩ := hx
      rw [takeOver_some hv, if_pos hx]
      rcases ih (x, v) with ⟨hfold, hle⟩ | ⟨xs, a, ys, w, hl, hw, hfold, hafter, -⟩
      · exact .inr ⟨[], x, l, v, rfl, hv, hfold, hle, x, List.mem_cons_self, v, hv, hx⟩
      · exact .inr ⟨x :: xs, a, ys, w, by rw [hl, List.cons_append], hw, hfold, hafter, x, List.mem_cons_self, v, hv, hx⟩
    · have hle : ∀ v, value x = some v → v + start ≤ s.2 := fun v hv => not_lt.mp fun hlt => hx ⟨v, hv, hlt⟩
      have hkeep : takeOver value start s x = s :=
        foldl_takeOver_of_le (l := [x]) (List.forall_mem_singleton.mpr hle)
      rw [hkeep]
      rcases ih s with ⟨hfold, hrest⟩ | ⟨xs, a, ys, v, hl, hv, hfold, hafter, b, hb, hover⟩
      · exact .inl ⟨hfold, List.forall_mem_cons.mpr ⟨hle, hrest⟩⟩
      · exact .inr ⟨x :: xs, a, ys, v, by rw [hl, List.cons_append], hv, hfold, hafter, b, List.mem_cons_of_mem x hb, hover⟩

/-- With no value counted as 0, the loop from 0 on ends at the greatest exactly if nothing gets over 0 and the greatest is
the first, or nothing after one of the greatest gets over that. -/
theorem foldl_takeOver_greatest_iff {first : α} (hstart : 0 ≤ start) :
    (∀ a ∈ first :: l, (value a).getD 0 ≤ (value (l.foldl (takeOver value start) (first, 0)).1).getD 0) ↔
      ((∀ a ∈ l, ∀ v, value a = some v → v + start ≤ 0) ∧ ∀ a ∈ l, (value a).getD 0 ≤ (value first).getD 0) ∨
        ∃ xs a ys v, l = xs ++ a :: ys ∧ value a = some v ∧ 0 < v + start ∧
          (∀ b ∈ ys, ∀ w, value b = some w → w + start ≤ v) ∧ ∀ b ∈ first :: l, (value b).getD 0 ≤ v := by
  constructor
  · intro h
    rcases foldl_takeOver value start l (first, 0) with ⟨hfold, hle⟩ | ⟨xs, a, ys, v, hl, hv, hfold, hafter, b, hb, w, hw, hover⟩
    · rw [hfold] at h
      exact .inl ⟨hle, (List.forall_mem_cons.mp h).2⟩
    · rw [hfold, hv, Option.getD_some] at h
      have hbv := h b (List.mem_cons_of_mem first hb)
      rw [hw, Option.getD_some] at hbv
      exact .inr ⟨xs, a, ys, v, hl, hv, lt_of_lt_of_le hover (Int.add_le_add_right hbv start), hafter, h⟩
  · rintro (⟨hle, hfirst⟩ | ⟨xs, a, ys, v, rfl, hv, hpos, hafter, hgreatest⟩)
    · rw [foldl_takeOver_of_le hle]
      exact List.forall_mem_cons.mpr ⟨le_refl _, hfirst⟩
    · -- At `a` the value so far is the greatest, whether `a` is taken or one before it has the same.
      have hat : ∃ t, (xs ++ [a]).foldl (takeOver value start) (first, 0) = (t, v) ∧ value t = some v := by
        rw [List.foldl_concat]
        rcases foldl_takeOver value start xs (first, 0) with ⟨hfold, -⟩ | ⟨xs', x, ys', w, hxs, hw, hfold, -⟩
        · exact ⟨a, by rw [hfold, takeOver_some hv, if_pos hpos], hv⟩
        · have hwv := hgreatest x (by simp [hxs])
          rw [hw, Option.getD_some] at hwv
          by_cases hover : v + start > w
          · exact ⟨a, by rw [hfold, takeOver_some hv, if_pos hover], hv⟩
          · have heq : w = v := by omega
            exact ⟨x, by rw [hfold, takeOver_some hv, if_neg hover, heq], heq ▸ hw⟩
      obtain ⟨t, hfold, ht⟩ := hat
      have hend : (xs ++ a :: ys).foldl (takeOver value start) (first, 0) = (t, v) := by
        rw [List.append_cons, List.foldl_append, hfold, foldl_takeOver_of_le hafter]
      rw [hend, ht]
      exact hgreatest

end
end Lib
