import Mathlib.Data.List.Basic

/-! # Byte stuffing

An encoding for symbols some of which are special: a special symbol is written with an escape symbol
before it, any other as it is. The escape symbol is special itself. -/

namespace Lib

section
variable {α : Type*} (esc : α) (special : α → Prop) [DecidablePred special]

/-- The encoded symbols. -/
def stuff : List α → List α
  | [] => []
  | b :: bs => if special b then esc :: b :: stuff bs else b :: stuff bs

/-- The symbols without the escape symbols; the mark says whether the symbol before was one. -/
def unstuff [DecidableEq α] : Bool → List α → List α
  | _, [] => []
  | escaped, b :: bs => if b = esc ∧ escaped = false then unstuff true bs else b :: unstuff false bs

variable {esc special}

theorem stuff_special {b : α} {bs : List α} (h : special b) :
    stuff esc special (b :: bs) = esc :: b :: stuff esc special bs :=
  if_pos h

theorem stuff_plain {b : α} {bs : List α} (h : ¬special b) :
    stuff esc special (b :: bs) = b :: stuff esc special bs :=
  if_neg h

theorem stuff_append (xs ys : List α) :
    stuff esc special (xs ++ ys) = stuff esc special xs ++ stuff esc special ys := by
  induction xs with
  | nil => rfl
  | cons b xs ih =>
    by_cases h : special b
    · rw [List.cons_append, stuff_special h, stuff_special h, ih, List.cons_append, List.cons_append]
    · rw [List.cons_append, stuff_plain h, stuff_plain h, ih, List.cons_append]

theorem stuff_of_plain {bs : List α} (h : ∀ b ∈ bs, ¬special b) : stuff esc special bs = bs := by
  induction bs with
  | nil => rfl
  | cons b bs ih =>
    rw [stuff_plain (h b List.mem_cons_self), ih fun c hc => h c (List.mem_cons_of_mem _ hc)]

/-- Each special symbol takes one place more. -/
theorem length_stuff (bs : List α) :
    (stuff esc special bs).length = bs.length + bs.countP fun b => decide (special b) := by
  induction bs with
  | nil => rfl
  | cons b bs ih =>
    by_cases h : special b
    · simp only [stuff_special h, List.length_cons, ih, List.countP_cons, decide_eq_true h, if_true]
      omega
    · simp only [stuff_plain h, List.length_cons, ih, List.countP_cons, decide_eq_false h]
      simp only [Bool.false_eq_true, if_false]
      omega

theorem unstuff_stuff_append [DecidableEq α] (hesc : special esc) (bs rest : List α) :
    unstuff esc false (stuff esc special bs ++ rest) = bs ++ unstuff esc false rest := by
  induction bs with
  | nil => rfl
  | cons b bs ih =>
    by_cases h : special b
    · rw [stuff_special h, List.cons_append, List.cons_append, unstuff, if_pos ⟨rfl, rfl⟩, unstuff,
        if_neg (fun h => Bool.noConfusion h.2), ih, List.cons_append]
    · have hb : ¬(b = esc ∧ false = false) := fun he => h (he.1 ▸ hesc)
      rw [stuff_plain h, List.cons_append, unstuff, if_neg hb, ih, List.cons_append]

theorem unstuff_stuff [DecidableEq α] (hesc : special esc) (bs : List α) :
    unstuff esc false (stuff esc special bs) = bs := by
  have h := unstuff_stuff_append hesc bs []
  rwa [List.append_nil, unstuff, List.append_nil] at h

end

end Lib
