import CrystalServer.Lib.Forest
import Mathlib.Algebra.BigOperators.Group.Finset.Piecewise
import Mathlib.Algebra.BigOperators.Group.Finset.Sigma
import Mathlib.Tactic.Abel

/-! # Subtree totals kept along the way up

Each node of a forest caches a total: the sum, over its children, of what the child is worth itself and of
the total of the child. A change by `d` below a node is made good by adding `d` to the totals of the node and
of every node above it. -/

namespace Lib

section
variable {α M : Type*} [DecidableEq α] [AddCommGroup M]

/-- Adds to the total of a node and to those of the nodes above it. -/
def addUp (parent : α → Option α) (d : M) : ℕ → α → (α → M) → α → M
  | 0, x, t => Function.update t x (t x + d)
  | n + 1, x, t =>
    match parent x with
    | none => Function.update t x (t x + d)
    | some p => addUp parent d n p (Function.update t x (t x + d))

/-- What the total of a node lacks. -/
def defect (children : α → List α) (own t : α → M) (x : α) : M :=
  ((children x).map fun r => own r + t r).sum - t x

theorem sum_map_update {l : List α} (hl : l.Nodup) (own t : α → M) (x : α) (d : M) :
    (l.map fun r => own r + Function.update t x (t x + d) r).sum =
      (l.map fun r => own r + t r).sum + if x ∈ l then d else 0 := by
  induction l with
  | nil => simp
  | cons r l ih =>
    obtain ⟨hr, hl⟩ := List.nodup_cons.mp hl
    rw [List.map_cons, List.map_cons, List.sum_cons, List.sum_cons, ih hl]
    by_cases hx : x = r
    · subst hx
      rw [Function.update_self, if_neg hr, if_pos List.mem_cons_self]
      abel
    · rw [Function.update_of_ne (Ne.symm hx)]
      simp only [List.mem_cons, hx, false_or]
      abel

variable {parent : α → Option α} {children : α → List α}

theorem defect_update (hc : Lists parent children) (own t : α → M) (x : α) (d : M) (y : α) :
    defect children own (Function.update t x (t x + d)) y =
      defect children own t y - (if y = x then d else 0) + if parent x = some y then d else 0 := by
  unfold defect
  rw [sum_map_update (hc.nodup y), if_congr (hc.mem_iff x y) rfl rfl]
  by_cases hy : y = x
  · subst hy
    rw [Function.update_self, if_pos rfl]
    abel
  · rw [Function.update_of_ne hy, if_neg hy]
    abel

theorem defect_update_root (hc : Lists parent children) {own t : α → M} {x : α} (hx : parent x = none) (d : M) (y : α) :
    defect children own (Function.update t x (t x + d)) y = defect children own t y - if y = x then d else 0 := by
  have hne : ¬parent x = some y := by rw [hx]; exact nofun
  rw [defect_update hc, if_neg hne, add_zero]

/-- Adding along the way up changes what is lacking at its start only. -/
theorem defect_addUp (hc : Lists parent children) (own : α → M) (d : M) {n : ℕ} {x : α} (hx : Ends parent n x)
    (t : α → M) (y : α) :
    defect children own (addUp parent d n x t) y = defect children own t y - if y = x then d else 0 := by
  induction n generalizing x t with
  | zero =>
    have hx : parent x = none := hx
    rw [addUp, defect_update_root hc hx]
  | succ n ih =>
    cases hp : parent x with
    | none =>
      rw [show addUp parent d (n + 1) x t = Function.update t x (t x + d) by rw [addUp, hp],
        defect_update_root hc hp]
    | some p =>
      rw [show addUp parent d (n + 1) x t = addUp parent d n p (Function.update t x (t x + d)) by rw [addUp, hp],
        ih (hx p hp), defect_update hc, hp]
      by_cases hy : y = p
      · subst hy
        simp
      · rw [if_neg hy, if_neg (fun h => hy (Option.some.inj h).symm), add_zero, sub_zero]

/-- Only the node and those above it change. -/
theorem addUp_of_not_below (d : M) {n : ℕ} {x y : α} (hy : y ≠ x) (hb : ¬Below parent x y) (t : α → M) :
    addUp parent d n x t y = t y := by
  induction n generalizing x t with
  | zero => rw [addUp, Function.update_of_ne hy]
  | succ n ih =>
    rw [addUp]
    cases hp : parent x with
    | none => exact Function.update_of_ne hy _ _
    | some p =>
      have hpb := below_of_parent hp
      have hyp : y ≠ p := by
        rintro rfl
        exact hb hpb
      exact (ih hyp (fun h => hb (hpb.trans h)) _).trans (Function.update_of_ne hy _ _)

/-! ### Nested sums -/

/-- The sum of what the nodes of a subtree are worth, down to a depth. -/
def subtreeSum (children : α → List α) (own : α → M) : ℕ → α → M
  | 0, _ => 0
  | n + 1, x => own x + ((children x).map (subtreeSum children own n)).sum

/-- The subtree of a node is less than so many nodes high. -/
def Low (children : α → List α) : ℕ → α → Prop
  | 0, _ => False
  | n + 1, x => ∀ r ∈ children x, Low children n r

omit [DecidableEq α] in
theorem low_of_acyclic (hc : Lists parent children) (h : Acyclic parent) (s : Finset α) (x : α)
    (hs : ∀ y, Below parent y x → y ∈ s) : Low children (s.card + 1) x := by
  classical
  induction hn : s.card generalizing s x with
  | zero =>
    intro r hr
    have := hs r (below_of_parent ((hc.mem_iff r x).mp hr))
    rw [Finset.card_eq_zero.mp hn] at this
    exact Finset.notMem_empty r this
  | succ n ih =>
    intro r hr
    have hrx := below_of_parent ((hc.mem_iff r x).mp hr)
    refine ih (s.erase r) r (fun y hy => ?_) (by rw [Finset.card_erase_of_mem (hs r hrx), hn]; rfl)
    refine Finset.mem_erase.mpr ⟨?_, hs y (hy.trans hrx)⟩
    rintro rfl
    exact h y hy

omit [DecidableEq α] in
/-- Where no total lacks anything, a node and its total are worth the nodes of its subtree. -/
theorem add_total_eq_subtreeSum {own t : α → M} (h : ∀ x, defect children own t x = 0) {n : ℕ} {x : α}
    (hx : Low children n x) : own x + t x = subtreeSum children own n x := by
  induction n generalizing x with
  | zero => exact hx.elim
  | succ n ih =>
    rw [subtreeSum, ← sub_eq_zero.mp (h x)]
    congr 2
    exact List.map_congr_left fun r hr => ih (hx r hr)

open scoped Classical in
/-- The sum of a subtree, node by node. -/
theorem subtreeSum_eq_sum (hc : Lists parent children) (h : Acyclic parent) (own : α → M) {s : Finset α} {n : ℕ}
    (hx : Low children n x) (hs : ∀ y, y = x ∨ Below parent y x → y ∈ s) :
    subtreeSum children own n x = ∑ y ∈ s with y = x ∨ Below parent y x, own y := by
  induction n generalizing x with
  | zero => exact hx.elim
  | succ n ih =>
    have hrest : ∀ r ∈ children x, subtreeSum children own n r = ∑ y ∈ s with y = r ∨ Below parent y r, own y :=
      fun r hr => ih (hx r hr) fun y hy => hs y (.inr ((below_iff_child hc).mpr ⟨r, hr, hy⟩))
    have hnodes : (s.filter fun y => y = x ∨ Below parent y x) =
        insert x ((children x).toFinset.biUnion fun r => s.filter fun y => y = r ∨ Below parent y r) := by
      ext y
      simp only [Finset.mem_filter, Finset.mem_insert, Finset.mem_biUnion, List.mem_toFinset]
      constructor
      · rintro ⟨hy, rfl | hb⟩
        · exact .inl rfl
        · obtain ⟨r, hr, hyr⟩ := (below_iff_child hc).mp hb
          exact .inr ⟨r, hr, hy, hyr⟩
      · rintro (rfl | ⟨r, hr, hy, hyr⟩)
        · exact ⟨hs y (.inl rfl), .inl rfl⟩
        · exact ⟨hy, .inr ((below_iff_child hc).mpr ⟨r, hr, hyr⟩)⟩
    have hfresh : x ∉ (children x).toFinset.biUnion fun r => s.filter fun y => y = r ∨ Below parent y r := by
      simp only [Finset.mem_filter, Finset.mem_biUnion, List.mem_toFinset]
      rintro ⟨r, hr, -, hxr⟩
      exact h x ((below_iff_child hc).mpr ⟨r, hr, hxr⟩)
    have hdisjoint : ((children x).toFinset : Set α).PairwiseDisjoint fun r => s.filter fun y => y = r ∨ Below parent y r := by
      intro r hr r' hr' hne
      have hpr : parent r = some x := (hc.mem_iff r x).mp (List.mem_toFinset.mp hr)
      have hpr' : parent r' = some x := (hc.mem_iff r' x).mp (List.mem_toFinset.mp hr')
      rw [Function.onFun, Finset.disjoint_left]
      intro y hy hy'
      exact hne (child_unique h hpr hpr' (Finset.mem_filter.mp hy).2 (Finset.mem_filter.mp hy').2)
    rw [subtreeSum, hnodes, Finset.sum_insert hfresh, Finset.sum_biUnion hdisjoint, List.map_congr_left hrest,
      List.sum_toFinset _ (hc.nodup x)]

end

/-! ### Sums over a forest -/

section
variable {α M : Type*} [DecidableEq α] [AddCommMonoid M] {parent : α → Option α} {children : α → List α}

/-- Summing over all lists of children sums over the nodes with a parent. -/
theorem sum_children (hc : Lists parent children) {s : Finset α} (hs : ∀ x p, parent x = some p → x ∈ s ∧ p ∈ s)
    (f : α → M) :
    ∑ p ∈ s, ((children p).map f).sum = ∑ x ∈ s, if (parent x).isSome then f x else 0 := by
  have hlist : ∀ p, ((children p).map f).sum = ∑ x ∈ s, if parent x = some p then f x else 0 := fun p => by
    rw [← List.sum_toFinset f (hc.nodup p), ← Finset.sum_filter]
    refine Finset.sum_congr (Finset.ext fun x => ?_) fun _ _ => rfl
    rw [List.mem_toFinset, hc.mem_iff, Finset.mem_filter]
    exact ⟨fun h => ⟨(hs x p h).1, h⟩, fun h => h.2⟩
  rw [Finset.sum_congr rfl fun p _ => hlist p, Finset.sum_comm]
  refine Finset.sum_congr rfl fun x _ => ?_
  cases hp : parent x with
  | none => simp
  | some p =>
    simp only [Option.some_inj, Finset.sum_ite_eq, Option.isSome_some, if_true]
    exact if_pos (hs x p hp).2

end

/-- Two sums that differ at one place. -/
theorem sum_add_eq {α M : Type*} [AddCommMonoid M] {s : Finset α} {f g : α → M} {x : α} (hx : x ∈ s)
    (h : ∀ y, y ≠ x → g y = f y) : ∑ y ∈ s, g y + f x = ∑ y ∈ s, f y + g x := by
  classical
  rw [← Finset.add_sum_erase s f hx, ← Finset.add_sum_erase s g hx,
    Finset.sum_congr rfl fun y hy => h y (Finset.ne_of_mem_erase hy)]
  ac_rfl

end Lib
