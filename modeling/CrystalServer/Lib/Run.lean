import Mathlib.Data.List.Basic
import Mathlib.Order.WellFounded

/-! # Runs and loops

A system is a total step function on states and operations. A run applies a list of operations in
order. What every step keeps, a run keeps, also where a step keeps it only under a condition on the
state before it. -/

namespace Lib

section
variable {σ α : Type*} (step : σ → α → σ)

/-- The state after a list of operations. -/
def run (s : σ) (ops : List α) : σ := ops.foldl step s

/-- Each operation of the run meets `cond` in the state that it finds. -/
def Meets (cond : σ → α → Prop) : σ → List α → Prop
  | _, [] => True
  | s, a :: ops => cond s a ∧ Meets cond (step s a) ops

@[simp] theorem run_nil (s : σ) : run step s [] = s := rfl

@[simp] theorem run_cons (s : σ) (a : α) (ops : List α) : run step s (a :: ops) = run step (step s a) ops := rfl

theorem run_append (s : σ) (xs ys : List α) : run step s (xs ++ ys) = run step (run step s xs) ys :=
  List.foldl_append

@[simp] theorem run_concat (s : σ) (ops : List α) (a : α) : run step s (ops ++ [a]) = step (run step s ops) a := by
  simp [run_append]

variable {step}

/-- What holds of each element of a list and those before it, with one more. -/
theorem splits_concat {β : Type*} {P : List β → β → Prop} {log : List β} {o : β}
    (h : ∀ l o l', log = l ++ o :: l' → P l o) (ho : P log o) : ∀ l o' l', log ++ [o] = l ++ o' :: l' → P l o' := by
  intro l o' l' hl
  rcases List.eq_nil_or_concat l' with rfl | ⟨l', x, rfl⟩
  · obtain ⟨rfl, rfl⟩ := List.append_singleton_inj.mp hl
    exact ho
  · rw [List.concat_eq_append, ← List.cons_append, ← List.append_assoc] at hl
    exact h l o' l' (List.append_singleton_inj.mp hl).1

theorem meets_append {cond : σ → α → Prop} {s : σ} {xs ys : List α} :
    Meets step cond s (xs ++ ys) ↔ Meets step cond s xs ∧ Meets step cond (run step s xs) ys := by
  induction xs generalizing s with
  | nil => simp [Meets]
  | cons a xs ih => simp [Meets, ih, and_assoc]

/-- A run that meets the condition meets it in every prefix. -/
theorem Meets.of_append {cond : σ → α → Prop} {s : σ} {xs ys : List α} (h : Meets step cond s (xs ++ ys)) :
    Meets step cond s xs :=
  (meets_append.mp h).1

/-- The operation after a prefix meets the condition in the state that the prefix leaves. -/
theorem Meets.at {cond : σ → α → Prop} {s : σ} {xs ys : List α} {a : α}
    (h : Meets step cond s (xs ++ a :: ys)) : cond (run step s xs) a :=
  (meets_append.mp h).2.1

theorem Meets.last {cond : σ → α → Prop} {s : σ} {xs : List α} {a : α} (h : Meets step cond s (xs ++ [a])) :
    cond (run step s xs) a :=
  h.at

/-- A run meets the condition if each operation meets it in the state that those before it leave. -/
theorem meets_of_forall_split {cond : σ → α → Prop} {s : σ} {ops : List α}
    (h : ∀ xs a ys, ops = xs ++ a :: ys → cond (run step s xs) a) : Meets step cond s ops := by
  induction ops generalizing s with
  | nil => trivial
  | cons a ops ih =>
    refine ⟨h [] a ops rfl, ih fun xs b ys hs => ?_⟩
    subst hs
    exact h (a :: xs) b ys rfl

/-- What each step keeps under the condition holds after a run whose steps all meet it. -/
theorem run_invariant (inv : σ → Prop) {cond : σ → α → Prop}
    (hstep : ∀ s a, inv s → cond s a → inv (step s a)) {s : σ} {ops : List α} (hs : inv s)
    (hm : Meets step cond s ops) : inv (run step s ops) := by
  induction ops generalizing s with
  | nil => exact hs
  | cons a ops ih => exact ih (hstep s a hs hm.1) hm.2

/-- Where a step breaks `inv` unless it meets `cond`, the runs that keep `inv` all along are exactly those whose
    steps all meet `cond`. The operations of the run are the ones that keep the states well formed. -/
theorem meets_iff_forall_part_of (wf inv : σ → Prop) {en cond : σ → α → Prop}
    (hwf : ∀ s a, wf s → en s a → wf (step s a))
    (hstep : ∀ s a, wf s → inv s → en s a → (inv (step s a) ↔ cond s a)) {s : σ} {ops : List α} (hs : wf s)
    (hi : inv s) (he : Meets step en s ops) :
    Meets step cond s ops ↔ ∀ xs, xs <+: ops → inv (run step s xs) := by
  constructor
  · rintro h xs ⟨ys, rfl⟩
    induction xs generalizing s with
    | nil => exact hi
    | cons a xs ih => exact ih (hwf s a hs he.1) ((hstep s a hs hi he.1).mpr h.1) he.2 h.2
  · intro h
    induction ops generalizing s with
    | nil => trivial
    | cons a ops ih =>
      have ha : inv (step s a) := h [a] (List.cons_prefix_cons.mpr ⟨rfl, List.nil_prefix⟩)
      exact ⟨(hstep s a hs hi he.1).mp ha, ih (hwf s a hs he.1) ha he.2 fun xs hxs =>
        h (a :: xs) (List.cons_prefix_cons.mpr ⟨rfl, hxs⟩)⟩

/-- `seen` is what the invariant says to the outside. Where a step keeps the invariant under `cond`, and breaks what is seen
    without it, the runs in which `seen` holds all along are those whose steps all meet `cond`. -/
theorem meets_iff_forall_seen (inv seen : σ → Prop) {cond : σ → α → Prop} (hseen : ∀ s, inv s → seen s)
    (hkeep : ∀ s a, inv s → cond s a → inv (step s a)) (hneed : ∀ s a, inv s → seen (step s a) → cond s a) {s : σ}
    {ops : List α} (hi : inv s) : Meets step cond s ops ↔ ∀ xs, xs <+: ops → seen (run step s xs) := by
  constructor
  · rintro h xs ⟨ys, rfl⟩
    exact hseen _ (run_invariant inv hkeep hi h.of_append)
  · intro h
    induction ops generalizing s with
    | nil => trivial
    | cons a ops ih =>
      have ha : cond s a := hneed s a hi (h [a] (List.cons_prefix_cons.mpr ⟨rfl, List.nil_prefix⟩))
      exact ⟨ha, ih (hkeep s a hi ha) fun xs hxs => h (a :: xs) (List.cons_prefix_cons.mpr ⟨rfl, hxs⟩)⟩

theorem meets_true (s : σ) (ops : List α) : Meets step (fun _ _ => True) s ops := by
  induction ops generalizing s with
  | nil => trivial
  | cons a ops ih => exact ⟨trivial, ih _⟩

theorem meets_iff_forall_part (inv : σ → Prop) {cond : σ → α → Prop}
    (hstep : ∀ s a, inv s → (inv (step s a) ↔ cond s a)) {s : σ} {ops : List α} (hs : inv s) :
    Meets step cond s ops ↔ ∀ xs, xs <+: ops → inv (run step s xs) :=
  meets_iff_forall_part_of (fun _ => True) inv (fun _ _ _ _ => trivial) (fun s a _ hi _ => hstep s a hi) trivial hs
    (meets_true s ops)

/-- Where a broken `inv` stays broken, the runs that end with `inv` are those whose steps all meet `cond`. -/
theorem meets_iff_run (wf inv : σ → Prop) {cond : σ → α → Prop} (hwf : ∀ s a, wf s → wf (step s a))
    (hstep : ∀ s a, wf s → inv s → (inv (step s a) ↔ cond s a)) (hback : ∀ s a, wf s → inv (step s a) → inv s)
    {s : σ} {ops : List α} (hs : wf s) (hi : inv s) : Meets step cond s ops ↔ inv (run step s ops) := by
  have hstays : ∀ (ops : List α) (s : σ), wf s → inv (run step s ops) → inv s := by
    intro ops
    induction ops with
    | nil => exact fun s _ h => h
    | cons a ops ih => exact fun s hs h => hback s a hs (ih _ (hwf s a hs) h)
  induction ops generalizing s with
  | nil => exact iff_of_true trivial hi
  | cons a ops ih =>
    constructor
    · rintro ⟨ha, hm⟩
      exact (ih (hwf s a hs) ((hstep s a hs hi).mpr ha)).mp hm
    · intro h
      have ha : inv (step s a) := hstays ops _ (hwf s a hs) h
      exact ⟨(hstep s a hs hi).mp ha, (ih (hwf s a hs) ha).mpr h⟩

/-- What each step keeps holds after every run. -/
theorem run_induction (inv : σ → Prop) (hstep : ∀ s a, inv s → inv (step s a)) {s : σ} (ops : List α)
    (hs : inv s) : inv (run step s ops) := by
  induction ops generalizing s with
  | nil => exact hs
  | cons a ops ih => exact ih (hstep s a hs)

/-- An operation met `event` in the state that it found, and all states from then on are as `stays` says. -/
def Since (step : σ → α → σ) (event : σ → α → Prop) (stays : σ → Prop) (s : σ) (ops : List α) : Prop :=
  ∃ xs a ys, ops = xs ++ a :: ys ∧ event (run step s xs) a ∧ ∀ zs, zs <+: ys → stays (run step s (xs ++ a :: zs))

theorem not_since_nil {event : σ → α → Prop} {stays : σ → Prop} (s : σ) : ¬Since step event stays s [] := by
  rintro ⟨xs, a, ys, h, -⟩
  exact List.append_ne_nil_of_right_ne_nil xs (List.cons_ne_nil a ys) h.symm

theorem since_concat {event : σ → α → Prop} {stays : σ → Prop} {s : σ} {ops : List α} {a : α} :
    Since step event stays s (ops ++ [a]) ↔
      stays (step (run step s ops) a) ∧ (event (run step s ops) a ∨ Since step event stays s ops) := by
  constructor
  · rintro ⟨xs, b, ys, h, hb, hstays⟩
    have hend := hstays ys List.prefix_rfl
    rw [← h, run_concat] at hend
    refine ⟨hend, ?_⟩
    rcases List.eq_nil_or_concat ys with rfl | ⟨ys, c, rfl⟩
    · obtain ⟨rfl, rfl⟩ := List.append_singleton_inj.mp h
      exact .inl hb
    · rw [List.concat_eq_append, ← List.cons_append, ← List.append_assoc] at h
      obtain ⟨rfl, rfl⟩ := List.append_singleton_inj.mp h
      exact .inr ⟨xs, b, ys, rfl, hb, fun zs hzs => hstays zs (hzs.trans (by simp))⟩
  · rintro ⟨hend, h | ⟨xs, b, ys, rfl, hb, hstays⟩⟩
    · refine ⟨ops, a, [], rfl, h, fun zs hzs => ?_⟩
      rw [List.prefix_nil.mp hzs, run_concat]
      exact hend
    · refine ⟨xs, b, ys ++ [a], by simp, hb, fun zs hzs => ?_⟩
      rcases List.prefix_concat_iff.mp hzs with rfl | hzs
      · rw [← List.cons_append, ← List.append_assoc, run_concat]
        exact hend
      · exact hstays zs hzs

/-- The last operation that met `event` or `other` met `event`. -/
def Last (step : σ → α → σ) (event other : σ → α → Prop) (s : σ) (ops : List α) : Prop :=
  ∃ xs a ys, ops = xs ++ a :: ys ∧ event (run step s xs) a ∧
    Meets step (fun s b => ¬other s b) (step (run step s xs) a) ys

theorem not_last_nil {event other : σ → α → Prop} (s : σ) : ¬Last step event other s [] := by
  rintro ⟨xs, a, ys, h, -⟩
  exact List.append_ne_nil_of_right_ne_nil xs (List.cons_ne_nil a ys) h.symm

theorem last_concat {event other : σ → α → Prop} {s : σ} {ops : List α} {a : α} :
    Last step event other s (ops ++ [a]) ↔
      event (run step s ops) a ∨ (¬other (run step s ops) a ∧ Last step event other s ops) := by
  constructor
  · rintro ⟨xs, b, ys, h, hb, hys⟩
    rcases List.eq_nil_or_concat ys with rfl | ⟨ys, c, rfl⟩
    · obtain ⟨rfl, rfl⟩ := List.append_singleton_inj.mp h
      exact .inl hb
    · rw [List.concat_eq_append, ← List.cons_append, ← List.append_assoc] at h
      obtain ⟨rfl, rfl⟩ := List.append_singleton_inj.mp h
      rw [List.concat_eq_append] at hys
      rw [run_append, run_cons]
      exact .inr ⟨hys.last, xs, b, ys, rfl, hb, hys.of_append⟩
  · rintro (h | ⟨hn, xs, b, ys, rfl, hb, hys⟩)
    · exact ⟨ops, a, [], rfl, h, trivial⟩
    · refine ⟨xs, b, ys ++ [a], by simp, hb, meets_append.mpr ⟨hys, ?_, trivial⟩⟩
      rwa [run_append, run_cons] at hn

end

/-- The operations that `f` picks, each with those picked before it. -/
theorem forall_split_filterMap {α β : Type*} {f : α → Option β} {P : List β → β → Prop} {ops : List α} :
    (∀ xs a ys, ops = xs ++ a :: ys → ∀ b, f a = some b → P (xs.filterMap f) b) ↔
      ∀ xs b ys, ops.filterMap f = xs ++ b :: ys → P xs b := by
  constructor
  · intro h xs b ys hs
    obtain ⟨l₁, l₂, rfl, rfl, h₂⟩ := List.filterMap_eq_append_iff.mp hs
    obtain ⟨l₃, a, l₄, rfl, hn, ha, -⟩ := List.filterMap_eq_cons_iff.mp h₂
    have hp := h (l₁ ++ l₃) a l₄ (by simp) b ha
    rwa [List.filterMap_append, List.filterMap_eq_nil_iff.mpr hn, List.append_nil] at hp
  · rintro h xs a ys rfl b hb
    exact h _ b (ys.filterMap f) (by rw [List.filterMap_append, List.filterMap_cons_some hb])

end Lib

/-! ## Rounds undone in reverse order

Keyed rounds one after the other, and the rounds that undo them: each undoes one round if its key is matched, so
all of them undo the whole in reverse order. -/

namespace Lib

variable {α κ κ' : Type*}

theorem foldl_undo {f : α → κ → α} {g : α → κ' → α} {r : κ → κ'} (h : ∀ x k, g (f x k) (r k) = x) (ks : List κ)
    (x : α) : (ks.reverse.map r).foldl g (ks.foldl f x) = x := by
  induction ks generalizing x with
  | nil => rfl
  | cons k ks ih =>
    rw [List.reverse_cons, List.map_append, List.foldl_append, List.foldl_cons, ih]
    exact h x k

end Lib

/-! ## Loops that leave with a result

The body of a loop gives the next state, or leaves with a result. A loop runs for so many rounds; one whose rounds all lower
a measure leaves, and what every round keeps still holds where it does. -/

namespace Lib
variable {σ ρ ι : Type*}

/-- A loop, for so many rounds; `none` if they are not enough. -/
def loop (body : σ → σ ⊕ ρ) : ℕ → σ → Option ρ
  | 0, _ => none
  | n + 1, s =>
    match body s with
    | .inl t => loop body n t
    | .inr r => some r

/-- The states at the head of the rounds. -/
def Reaches (body : σ → σ ⊕ ρ) : σ → σ → Prop := Relation.ReflTransGen fun s t => body s = .inl t

variable {body : σ → σ ⊕ ρ} {inv : σ → Prop} {s t : σ} {r : ρ} {n m : ℕ}

attribute [local simp] loop

theorem loop_next (h : body s = .inl t) (n : ℕ) : loop body (n + 1) s = loop body n t := by
  simp [h]

theorem loop_leave (h : body s = .inr r) (n : ℕ) : loop body (n + 1) s = some r := by
  simp [h]

/-- More rounds than enough make no difference. -/
theorem loop_mono (h : loop body n s = some r) (hm : n ≤ m) : loop body m s = some r := by
  induction n generalizing s m with
  | zero => exact absurd h (by simp)
  | succ n ih =>
    obtain ⟨m, rfl⟩ := Nat.exists_eq_add_of_le' (Nat.le_trans (Nat.succ_le_succ (Nat.zero_le n)) hm)
    cases hb : body s with
    | inl t =>
      rw [loop_next hb] at h ⊢
      exact ih h (Nat.le_of_succ_le_succ hm)
    | inr q =>
      rw [loop_leave hb] at h ⊢
      exact h

/-- A loop leaves from a state that it reaches. -/
theorem reaches_of_loop (h : loop body n s = some r) : ∃ t, Reaches body s t ∧ body t = .inr r := by
  induction n generalizing s with
  | zero => exact absurd h (by simp)
  | succ n ih =>
    cases hb : body s with
    | inl t =>
      rw [loop_next hb] at h
      obtain ⟨u, hu, hr⟩ := ih h
      exact ⟨u, hu.head hb, hr⟩
    | inr q =>
      rw [loop_leave hb] at h
      cases h
      exact ⟨s, .refl, hb⟩

/-- A loop whose rounds keep an invariant and lower a measure leaves. -/
theorem loop_leaves (inv : σ → Prop) {lt : ι → ι → Prop} (hwf : WellFounded lt) (measure : σ → ι)
    (hkeep : ∀ s t, inv s → body s = .inl t → inv t) (hlower : ∀ s t, inv s → body s = .inl t → lt (measure t) (measure s))
    (hs : inv s) : ∃ n r, loop body n s = some r := by
  induction hm : measure s using hwf.induction generalizing s with
  | _ i ih =>
    cases hb : body s with
    | inl t =>
      obtain ⟨n, r, hr⟩ := ih (measure t) (hm ▸ hlower s t hs hb) (hkeep s t hs hb) rfl
      exact ⟨n + 1, r, by rw [loop_next hb, hr]⟩
    | inr q => exact ⟨1, q, loop_leave hb 0⟩

end Lib
