import Mathlib.Data.Finset.Card

/-! # Forests given by parent links

Every node has at most one parent. `Below` is the relation to the nodes further up, and a forest is a set of
links in which no node lies below itself. Cutting a link keeps it a forest, and so does hanging a root under
a node that is not below it. -/

namespace Lib

section
variable {α : Type*}

/-- The second node lies above the first one. -/
def Below (parent : α → Option α) : α → α → Prop := Relation.TransGen fun x y => parent x = some y

def Acyclic (parent : α → Option α) : Prop := ∀ x, ¬Below parent x x

/-- The way up from a node takes at most so many steps. -/
def Ends (parent : α → Option α) : ℕ → α → Prop
  | 0, x => parent x = none
  | n + 1, x => ∀ p, parent x = some p → Ends parent n p

variable {parent : α → Option α} {x y p : α}

theorem below_of_parent (h : parent x = some p) : Below parent x p := Relation.TransGen.single h

theorem below_cases (h : Below parent x y) : ∃ p, parent x = some p ∧ (p = y ∨ Below parent p y) := by
  induction h using Relation.TransGen.head_induction_on with
  | single h => exact ⟨_, h, .inl rfl⟩
  | head h ih _ => exact ⟨_, h, .inr ih⟩

theorem not_below_of_root (h : parent x = none) : ¬Below parent x y := fun hb => by
  obtain ⟨p, hp, -⟩ := below_cases hb
  rw [h] at hp
  exact nomatch hp

/-- The nodes above a node lie above each other. -/
theorem below_linear {a b c : α} (hb : Below parent a b) (hc : Below parent a c) :
    b = c ∨ Below parent b c ∨ Below parent c b := by
  induction hb with
  | single hb =>
    obtain ⟨p, hp, hpc⟩ := below_cases hc
    cases hp.symm.trans hb
    exact hpc.imp id .inl
  | @tail b d _ hd ih =>
    rcases ih with rfl | h | h
    · exact .inr (.inr (below_of_parent hd))
    · obtain ⟨p, hp, hpc⟩ := below_cases h
      cases hp.symm.trans hd
      exact hpc.imp id .inl
    · exact .inr (.inr (h.tail hd))

/-- Fewer links. -/
theorem below_mono {parent' : α → Option α} (h : ∀ a b, parent' a = some b → parent a = some b)
    (hb : Below parent' x y) : Below parent x y :=
  Relation.TransGen.mono h x y hb

theorem Acyclic.mono {parent' : α → Option α} (h : Acyclic parent)
    (hsub : ∀ a b, parent' a = some b → parent a = some b) : Acyclic parent' :=
  fun x hx => h x (below_mono hsub hx)

theorem Acyclic.parent_ne (h : Acyclic parent) (hp : parent x = some p) : p ≠ x := by
  rintro rfl
  exact h p (below_of_parent hp)

/-- In a forest the way up takes no more steps than there are nodes with a parent. -/
theorem Acyclic.ends (h : Acyclic parent) (s : Finset α) (x : α)
    (hs : ∀ y, (y = x ∨ Below parent x y) → (parent y).isSome → y ∈ s) : Ends parent s.card x := by
  classical
  induction hn : s.card generalizing s x with
  | zero =>
    cases hp : parent x with
    | none => exact hp
    | some p =>
      have hx := hs x (.inl rfl) (by rw [hp]; rfl)
      rw [Finset.card_eq_zero.mp hn] at hx
      exact absurd hx (Finset.notMem_empty x)
  | succ n ih =>
    intro p hp
    have hx := hs x (.inl rfl) (by rw [hp]; rfl)
    refine ih (s.erase x) p (fun y hy hyp => ?_) (by rw [Finset.card_erase_of_mem hx, hn]; rfl)
    have hxy : Below parent x y := by
      rcases hy with rfl | hy
      · exact below_of_parent hp
      · exact Relation.TransGen.head hp hy
    refine Finset.mem_erase.mpr ⟨?_, hs y (.inr hxy) hyp⟩
    rintro rfl
    exact h y hxy

/-- The links of some nodes are cut: a root is above those that came to it past none of these. -/
theorem below_cutAll_iff {s : Set α} [DecidablePred (· ∈ s)] {d : α} (hd : parent d = none) (hs : d ∉ s) :
    Below (fun x => if x ∈ s then none else parent x) y d ↔
      Below parent y d ∧ y ∉ s ∧ ∀ x ∈ s, ¬Below parent y x := by
  have hlink : ∀ {a b : α}, (if a ∈ s then none else parent a) = some b ↔ a ∉ s ∧ parent a = some b := fun {a b} => by
    by_cases ha : a ∈ s <;> simp [ha]
  constructor
  · intro h
    induction h using Relation.TransGen.head_induction_on with
    | @single a h =>
      obtain ⟨ha, hp⟩ := hlink.mp h
      refine ⟨below_of_parent hp, ha, fun x hx hb => ?_⟩
      obtain ⟨c, hc, rfl | hcx⟩ := below_cases hb
      · exact hs (Option.some.inj (hp.symm.trans hc) ▸ hx)
      · cases hp.symm.trans hc
        exact not_below_of_root hd hcx
    | @head a b h _ ih =>
      obtain ⟨ha, hp⟩ := hlink.mp h
      obtain ⟨hbd, hbs, hout⟩ := ih
      refine ⟨.head hp hbd, ha, fun x hx hax => ?_⟩
      obtain ⟨c, hc, rfl | hcx⟩ := below_cases hax
      · exact hbs (Option.some.inj (hp.symm.trans hc) ▸ hx)
      · cases hp.symm.trans hc
        exact hout x hx hcx
  · rintro ⟨h, hy, hout⟩
    induction h using Relation.TransGen.head_induction_on with
    | single h => exact below_of_parent (hlink.mpr ⟨hy, h⟩)
    | @head a b h _ ih =>
      have hb : b ∉ s := fun hb => hout b hb (below_of_parent h)
      exact .head (hlink.mpr ⟨hy, h⟩) (ih hb fun x hx hbx => hout x hx (.head h hbx))

variable [DecidableEq α]

theorem below_of_cut (h : Below (Function.update parent x none) y p) : Below parent y p := by
  induction h with
  | single h =>
    by_cases hy : y = x
    · rw [hy, Function.update_self] at h
      exact nomatch h
    · rw [Function.update_of_ne hy] at h
      exact below_of_parent h
  | @tail b c _ h ih =>
    by_cases hb : b = x
    · rw [hb, Function.update_self] at h
      exact nomatch h
    · rw [Function.update_of_ne hb] at h
      exact ih.tail h

theorem below_cut (h : Below parent y p) (hy : y ≠ x) (hb : ¬Below parent y x) :
    Below (Function.update parent x none) y p := by
  induction h using Relation.TransGen.head_induction_on with
  | single h => exact below_of_parent ((Function.update_of_ne hy _ _).trans h)
  | @head a b hab _ ih =>
    refine .head ((Function.update_of_ne hy _ _).trans hab) (ih ?_ fun h => hb (.head hab h))
    rintro rfl
    exact hb (below_of_parent hab)

/-- Cutting a link. -/
theorem Acyclic.cut (h : Acyclic parent) (x : α) : Acyclic (Function.update parent x none) :=
  fun y hy => h y (below_of_cut hy)

/-- After `x` was hung under `p`, what lies above a node did before, or it is reached through the new link. -/
theorem below_of_hang {a b : α} (h : Below (Function.update parent x (some p)) a b) :
    Below parent a b ∨ (a = x ∨ Below parent a x) ∧ (p = b ∨ Below parent p b) := by
  induction h with
  | @single b h =>
    by_cases ha : a = x
    · rw [ha, Function.update_self] at h
      exact .inr ⟨.inl ha, .inl (Option.some.inj h)⟩
    · rw [Function.update_of_ne ha] at h
      exact .inl (below_of_parent h)
  | @tail b c _ h ih =>
    by_cases hb : b = x
    · rw [hb, Function.update_self] at h
      have hc := Option.some.inj h
      subst hb
      rcases ih with ih | ⟨ha, -⟩
      · exact .inr ⟨.inr ih, .inl hc⟩
      · exact .inr ⟨ha, .inl hc⟩
    · rw [Function.update_of_ne hb] at h
      rcases ih with ih | ⟨ha, hp⟩
      · exact .inl (ih.tail h)
      · refine .inr ⟨ha, .inr ?_⟩
        rcases hp with rfl | hp
        · exact below_of_parent h
        · exact hp.tail h

/-- What lies above the nodes after a root was hung under `p`. -/
theorem below_hang_iff {a b : α} (hx : parent x = none) :
    Below (Function.update parent x (some p)) a b ↔
      Below parent a b ∨ (a = x ∨ Below parent a x) ∧ (p = b ∨ Below parent p b) := by
  have keep : ∀ {a b}, Below parent a b → Below (Function.update parent x (some p)) a b := fun h => by
    refine Relation.TransGen.mono (fun y z hyz => ?_) _ _ h
    have hne : y ≠ x := by
      rintro rfl
      exact nomatch hx.symm.trans hyz
    exact (Function.update_of_ne hne _ _).trans hyz
  have hlink : Below (Function.update parent x (some p)) x p := below_of_parent (Function.update_self _ _ _)
  refine ⟨below_of_hang, ?_⟩
  rintro (h | ⟨ha, hb⟩)
  · exact keep h
  · have hap : Below (Function.update parent x (some p)) a p := by
      rcases ha with rfl | ha
      · exact hlink
      · exact (keep ha).trans hlink
    rcases hb with rfl | hb
    · exact hap
    · exact hap.trans (keep hb)

/-- Hanging a node under one that is neither itself nor below it. -/
theorem Acyclic.hang (h : Acyclic parent) (hne : p ≠ x) (hb : ¬Below parent p x) :
    Acyclic (Function.update parent x (some p)) := by
  intro a ha
  rcases below_of_hang ha with ha | ⟨hax, hpa⟩
  · exact h a ha
  · rcases hax with rfl | hax
    · rcases hpa with rfl | hpa
      · exact hne rfl
      · exact hb hpa
    · rcases hpa with rfl | hpa
      · exact hb hax
      · exact hb (hpa.trans hax)

end

/-- The nodes under each node, listed once. -/
structure Lists {α : Type*} (parent : α → Option α) (children : α → List α) : Prop where
  mem_iff : ∀ x p, x ∈ children p ↔ parent x = some p
  nodup : ∀ p, (children p).Nodup

section
variable {α : Type*} {parent : α → Option α} {children : α → List α} {x y : α}

theorem below_iff_child (hc : Lists parent children) : Below parent y x ↔ ∃ r ∈ children x, y = r ∨ Below parent y r := by
  constructor
  · intro h
    cases h with
    | single h => exact ⟨y, (hc.mem_iff y x).mpr h, .inl rfl⟩
    | @tail r _ h hr => exact ⟨r, (hc.mem_iff r x).mpr hr, .inr h⟩
  · rintro ⟨r, hr, rfl | h⟩
    · exact below_of_parent ((hc.mem_iff y x).mp hr)
    · exact h.tail ((hc.mem_iff r x).mp hr)

/-- A node is under one child at most. -/
theorem child_unique (h : Acyclic parent) {r r' : α} (hr : parent r = some x) (hr' : parent r' = some x)
    (hy : y = r ∨ Below parent y r) (hy' : y = r' ∨ Below parent y r') : r = r' := by
  have hnot : ∀ {a b : α}, parent a = some x → parent b = some x → ¬Below parent a b := fun {a b} ha hb hab => by
    obtain ⟨p, hp, hpb⟩ := below_cases hab
    obtain rfl : x = p := Option.some.inj (ha.symm.trans hp)
    rcases hpb with rfl | hpb
    · exact h _ (below_of_parent hb)
    · exact h _ (hpb.tail hb)
  rcases hy with rfl | hy <;> rcases hy' with rfl | hy'
  · rfl
  · exact absurd hy' (hnot hr hr')
  · exact absurd hy (hnot hr' hr)
  · rcases below_linear hy hy' with heq | hb | hb
    · exact heq
    · exact absurd hb (hnot hr hr')
    · exact absurd hb (hnot hr' hr)

end

section
variable {α : Type*} [DecidableEq α] {parent : α → Option α} {children : α → List α} {x p : α} {l : List α}

theorem Lists.cut (h : Lists parent children) (hx : parent x = some p) (hl : (children p).Perm (x :: l)) :
    Lists (Function.update parent x none) (Function.update children p l) := by
  have hn := hl.nodup_iff.mp (h.nodup p)
  constructor
  · intro y q
    by_cases hy : y = x
    · subst hy
      rw [Function.update_self]
      refine iff_of_false (fun hm => ?_) nofun
      by_cases hq : q = p
      · subst hq
        rw [Function.update_self] at hm
        exact (List.nodup_cons.mp hn).1 hm
      · rw [Function.update_of_ne hq, h.mem_iff, hx] at hm
        exact hq (Option.some.inj hm).symm
    · rw [Function.update_of_ne hy, ← h.mem_iff]
      by_cases hq : q = p
      · subst hq
        rw [Function.update_self, hl.mem_iff, List.mem_cons, or_iff_right hy]
      · rw [Function.update_of_ne hq]
  · intro q
    by_cases hq : q = p
    · subst hq
      rw [Function.update_self]
      exact hn.of_cons
    · rw [Function.update_of_ne hq]
      exact h.nodup q

theorem Lists.hang (h : Lists parent children) (hx : parent x = none) (hl : l.Perm (x :: children p)) :
    Lists (Function.update parent x (some p)) (Function.update children p l) := by
  have hnot : ∀ q, x ∉ children q := fun q hm => by
    have := (h.mem_iff x q).mp hm
    rw [hx] at this
    exact nomatch this
  constructor
  · intro y q
    by_cases hq : q = p
    · subst hq
      rw [Function.update_self, hl.mem_iff, List.mem_cons, h.mem_iff]
      by_cases hy : y = x
      · rw [hy, Function.update_self]
        exact iff_of_true (.inl rfl) rfl
      · rw [Function.update_of_ne hy, or_iff_right hy]
    · rw [Function.update_of_ne hq, h.mem_iff]
      by_cases hy : y = x
      · rw [hy, Function.update_self, hx]
        exact iff_of_false nofun fun he => hq (Option.some.inj he).symm
      · rw [Function.update_of_ne hy]
  · intro q
    by_cases hq : q = p
    · subst hq
      rw [Function.update_self, hl.nodup_iff]
      exact List.nodup_cons.mpr ⟨hnot q, h.nodup q⟩
    · rw [Function.update_of_ne hq]
      exact h.nodup q

end
end Lib

/-! ## Walks over a forest

A walk keeps a list of nodes to visit and puts the inner nodes under a visited one at its end. It visits every
inner node under its roots, and each of them once. -/

namespace Lib
variable {α : Type*}

/-- The nodes that a walk visits, so many at most. -/
def walk (children : α → List α) (inner : α → Bool) : ℕ → List α → List α
  | 0, _ => []
  | _ + 1, [] => []
  | n + 1, c :: todo => c :: walk children inner n (todo ++ (children c).filter inner)

/-- Where a walk from the roots stands. -/
structure Walked (parent : α → Option α) (inner : α → Bool) (roots done todo : List α) : Prop where
  nodup : (done ++ todo).Nodup
  starts : ∀ d ∈ roots, d ∈ done ++ todo
  back : ∀ k ∈ done ++ todo, inner k ∧ (k ∈ roots ∨ ∃ c ∈ done, parent k = some c)
  under : ∀ k ∈ done ++ todo, k ∈ roots ∨ ∃ d ∈ roots, Below parent k d
  closed : ∀ c ∈ done, ∀ k, parent k = some c → inner k → k ∈ done ++ todo

variable {parent : α → Option α} {children : α → List α} {inner : α → Bool} {roots done todo : List α} {c : α}

theorem walked_roots (hnodup : roots.Nodup) (hinner : ∀ d ∈ roots, inner d) : Walked parent inner roots [] roots where
  nodup := hnodup
  starts _ hd := hd
  back k hk := ⟨hinner k hk, .inl hk⟩
  under _ hk := .inl hk
  closed _ hc := absurd hc List.not_mem_nil

/-- One more node is visited. -/
theorem Walked.visit (h : Walked parent inner roots done (c :: todo)) (hl : Lists parent children)
    (hroots : ∀ d ∈ roots, ∀ d' ∈ roots, ¬Below parent d d') :
    Walked parent inner roots (done ++ [c]) (todo ++ (children c).filter inner) := by
  have hsplit : done ++ [c] ++ (todo ++ (children c).filter inner) = (done ++ c :: todo) ++ (children c).filter inner := by
    simp only [List.append_assoc, List.cons_append, List.nil_append]
  have hc : c ∈ done ++ c :: todo := List.mem_append_right _ List.mem_cons_self
  have hnew : c ∉ done := fun hd => by
    have := (List.nodup_append.mp h.nodup).2.2 c hd c List.mem_cons_self
    exact this rfl
  have hunder : ∀ k, parent k = some c → ∃ d ∈ roots, Below parent k d := fun k hk => by
    rcases h.under c hc with hr | ⟨d, hd, hb⟩
    · exact ⟨c, hr, below_of_parent hk⟩
    · exact ⟨d, hd, .head hk hb⟩
  have hchild : ∀ k, k ∈ (children c).filter inner → parent k = some c ∧ inner k := fun k hk => by
    obtain ⟨hk, hi⟩ := List.mem_filter.mp hk
    exact ⟨(hl.mem_iff k c).mp hk, hi⟩
  refine ⟨?_, fun d hd => ?_, fun k hk => ?_, fun k hk => ?_, fun b hb k hk hi => ?_⟩
  · rw [hsplit]
    refine List.nodup_append.mpr ⟨h.nodup, (hl.nodup c).filter _, fun a ha b hb hab => ?_⟩
    subst hab
    obtain ⟨hp, -⟩ := hchild a hb
    rcases (h.back a ha).2 with hr | ⟨c', hc', hp'⟩
    · obtain ⟨d, hd, hbelow⟩ := hunder a hp
      exact hroots a hr d hd hbelow
    · cases hp.symm.trans hp'
      exact hnew hc'
  · rw [hsplit]
    exact List.mem_append_left _ (h.starts d hd)
  · rw [hsplit] at hk
    rcases List.mem_append.mp hk with hk | hk
    · obtain ⟨hi, hr | ⟨c', hc', hp⟩⟩ := h.back k hk
      · exact ⟨hi, .inl hr⟩
      · exact ⟨hi, .inr ⟨c', List.mem_append_left _ hc', hp⟩⟩
    · obtain ⟨hp, hi⟩ := hchild k hk
      exact ⟨hi, .inr ⟨c, List.mem_append_right _ (List.mem_singleton_self c), hp⟩⟩
  · rw [hsplit] at hk
    rcases List.mem_append.mp hk with hk | hk
    · exact h.under k hk
    · exact .inr (hunder k (hchild k hk).1)
  · rw [hsplit]
    rcases List.mem_append.mp hb with hb | hb
    · exact List.mem_append_left _ (h.closed b hb k hk hi)
    · cases List.mem_singleton.mp hb
      exact List.mem_append_right _ (List.mem_filter.mpr ⟨(hl.mem_iff k c).mpr hk, hi⟩)

/-- A walk with room for all nodes comes to its end. -/
theorem Walked.walk [DecidableEq α] {s : Finset α} (hl : Lists parent children)
    (hroots : ∀ d ∈ roots, ∀ d' ∈ roots, ¬Below parent d d')
    (hs : ∀ k, (k ∈ roots ∨ ∃ d ∈ roots, Below parent k d) → k ∈ s) {n : ℕ} (hn : s.card ≤ n + done.length)
    (h : Walked parent inner roots done todo) : Walked parent inner roots (done ++ walk children inner n todo) [] := by
  induction n generalizing done todo with
  | zero =>
    have hsub : (done ++ todo).toFinset ⊆ s := fun k hk => hs k (h.under k (List.mem_toFinset.mp hk))
    have hcard := Finset.card_le_card hsub
    rw [List.toFinset_card_of_nodup h.nodup, List.length_append] at hcard
    have hnil : todo = [] := List.eq_nil_of_length_eq_zero (by omega)
    subst hnil
    rw [Lib.walk, List.append_nil]
    exact h
  | succ n ih =>
    cases todo with
    | nil =>
      rw [Lib.walk, List.append_nil]
      exact h
    | cons c todo =>
      have hstep := ih (by rw [List.length_append, List.length_singleton]; omega) (h.visit hl hroots)
      rw [Lib.walk]
      rwa [List.append_assoc, List.singleton_append] at hstep

/-- What a walk from the roots visits. -/
theorem mem_walk_iff [DecidableEq α] {s : Finset α} (hl : Lists parent children) (hnodup : roots.Nodup)
    (hinner : ∀ d ∈ roots, inner d) (hroots : ∀ d ∈ roots, ∀ d' ∈ roots, ¬Below parent d d')
    (hs : ∀ k, (k ∈ roots ∨ ∃ d ∈ roots, Below parent k d) → k ∈ s) {n : ℕ} (hn : s.card ≤ n)
    (hparent : ∀ k p, parent k = some p → inner p) :
    (walk children inner n roots).Nodup ∧
      ∀ c, c ∈ walk children inner n roots ↔ inner c ∧ (c ∈ roots ∨ ∃ d ∈ roots, Below parent c d) := by
  have h := Walked.walk hl hroots hs (by rw [List.length_nil]; omega) (walked_roots hnodup hinner)
  rw [List.nil_append] at h
  have happ := List.append_nil (walk children inner n roots)
  refine ⟨happ ▸ h.nodup, fun c => ⟨fun hc => ?_, fun ⟨hi, hc⟩ => ?_⟩⟩
  · have hc : c ∈ walk children inner n roots ++ [] := by rwa [happ]
    exact ⟨(h.back c hc).1, h.under c hc⟩
  · rcases hc with hc | ⟨d, hd, hb⟩
    · exact happ ▸ h.starts c hc
    · induction hb using Relation.TransGen.head_induction_on with
      | single hp =>
        have hd := h.starts d hd
        rw [happ] at hd
        exact happ ▸ h.closed d hd _ hp hi
      | head hp hb ih => exact happ ▸ h.closed _ (ih ⟨hparent _ _ hp, .inr ⟨d, hd, hb⟩⟩ (hparent _ _ hp)) _ hp hi

end Lib
