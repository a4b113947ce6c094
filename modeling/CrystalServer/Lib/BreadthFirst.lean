import Mathlib.Data.List.Range
import Mathlib.Algebra.BigOperators.Group.List.Basic
import Mathlib.Algebra.Ring.Nat

/-! # Trees numbered breadth first

A forest is written into rows, level by level: each row has the number of its parent, and a running number of its own. The
rows whose parent is a given one, in their order, are its children, so that the rows hold the forest. -/

namespace Lib

/-- A tree whose inner nodes are of a kind of their own. -/
inductive Tree (α β : Type*)
  | leaf (a : α)
  | inner (b : β) (children : List (Tree α β))

structure Row (ι : Type*) where
  parent : Nat
  id : Nat
  value : ι

namespace Tree
variable {α β ι π : Type*}

def root : Tree α β → α ⊕ β
  | leaf a => .inl a
  | inner b _ => .inr b

def size : Tree α β → Nat
  | leaf _ => 1
  | inner _ children => 1 + (children.map size).sum

/-- The values of all nodes. -/
def values : Tree α β → List (α ⊕ β)
  | leaf a => [.inl a]
  | inner b children => .inr b :: children.flatMap values

/-! ### Trees with numbers -/

def label : Tree (Nat × α) (Nat × β) → Nat
  | leaf a => a.1
  | inner b _ => b.1

/-- The tree without the numbers. -/
def erase : Tree (Nat × α) (Nat × β) → Tree α β
  | leaf a => .leaf a.2
  | inner b children => .inner b.2 (children.map erase)

/-- All numbers. -/
def labels : Tree (Nat × α) (Nat × β) → List Nat
  | leaf a => [a.1]
  | inner b children => b.1 :: children.flatMap labels

section
attribute [local simp] size values label erase labels

theorem length_labels (t : Tree (Nat × α) (Nat × β)) : t.labels.length = t.erase.size := by
  induction t using labels.induct with
  | case1 a => simp
  | case2 b children ih =>
    rw [labels, erase, size, List.length_cons, List.length_flatMap, List.map_map, Nat.add_comm]
    exact congrArg (1 + ·) (congrArg List.sum (List.map_congr_left fun t ht => ih t ht))

theorem label_mem_labels (t : Tree (Nat × α) (Nat × β)) : t.label ∈ t.labels := by
  cases t with
  | leaf a => simp
  | inner b children => simp

end

/-- What is stored holds a tree: under the number of each node its place and its value, below it the numbers of its children,
and these inside it. -/
inductive Holds (store : Nat → Option (π × ι)) (below : Nat → List Nat) (inside : Nat → π) (f : α ⊕ β → ι) :
    π → Tree (Nat × α) (Nat × β) → Prop
  | leaf {p : π} {i : Nat} {a : α} : store i = some (p, f (.inl a)) → below i = [] →
      Holds store below inside f p (.leaf (i, a))
  | inner {p : π} {i : Nat} {b : β} {children : List (Tree (Nat × α) (Nat × β))} :
    store i = some (p, f (.inr b)) → below i = children.map label →
      (∀ t ∈ children, Holds store below inside f (inside i) t) → Holds store below inside f p (.inner (i, b) children)

section
variable {store store' : Nat → Option (π × ι)} {below below' : Nat → List Nat} {inside inside' : Nat → π} {f : α ⊕ β → ι}
  {p : π} {t : Tree (Nat × α) (Nat × β)}

/-- What is stored elsewhere does not matter. -/
theorem Holds.mono (hstore : ∀ i v, store i = some v → store' i = some v)
    (hbelow : ∀ i v, store i = some v → below' i = below i) (hinside : ∀ i v, store i = some v → inside' i = inside i)
    (h : Holds store below inside f p t) : Holds store' below' inside' f p t := by
  induction h with
  | leaf hi hbelow' => exact .leaf (hstore _ _ hi) ((hbelow _ _ hi).trans hbelow')
  | inner hi hchildren _ ih =>
    exact .inner (hstore _ _ hi) ((hbelow _ _ hi).trans hchildren) fun t ht => (hinside _ _ hi).symm ▸ ih t ht

/-- Under each number of the tree is one of its values. -/
theorem Holds.exists_value (h : Holds store below inside f p t) {i : Nat} (hi : i ∈ t.labels) :
    ∃ v ∈ t.erase.values, ∃ q, store i = some (q, f v) := by
  induction h with
  | @leaf p i' a hi' _ =>
    rw [labels, List.mem_singleton] at hi
    subst hi
    exact ⟨.inl a, by simp [erase, values], p, hi'⟩
  | @inner p i' b children hi' _ _ ih =>
    rw [labels, List.mem_cons, List.mem_flatMap] at hi
    rcases hi with rfl | ⟨t, ht, hit⟩
    · exact ⟨.inr b, by simp [erase, values], p, hi'⟩
    · obtain ⟨v, hv, q, hq⟩ := ih t ht hit
      refine ⟨v, ?_, q, hq⟩
      rw [erase, values, List.flatMap_map]
      exact List.mem_cons_of_mem _ (List.mem_flatMap.mpr ⟨t, ht, hv⟩)

/-- Nothing is below a leaf. -/
theorem Holds.below_leaf {store : Nat → Option (π × (α ⊕ β))} {a : α} {q : π} (h : Holds store below inside (fun x => x) p t)
    {i : Nat} (hi : i ∈ t.labels) (ha : store i = some (q, .inl a)) : below i = [] := by
  induction h with
  | leaf hi' hbelow =>
    rw [labels, List.mem_singleton] at hi
    exact hi ▸ hbelow
  | @inner p i' b children hi' hchildren _ ih =>
    rw [labels, List.mem_cons, List.mem_flatMap] at hi
    rcases hi with rfl | ⟨t, ht, hit⟩
    · rw [hi'] at ha
      cases ha
    · exact ih t ht hit

/-- The numbers below a node of the tree are in the tree. -/
theorem Holds.mem_labels (h : Holds store below inside f p t) {i j : Nat} (hi : i ∈ t.labels) (hj : j ∈ below i) :
    j ∈ t.labels := by
  induction h with
  | leaf hi' hbelow =>
    rw [labels, List.mem_singleton] at hi
    dsimp only at hi
    rw [hi, hbelow] at hj
    cases hj
  | @inner p i' b children hi' hchildren _ ih =>
    rw [labels, List.mem_cons, List.mem_flatMap] at hi ⊢
    rcases hi with rfl | ⟨t, ht, hit⟩
    · rw [hchildren] at hj
      obtain ⟨t, ht, rfl⟩ := List.mem_map.mp hj
      exact Or.inr ⟨t, ht, t.label_mem_labels⟩
    · exact Or.inr ⟨t, ht, ih t ht hit⟩

end

/-! ### Numbering -/

/-- The rows of nodes, from the number behind `n`, each under its parent. -/
def rows (n : Nat) : List (Nat × Tree α β) → List (Row (α ⊕ β))
  | [] => []
  | (p, t) :: l => ⟨p, n + 1, t.root⟩ :: rows (n + 1) l

/-- The children that are still to be written, with the number of their parent. -/
def pending (n : Nat) : List (Nat × Tree α β) → List (Nat × List (Tree α β))
  | [] => []
  | (_, .leaf _) :: l => pending (n + 1) l
  | (_, .inner _ children) :: l => (n + 1, children) :: pending (n + 1) l

/-- What is left to be done for entries of the queue. -/
def work (queue : List (Nat × List (Tree α β))) : Nat := (queue.map fun e => 1 + 2 * (e.2.map size).sum).sum

theorem work_pending (n : Nat) (l : List (Nat × Tree α β)) : work (pending n l) ≤ 2 * (l.map fun e => e.2.size).sum := by
  induction l generalizing n with
  | nil => exact Nat.le_refl _
  | cons e l ih =>
    obtain ⟨p, t⟩ := e
    have hl := ih (n + 1)
    cases t with
    | leaf a =>
      rw [pending, List.map_cons, List.sum_cons]
      omega
    | inner b children =>
      unfold work at hl ⊢
      rw [pending, List.map_cons, List.sum_cons, List.map_cons, List.sum_cons, size]
      dsimp only
      omega

/-- Children with the number of their parent. -/
def under (p : Nat) (children : List (Tree α β)) : List (Nat × Tree α β) := children.map (Prod.mk p)

theorem work_lt (p n : Nat) (children : List (Tree α β)) (queue : List (Nat × List (Tree α β))) :
    work (queue ++ pending n (under p children)) < work ((p, children) :: queue) := by
  have hpending := work_pending n (under p children)
  have hsame : ((under p children).map fun e => e.2.size).sum = (children.map size).sum := by
    unfold under
    rw [List.map_map]
    rfl
  rw [hsame] at hpending
  unfold work at hpending ⊢
  rw [List.map_append, List.sum_append, List.map_cons, List.sum_cons]
  dsimp only
  omega

/-- The rows of the children in a queue, level by level. -/
def walk (queue : List (Nat × List (Tree α β))) (n : Nat) : List (Row (α ⊕ β)) :=
  match queue with
  | [] => []
  | (p, children) :: queue =>
    rows n (under p children) ++ walk (queue ++ pending n (under p children)) (n + children.length)
termination_by work queue
decreasing_by exact work_lt p n children queue

/-! ### What the rows hold -/

def stored (place : Nat → π) (f : α ⊕ β → ι) (rs : List (Row (α ⊕ β))) (i : Nat) : Option (π × ι) :=
  (rs.find? (·.id = i)).map fun r => (place r.parent, f r.value)

def kids (rs : List (Row (α ⊕ β))) (p : Nat) : List Nat := (rs.filter (·.parent = p)).map (·.id)

theorem kids_append (rs rs' : List (Row (α ⊕ β))) (p : Nat) : kids (rs ++ rs') p = kids rs p ++ kids rs' p := by
  unfold kids
  rw [List.filter_append, List.map_append]

theorem kids_eq_nil {rs : List (Row (α ⊕ β))} {p : Nat} (h : ∀ r ∈ rs, r.parent ≠ p) : kids rs p = [] := by
  unfold kids
  rw [List.filter_eq_nil_iff.mpr fun r hr => by simpa using h r hr, List.map_nil]

variable {f : α ⊕ β → ι} {rs rs' : List (Row (α ⊕ β))} {place : Nat → π} {n : Nat} {l : List (Nat × Tree α β)}
  {queue : List (Nat × List (Tree α β))} {r : Row (α ⊕ β)}

theorem stored_of_mem (hn : (rs.map (·.id)).Nodup) (hr : r ∈ rs) : stored place f rs r.id = some (place r.parent, f r.value) := by
  have hfind : rs.find? (fun x => x.id = r.id) = some r := by
    induction rs with
    | nil => cases hr
    | cons x rs ih =>
      rw [List.map_cons, List.nodup_cons] at hn
      rcases List.mem_cons.mp hr with rfl | hr
      · rw [List.find?_cons_of_pos (by simp)]
      · have hne : x.id ≠ r.id := fun heq => hn.1 (heq ▸ List.mem_map_of_mem hr)
        rw [List.find?_cons_of_neg (by simpa using hne)]
        exact ih hn.2 hr
  unfold stored
  rw [hfind]
  rfl

theorem exists_of_stored {i : Nat} {v : π × ι} (h : stored place f rs i = some v) : ∃ r ∈ rs, r.id = i := by
  obtain ⟨r, hr, -⟩ := Option.map_eq_some_iff.mp h
  exact ⟨r, List.mem_of_find?_eq_some hr, by simpa using List.find?_some hr⟩

theorem map_id_rows (n : Nat) (l : List (Nat × Tree α β)) : (rows n l).map (·.id) = List.range' (n + 1) l.length := by
  induction l generalizing n with
  | nil => rfl
  | cons e l ih =>
    rw [rows, List.map_cons, ih, List.length_cons, List.range'_succ]

theorem map_parent_rows (n : Nat) (l : List (Nat × Tree α β)) : (rows n l).map (·.parent) = l.map (·.1) := by
  induction l generalizing n with
  | nil => rfl
  | cons e l ih => rw [rows, List.map_cons, List.map_cons, ih]

theorem length_rows (n : Nat) (l : List (Nat × Tree α β)) : (rows n l).length = l.length := by
  simpa using congrArg List.length (map_parent_rows n l)

theorem map_fst_pending (n : Nat) (l : List (Nat × Tree α β)) :
    ((pending n l).map (·.1)).Sublist (List.range' (n + 1) l.length) := by
  induction l generalizing n with
  | nil => exact List.Sublist.refl _
  | cons e l ih =>
    obtain ⟨p, t⟩ := e
    rw [List.length_cons, List.range'_succ]
    cases t with
    | leaf a => exact (ih (n + 1)).cons _
    | inner b children => exact (ih (n + 1)).cons_cons _

theorem mem_pending {e : Nat × List (Tree α β)} (he : e ∈ pending n l) : n < e.1 ∧ e.1 ≤ n + l.length := by
  have hmem := (map_fst_pending n l).subset (List.mem_map_of_mem he)
  rw [List.mem_range'_1] at hmem
  omega

theorem sum_pending (n : Nat) (l : List (Nat × Tree α β)) :
    l.length + ((pending n l).map fun e => (e.2.map size).sum).sum = (l.map fun e => e.2.size).sum := by
  induction l generalizing n with
  | nil => rfl
  | cons e l ih =>
    obtain ⟨p, t⟩ := e
    have hl := ih (n + 1)
    cases t with
    | leaf a =>
      rw [pending, List.map_cons, List.sum_cons, List.length_cons, size]
      omega
    | inner b children =>
      rw [pending, List.map_cons, List.sum_cons, List.length_cons, List.map_cons, List.sum_cons, size]
      dsimp only
      omega

/-- A leaf has no children to be written. -/
theorem not_mem_pending {a : α} (hr : r ∈ rows n l) (ha : r.value = .inl a) : r.id ∉ (pending n l).map (·.1) := by
  induction l generalizing n with
  | nil => cases hr
  | cons e l ih =>
    obtain ⟨p, t⟩ := e
    have hlater : ∀ {i}, i ∈ (pending (n + 1) l).map (·.1) → n + 1 < i := fun hi => by
      obtain ⟨e, he, rfl⟩ := List.mem_map.mp hi
      exact (mem_pending he).1
    rcases List.mem_cons.mp hr with rfl | hrow
    · cases t with
      | leaf a => exact fun hmem => Nat.lt_irrefl _ (hlater hmem)
      | inner b children => cases ha
    · have hid : n + 1 < r.id := by
        have hmem : r.id ∈ (rows (n + 1) l).map (·.id) := List.mem_map_of_mem hrow
        rw [map_id_rows, List.mem_range'_1] at hmem
        omega
      cases t with
      | leaf a => exact ih hrow
      | inner b children =>
        rw [pending, List.map_cons, List.mem_cons, not_or]
        exact ⟨hid.ne', ih hrow⟩

/-- The numbers that nodes of a list get, when what is stored holds their children. -/
theorem exists_labelled {store : Nat → Option (π × ι)} {below : Nat → List Nat} (place : Nat → π) (n : Nat)
    (l : List (Nat × Tree α β)) (hrows : ∀ r ∈ rows n l, store r.id = some (place r.parent, f r.value))
    (hleaf : ∀ r ∈ rows n l, ∀ a, r.value = .inl a → below r.id = [])
    (hpending : ∀ e ∈ pending n l, ∃ L : List (Tree (Nat × α) (Nat × β)), L.map erase = e.2 ∧ L.map label = below e.1 ∧
      ∀ t ∈ L, Holds store below place f (place e.1) t) :
    ∃ L : List (Nat × Tree (Nat × α) (Nat × β)), (L.map fun e => (e.1, e.2.erase)) = l ∧
      (L.map fun e => e.2.label) = List.range' (n + 1) l.length ∧ ∀ e ∈ L, Holds store below place f (place e.1) e.2 := by
  induction l generalizing n with
  | nil => exact ⟨[], rfl, rfl, nofun⟩
  | cons e l ih =>
    obtain ⟨p, t⟩ := e
    have hroot := hrows ⟨p, n + 1, t.root⟩ (by simp [rows])
    have hrows' : ∀ r ∈ rows (n + 1) l, store r.id = some (place r.parent, f r.value) := fun r hr =>
      hrows r (by rw [rows]; exact List.mem_cons_of_mem _ hr)
    have hleaf' : ∀ r ∈ rows (n + 1) l, ∀ a, r.value = .inl a → below r.id = [] := fun r hr =>
      hleaf r (by rw [rows]; exact List.mem_cons_of_mem _ hr)
    cases t with
    | leaf a =>
      obtain ⟨L, herase, hlabel, hholds⟩ := ih (n + 1) hrows' hleaf' hpending
      refine ⟨(p, .leaf (n + 1, a)) :: L, ?_, ?_, fun e he => ?_⟩
      · rw [List.map_cons, herase, erase]
      · rw [List.map_cons, hlabel, List.length_cons, List.range'_succ, label]
      · rcases List.mem_cons.mp he with rfl | he
        · exact .leaf hroot (hleaf ⟨p, n + 1, _⟩ (by simp [rows, root]) a rfl)
        · exact hholds e he
    | inner b children =>
      obtain ⟨L, herase, hlabel, hholds⟩ := ih (n + 1) hrows' hleaf' fun e he => hpending e (List.mem_cons_of_mem _ he)
      obtain ⟨C, hCerase, hClabel, hCholds⟩ := hpending (n + 1, children) List.mem_cons_self
      refine ⟨(p, .inner (n + 1, b) C) :: L, ?_, ?_, fun e he => ?_⟩
      · rw [List.map_cons, herase, erase, hCerase]
      · rw [List.map_cons, hlabel, List.length_cons, List.range'_succ, label]
      · rcases List.mem_cons.mp he with rfl | he
        · exact .inner hroot hClabel.symm hCholds
        · exact hholds e he

/-- What the rows of a queue hold. -/
structure Walked (place : Nat → π) (f : α ⊕ β → ι) (queue : List (Nat × List (Tree α β))) (n : Nat)
    (rs : List (Row (α ⊕ β))) : Prop where
  ids : rs.map (·.id) = List.range' (n + 1) rs.length
  length : rs.length = (queue.map fun e => (e.2.map size).sum).sum
  parents : ∀ r ∈ rs, r.parent ∈ queue.map (·.1) ∨ n < r.parent ∧ r.parent < r.id
  holds : ∀ e ∈ queue, ∃ L : List (Tree (Nat × α) (Nat × β)), L.map erase = e.2 ∧ L.map label = kids rs e.1 ∧
    ∀ t ∈ L, Holds (stored place f rs) (kids rs) place f (place e.1) t

theorem mem_range_of_ids (h : rs.map (·.id) = List.range' (n + 1) rs.length) (hr : r ∈ rs) : n < r.id := by
  have hmem : r.id ∈ rs.map (·.id) := List.mem_map_of_mem hr
  rw [h, List.mem_range'_1] at hmem
  omega

theorem walked_nil (place : Nat → π) (f : α ⊕ β → ι) (n : Nat) : Walked place f ([] : List (Nat × List (Tree α β))) n [] :=
  ⟨rfl, rfl, nofun, nofun⟩

/-- The rows of the nodes of a list come before the rows of a queue to which their children were added. -/
theorem Walked.rows (h : Walked place f (queue ++ pending n l) (n + l.length) rs) (hl : ∀ e ∈ l, e.1 ≤ n)
    (hqueue : ∀ e ∈ queue, e.1 ≤ n ∧ e.1 ∉ l.map (·.1)) :
    (rows n l ++ rs).map (·.id) = List.range' (n + 1) (rows n l ++ rs).length ∧
      (rows n l ++ rs).length = (l.map fun e => e.2.size).sum + (queue.map fun e => (e.2.map size).sum).sum ∧
      (∀ r ∈ rows n l ++ rs, r ∈ rows n l ∨ r.parent ∈ queue.map (·.1) ∨ n < r.parent ∧ r.parent < r.id) ∧
      (∃ L : List (Nat × Tree (Nat × α) (Nat × β)), (L.map fun e => (e.1, e.2.erase)) = l ∧
        (L.map fun e => e.2.label) = (rows n l).map (·.id) ∧
        ∀ e ∈ L, Holds (stored place f (rows n l ++ rs)) (kids (rows n l ++ rs)) place f (place e.1) e.2) ∧
      ∀ e ∈ queue, ∃ L : List (Tree (Nat × α) (Nat × β)), L.map erase = e.2 ∧ L.map label = kids (rows n l ++ rs) e.1 ∧
        ∀ t ∈ L, Holds (stored place f (rows n l ++ rs)) (kids (rows n l ++ rs)) place f (place e.1) t := by
  have hids : (Tree.rows n l ++ rs).map (·.id) = List.range' (n + 1) (Tree.rows n l ++ rs).length := by
    rw [List.map_append, map_id_rows, h.ids, List.length_append, length_rows, ← List.range'_append_1]
    congr 2
    omega
  have hnodup : ((Tree.rows n l ++ rs).map (·.id)).Nodup := hids ▸ List.nodup_range'
  -- The rows that come first have smaller numbers, and their parents were written before.
  have hlater : ∀ r ∈ rs, n + l.length < r.id := fun r hr => mem_range_of_ids h.ids hr
  have hstored : ∀ i v, stored place f rs i = some v → stored place f (Tree.rows n l ++ rs) i = some v := by
    intro i v hv
    obtain ⟨r, hr, rfl⟩ := exists_of_stored hv
    rw [← hv, stored_of_mem hnodup (List.mem_append_right _ hr)]
    exact (stored_of_mem (hnodup.sublist ((List.sublist_append_right _ _).map _)) hr).symm
  have hkids : ∀ i, i ∉ l.map (·.1) → kids (Tree.rows n l ++ rs) i = kids rs i := by
    intro i hi
    rw [kids_append, kids_eq_nil fun r hr heq => hi ?_, List.nil_append]
    rw [← map_parent_rows n l, ← heq]
    exact List.mem_map_of_mem hr
  have hkids' : ∀ i v, stored place f rs i = some v → kids (Tree.rows n l ++ rs) i = kids rs i := by
    intro i v hv
    obtain ⟨r, hr, rfl⟩ := exists_of_stored hv
    refine hkids _ fun hmem => ?_
    obtain ⟨e, he, heq⟩ := List.mem_map.mp hmem
    have := hl e he
    have := hlater r hr
    omega
  have hmove : ∀ {p t}, Holds (stored place f rs) (kids rs) place f p t →
      Holds (stored place f (Tree.rows n l ++ rs)) (kids (Tree.rows n l ++ rs)) place f p t := fun ht =>
    ht.mono hstored hkids' fun _ _ _ => rfl
  have hleaf : ∀ r ∈ Tree.rows n l, ∀ a, r.value = .inl a → kids (Tree.rows n l ++ rs) r.id = [] := by
    intro r hr a ha
    have hid : r.id ∈ (Tree.rows n l).map (·.id) := List.mem_map_of_mem hr
    rw [map_id_rows, List.mem_range'_1] at hid
    rw [hkids, kids_eq_nil fun r' hr' heq => ?_]
    · rcases h.parents r' hr' with hmem | hlt
      · rw [List.map_append, List.mem_append] at hmem
        rcases hmem with hmem | hmem
        · obtain ⟨e, he, heq'⟩ := List.mem_map.mp hmem
          have := (hqueue e he).1
          omega
        · exact not_mem_pending hr ha (heq ▸ hmem)
      · omega
    · intro hmem
      obtain ⟨e, he, heq⟩ := List.mem_map.mp hmem
      have := hl e he
      omega
  have hsplit := h.holds
  refine ⟨hids, ?_, fun r hr => ?_, ?_, fun e he => ?_⟩
  · rw [List.length_append, length_rows, h.length, List.map_append, List.sum_append, ← sum_pending n l]
    omega
  · rcases List.mem_append.mp hr with hr | hr
    · exact Or.inl hr
    · rcases h.parents r hr with hmem | hlt
      · rw [List.map_append, List.mem_append] at hmem
        rcases hmem with hmem | hmem
        · exact Or.inr (Or.inl hmem)
        · obtain ⟨e, he, heq⟩ := List.mem_map.mp hmem
          have hmem := mem_pending he
          have := hlater r hr
          exact Or.inr (Or.inr (by omega))
      · exact Or.inr (Or.inr (by omega))
  · obtain ⟨L, herase, hlabel, hholds⟩ := exists_labelled place n l
      (fun r hr => stored_of_mem hnodup (List.mem_append_left _ hr)) hleaf fun e he => by
        obtain ⟨C, hCerase, hClabel, hCholds⟩ := hsplit e (List.mem_append_right _ he)
        refine ⟨C, hCerase, ?_, fun t ht => hmove (hCholds t ht)⟩
        rw [hClabel, hkids]
        intro hmem
        obtain ⟨e', he', heq⟩ := List.mem_map.mp hmem
        have := hl e' he'
        have := mem_pending he
        omega
    exact ⟨L, herase, hlabel.trans (map_id_rows n l).symm, hholds⟩
  · obtain ⟨C, hCerase, hClabel, hCholds⟩ := hsplit e (List.mem_append_left _ he)
    exact ⟨C, hCerase, hClabel.trans (hkids e.1 (hqueue e he).2).symm, fun t ht => hmove (hCholds t ht)⟩

theorem map_fst_under {p q : Nat} {children : List (Tree α β)} (h : q ∈ (under p children).map (·.1)) : q = p := by
  unfold under at h
  rw [List.map_map] at h
  obtain ⟨t, -, rfl⟩ := List.mem_map.mp h
  rfl

theorem kids_rows_under (n p : Nat) (children : List (Tree α β)) :
    kids (rows n (under p children)) p = (rows n (under p children)).map (·.id) := by
  unfold kids
  rw [List.filter_eq_self.mpr fun r hr => ?_]
  have hmem : r.parent ∈ (rows n (under p children)).map (·.parent) := List.mem_map_of_mem hr
  rw [map_parent_rows] at hmem
  exact decide_eq_true (map_fst_under hmem)

/-- The rows of a queue hold all its trees. -/
theorem walked_walk (place : Nat → π) (f : α ⊕ β → ι) (queue : List (Nat × List (Tree α β))) (n : Nat)
    (hnodup : (queue.map (·.1)).Nodup) (hle : ∀ e ∈ queue, e.1 ≤ n) : Walked place f queue n (walk queue n) := by
  induction queue, n using walk.induct with
  | case1 n =>
    rw [walk]
    exact walked_nil place f n
  | case2 n p children queue ih =>
    rw [List.map_cons, List.nodup_cons] at hnodup
    have hlength : (under p children).length = children.length := List.length_map ..
    have hsum : ((under p children).map fun e => e.2.size).sum = (children.map size).sum := by
      unfold under
      rw [List.map_map]
      rfl
    have hp : p ≤ n := hle _ List.mem_cons_self
    have hrest : Walked place f (queue ++ pending n (under p children)) (n + (under p children).length)
        (walk (queue ++ pending n (under p children)) (n + children.length)) := by
      rw [hlength]
      refine ih ?_ fun e he => ?_
      · rw [List.map_append, List.nodup_append]
        refine ⟨hnodup.2, (map_fst_pending n _).nodup List.nodup_range', fun q hq q' hq' heq => ?_⟩
        obtain ⟨e, he, rfl⟩ := List.mem_map.mp hq
        obtain ⟨e', he', rfl⟩ := List.mem_map.mp hq'
        have := hle e (List.mem_cons_of_mem _ he)
        have := mem_pending he'
        omega
      · rcases List.mem_append.mp he with he | he
        · exact (hle e (List.mem_cons_of_mem _ he)).trans (Nat.le_add_right _ _)
        · exact hlength ▸ (mem_pending he).2
    have hne : ∀ e ∈ queue, e.1 ≠ p := fun e he heq => hnodup.1 (List.mem_map.mpr ⟨e, he, heq⟩)
    obtain ⟨hids, hlen, hparents, ⟨L, herase, hlabel, hholds⟩, hqueue⟩ := hrest.rows
      (fun e he => map_fst_under (List.mem_map_of_mem he) ▸ hp)
      fun e he => ⟨hle e (List.mem_cons_of_mem _ he), fun hmem => hne e he (map_fst_under hmem)⟩
    rw [walk]
    refine ⟨hids, by rw [hlen, hsum, List.map_cons, List.sum_cons], fun r hr => ?_, fun e he => ?_⟩
    · rw [List.map_cons]
      rcases hparents r hr with hmem | hmem | hlt
      · have hp : r.parent ∈ (rows n (under p children)).map (·.parent) := List.mem_map_of_mem hmem
        rw [map_parent_rows] at hp
        exact Or.inl (map_fst_under hp ▸ List.mem_cons_self)
      · exact Or.inl (List.mem_cons_of_mem _ hmem)
      · exact Or.inr hlt
    · rcases List.mem_cons.mp he with rfl | he
      · refine ⟨L.map (·.2), ?_, ?_, fun t ht => ?_⟩
        · rw [List.map_map]
          have hsnd := congrArg (List.map Prod.snd) herase
          unfold under at hsnd
          simpa [Function.comp_def] using hsnd
        · -- Only the rows of this step are under this parent.
          have hnone : kids (walk (queue ++ pending n (under p children)) (n + children.length)) p = [] := by
            refine kids_eq_nil fun r hr heq => ?_
            rcases hrest.parents r hr with hmem | hlt
            · rw [List.map_append, List.mem_append] at hmem
              rcases hmem with hmem | hmem
              · exact hnodup.1 (heq ▸ hmem)
              · obtain ⟨e, he, heq'⟩ := List.mem_map.mp hmem
                have := mem_pending he
                omega
            · omega
          rw [List.map_map, kids_append, kids_rows_under, hnone, List.append_nil]
          exact hlabel
        · obtain ⟨e, he, rfl⟩ := List.mem_map.mp ht
          have hfst : e.1 = p := by
            have hmem : e.1 ∈ (L.map fun e => (e.1, e.2.erase)).map (·.1) := by
              rw [List.map_map]
              exact List.mem_map_of_mem he
            rw [herase] at hmem
            exact map_fst_under hmem
          exact hfst ▸ hholds e he
      · exact hqueue e he

/-- The rows of a forest, whose trees have parents of their own. -/
def number (l : List (Nat × Tree α β)) (n : Nat) : List (Row (α ⊕ β)) := rows n l ++ walk (pending n l) (n + l.length)

/-- The rows of a forest have increasing numbers and hold the forest, each node once. -/
theorem number_holds (place : Nat → π) (f : α ⊕ β → ι) (l : List (Nat × Tree α β)) (n : Nat) (hl : ∀ e ∈ l, e.1 ≤ n) :
    (number l n).map (·.id) = List.range' (n + 1) (number l n).length ∧
      (∀ r ∈ number l n, r ∈ rows n l ∨ n < r.parent ∧ r.parent < r.id) ∧
      ∃ L : List (Nat × Tree (Nat × α) (Nat × β)), (L.map fun e => (e.1, e.2.erase)) = l ∧
        (L.map fun e => e.2.label) = (rows n l).map (·.id) ∧
        (∀ e ∈ L, Holds (stored place f (number l n)) (kids (number l n)) place f (place e.1) e.2) ∧
        (L.flatMap fun e => e.2.labels).Perm ((number l n).map (·.id)) := by
  have hwalk := walked_walk place f (pending n l) (n + l.length)
    ((map_fst_pending n l).nodup List.nodup_range') fun e he => (mem_pending he).2
  obtain ⟨hids, hlength, hparents, ⟨L, herase, hlabel, hholds⟩, -⟩ :=
    Walked.rows (show Walked place f ([] ++ pending n l) _ _ from hwalk) hl nofun
  change (number l n).map (·.id) = List.range' (n + 1) (number l n).length at hids
  change (number l n).length = _ at hlength
  refine ⟨hids, fun r hr => ?_, L, herase, hlabel, hholds, ?_⟩
  · rcases hparents r hr with hrow | hmem | hlt
    · exact Or.inl hrow
    · cases hmem
    · exact Or.inr hlt
  · -- Each number is in the forest, by induction on the numbers, and there are as many as the forest has nodes.
    have hmem : ∀ i, ∀ r ∈ number l n, r.id = i → ∃ e ∈ L, i ∈ e.2.labels := by
      intro i
      induction i using Nat.strongRecOn with
      | ind i ih =>
        rintro r hr rfl
        rcases hparents r hr with hrow | hmem | ⟨hlt, hlt'⟩
        · have hroot : r.id ∈ L.map fun e => e.2.label := hlabel ▸ List.mem_map_of_mem hrow
          obtain ⟨e, he, heq⟩ := List.mem_map.mp hroot
          exact ⟨e, he, heq ▸ e.2.label_mem_labels⟩
        · cases hmem
        · have hparent : r.parent ∈ (number l n).map (·.id) := by
            have hid : r.id ∈ (number l n).map (·.id) := List.mem_map_of_mem hr
            rw [hids, List.mem_range'_1] at hid ⊢
            omega
          obtain ⟨r', hr', heq⟩ := List.mem_map.mp hparent
          obtain ⟨e, he, hlabels⟩ := ih r.parent hlt' r' hr' heq
          have hkid : r.id ∈ kids (number l n) r.parent := by
            unfold kids
            exact List.mem_map_of_mem (List.mem_filter.mpr ⟨hr, decide_eq_true rfl⟩)
          exact ⟨e, he, (hholds e he).mem_labels hlabels hkid⟩
    have hnodup : ((number l n).map (·.id)).Nodup := hids ▸ List.nodup_range'
    have hsub : (number l n).map (·.id) ⊆ L.flatMap fun e => e.2.labels := by
      intro i hi
      obtain ⟨r, hr, heq⟩ := List.mem_map.mp hi
      exact List.mem_flatMap.mpr (hmem i r hr heq)
    have hcount : (L.flatMap fun e => e.2.labels).length = (number l n).length := by
      rw [hlength, List.length_flatMap, List.map_nil, List.sum_nil, Nat.add_zero, ← herase, List.map_map]
      exact congrArg List.sum (List.map_congr_left fun e _ => length_labels e.2)
    exact ((List.subperm_of_subset hnodup hsub).perm_of_length_le (by rw [hcount, List.length_map])).symm

/-- Each row has a value of the forest. -/
theorem value_mem_values (l : List (Nat × Tree α β)) (n : Nat) (hl : ∀ e ∈ l, e.1 ≤ n) {r : Row (α ⊕ β)}
    (hr : r ∈ number l n) : ∃ e ∈ l, r.value ∈ e.2.values := by
  obtain ⟨hids, -, L, herase, -, hholds, hperm⟩ := number_holds (fun p => p) (fun x => x) l n hl
  obtain ⟨e, he, hlabels⟩ := List.mem_flatMap.mp (hperm.mem_iff.mpr (List.mem_map_of_mem hr))
  obtain ⟨v, hv, q, hq⟩ := (hholds e he).exists_value hlabels
  rw [stored_of_mem (hids ▸ List.nodup_range') hr] at hq
  refine ⟨(e.1, e.2.erase), herase ▸ List.mem_map_of_mem he, ?_⟩
  rw [(Prod.mk.inj (Option.some.inj hq)).2]
  exact hv

/-- No row is under a leaf. -/
theorem kids_leaf (l : List (Nat × Tree α β)) (n : Nat) (hl : ∀ e ∈ l, e.1 ≤ n) {r : Row (α ⊕ β)} (hr : r ∈ number l n)
    {a : α} (ha : r.value = .inl a) : kids (number l n) r.id = [] := by
  obtain ⟨hids, -, L, -, -, hholds, hperm⟩ := number_holds (fun p => p) (fun x => x) l n hl
  obtain ⟨e, he, hlabels⟩ := List.mem_flatMap.mp (hperm.mem_iff.mpr (List.mem_map_of_mem hr))
  refine (hholds e he).below_leaf hlabels (q := r.parent) (a := a) ?_
  rw [stored_of_mem (hids ▸ List.nodup_range') hr, ha]

end Tree
end Lib
