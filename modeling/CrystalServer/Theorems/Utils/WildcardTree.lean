import CrystalServer.Lib.Keyed
import CrystalServer.Lib.Run
import CrystalServer.Utils.WildcardTree

/-! # The names that the wildcard tree finds

The names of a tree are the walks that end at a breakpoint. A tree that has grown from the root has, below the root, no
node without children that is not a breakpoint: what `findOne` reaches by only children is then a name, and the only one. -/

namespace CrystalServer.WildcardTreeNode
open Lib (run)

variable {node child cur : WildcardTreeNode} {ch : UInt8} {str s : List UInt8}

/-- `str` is a name of the tree. -/
def Has (node : WildcardTreeNode) (str : List UInt8) : Prop := ∃ cur, node.descend str = some cur ∧ cur.breakpoint = true

/-- Without children a node is a breakpoint. -/
def Ends (node : WildcardTreeNode) : Prop := node.children = [] → node.breakpoint = true

/-- Each child has a character of its own, and below the node all is as `Ends` says. -/
inductive Grown : WildcardTreeNode → Prop
  | node {children : List (UInt8 × WildcardTreeNode)} {breakpoint : Bool} (hnodup : (children.map Prod.fst).Nodup)
      (hends : ∀ entry ∈ children, entry.2.Ends) (hchild : ∀ entry ∈ children, Grown entry.2) :
      Grown ⟨children, breakpoint⟩

/-! ### Children -/

theorem Grown.nodup (h : Grown node) : (node.children.map Prod.fst).Nodup := by
  cases h with
  | node hnodup _ _ => exact hnodup

theorem Grown.entry (h : Grown node) {entry : UInt8 × WildcardTreeNode} (he : entry ∈ node.children) :
    entry.2.Ends ∧ Grown entry.2 := by
  cases h with
  | node _ hends hchild => exact ⟨hends entry he, hchild entry he⟩

theorem grown_of_entries (hnodup : (node.children.map Prod.fst).Nodup)
    (hall : ∀ entry ∈ node.children, entry.2.Ends ∧ Grown entry.2) : Grown node := by
  cases node
  exact .node hnodup (fun entry he => (hall entry he).1) fun entry he => (hall entry he).2

theorem Grown.getChild_iff (h : Grown node) : node.getChild ch = some child ↔ (ch, child) ∈ node.children :=
  Lib.lookup_eq_some_iff_mem h.nodup

theorem Grown.child_of (h : Grown node) (hc : node.getChild ch = some child) : child.Ends ∧ Grown child :=
  h.entry (h.getChild_iff.mp hc)

theorem grown_leaf (breakpoint : Bool) : Grown ⟨[], breakpoint⟩ :=
  .node List.nodup_nil (by simp) (by simp)

theorem getChild_setChild (node : WildcardTreeNode) (ch : UInt8) (child : WildcardTreeNode) (c : UInt8) :
    (node.setChild ch child).getChild c = if c = ch then some child else node.getChild c := by
  unfold setChild
  cases hc : node.getChild ch with
  | none => exact Lib.lookup_append_entry hc child c
  | some old => exact Lib.lookup_map_entry (Option.isSome_iff_exists.mpr ⟨old, hc⟩) child c

@[simp] theorem setChild_breakpoint : (node.setChild ch child).breakpoint = node.breakpoint := by
  unfold setChild
  split <;> rfl

theorem mem_setChild {entry : UInt8 × WildcardTreeNode} (he : entry ∈ (node.setChild ch child).children) :
    entry = (ch, child) ∨ entry ∈ node.children := by
  unfold setChild at he
  split at he
  · obtain ⟨old, hold, rfl⟩ := List.mem_map.mp he
    split
    · exact Or.inl rfl
    · exact Or.inr hold
  · rcases List.mem_append.mp he with he | he
    · exact Or.inr he
    · exact Or.inl (List.mem_singleton.mp he)

theorem setChild_children_ne_nil : (node.setChild ch child).children ≠ [] := by
  intro hnil
  have hget := getChild_setChild node ch child ch
  rw [if_pos rfl, WildcardTreeNode.getChild, hnil] at hget
  cases hget

theorem setChild_nodup (h : (node.children.map Prod.fst).Nodup) :
    ((node.setChild ch child).children.map Prod.fst).Nodup := by
  unfold setChild
  split
  · have hkeys : (node.children.map fun entry => if entry.1 = ch then (ch, child) else entry).map Prod.fst =
        node.children.map Prod.fst := by
      rw [List.map_map]
      refine List.map_congr_left fun entry _ => ?_
      rw [Function.comp_apply]
      split
      · exact Eq.symm ‹_›
      · rfl
    exact hkeys ▸ h
  · next hnone =>
    rw [List.map_append, List.map_singleton]
    refine h.append (List.nodup_singleton ch) (List.disjoint_singleton.mpr fun hmem => ?_)
    obtain ⟨entry, he, rfl⟩ := List.mem_map.mp hmem
    exact absurd (List.lookup_eq_none_iff.mp hnone entry he) (by simp)

theorem Grown.setChild (h : Grown node) (hends : child.Ends) (hc : Grown child) : Grown (node.setChild ch child) := by
  refine grown_of_entries (setChild_nodup h.nodup) fun entry he => ?_
  rcases mem_setChild he with rfl | he
  · exact ⟨hends, hc⟩
  · exact h.entry he

theorem Grown.setChild_self (h : Grown node) (hc : node.getChild ch = some child) : node.setChild ch child = node := by
  unfold WildcardTreeNode.setChild
  rw [hc]
  have hsame : (node.children.map fun entry => if entry.1 = ch then (ch, child) else entry) = node.children := by
    refine (List.map_congr_left fun entry he => ?_).trans (List.map_id _)
    split
    · next heq =>
      subst heq
      have hget : node.getChild entry.1 = some entry.2 := h.getChild_iff.mpr he
      rw [hc] at hget
      exact Prod.ext rfl (Option.some.inj hget)
    · rfl
  cases node
  exact congrArg (WildcardTreeNode.mk · _) hsame

theorem Grown.eraseChild (h : Grown node) : Grown (node.eraseChild ch) :=
  grown_of_entries (h.nodup.sublist (List.filter_sublist.map _)) fun _ he => h.entry (List.mem_of_mem_filter he)

theorem getChild_eraseChild (node : WildcardTreeNode) (ch c : UInt8) :
    (node.eraseChild ch).getChild c = if c = ch then none else node.getChild c :=
  Lib.lookup_filter_ne node.children ch c

/-! ### Names -/

theorem has_nil : node.Has [] ↔ node.breakpoint = true := by simp [Has, descend]

theorem has_cons : node.Has (ch :: s) ↔ ∃ child, node.getChild ch = some child ∧ child.Has s := by
  unfold Has
  rw [descend]
  cases node.getChild ch <;> simp

theorem has_append : node.Has (str ++ s) ↔ ∃ cur, node.descend str = some cur ∧ cur.Has s := by
  induction str generalizing node with
  | nil => simp [descend]
  | cons c str ih =>
    rw [List.cons_append, has_cons, descend]
    cases node.getChild c with
    | none => simp
    | some child => simpa using ih

/-- The names of one child are those of the new one. -/
theorem has_setChild {c : UInt8} :
    (node.setChild ch child).Has (c :: s) ↔ if c = ch then child.Has s else node.Has (c :: s) := by
  rw [has_cons, getChild_setChild]
  split
  · simp
  · exact has_cons.symm

theorem Grown.descend (h : Grown node) (hd : node.descend str = some cur) : Grown cur ∧ (str ≠ [] → cur.Ends) := by
  induction str generalizing node with
  | nil =>
    cases hd
    exact ⟨h, fun hne => absurd rfl hne⟩
  | cons c str ih =>
    obtain ⟨child, hc, hd⟩ := Option.bind_eq_some_iff.mp hd
    obtain ⟨hends, hgrown⟩ := h.child_of hc
    obtain ⟨hcur, hlast⟩ := ih hgrown hd
    refine ⟨hcur, fun _ => ?_⟩
    by_cases hstr : str = []
    · subst hstr
      cases hd
      exact hends
    · exact hlast hstr

/-! ### `insert` -/

theorem has_addedChild {breakp : Bool} : (node.addedChild ch breakp).Has s ↔
    (s = [] ∧ breakp = true) ∨ node.Has (ch :: s) := by
  rw [has_cons]
  unfold addedChild
  cases node.getChild ch with
  | none => cases s <;> simp [has_nil, has_cons, WildcardTreeNode.getChild]
  | some child =>
    cases s <;> cases breakp <;> cases hb : child.breakpoint <;> simp [has_nil, has_cons, WildcardTreeNode.getChild, hb]

theorem Grown.addedChild (h : Grown node) (breakp : Bool) : Grown (node.addedChild ch breakp) := by
  unfold WildcardTreeNode.addedChild
  cases hc : node.getChild ch with
  | none => exact grown_leaf breakp
  | some child =>
    obtain ⟨-, hchild⟩ := h.child_of hc
    dsimp only
    split
    · exact grown_of_entries hchild.nodup fun entry he => hchild.entry he
    · exact hchild

theorem addedChild_breakpoint : (node.addedChild ch true).breakpoint = true := by
  unfold addedChild
  split
  · split <;> simp_all
  · rfl

theorem insert_children_ne_nil (hstr : str ≠ []) : (node.insert str).children ≠ [] := by
  match str with
  | [] => exact absurd rfl hstr
  | [_] | _ :: _ :: _ => exact setChild_children_ne_nil

theorem Grown.insert (h : Grown node) (str : List UInt8) : Grown (node.insert str) := by
  induction node, str using insert.induct with
  | case1 node => exact h
  | case2 node c => exact h.setChild (fun _ => addedChild_breakpoint) (h.addedChild true)
  | case3 node c c' str ih =>
    exact h.setChild (fun hnil => absurd hnil (insert_children_ne_nil (by simp))) (ih (h.addedChild false))

/-- A name comes in. -/
theorem has_insert (hstr : str ≠ []) : (node.insert str).Has s ↔ s = str ∨ node.Has s := by
  induction node, str using insert.induct generalizing s with
  | case1 node => exact absurd rfl hstr
  | case2 node c =>
    rw [WildcardTreeNode.insert, addChild]
    cases s with
    | nil => simp [has_nil]
    | cons c' s =>
      rw [has_setChild, has_addedChild]
      by_cases hc : c' = c
      · subst hc
        simp
      · simp [hc]
  | case3 node c c' str ih =>
    rw [WildcardTreeNode.insert]
    cases s with
    | nil => simp [has_nil]
    | cons d s =>
      rw [has_setChild, ih (by simp), has_addedChild]
      by_cases hd : d = c
      · subst hd
        simp
      · simp [hd]

/-! ### `remove` -/

/-- The way back up keeps a child that still leads to a name, and takes out one that does not. -/
theorem removeBelow_cons (hc : node.getChild ch = some child) (hcur : child.removeBelow str = some cur) :
    node.removeBelow (ch :: str) = some (node.setChild ch cur) ∧ cur.Ends ∨
      node.removeBelow (ch :: str) = some (node.eraseChild ch) ∧ ∀ s, ¬cur.Has s := by
  simp only [removeBelow, hc, hcur, Option.bind_eq_bind, Option.bind_some]
  obtain ⟨children, breakpoint⟩ := cur
  cases breakpoint with
  | true => exact Or.inl ⟨by simp, fun _ => rfl⟩
  | false =>
    cases children with
    | nil =>
      refine Or.inr ⟨by simp, fun s hs => ?_⟩
      cases s with
      | nil => exact absurd (has_nil.mp hs) (by simp)
      | cons c s =>
        obtain ⟨_, hget, -⟩ := has_cons.mp hs
        cases hget
    | cons entry children => exact Or.inl ⟨by simp, fun hnil => absurd hnil (by simp)⟩

/-- A walk that ends somewhere takes out its name alone. -/
theorem Grown.removeBelow (h : Grown node) (hcur : node.removeBelow str = some cur) :
    Grown cur ∧ ∀ s, cur.Has s ↔ s ≠ str ∧ node.Has s := by
  induction str generalizing node cur with
  | nil =>
    cases hcur
    refine ⟨grown_of_entries h.nodup fun entry he => h.entry he, fun s => ?_⟩
    cases s with
    | nil => simp [has_nil]
    | cons c s => simp [has_cons, WildcardTreeNode.getChild]
  | cons c str ih =>
    obtain ⟨child, hc, hrest⟩ := Option.bind_eq_some_iff.mp hcur
    obtain ⟨cur', hcur', -⟩ := Option.bind_eq_some_iff.mp hrest
    obtain ⟨-, hchild⟩ := h.child_of hc
    obtain ⟨hgrown, hnames⟩ := ih hchild hcur'
    have hwalk : ∀ s, node.Has (c :: s) ↔ child.Has s := fun s => by simp [has_cons, hc]
    rcases removeBelow_cons hc hcur' with ⟨heq, hends⟩ | ⟨heq, hnone⟩
    · obtain rfl := Option.some.inj (heq.symm.trans hcur)
      refine ⟨h.setChild hends hgrown, fun s => ?_⟩
      cases s with
      | nil => simp [has_nil]
      | cons d s =>
        rw [has_setChild]
        by_cases hd : d = c
        · subst hd
          simp [hnames, hwalk]
        · simp [hd]
    · obtain rfl := Option.some.inj (heq.symm.trans hcur)
      refine ⟨h.eraseChild, fun s => ?_⟩
      cases s with
      | nil => simp [has_nil, WildcardTreeNode.eraseChild]
      | cons d s =>
        rw [has_cons]
        simp only [getChild_eraseChild]
        by_cases hd : d = c
        · subst hd
          have hgone : ¬(s ≠ str ∧ child.Has s) := fun hs => hnone s ((hnames s).mpr hs)
          simpa [hwalk] using hgone
        · simp [hd, ← has_cons]

theorem not_has_of_removeBelow (hnone : node.removeBelow str = none) : ¬node.Has str := by
  induction str generalizing node with
  | nil => cases hnone
  | cons c str ih =>
    rintro hs
    obtain ⟨child, hc, hs⟩ := has_cons.mp hs
    cases hcur : child.removeBelow str with
    | none => exact ih hcur hs
    | some cur =>
      rcases removeBelow_cons hc hcur with ⟨heq, -⟩ | ⟨heq, -⟩ <;>
        rw [heq] at hnone <;> cases hnone

/-- A name goes out. -/
theorem Grown.remove (h : Grown node) (str : List UInt8) :
    Grown (node.remove str) ∧ ∀ s, (node.remove str).Has s ↔ s ≠ str ∧ node.Has s := by
  unfold WildcardTreeNode.remove
  cases hcur : node.removeBelow str with
  | none =>
    refine ⟨h, fun s => ⟨fun hs => ⟨?_, hs⟩, And.right⟩⟩
    rintro rfl
    exact not_has_of_removeBelow hcur hs
  | some cur => exact h.removeBelow hcur

/-- What is not a name does not change the tree, though the walk may end at a node. -/
theorem Grown.removeBelow_of_not_has (h : Grown node) (hs : ¬node.Has str) (hcur : node.removeBelow str = some cur) :
    cur = node := by
  induction str generalizing node cur with
  | nil =>
    cases hcur
    obtain ⟨children, breakpoint⟩ := node
    rw [has_nil, Bool.not_eq_true] at hs
    exact congrArg (WildcardTreeNode.mk children) hs.symm
  | cons c str ih =>
    obtain ⟨child, hc, hrest⟩ := Option.bind_eq_some_iff.mp hcur
    obtain ⟨cur', hcur', hlast⟩ := Option.bind_eq_some_iff.mp hrest
    obtain ⟨hends, hchild⟩ := h.child_of hc
    have hsame : cur' = child := ih hchild (fun hs' => hs (has_cons.mpr ⟨child, hc, hs'⟩)) hcur'
    have hkept : (!child.children.isEmpty || child.breakpoint) = true := by
      cases hnil : child.children with
      | nil => simp [hends hnil]
      | cons _ _ => rfl
    rw [hsame, if_pos hkept, h.setChild_self hc] at hlast
    exact (Option.some.inj hlast).symm

theorem Grown.remove_of_not_has (h : Grown node) (hs : ¬node.Has str) : node.remove str = node := by
  unfold WildcardTreeNode.remove
  cases hcur : node.removeBelow str with
  | none => rfl
  | some cur => exact h.removeBelow_of_not_has hs hcur

/-! ### `findOne` -/

theorem Grown.exists_has (h : Grown node) (hends : node.Ends) : ∃ s, node.Has s := by
  induction h with
  | @node children breakpoint hnodup hall hchild ih =>
    cases children with
    | nil => exact ⟨[], has_nil.mpr (hends rfl)⟩
    | cons entry children =>
      obtain ⟨s, hs⟩ := ih entry List.mem_cons_self (hall entry List.mem_cons_self)
      exact ⟨entry.1 :: s, has_cons.mpr ⟨entry.2, List.lookup_cons_self, hs⟩⟩

/-- The names of a node with one child. -/
theorem has_only {c : UInt8} {breakpoint : Bool} :
    Has ⟨[(c, child)], breakpoint⟩ s ↔ (s = [] ∧ breakpoint = true) ∨ ∃ s', s = c :: s' ∧ child.Has s' := by
  cases s with
  | nil => simp [has_nil]
  | cons d s =>
    rw [has_cons]
    unfold getChild
    rw [List.lookup_cons]
    by_cases hd : d = c
    · simp [hd]
    · simp [hd, beq_eq_false_iff_ne.mpr hd]

theorem has_leaf {breakpoint : Bool} : Has ⟨[], breakpoint⟩ s ↔ s = [] ∧ breakpoint = true := by
  cases s with
  | nil => simp [has_nil]
  | cons c s => simp [has_cons, getChild]

/-- What the last loop of `findOne` says of the names below the node where it starts. -/
def Found (node : WildcardTreeNode) (result : List UInt8) (answer : FindValue × List UInt8) : Prop :=
  (∃ s, answer = (.NOERROR, result ++ s) ∧ node.Has s ∧ ∀ s', node.Has s' → s' = s) ∨
    answer.1 = .NAMEISTOOAMBIGUOUS ∧ ∃ s s', s ≠ s' ∧ node.Has s ∧ node.Has s'

/-- What is found behind the only child is found behind the node, unless the node is a name itself. -/
theorem Found.only {c : UInt8} {result : List UInt8} {answer : FindValue × List UInt8}
    (h : Found child (result ++ [c]) answer) : Found ⟨[(c, child)], false⟩ result answer := by
  rcases h with ⟨s, rfl, hs, hone⟩ | ⟨hanswer, s, s', hne, hs, hs'⟩
  · refine Or.inl ⟨c :: s, by simp, has_only.mpr (Or.inr ⟨s, rfl, hs⟩), fun t ht => ?_⟩
    rcases has_only.mp ht with ⟨-, hf⟩ | ⟨t', rfl, ht'⟩
    · cases hf
    · rw [hone t' ht']
  · exact Or.inr ⟨hanswer, c :: s, c :: s', by simpa using hne, has_only.mpr (Or.inr ⟨s, rfl, hs⟩),
      has_only.mpr (Or.inr ⟨s', rfl, hs'⟩)⟩

theorem Grown.findLast (h : Grown node) (hends : node.Ends) (result : List UInt8) :
    Found node result (findLast result node) := by
  induction h generalizing result with
  | @node children breakpoint hnodup hall hchild ih =>
    match children with
    | [] =>
      refine Or.inl ⟨[], by simp [WildcardTreeNode.findLast], has_leaf.mpr ⟨rfl, hends rfl⟩, fun s hs => ?_⟩
      exact (has_leaf.mp hs).1
    | [(c, child)] =>
      have hchildEnds := hall (c, child) List.mem_cons_self
      cases breakpoint with
      | true =>
        -- the node is a name, and there is one behind its child
        obtain ⟨s, hs⟩ := (hchild (c, child) List.mem_cons_self).exists_has hchildEnds
        exact Or.inr ⟨rfl, [], c :: s, by simp, has_nil.mpr rfl, has_only.mpr (Or.inr ⟨s, rfl, hs⟩)⟩
      | false => exact (ih (c, child) List.mem_cons_self hchildEnds (result ++ [c])).only
    | (c, child) :: (d, child') :: rest =>
      have hne : d ≠ c := by
        rintro rfl
        simp at hnodup
      obtain ⟨s, hs⟩ := (hchild (c, child) (by simp)).exists_has (hall (c, child) (by simp))
      obtain ⟨s', hs'⟩ := (hchild (d, child') (by simp)).exists_has (hall (d, child') (by simp))
      have hsecond : ((c, child) :: (d, child') :: rest).lookup d = some child' := by
        rw [List.lookup_cons, beq_eq_false_iff_ne.mpr hne]
        exact List.lookup_cons_self
      exact Or.inr ⟨rfl, c :: s, d :: s', by simp [Ne.symm hne], has_cons.mpr ⟨child, List.lookup_cons_self, hs⟩,
        has_cons.mpr ⟨child', hsecond, hs'⟩⟩

/-! ### Runs -/

/-- The names online after a call. -/
def nameStep (names : Set (List UInt8)) : Op → Set (List UInt8)
  | .insert str => names ∪ {str}
  | .remove str => names \ {str}

/-- The tree is grown, and its names are those that are online. -/
structure Holds (node : WildcardTreeNode) (names : Set (List UInt8)) : Prop where
  grown : Grown node
  has : ∀ s, node.Has s ↔ s ∈ names

theorem holds_root : Holds root ∅ := ⟨grown_leaf false, fun s => by simp [root, has_leaf]⟩

theorem Holds.step {names : Set (List UInt8)} (h : Holds node names) {op : Op} (hop : op.name ≠ []) :
    Holds (node.step op) (nameStep names op) := by
  cases op with
  | insert str =>
    refine ⟨h.grown.insert str, fun s => ?_⟩
    have hname : (node.insert str).Has s ↔ s = str ∨ node.Has s := has_insert hop
    rw [WildcardTreeNode.step, hname, h.has, or_comm]
    rfl
  | remove str =>
    obtain ⟨hgrown, hhas⟩ := h.grown.remove str
    exact ⟨hgrown, fun s => by simp [WildcardTreeNode.step, nameStep, hhas, h.has, and_comm]⟩

theorem Holds.run {names : Set (List UInt8)} (h : Holds node names) {ops : List Op} (hops : ∀ op ∈ ops, op.name ≠ []) :
    Holds (run WildcardTreeNode.step node ops) (run nameStep names ops) := by
  induction ops generalizing node names with
  | nil => exact h
  | cons op ops ih =>
    exact ih (h.step (hops op List.mem_cons_self)) fun op' hop' => hops op' (List.mem_cons_of_mem _ hop')

/-- The three answers of `findOne`, by the names that begin with the query. -/
theorem Holds.findOne {names : Set (List UInt8)} (h : Holds node names) {query : List UInt8} (hquery : query ≠ [])
    (result : List UInt8) :
    (∃ name ∈ names, node.findOne query result = (.NOERROR, name) ∧ query <+: name ∧
        ∀ n ∈ names, query <+: n → n = name) ∨
      ((node.findOne query result).1 = .PLAYERWITHTHISNAMEISNOTONLINE ∧ ∀ n ∈ names, ¬query <+: n) ∨
      ((node.findOne query result).1 = .NAMEISTOOAMBIGUOUS ∧
        ∃ n ∈ names, ∃ m ∈ names, n ≠ m ∧ query <+: n ∧ query <+: m) := by
  unfold WildcardTreeNode.findOne
  have hnames : ∀ s, query ++ s ∈ names ↔ ∃ cur, node.descend query = some cur ∧ cur.Has s := fun s =>
    (h.has _).symm.trans has_append
  cases hd : node.descend query with
  | none =>
    refine Or.inr (Or.inl ⟨rfl, ?_⟩)
    rintro n hn ⟨s, rfl⟩
    obtain ⟨cur, hcur, -⟩ := (hnames s).mp hn
    rw [hd] at hcur
    cases hcur
  | some cur =>
    have hbelow : ∀ s, query ++ s ∈ names ↔ cur.Has s := fun s => by simp [hnames, hd]
    obtain ⟨hcur, hends⟩ := h.grown.descend hd
    rcases hcur.findLast (hends hquery) query with ⟨s, heq, hs, hone⟩ | ⟨heq, s, s', hne, hs, hs'⟩
    · refine Or.inl ⟨query ++ s, (hbelow s).mpr hs, heq, List.prefix_append .., ?_⟩
      rintro n hn ⟨t, rfl⟩
      rw [hone t ((hbelow t).mp hn)]
    · exact Or.inr (Or.inr ⟨heq, query ++ s, (hbelow s).mpr hs, query ++ s', (hbelow s').mpr hs', by simpa using hne,
        List.prefix_append .., List.prefix_append ..⟩)

/-- After every run `findOne` finds the one name that begins with the query, and tells none from several. A name that is
    not there is removed without a change. -/
theorem findOne_resolves (ops : List Op) (hops : ∀ op ∈ ops, op.name ≠ []) (query : List UInt8) (hquery : query ≠ [])
    (result : List UInt8) :
    (∀ name, (run step root ops).findOne query result = (.NOERROR, name) ↔
      name ∈ run nameStep ∅ ops ∧ query <+: name ∧ ∀ n ∈ run nameStep ∅ ops, query <+: n → n = name) ∧
    (((run step root ops).findOne query result).1 = .PLAYERWITHTHISNAMEISNOTONLINE ↔
      ∀ n ∈ run nameStep ∅ ops, ¬query <+: n) ∧
    (((run step root ops).findOne query result).1 = .NAMEISTOOAMBIGUOUS ↔
      ∃ n ∈ run nameStep ∅ ops, ∃ m ∈ run nameStep ∅ ops, n ≠ m ∧ query <+: n ∧ query <+: m) ∧
    ∀ str ∉ run nameStep ∅ ops, ((run step root ops).remove str).findOne query result =
      (run step root ops).findOne query result := by
  have h : Holds (run step root ops) (run nameStep ∅ ops) := holds_root.run hops
  generalize run nameStep ∅ ops = names at h
  generalize run step root ops = node at h
  have hremove : ∀ str ∉ names, (node.remove str).findOne query result = node.findOne query result := fun str hstr => by
    rw [h.grown.remove_of_not_has (mt (h.has str).mp hstr)]
  rcases h.findOne hquery result with ⟨name, hname, heq, hpre, hone⟩ | ⟨heq, hnone⟩ | ⟨heq, n, hn, m, hm, hne, hpn, hpm⟩
  · refine ⟨fun r => ⟨fun hr => ?_, ?_⟩, iff_of_false ?_ ?_, iff_of_false ?_ ?_, hremove⟩
    · obtain rfl : name = r := congrArg Prod.snd (heq.symm.trans hr)
      exact ⟨hname, hpre, hone⟩
    · rintro ⟨hr, hpr, -⟩
      rw [heq, hone r hr hpr]
    · simp [heq]
    · exact fun hnone => hnone name hname hpre
    · simp [heq]
    · rintro ⟨n, hn, m, hm, hne, hpn, hpm⟩
      exact hne ((hone n hn hpn).trans (hone m hm hpm).symm)
  · refine ⟨fun r => iff_of_false ?_ ?_, iff_of_true heq hnone, iff_of_false ?_ ?_, hremove⟩
    · rintro hr
      simp [hr] at heq
    · rintro ⟨hr, hpr, -⟩
      exact hnone r hr hpr
    · simp [heq]
    · rintro ⟨n, hn, -, -, -, hpn, -⟩
      exact hnone n hn hpn
  · refine ⟨fun r => iff_of_false ?_ ?_, iff_of_false ?_ ?_, iff_of_true heq ⟨n, hn, m, hm, hne, hpn, hpm⟩, hremove⟩
    · rintro hr
      simp [hr] at heq
    · rintro ⟨-, -, hone⟩
      exact hne ((hone n hn hpn).trans (hone m hm hpm).symm)
    · simp [heq]
    · exact fun hnone => hnone n hn hpn

theorem findOne_resolves_ana :
    (run step root [.insert [97, 110], .insert [97, 110, 97], .remove [97, 110]]).findOne [97] [] =
      (.NOERROR, [97, 110, 97]) := by
  have h := findOne_resolves [.insert [97, 110], .insert [97, 110, 97], .remove [97, 110]] (by simp [Op.name]) [97] (by simp) []
  exact (h.1 [97, 110, 97]).mpr (by simp [run, nameStep])

end CrystalServer.WildcardTreeNode
