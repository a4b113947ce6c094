import Mathlib.Data.List.Chain
import Mathlib.Data.List.Perm.Basic
import Mathlib.Data.List.Nodup

/-! # Depth first walks that remember where they were

A walk meets the nodes of a list in their order. Into an inner node it goes right after it met it: into each one once, and
through so many levels at most. The graph may have cycles, and nodes that are met twice. -/

namespace Lib
variable {α : Type*} (children : α → List α) (inner : α → Bool) (maxDepth : ℕ)

/-- The nodes that the walk meets in lists of a depth, and the nodes gone into with their depths, the last first. -/
def preorder [DecidableEq α] (depth : ℕ) (todo : List α) (visited : List (α × ℕ)) : List α × List (α × ℕ) :=
  match todo with
  | [] => ([], visited)
  | x :: todo =>
    if inner x ∧ depth < maxDepth ∧ x ∉ visited.map Prod.fst then
      let below := preorder (depth + 1) (children x) ((x, depth + 1) :: visited)
      let rest := preorder depth todo below.2
      (x :: (below.1 ++ rest.1), rest.2)
    else
      let rest := preorder depth todo visited
      (x :: rest.1, rest.2)
termination_by (maxDepth - depth, todo.length)

/-- A node that is reached from the root through so many levels, itself and the root among them. -/
inductive Level (root : α) : α → ℕ → Prop
  | root : Level root root 1
  | child {x y : α} {d : ℕ} : Level root x d → y ∈ children x → inner y → Level root y (d + 1)

/-- What a part of the walk did: the nodes gone into are new ones, each list was met once, and of each list the inner nodes
    are gone into now or before, unless the list was at the last level. -/
structure Preordered (depth : ℕ) (todo : List α) (visited : List (α × ℕ)) (out : List α) (new : List (α × ℕ)) : Prop where
  nodup : (new.map Prod.fst).Nodup
  fresh : ∀ e ∈ new, e.1 ∉ visited.map Prod.fst
  gone : ∀ e ∈ new, inner e.1 ∧ e.2 ≤ maxDepth
  perm : out.Perm (todo ++ new.flatMap fun e => children e.1)
  listed : ∀ y ∈ todo, inner y → y ∈ (new ++ visited).map Prod.fst ∨ maxDepth ≤ depth
  closed : ∀ e ∈ new, ∀ y ∈ children e.1, inner y → y ∈ (new ++ visited).map Prod.fst ∨ maxDepth ≤ e.2
  parent : ∀ e ∈ new, (e.1 ∈ todo ∧ e.2 = depth + 1) ∨ ∃ p ∈ new, e.1 ∈ children p.1 ∧ e.2 = p.2 + 1

variable {children inner maxDepth} {depth : ℕ} {todo out : List α} {visited new : List (α × ℕ)} {x : α}

/-- A node that the walk does not go into. -/
theorem Preordered.pass (h : Preordered children inner maxDepth depth todo visited out new)
    (hx : ¬(inner x ∧ depth < maxDepth ∧ x ∉ visited.map Prod.fst)) :
    Preordered children inner maxDepth depth (x :: todo) visited (x :: out) new where
  nodup := h.nodup
  fresh := h.fresh
  gone := h.gone
  perm := h.perm.cons x
  listed y hy hyi := by
    rcases List.mem_cons.mp hy with rfl | hy
    · by_cases hmax : maxDepth ≤ depth
      · exact .inr hmax
      · left
        rw [List.map_append]
        by_contra hnot
        exact hx ⟨hyi, Nat.lt_of_not_le hmax, fun hmem => hnot (List.mem_append_right _ hmem)⟩
    · exact h.listed y hy hyi
  closed := h.closed
  parent e he := (h.parent e he).imp_left fun ⟨hmem, hdepth⟩ => ⟨List.mem_cons_of_mem x hmem, hdepth⟩

/-- A node that the walk goes into, and what comes after it. -/
theorem Preordered.enter {below rest : List α} {newBelow newRest : List (α × ℕ)}
    (hx : inner x ∧ depth < maxDepth ∧ x ∉ visited.map Prod.fst)
    (hb : Preordered children inner maxDepth (depth + 1) (children x) ((x, depth + 1) :: visited) below newBelow)
    (hr : Preordered children inner maxDepth depth todo (newBelow ++ (x, depth + 1) :: visited) rest newRest) :
    Preordered children inner maxDepth depth (x :: todo) visited (x :: (below ++ rest))
      (newRest ++ newBelow ++ [(x, depth + 1)]) := by
  have hall : newRest ++ newBelow ++ [(x, depth + 1)] ++ visited = newRest ++ (newBelow ++ (x, depth + 1) :: visited) := by
    simp
  -- what is gone into stays so
  have hkeep : ∀ {y}, y ∈ (newBelow ++ (x, depth + 1) :: visited).map Prod.fst →
      y ∈ (newRest ++ (newBelow ++ (x, depth + 1) :: visited)).map Prod.fst := fun h => by
    rw [List.map_append]
    exact List.mem_append_right _ h
  constructor
  · have hfreshBelow : ∀ e ∈ newBelow, e.1 ≠ x := fun e he heq => hb.fresh e he (by simp [heq])
    have hfreshRest : ∀ e ∈ newRest, e.1 ≠ x ∧ e.1 ∉ newBelow.map Prod.fst := fun e he =>
      ⟨fun heq => hr.fresh e he (by simp [heq]), fun hmem => hr.fresh e he (by
        rw [List.map_append]
        exact List.mem_append_left _ hmem)⟩
    rw [List.map_append, List.map_append]
    refine List.Nodup.append (List.Nodup.append hr.nodup hb.nodup ?_) (List.nodup_singleton x) ?_
    · intro y hy hyb
      obtain ⟨e, he, rfl⟩ := List.mem_map.mp hy
      exact (hfreshRest e he).2 hyb
    · intro y hy hyx
      cases List.mem_singleton.mp hyx
      rcases List.mem_append.mp hy with hy | hy
      · obtain ⟨e, he, heq⟩ := List.mem_map.mp hy
        exact (hfreshRest e he).1 heq
      · obtain ⟨e, he, heq⟩ := List.mem_map.mp hy
        exact hfreshBelow e he heq
  · intro e he hmem
    rcases List.mem_append.mp he with he | he
    · rcases List.mem_append.mp he with he | he
      · exact hr.fresh e he (by simp [hmem])
      · exact hb.fresh e he (by simp [hmem])
    · cases List.mem_singleton.mp he
      exact hx.2.2 hmem
  · intro e he
    rcases List.mem_append.mp he with he | he
    · rcases List.mem_append.mp he with he | he
      · exact hr.gone e he
      · exact hb.gone e he
    · cases List.mem_singleton.mp he
      exact ⟨hx.1, hx.2.1⟩
  · classical
    have hperm := hb.perm.append hr.perm
    refine (hperm.cons x).trans (List.perm_iff_count.mpr fun y => ?_)
    simp only [List.count_append, List.count_cons, List.flatMap_append, List.flatMap_cons, List.flatMap_nil,
      List.append_nil]
    omega
  · intro y hy hyi
    rw [hall]
    rcases List.mem_cons.mp hy with rfl | hy
    · exact .inl (hkeep (by simp))
    · exact hr.listed y hy hyi
  · intro e he y hy hyi
    rw [hall]
    rcases List.mem_append.mp he with he | he
    · rcases List.mem_append.mp he with he | he
      · exact hr.closed e he y hy hyi
      · exact (hb.closed e he y hy hyi).imp_left hkeep
    · cases List.mem_singleton.mp he
      exact (hb.listed y hy hyi).imp_left hkeep
  · have hlast : (x, depth + 1) ∈ newRest ++ newBelow ++ [(x, depth + 1)] := by simp
    intro e he
    rcases List.mem_append.mp he with he | he
    · rcases List.mem_append.mp he with he | he
      · obtain ⟨hmem, hdepth⟩ | ⟨p, hp, hchild⟩ := hr.parent e he
        · exact .inl ⟨List.mem_cons_of_mem x hmem, hdepth⟩
        · exact .inr ⟨p, by simp [hp], hchild⟩
      · obtain hchild | ⟨p, hp, hchild⟩ := hb.parent e he
        · exact .inr ⟨_, hlast, hchild⟩
        · exact .inr ⟨p, by simp [hp], hchild⟩
    · cases List.mem_singleton.mp he
      exact .inl ⟨List.mem_cons_self, rfl⟩

theorem preorder_spec [DecidableEq α] (depth : ℕ) (todo : List α) (visited : List (α × ℕ)) :
    ∃ new, (preorder children inner maxDepth depth todo visited).2 = new ++ visited ∧
      Preordered children inner maxDepth depth todo visited (preorder children inner maxDepth depth todo visited).1 new := by
  fun_induction preorder children inner maxDepth depth todo visited with
  | case1 => exact ⟨[], rfl, by constructor <;> simp⟩
  | case2 depth visited x todo hin below rest hbelow hrest =>
    obtain ⟨newBelow, heqBelow, hb⟩ := hbelow
    obtain ⟨newRest, heqRest, hr⟩ := hrest
    refine ⟨newRest ++ newBelow ++ [(x, depth + 1)], ?_, Preordered.enter hin hb (by rw [← heqBelow]; exact hr)⟩
    change rest.2 = _
    rw [heqRest, heqBelow]
    simp
  | case3 depth visited x todo hout rest hrest =>
    obtain ⟨new, heq, h⟩ := hrest
    exact ⟨new, heq, h.pass hout⟩

/-! ### From a root -/

variable (children inner maxDepth) in
/-- The walk from a root, which is gone into in any case. -/
def preorderFrom [DecidableEq α] (root : α) : List α × List (α × ℕ) :=
  preorder children inner maxDepth 1 (children root) [(root, 1)]

variable {root : α}

/-- The walk from a root: each node is gone into once, and its list is met once; from a list that is not at the last level the
    walk goes into every inner node, if it was not there yet. -/
structure Toured (children : α → List α) (inner : α → Bool) (maxDepth : ℕ) (root : α) (out : List α)
    (entered : List (α × ℕ)) : Prop where
  nodup : (entered.map Prod.fst).Nodup
  perm : out.Perm (entered.flatMap fun e => children e.1)
  start : (root, 1) ∈ entered
  gone : ∀ e ∈ entered, (e.1 = root ∨ inner e.1) ∧ e.2 ≤ maxDepth
  closed : ∀ e ∈ entered, ∀ y ∈ children e.1, inner y → y ∈ entered.map Prod.fst ∨ e.2 = maxDepth
  parent : ∀ e ∈ entered, e = (root, 1) ∨ ∃ p ∈ entered, e.1 ∈ children p.1 ∧ inner e.1 ∧ e.2 = p.2 + 1

theorem toured [DecidableEq α] (hmax : 1 ≤ maxDepth) : Toured children inner maxDepth root (preorderFrom children inner maxDepth root).1
    (preorderFrom children inner maxDepth root).2 := by
  obtain ⟨new, heq, h⟩ : ∃ new, (preorder children inner maxDepth 1 (children root) [(root, 1)]).2 = new ++ [(root, 1)] ∧ _ :=
    preorder_spec ..
  have hstart : (root, 1) ∈ new ++ [(root, 1)] := List.mem_append_right _ (List.mem_singleton_self _)
  unfold preorderFrom
  rw [heq]
  constructor
  · rw [List.map_append]
    refine List.Nodup.append h.nodup (List.nodup_singleton root) fun y hy hyr => ?_
    obtain ⟨e, he, rfl⟩ := List.mem_map.mp hy
    exact h.fresh e he hyr
  · rw [List.flatMap_append]
    refine h.perm.trans (List.perm_append_comm.trans ?_)
    simp
  · exact hstart
  · intro e he
    rcases List.mem_append.mp he with he | he
    · exact ⟨.inr (h.gone e he).1, (h.gone e he).2⟩
    · cases List.mem_singleton.mp he
      exact ⟨.inl rfl, hmax⟩
  · intro e he y hy hyi
    rcases List.mem_append.mp he with he | he
    · exact (h.closed e he y hy hyi).imp_right fun hle => Nat.le_antisymm (h.gone e he).2 hle
    · cases List.mem_singleton.mp he
      exact (h.listed y hy hyi).imp_right fun hle => Nat.le_antisymm hmax hle
  · intro e he
    rcases List.mem_append.mp he with he | he
    · right
      obtain ⟨hmem, hdepth⟩ | ⟨p, hp, hmem, hdepth⟩ := h.parent e he
      · exact ⟨_, hstart, hmem, (h.gone e he).1, hdepth⟩
      · exact ⟨p, List.mem_append_left _ hp, hmem, (h.gone e he).1, hdepth⟩
    · exact .inl (List.mem_singleton.mp he)

namespace Toured
variable {entered : List (α × ℕ)} (h : Toured children inner maxDepth root out entered)
include h

theorem level {e : α × ℕ} (he : e ∈ entered) : Level children inner root e.1 e.2 := by
  obtain ⟨y, d⟩ := e
  induction d generalizing y with
  | zero =>
    obtain heq | ⟨p, -, -, -, hd⟩ := h.parent _ he
    · cases heq
    · cases hd
  | succ d ih =>
    obtain heq | ⟨⟨x, c⟩, hp, hmem, hi, hd⟩ := h.parent _ he
    · cases heq
      exact .root
    · cases hd
      exact .child (ih x hp) hmem hi

/-- A node is gone into at one level. -/
theorem depth_unique {x : α} {d d' : ℕ} (hd : (x, d) ∈ entered) (hd' : (x, d') ∈ entered) : d = d' :=
  congrArg Prod.snd (List.inj_on_of_nodup_map h.nodup hd hd' rfl)

/-- The walk goes into just those nodes that can be reached past no node that it went into at the last level. -/
theorem mem_iff (y : α) : y ∈ entered.map Prod.fst ↔
    Relation.ReflTransGen (fun x y => (x, maxDepth) ∉ entered ∧ y ∈ children x ∧ inner y) root y := by
  refine ⟨fun hy => ?_, fun hy => ?_⟩
  · obtain ⟨⟨y, d⟩, he, rfl⟩ := List.mem_map.mp hy
    clear hy
    induction d generalizing y with
    | zero =>
      obtain heq | ⟨p, -, -, -, hd⟩ := h.parent _ he
      · cases heq
      · cases hd
    | succ d ih =>
      obtain heq | ⟨⟨x, c⟩, hp, hmem, hi, hd⟩ := h.parent _ he
      · cases heq
        exact .refl
      · cases hd
        refine (ih x hp).tail ⟨fun hlast => ?_, hmem, hi⟩
        have hle := (h.gone _ he).2
        rw [← h.depth_unique hp hlast] at hle
        exact Nat.not_succ_le_self _ hle
  · induction hy with
    | refl => exact List.mem_map.mpr ⟨_, h.start, rfl⟩
    | tail _ hxy ih =>
      obtain ⟨⟨x, d⟩, he, rfl⟩ := List.mem_map.mp ih
      refine (h.closed _ he _ hxy.2.1 hxy.2.2).resolve_right fun hlast => hxy.1 ?_
      rw [← hlast]
      exact he

/-- Where all ways to a node are as long as each other, everything is gone into down to the last level. -/
theorem mem_of_level (hlevel : ∀ x d d', Level children inner root x d → Level children inner root x d' → d = d') {y : α}
    {d : ℕ} (hy : Level children inner root y d) (hd : d ≤ maxDepth) : (y, d) ∈ entered := by
  have hmem : y ∈ entered.map Prod.fst := by
    induction hy with
    | root => exact List.mem_map.mpr ⟨_, h.start, rfl⟩
    | @child x y d hx hy hyi ih =>
      obtain ⟨⟨x, c⟩, he, rfl⟩ := List.mem_map.mp (ih (by omega))
      refine (h.closed _ he y hy hyi).resolve_right fun hlast => ?_
      have heq := hlevel _ _ _ (h.level he) hx
      dsimp only at hlast heq
      omega
  obtain ⟨⟨y, c⟩, he, rfl⟩ := List.mem_map.mp hmem
  rwa [← hlevel _ _ _ (h.level he) hy]

end Toured

/-! ### Trees -/

/-- From the root each node is in one place at most. -/
structure TreeFrom (children : α → List α) (inner : α → Bool) (root : α) : Prop where
  nodup : ∀ x d, Level children inner root x d → (children x).Nodup
  disjoint : ∀ x d x' d' y, Level children inner root x d → Level children inner root x' d' → y ∈ children x →
    y ∈ children x' → x = x'
  top : ∀ x d, Level children inner root x d → root ∉ children x

theorem TreeFrom.level_unique (h : TreeFrom children inner root) (x : α) (d d' : ℕ) (hx : Level children inner root x d)
    (hx' : Level children inner root x d') : d = d' := by
  induction hx generalizing d' with
  | root =>
    cases hx' with
    | root => rfl
    | child hp hroot _ => exact absurd hroot (h.top _ _ hp)
  | @child p x d hp hx _ ih =>
    cases hx' with
    | root => exact absurd hx (h.top _ _ hp)
    | child hp' hx' _ =>
      cases h.disjoint _ _ _ _ _ hp hp' hx hx'
      rw [ih _ hp']

/-- In a tree that is no deeper than the walk goes, every node under the root is met once. -/
theorem Toured.tree {entered : List (α × ℕ)} (h : Toured children inner maxDepth root out entered)
    (ht : TreeFrom children inner root) (hdeep : ∀ x d, Level children inner root x d → d ≤ maxDepth) :
    out.Nodup ∧ ∀ y, y ∈ out ↔ ∃ x d, Level children inner root x d ∧ y ∈ children x := by
  refine ⟨h.perm.nodup_iff.mpr (List.nodup_flatMap.mpr ⟨fun e he => ht.nodup _ _ (h.level he), ?_⟩), fun y => ?_⟩
  · refine (List.pairwise_map.mp h.nodup).imp_of_mem fun {e e'} he he' hne => ?_
    exact fun y hy hy' => hne (ht.disjoint _ _ _ _ _ (h.level he) (h.level he') hy hy')
  · rw [h.perm.mem_iff, List.mem_flatMap]
    refine ⟨fun ⟨e, he, hy⟩ => ⟨e.1, e.2, h.level he, hy⟩, fun ⟨x, d, hx, hy⟩ => ?_⟩
    exact ⟨_, h.mem_of_level ht.level_unique hx (hdeep x d hx), hy⟩

end Lib
