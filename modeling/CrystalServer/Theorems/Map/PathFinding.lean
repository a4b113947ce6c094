import CrystalServer.Map.PathFinding
import Mathlib.Data.Prod.Lex
import Mathlib.Algebra.Order.BigOperators.Group.Finset

/-! # Paths

A search ends, and the path that it gives leads over free squares to one that the condition accepted. -/

/-! ## The nodes of a path search

The parents of the nodes form a tree under the start: costs grow strictly from a parent to its node, also after a cheaper way
is found and where the parent became cheaper itself. A round makes nodes, makes nodes cheaper, or only closes one, so the
search ends. -/

namespace CrystalServer
namespace AStarNodes
variable {s t : AStarNodes} {n i parent : Nat} {x y : UInt16} {f heuristic extraCost : Int}

@[simp] theorem closeNode_nodes : (s.closeNode n).nodes = s.nodes := rfl

@[simp] theorem closeNode_curNode : (s.closeNode n).curNode = s.curNode := rfl

@[simp] theorem openNode_nodes : (s.openNode n).nodes = s.nodes := rfl

@[simp] theorem openNode_curNode : (s.openNode n).curNode = s.curNode := rfl

@[simp] theorem setParent_curNode : (s.setParent i parent f).curNode = s.curNode := rfl

@[simp] theorem setParent_openNodes : (s.setParent i parent f).openNodes = s.openNodes := rfl

theorem getNodeByPosition_some (h : s.getNodeByPosition x y = some i) :
    i < s.curNode ∧ (s.nodes i).x = x ∧ (s.nodes i).y = y := by
  have hxy := List.find?_some h
  exact ⟨List.mem_range.mp (List.mem_of_find?_eq_some h), by simpa using hxy⟩

/-- What a new node is. -/
theorem createOpenNode_some (h : s.createOpenNode parent x y f heuristic extraCost = some t) :
    s.curNode < MAX_NODES ∧ t.curNode = s.curNode + 1 ∧
      t.nodes = Function.update s.nodes s.curNode ⟨some parent, f, heuristic, extraCost, x, y⟩ ∧
      t.openNodes = Function.update s.openNodes s.curNode true := by
  unfold createOpenNode at h
  split at h
  · exact absurd h (by simp)
  · obtain rfl := Option.some.inj h
    exact ⟨by omega, rfl, rfl, rfl⟩

/-- The nodes stay where they are and get no dearer; one that opens gets cheaper. -/
structure Grows (s t : AStarNodes) : Prop where
  curNode : s.curNode ≤ t.curNode
  square : ∀ i < s.curNode, (t.nodes i).x = (s.nodes i).x ∧ (t.nodes i).y = (s.nodes i).y
  f : ∀ i < s.curNode, (t.nodes i).f ≤ (s.nodes i).f
  opens : ∀ i < s.curNode, t.openNodes i → s.openNodes i ∨ (t.nodes i).f < (s.nodes i).f

theorem Grows.refl (s : AStarNodes) : s.Grows s :=
  ⟨Nat.le_refl _, fun _ _ => ⟨rfl, rfl⟩, fun _ _ => Int.le_refl _, fun _ _ => .inl⟩

theorem Grows.trans {u : AStarNodes} (h : s.Grows t) (h' : t.Grows u) : s.Grows u where
  curNode := h.curNode.trans h'.curNode
  square i hi := by
    obtain ⟨hx, hy⟩ := h'.square i (hi.trans_le h.curNode)
    rw [hx, hy]
    exact h.square i hi
  f i hi := (h'.f i (hi.trans_le h.curNode)).trans (h.f i hi)
  opens i hi ho := by
    have hle := h.f i hi
    have hle' := h'.f i (hi.trans_le h.curNode)
    rcases h'.opens i (hi.trans_le h.curNode) ho with ho | hlt
    · rcases h.opens i hi ho with ho | hlt
      · exact .inl ho
      · exact .inr (hle'.trans_lt hlt)
    · exact .inr (hlt.trans_le hle)

theorem grows_closeNode (s : AStarNodes) (n : Nat) : s.Grows (s.closeNode n) where
  curNode := Nat.le_refl _
  square _ _ := ⟨rfl, rfl⟩
  f _ _ := Int.le_refl _
  opens i _ ho := by
    refine .inl ?_
    by_cases hin : i = n
    · subst hin
      simp [closeNode] at ho
    · simpa [closeNode, Function.update_of_ne hin] using ho

theorem grows_createOpenNode (h : s.createOpenNode parent x y f heuristic extraCost = some t) : s.Grows t := by
  obtain ⟨-, hcur, hnodes, hopen⟩ := createOpenNode_some h
  have hsame : ∀ i < s.curNode, t.nodes i = s.nodes i := fun i hi => by
    rw [hnodes, Function.update_of_ne (Nat.ne_of_lt hi)]
  refine ⟨by omega, fun i hi => ?_, fun i hi => ?_, fun i hi ho => .inl ?_⟩
  · rw [hsame i hi]
    exact ⟨rfl, rfl⟩
  · rw [hsame i hi]
  · rwa [hopen, Function.update_of_ne (Nat.ne_of_lt hi)] at ho

/-- The nodes after a cheaper way to node `n`. -/
theorem setParent_of_ne (h : i ≠ n) : (s.setParent n parent f).nodes i = s.nodes i :=
  Function.update_of_ne h ..

theorem setParent_self : (s.setParent n parent f).nodes n = { s.nodes n with f := f, parent := some parent } :=
  Function.update_self ..

theorem grows_setParent (h : f < (s.nodes n).f) : s.Grows ((s.setParent n parent f).openNode n) where
  curNode := Nat.le_refl _
  square i _ := by
    by_cases hin : i = n
    · subst hin
      simp [setParent_self]
    · simp [setParent_of_ne hin]
  f i _ := by
    by_cases hin : i = n
    · subst hin
      simpa [setParent_self] using h.le
    · simp [setParent_of_ne hin]
  opens i _ ho := by
    by_cases hin : i = n
    · subst hin
      exact .inr (by simpa [setParent_self] using h)
    · exact .inl (by simpa [openNode, Function.update_of_ne hin] using ho)

end AStarNodes

namespace PathFinding

theorem mem_allNeighbors_of_dir (d : Direction) : ∀ offset ∈ dirNeighbors d, offset ∈ allNeighbors := by
  cases d <;> decide

theorem neighbors_subset {nodes : AStarNodes} {node : AStarNode} {offset : Int × Int} (h : offset ∈ neighbors nodes node) :
    offset ∈ allNeighbors := by
  unfold neighbors at h
  split at h
  · exact h
  · exact mem_allNeighbors_of_dir _ offset h

/-- A neighbour is one square away on one axis or on both. -/
theorem offset_cases {offset : Int × Int} (h : offset ∈ allNeighbors) :
    (offset.1 = -1 ∨ offset.1 = 0 ∨ offset.1 = 1) ∧ (offset.2 = -1 ∨ offset.2 = 0 ∨ offset.2 = 1) ∧
      (offset.1 ≠ 0 ∨ offset.2 ≠ 0) := by
  revert offset
  decide

end PathFinding

namespace PathSearch
open AStarNodes PathFinding
variable {T : Type} {q : PathSearch T} {s t : AStarNodes} {n i : Nat} {node : AStarNode} {offset : Int × Int}

theorem toNat_ofInt (a : Int) : ((UInt16.ofInt a).toNat : Int) = a % 65536 := by
  unfold UInt16.ofInt
  rw [UInt16.toNat_ofNat']
  omega

/-- A step costs something, also where the coordinates wrap around. -/
theorem mapWalkCost_pos (h : offset ∈ allNeighbors) : 0 < getMapWalkCost node (q.neighborPos node offset) := by
  obtain ⟨hx, hy, hne⟩ := offset_cases h
  have hX := toNat_ofInt (node.x.toNat + offset.1)
  have hY := toNat_ofInt (node.y.toNat + offset.2)
  have hltX := node.x.toNat_lt
  have hltY := node.y.toNat_lt
  simp only [getMapWalkCost, neighborPos, MAP_DIAGONALWALKCOST, MAP_NORMALWALKCOST]
  omega

theorem tileWalkCost_nonneg (creature : Walker T) (tile : Option T) : 0 ≤ getTileWalkCost creature tile := by
  unfold getTileWalkCost MAP_NORMALWALKCOST
  rcases tile with - | tile
  · exact Int.le_refl _
  · dsimp only
    split <;> split_ifs <;> omega

/-- Where a node lies. -/
def square (q : PathSearch T) (node : AStarNode) : Position := ⟨node.x, node.y, q.creature.position.z⟩

theorem neighborPos_congr {node' : AStarNode} (h : q.square node = q.square node') :
    q.neighborPos node offset = q.neighborPos node' offset := by
  obtain ⟨hx, hy, -⟩ := Position.mk.injEq .. ▸ h
  simp only [neighborPos, hx, hy]

@[simp] theorem test_nodes (s : State) (n : Nat) : (q.test s n).2.nodes = s.nodes := by
  unfold test
  dsimp only
  split <;> rfl

variable [DecidableEq T]

/-- A square that the search may enter. -/
def Enters (q : PathSearch T) (pos : Position) : Prop := (q.canWalkTo pos).isSome ∧ ¬q.leaves pos

/-- The parents form a tree of neighbours under the start, and costs grow along it. -/
structure Tree (q : PathSearch T) (s : AStarNodes) : Prop where
  origin : (s.nodes 0).parent = none ∧ (s.nodes 0).f = 0 ∧ q.square (s.nodes 0) = q.creature.position
  pos : 0 < s.curNode
  le : s.curNode ≤ MAX_NODES
  cost : ∀ i < s.curNode, 0 ≤ (s.nodes i).f ∧ 0 ≤ (s.nodes i).c
  parent : ∀ i < s.curNode, 0 < i → ∃ p < s.curNode, (s.nodes i).parent = some p ∧ (s.nodes p).f < (s.nodes i).f ∧
    ∃ offset ∈ allNeighbors, q.square (s.nodes i) = q.neighborPos (s.nodes p) offset
  enters : ∀ i < s.curNode, 0 < i → q.Enters (q.square (s.nodes i))
  opened : ∀ i, s.openNodes i → i < s.curNode

/-- What a round of the `for` does. -/
theorem visit_cases (h : q.visit n node s offset = some t) :
    t = s ∨
    (∃ i < s.curNode, q.square (s.nodes i) = q.neighborPos node offset ∧
      ∃ f, f = node.f + getMapWalkCost node (q.neighborPos node offset) + (s.nodes i).c ∧ f < (s.nodes i).f ∧
        t = (s.setParent i n f).openNode i) ∨
    (q.Enters (q.neighborPos node offset) ∧
      ∃ extraCost heuristic, 0 ≤ extraCost ∧
        s.createOpenNode n (q.neighborPos node offset).x (q.neighborPos node offset).y
          (node.f + getMapWalkCost node (q.neighborPos node offset) + extraCost) heuristic extraCost = some t) := by
  unfold visit at h
  dsimp only at h
  split_ifs at h with hleaves hrange
  · exact .inl (Option.some.inj h).symm
  · exact .inl (Option.some.inj h).symm
  split at h
  next i hi =>
    obtain ⟨hlt, hx, hy⟩ := getNodeByPosition_some hi
    split_ifs at h with hle
    · exact .inl (Option.some.inj h).symm
    · refine .inr (.inl ⟨i, hlt, ?_, _, rfl, not_le.mp hle, (Option.some.inj h).symm⟩)
      rw [square, hx, hy]
      rfl
  next =>
    split at h
    next => exact .inl (Option.some.inj h).symm
    next tile htile =>
      have hsome : (q.canWalkTo (q.neighborPos node offset)).isSome := Option.isSome_of_eq_some htile
      exact .inr (.inr ⟨⟨hsome, hleaves⟩, _, _, tileWalkCost_nonneg _ _, h⟩)

theorem tree_start : q.Tree q.start.nodes where
  origin := ⟨rfl, rfl, rfl⟩
  pos := Nat.one_pos
  le := (by decide : 1 ≤ MAX_NODES)
  cost i hi := by
    obtain rfl : i = 0 := Nat.lt_one_iff.mp hi
    exact ⟨Int.le_refl _, tileWalkCost_nonneg ..⟩
  parent i hi h0 := absurd hi (by simpa [start, AStarNodes.start] using h0.ne')
  enters i hi h0 := absurd hi (by simpa [start, AStarNodes.start] using h0.ne')
  opened i hi := by
    have h0 : i = 0 := by simpa [start, AStarNodes.start] using hi
    rw [h0]
    exact Nat.one_pos

theorem Tree.closeNode (ht : q.Tree s) (n : Nat) : q.Tree (s.closeNode n) where
  origin := ht.origin
  pos := ht.pos
  le := ht.le
  cost := ht.cost
  parent := ht.parent
  enters := ht.enters
  opened i hi := by
    by_cases hin : i = n
    · subst hin
      simp [AStarNodes.closeNode] at hi
    · exact ht.opened i (by simpa [AStarNodes.closeNode, Function.update_of_ne hin] using hi)

/-- A new node under node `n`, which is as cheap as `node` or cheaper. -/
theorem Tree.createOpenNode {f heuristic extraCost : Int} (ht : q.Tree s) (hn : n < s.curNode)
    (hsquare : q.square (s.nodes n) = q.square node) (hle : (s.nodes n).f ≤ node.f) (hlt : node.f < f)
    (hextra : 0 ≤ extraCost) (hoffset : offset ∈ allNeighbors) (henters : q.Enters (q.neighborPos node offset))
    (h : s.createOpenNode n (q.neighborPos node offset).x (q.neighborPos node offset).y f heuristic extraCost = some t) :
    q.Tree t := by
  obtain ⟨hmax, hcur, hnodes, hopen⟩ := createOpenNode_some h
  have hold : ∀ i < s.curNode, t.nodes i = s.nodes i := fun i hi => by
    rw [hnodes, Function.update_of_ne (Nat.ne_of_lt hi)]
  have hnew : t.nodes s.curNode =
      ⟨some n, f, heuristic, extraCost, (q.neighborPos node offset).x, (q.neighborPos node offset).y⟩ := by
    rw [hnodes, Function.update_self]
  have hcases : ∀ i < t.curNode, i < s.curNode ∨ i = s.curNode := fun i hi => by omega
  refine ⟨?_, by omega, by omega, fun i hi => ?_, fun i hi h0 => ?_, fun i hi h0 => ?_, fun i hi => ?_⟩
  · rw [hold 0 ht.pos]
    exact ht.origin
  · rcases hcases i hi with hi | rfl
    · rw [hold i hi]
      exact ht.cost i hi
    · rw [hnew]
      exact ⟨((ht.cost n hn).1.trans hle).trans hlt.le, hextra⟩
  · rcases hcases i hi with hi | rfl
    · obtain ⟨p, hp, hparent, hf, hsq⟩ := ht.parent i hi h0
      refine ⟨p, by omega, ?_⟩
      rw [hold i hi, hold p hp]
      exact ⟨hparent, hf, hsq⟩
    · refine ⟨n, by omega, ?_⟩
      rw [hnew, hold n hn]
      exact ⟨rfl, hle.trans_lt hlt, offset, hoffset, (neighborPos_congr hsquare).symm⟩
  · rcases hcases i hi with hi | rfl
    · rw [hold i hi]
      exact ht.enters i hi h0
    · rw [hnew]
      exact henters
  · rw [hopen] at hi
    by_cases his : i = s.curNode
    · omega
    · rw [Function.update_of_ne his] at hi
      have := ht.opened i hi
      omega

/-- A cheaper way to node `i`, under node `n`. The nodes under `i` stay dearer than it. -/
theorem Tree.setParent {f : Int} (ht : q.Tree s) (hn : n < s.curNode) (hi : i < s.curNode)
    (hsquare : q.square (s.nodes n) = q.square node) (hle : (s.nodes n).f ≤ node.f) (hlt : node.f < f)
    (hcheaper : f < (s.nodes i).f) (hoffset : offset ∈ allNeighbors)
    (hpos : q.square (s.nodes i) = q.neighborPos node offset) : q.Tree ((s.setParent i n f).openNode i) := by
  have hni : n ≠ i := by
    rintro rfl
    omega
  have hf0 : 0 ≤ f := ((ht.cost n hn).1.trans hle).trans hlt.le
  have h0i : 0 ≠ i := by
    rintro rfl
    have := ht.origin.2.1
    omega
  refine ⟨?_, ht.pos, ht.le, fun j hj => ?_, fun j hj h0 => ?_, fun j hj h0 => ?_, fun j hj => ?_⟩
  · rw [openNode_nodes, setParent_of_ne h0i]
    exact ht.origin
  · rw [openNode_nodes]
    by_cases hji : j = i
    · subst hji
      rw [setParent_self]
      exact ⟨hf0, (ht.cost j hi).2⟩
    · rw [setParent_of_ne hji]
      exact ht.cost j hj
  · rw [openNode_nodes]
    by_cases hji : j = i
    · subst hji
      refine ⟨n, hn, ?_⟩
      rw [setParent_self, setParent_of_ne hni]
      exact ⟨rfl, hle.trans_lt hlt, offset, hoffset, hpos.trans (neighborPos_congr hsquare).symm⟩
    · obtain ⟨p, hp, hparent, hf, hsq⟩ := ht.parent j hj h0
      refine ⟨p, hp, ?_⟩
      rw [setParent_of_ne hji]
      by_cases hpi : p = i
      · subst hpi
        rw [setParent_self]
        exact ⟨hparent, hcheaper.trans hf, hsq⟩
      · rw [setParent_of_ne hpi]
        exact ⟨hparent, hf, hsq⟩
  · rw [openNode_nodes]
    by_cases hji : j = i
    · subst hji
      rw [setParent_self]
      exact ht.enters j hi h0
    · rw [setParent_of_ne hji]
      exact ht.enters j hj h0
  · by_cases hji : j = i
    · exact hji ▸ hi
    · exact ht.opened j (by simpa [AStarNodes.openNode, Function.update_of_ne hji] using hj)

/-- What a round of the `for` keeps. -/
theorem Tree.visit (ht : q.Tree s) (hn : n < s.curNode) (hsquare : q.square (s.nodes n) = q.square node)
    (hle : (s.nodes n).f ≤ node.f) (hoffset : offset ∈ allNeighbors) (h : q.visit n node s offset = some t) :
    q.Tree t ∧ s.Grows t := by
  have hstep : 0 < getMapWalkCost node (q.neighborPos node offset) := mapWalkCost_pos hoffset
  rcases visit_cases h with rfl | ⟨i, hi, hpos, f, hf, hcheaper, rfl⟩ | ⟨henters, extraCost, heuristic, hextra, hcreate⟩
  · exact ⟨ht, .refl t⟩
  · have hc := (ht.cost i hi).2
    exact ⟨ht.setParent hn hi hsquare hle (by omega) hcheaper hoffset hpos, grows_setParent hcheaper⟩
  · exact ⟨ht.createOpenNode hn hsquare hle (by omega) hextra hoffset henters hcreate, grows_createOpenNode hcreate⟩

/-- What the `for` keeps. -/
theorem Tree.expand {offsets : List (Int × Int)} (ht : q.Tree s) (hn : n < s.curNode)
    (hsquare : q.square (s.nodes n) = q.square node) (hle : (s.nodes n).f ≤ node.f)
    (hoffsets : ∀ offset ∈ offsets, offset ∈ allNeighbors) :
    q.Tree (q.expand n node offsets s).1 ∧ s.Grows (q.expand n node offsets s).1 := by
  induction offsets generalizing s with
  | nil => exact ⟨ht, .refl s⟩
  | cons offset offsets ih =>
    unfold PathSearch.expand
    split
    next => exact ⟨ht, .refl s⟩
    next t h =>
      obtain ⟨ht', hgrows⟩ := ht.visit hn hsquare hle (hoffsets offset List.mem_cons_self) h
      obtain ⟨hx, hy⟩ := hgrows.square n hn
      have hsquare' : q.square (t.nodes n) = q.square node := by
        rw [← hsquare, square, hx, hy]
        rfl
      obtain ⟨ht'', hgrows'⟩ := ih ht' (hn.trans_le hgrows.curNode) hsquare' ((hgrows.f n hn).trans hle)
        fun offset ho => hoffsets offset (List.mem_cons_of_mem _ ho)
      exact ⟨ht'', hgrows.trans hgrows'⟩

/-! ### Rounds -/

section
variable {s t : State}

/-- A state after a whole round at node `n`. -/
def after (q : PathSearch T) (s : State) (n : Nat) : State :=
  { (q.test s n).2 with
    nodes := (q.expand n (s.nodes.nodes n) (neighbors s.nodes (s.nodes.nodes n)) s.nodes).1.closeNode n }

/-- How a round ends. -/
theorem round_cases (q : PathSearch T) (s : State) :
    (q.best.get s.nodes = none ∧ q.round s = .inr (s.found.map fun _ => s)) ∨
      ∃ n, q.best.get s.nodes = some n ∧
        ((q.round s = .inr (some (q.test s n).2)) ∨ q.round s = .inr none ∨
          q.round s = .inl (q.after s n) ∨ q.round s = .inr (some (q.after s n))) := by
  unfold round
  split
  next h => exact .inl ⟨h, rfl⟩
  next n h =>
    refine .inr ⟨n, h, ?_⟩
    dsimp only
    rw [test_nodes]
    split_ifs
    · exact .inl rfl
    · exact .inr (.inl rfl)
    · exact .inr (.inr (.inl rfl))
    · exact .inr (.inr (.inr rfl))

theorem round_next (h : q.round s = .inl t) : ∃ n, q.best.get s.nodes = some n ∧ t = q.after s n := by
  rcases q.round_cases s with ⟨-, hr⟩ | ⟨n, hn, hr | hr | hr | hr⟩
  · exact absurd (hr.symm.trans h) (by simp)
  · exact absurd (hr.symm.trans h) (by simp)
  · exact absurd (hr.symm.trans h) (by simp)
  · exact ⟨n, hn, (Sum.inl.inj (hr.symm.trans h)).symm⟩
  · exact absurd (hr.symm.trans h) (by simp)

theorem Tree.best (ht : q.Tree s.nodes) (h : q.best.get s.nodes = some n) : n < s.nodes.curNode :=
  ht.opened n (q.best.isOpen _ _ h)

theorem Tree.after (ht : q.Tree s.nodes) (hn : n < s.nodes.curNode) :
    q.Tree (q.after s n).nodes ∧ s.nodes.Grows (q.after s n).nodes := by
  obtain ⟨ht', hgrows⟩ := ht.expand hn rfl (Int.le_refl _) fun offset => neighbors_subset
  exact ⟨ht'.closeNode n, hgrows.trans (grows_closeNode _ n)⟩

theorem tree_round (s t : State) (ht : q.Tree s.nodes) (h : q.round s = .inl t) : q.Tree t.nodes := by
  obtain ⟨n, hn, rfl⟩ := round_next h
  exact (ht.after (ht.best hn)).1

/-- The nodes that can still come, the costs, and the open nodes. -/
def measure (s : AStarNodes) : Nat ×ₗ Nat ×ₗ Nat :=
  toLex (MAX_NODES - s.curNode, toLex (∑ i ∈ Finset.range s.curNode, (s.nodes i).f.toNat,
    ((Finset.range s.curNode).filter fun i => s.openNodes i).card))

/-- Nodes that grow and close one get closer to the end. -/
theorem measure_lt {s t : AStarNodes} (hs : q.Tree s) (ht : q.Tree t) (hgrows : s.Grows t) (hn : s.openNodes n)
    (hclosed : ¬t.openNodes n) : measure t < measure s := by
  have hle := ht.le
  have hcur := hgrows.curNode
  rcases Nat.lt_or_eq_of_le hcur with hlt | heq
  · exact Prod.Lex.toLex_lt_toLex.mpr (.inl (by dsimp only; omega))
  refine Prod.Lex.toLex_lt_toLex.mpr (.inr ⟨by dsimp only; omega, Prod.Lex.toLex_lt_toLex.mpr ?_⟩)
  dsimp only
  rw [← heq]
  have hcosts : ∀ i ∈ Finset.range s.curNode, (t.nodes i).f.toNat ≤ (s.nodes i).f.toNat := fun i hi =>
    Int.toNat_le_toNat (hgrows.f i (Finset.mem_range.mp hi))
  rcases Nat.lt_or_eq_of_le (Finset.sum_le_sum hcosts) with hlt | hsum
  · exact .inl hlt
  refine .inr ⟨hsum, Finset.card_lt_card (Finset.ssubset_iff_of_subset (fun i hi => ?_) |>.mpr ⟨n, ?_, ?_⟩)⟩
  -- no node got cheaper, so none opened
  · obtain ⟨hr, ho⟩ := Finset.mem_filter.mp hi
    have hlt := Finset.mem_range.mp hr
    refine Finset.mem_filter.mpr ⟨hr, ?_⟩
    rcases hgrows.opens i hlt ho with ho | hf
    · exact ho
    · have hsame := (Finset.sum_eq_sum_iff_of_le hcosts).mp hsum i hr
      have h0 := (ht.cost i (hlt.trans_le hcur)).1
      omega
  · exact Finset.mem_filter.mpr ⟨Finset.mem_range.mpr (hs.opened n hn), hn⟩
  · exact fun h => hclosed (Finset.mem_filter.mp h).2

theorem measure_round (s t : State) (hs : q.Tree s.nodes) (h : q.round s = .inl t) :
    measure t.nodes < measure s.nodes := by
  obtain ⟨n, hn, rfl⟩ := round_next h
  obtain ⟨ht, hgrows⟩ := hs.after (hs.best hn)
  exact measure_lt hs ht hgrows (q.best.isOpen _ _ hn) (by simp [PathSearch.after, AStarNodes.closeNode])

/-- The rounds come to an end. -/
theorem rounds_leave (q : PathSearch T) : ∃ n r, Lib.loop q.round n q.start = some r :=
  Lib.loop_leaves _ wellFounded_lt (fun s : State => measure s.nodes) tree_round measure_round tree_start

end

end PathSearch
end CrystalServer

/-! ## The path

The way back over the parents from the node that the condition accepted. -/

namespace CrystalServer

namespace AStarNodes
variable {s : AStarNodes} {i : Nat}

theorem isOpen_of_getBestNode (h : s.getBestNode = some i) : s.openNodes i := by
  refine List.foldlRecOn (motive := fun best : Option Nat × Int => ∀ i, best.1 = some i → s.openNodes i)
    (List.range s.curNode) _ (by simp) (fun best hbest pos _ i hi => ?_) i h
  split at hi
  next hpos =>
    obtain rfl := Option.some.inj hi
    exact (Bool.and_eq_true_iff.mp hpos).1
  next => exact hbest i hi

theorem isOpen_of_getBestNodeOfLanes {lanes : Nat} (h : s.getBestNodeOfLanes lanes = some i) : s.openNodes i := by
  unfold getBestNodeOfLanes at h
  dsimp only at h
  split at h
  next hopen => exact Option.some.inj h ▸ hopen
  next => exact absurd h (by simp)

end AStarNodes

namespace BestNode

def scalar : BestNode := ⟨AStarNodes.getBestNode, fun _ _ => AStarNodes.isOpen_of_getBestNode⟩

def lanes (count : Nat) : BestNode := ⟨(AStarNodes.getBestNodeOfLanes · count), fun _ _ => AStarNodes.isOpen_of_getBestNodeOfLanes⟩

end BestNode

/-- A step to a square next to this one. -/
def Position.Next (p p' : Position) : Prop := p' ≠ p ∧ p.areInRange 1 1 p' ∧ p'.z = p.z

/-- At least one square away from the ends of the coordinates. -/
def Position.Inland (p : Position) : Prop := 0 < p.x ∧ p.x < 65535 ∧ 0 < p.y ∧ p.y < 65535

/-- To follow directions, one square after the other over squares that `enters` allows. -/
inductive Walks (enters : Position → Prop) : Position → List Direction → Position → Prop
  | here (p : Position) : Walks enters p [] p
  | step {p goal : Position} {direction : Direction} {path : List Direction} (next : p.Next (getNextPosition direction p))
      (enter : enters (getNextPosition direction p)) (rest : Walks enters (getNextPosition direction p) path goal) :
      Walks enters p (direction :: path) goal

theorem Walks.snoc {enters : Position → Prop} {p goal : Position} {path : List Direction} {direction : Direction}
    (h : Walks enters p path goal) (hnext : goal.Next (getNextPosition direction goal))
    (henter : enters (getNextPosition direction goal)) :
    Walks enters p (path ++ [direction]) (getNextPosition direction goal) := by
  induction h with
  | here p => exact .step hnext henter (.here _)
  | step hn he _ ih => exact .step hn he (ih hnext henter)

namespace PathSearch
open AStarNodes PathFinding
variable {T : Type} {q : PathSearch T} {s t : AStarNodes} {n i : Nat} {node : AStarNode} {offset : Int × Int}

theorem ofInt_same (x : UInt16) : UInt16.ofInt (x.toNat + 0) = x := by
  rw [← UInt16.toNat_inj, ← Int.natCast_inj, toNat_ofInt]
  have := x.toNat_lt
  omega

theorem ofInt_add_one (x : UInt16) : UInt16.ofInt (x.toNat + 1) = x + 1 := by
  rw [← UInt16.toNat_inj, ← Int.natCast_inj, toNat_ofInt, UInt16.toNat_add]
  rfl

theorem ofInt_sub_one (x : UInt16) : UInt16.ofInt (x.toNat + -1) = x - 1 := by
  rw [← UInt16.toNat_inj, ← Int.natCast_inj, toNat_ofInt, UInt16.toNat_sub]
  have hone : (1 : UInt16).toNat = 1 := rfl
  have := x.toNat_lt
  rw [hone]
  omega

/-- Inland, the coordinates of a neighbour do not wrap around. -/
theorem neighborPos_toNat (hoffset : offset ∈ allNeighbors) (hinland : (q.square node).Inland) :
    ((q.neighborPos node offset).x.toNat : Int) = node.x.toNat + offset.1 ∧
      ((q.neighborPos node offset).y.toNat : Int) = node.y.toNat + offset.2 := by
  obtain ⟨hx, hy, -⟩ := offset_cases hoffset
  obtain ⟨hx0, hx1, hy0, hy1⟩ := hinland
  rw [UInt16.lt_iff_toNat_lt] at hx0 hx1 hy0 hy1
  change 0 < node.x.toNat at hx0
  change node.x.toNat < 65535 at hx1
  change 0 < node.y.toNat at hy0
  change node.y.toNat < 65535 at hy1
  simp only [neighborPos, toNat_ofInt]
  omega

theorem next_neighborPos (hoffset : offset ∈ allNeighbors) (hinland : (q.square node).Inland) :
    (q.square node).Next (q.neighborPos node offset) := by
  obtain ⟨hx, hy, hne⟩ := offset_cases hoffset
  obtain ⟨hX, hY⟩ := neighborPos_toNat hoffset hinland
  refine ⟨fun heq => ?_, ?_, rfl⟩
  · rw [heq] at hX hY
    simp only [square] at hX hY
    omega
  · simp only [Position.areInRange, Position.getDistanceX, Position.getDistanceY, Position.getOffsetX, Position.getOffsetY,
      hX, hY, decide_eq_true_eq]
    simp only [square]
    omega

/-- Inland, the direction of a step back leads forth again. -/
theorem stepDirection_forth (hoffset : offset ∈ allNeighbors) (hinland : (q.square node).Inland) :
    ∃ direction, stepDirection (node.x.toNat - (q.neighborPos node offset).x.toNat)
        (node.y.toNat - (q.neighborPos node offset).y.toNat) = some direction ∧
      getNextPosition direction (q.square node) = q.neighborPos node offset := by
  obtain ⟨hX, hY⟩ := neighborPos_toNat hoffset hinland
  rw [hX, hY, sub_add_cancel_left, sub_add_cancel_left]
  simp only [allNeighbors, List.mem_cons, List.not_mem_nil, or_false] at hoffset
  rcases hoffset with rfl | rfl | rfl | rfl | rfl | rfl | rfl | rfl <;>
    exact ⟨_, rfl, by simp only [getNextPosition, square, neighborPos, ofInt_same, ofInt_add_one, ofInt_sub_one]⟩

variable [DecidableEq T]

/-- The search stays inland. -/
structure Inland (q : PathSearch T) : Prop where
  position : q.creature.position.Inland
  canWalkTo : ∀ p, (q.canWalkTo p).isSome → p.Inland

theorem Tree.inland (ht : q.Tree s) (hq : q.Inland) (hi : i < s.curNode) : (q.square (s.nodes i)).Inland := by
  rcases Nat.eq_zero_or_pos i with rfl | h0
  · rw [ht.origin.2.2]
    exact hq.position
  · exact hq.canWalkTo _ (ht.enters i hi h0).1

@[simp] theorem walkBack_none (n : Nat) (x y : Int) : walkBack s n none x y = some [] := by
  cases n <;> rfl

/-- How many nodes are cheaper: a bound for the way back, on which costs fall. -/
def cheaper (s : AStarNodes) (f : Int) : Nat := ((Finset.range s.curNode).filter fun i => (s.nodes i).f < f).card

theorem cheaper_lt {p : Nat} {f : Int} (hp : p < s.curNode) (h : (s.nodes p).f < f) :
    cheaper s (s.nodes p).f < cheaper s f := by
  refine Finset.card_lt_card ((Finset.ssubset_iff_of_subset fun i hi => ?_).mpr ⟨p, ?_, ?_⟩)
  · obtain ⟨hr, hf⟩ := Finset.mem_filter.mp hi
    exact Finset.mem_filter.mpr ⟨hr, hf.trans h⟩
  · exact Finset.mem_filter.mpr ⟨Finset.mem_range.mpr hp, h⟩
  · exact fun hi => lt_irrefl _ (Finset.mem_filter.mp hi).2

theorem cheaper_le (s : AStarNodes) (f : Int) : cheaper s f ≤ s.curNode := by
  have := Finset.card_filter_le (Finset.range s.curNode) fun i => (s.nodes i).f < f
  rwa [Finset.card_range] at this

theorem Tree.walkBack_start (ht : q.Tree s) (n : Nat) :
    ∃ path, walkBack s n (s.nodes 0).parent (s.nodes 0).x.toNat (s.nodes 0).y.toNat = some path ∧
      (q.Inland → Walks q.Enters q.creature.position path.reverse (q.square (s.nodes 0))) := by
  obtain ⟨hparent, -, hsquare⟩ := ht.origin
  refine ⟨[], by rw [hparent, walkBack_none], fun _ => ?_⟩
  rw [hsquare]
  exact .here _

/-- The way back from a node ends, and inland its directions lead forth from the start to the node. -/
theorem Tree.walkBack (ht : q.Tree s) (hi : i < s.curNode) (hn : cheaper s (s.nodes i).f ≤ n) :
    ∃ path, PathFinding.walkBack s n (s.nodes i).parent (s.nodes i).x.toNat (s.nodes i).y.toNat = some path ∧
      (q.Inland → Walks q.Enters q.creature.position path.reverse (q.square (s.nodes i))) := by
  induction n generalizing i with
  | zero =>
    rcases Nat.eq_zero_or_pos i with rfl | h0
    · exact ht.walkBack_start _
    · obtain ⟨p, hp, -, hf, -⟩ := ht.parent i hi h0
      have := cheaper_lt hp hf
      omega
  | succ n ih =>
    rcases Nat.eq_zero_or_pos i with rfl | h0
    · exact ht.walkBack_start _
    · obtain ⟨p, hp, hparent, hf, offset, hoffset, hsquare⟩ := ht.parent i hi h0
      have := cheaper_lt hp hf
      obtain ⟨path, hpath, hwalks⟩ := ih hp (by omega)
      rw [hparent, PathFinding.walkBack, hpath]
      refine ⟨_, rfl, fun hq => ?_⟩
      have hinland := ht.inland hq hp
      obtain ⟨direction, hdirection, hnext⟩ := stepDirection_forth hoffset hinland
      have henters := ht.enters i hi h0
      have hstep := next_neighborPos hoffset hinland
      rw [← hsquare] at hdirection hnext hstep
      rw [← hnext] at hstep henters ⊢
      change stepDirection ((s.nodes p).x.toNat - (s.nodes i).x.toNat) ((s.nodes p).y.toNat - (s.nodes i).y.toNat) = _
        at hdirection
      rw [hdirection]
      change Walks _ _ (direction :: path).reverse _
      rw [List.reverse_cons]
      exact (hwalks hq).snoc hstep henters

section
variable {s t : State}

/-- The condition accepted a square in a round of the search. -/
def Accepts (q : PathSearch T) (goal : Position) : Prop :=
  ∃ s, Lib.Reaches q.round q.start s ∧ (q.pathCondition.call q.creature.position goal q.fpp s.bestMatch).1

/-- The nodes are a tree, and what was found is a node whose square was accepted. -/
structure Searched (q : PathSearch T) (s : State) : Prop where
  tree : q.Tree s.nodes
  found : ∀ i, s.found = some i → i < s.nodes.curNode ∧ s.endPos = q.square (s.nodes.nodes i) ∧ q.Accepts s.endPos

theorem searched_start : q.Searched q.start := ⟨tree_start, fun _ h => absurd h (by simp [start])⟩

theorem Searched.test (h : q.Searched s) (hs : Lib.Reaches q.round q.start s) (hn : n < s.nodes.curNode) :
    q.Searched (q.test s n).2 := by
  refine ⟨by rw [test_nodes]; exact h.tree, fun i hi => ?_⟩
  rw [test_nodes]
  unfold PathSearch.test at hi ⊢
  dsimp only at hi ⊢
  split at hi
  next hcall =>
    obtain rfl := Option.some.inj hi
    rw [if_pos hcall]
    exact ⟨hn, rfl, s, hs, hcall⟩
  next hcall =>
    rw [if_neg hcall]
    exact h.found i hi

theorem Searched.after (h : q.Searched s) (hs : Lib.Reaches q.round q.start s) (hn : n < s.nodes.curNode) :
    q.Searched (q.after s n) := by
  obtain ⟨ht, hgrows⟩ := h.tree.after hn
  refine ⟨ht, fun i hi => ?_⟩
  obtain ⟨hlt, hend, haccepts⟩ := (h.test hs hn).found i hi
  rw [test_nodes] at hlt hend
  obtain ⟨hx, hy⟩ := hgrows.square i hlt
  refine ⟨hlt.trans_le hgrows.curNode, hend.trans ?_, haccepts⟩
  rw [square, square, hx, hy]

theorem searched_of_reaches (hs : Lib.Reaches q.round q.start s) : q.Searched s := by
  induction hs with
  | refl => exact searched_start
  | tail hs hround ih =>
    obtain ⟨n, hn, rfl⟩ := round_next hround
    exact ih.after hs (ih.tree.best hn)

theorem searched_of_leave (hs : Lib.Reaches q.round q.start s) (h : q.round s = .inr (some t)) : q.Searched t := by
  have hsearched := searched_of_reaches hs
  rcases q.round_cases s with ⟨-, hr⟩ | ⟨n, hn, hr | hr | hr | hr⟩
  · obtain ⟨-, -, rfl⟩ := Option.map_eq_some_iff.mp (Sum.inr.inj (hr.symm.trans h))
    exact hsearched
  · obtain rfl := Option.some.inj (Sum.inr.inj (hr.symm.trans h))
    exact hsearched.test hs (hsearched.tree.best hn)
  · exact absurd (hr.symm.trans h) (by simp)
  · exact absurd (hr.symm.trans h) (by simp)
  · obtain rfl := Option.some.inj (Sum.inr.inj (hr.symm.trans h))
    exact hsearched.after hs (hsearched.tree.best hn)

/-- What comes after the loop, from where it leaves. -/
theorem finish_spec {dirList : List Direction} {r : Option State} (h : ∀ t, r = some t → q.Searched t) :
    finish dirList r = some (false, dirList) ∨
      ∃ path goal, finish dirList r = some (true, dirList ++ path) ∧ q.Accepts goal ∧
        (q.Inland → Walks q.Enters q.creature.position path.reverse goal) := by
  rcases r with - | t
  · exact .inl rfl
  obtain ⟨htree, hfound⟩ := h t rfl
  unfold finish
  cases hf : t.found with
  | none => exact .inl (by simp [hf])
  | some i =>
    obtain ⟨hi, hend, haccepts⟩ := hfound i hf
    obtain ⟨path, hpath, hwalks⟩ := htree.walkBack hi (cheaper_le ..)
    refine .inr ⟨path, t.endPos, ?_, haccepts, fun hq => hend ▸ hwalks hq⟩
    have hx : t.endPos.x = (t.nodes.nodes i).x := by rw [hend]; rfl
    have hy : t.endPos.y = (t.nodes.nodes i).y := by rw [hend]; rfl
    simp only [hf, hx, hy, hpath, Option.map_some]

/-- Where the search gives a path, its directions lead over free squares, within the distance of the search, to one that the
    condition accepted. Where it gives none, it leaves the list as it is. -/
theorem getPathMatchingCond_walks (hq : q.Inland) {dirList out : List Direction} {ok : Bool} {rounds : Nat}
    (h : q.getPathMatchingCond rounds dirList = some (ok, out)) :
    (ok → ∃ path goal, out = dirList ++ path ∧ q.Accepts goal ∧
      Walks (fun p => (q.canWalkTo p).isSome ∧ ¬q.leaves p) q.creature.position path.reverse goal) ∧
    (!ok → out = dirList) := by
  obtain ⟨r, hr, hfinish⟩ := Option.bind_eq_some_iff.mp h
  obtain ⟨s, hs, hround⟩ := Lib.reaches_of_loop hr
  have hsearched : ∀ t, r = some t → q.Searched t := by
    rintro t rfl
    exact searched_of_leave hs hround
  rcases finish_spec hsearched with hout | ⟨path, goal, hout, haccepts, hwalks⟩
  · obtain ⟨rfl, rfl⟩ := Prod.mk.inj (Option.some.inj (hout.symm.trans hfinish))
    exact ⟨by simp, fun _ => rfl⟩
  · obtain ⟨rfl, rfl⟩ := Prod.mk.inj (Option.some.inj (hout.symm.trans hfinish))
    exact ⟨fun _ => ⟨path, goal, rfl, haccepts, hwalks hq⟩, by simp⟩

/-! A corridor with an end to the west of a creature and a target to its east. -/

def corridor : PathSearch Position where
  getTile p := if p.y = 100 ∧ 99 ≤ p.x ∧ p.x ≤ 102 then some p else none
  creature := ⟨⟨100, 100, 7⟩, false, some ⟨100, 100, 7⟩, fun _ => .NOERROR, fun _ => none, fun _ => none, fun _ => false,
    fun _ => false, none⟩
  targetPos := ⟨102, 100, 7⟩
  pathCondition := FrozenPathingConditionCall.condition ⟨fun _ _ _ => none⟩ ⟨102, 100, 7⟩
  fpp := { maxSearchDist := 5, minTargetDist := 1, maxTargetDist := 1 }
  best := .scalar

theorem corridor_inland : corridor.Inland where
  position := ⟨by decide, by decide, by decide, by decide⟩
  canWalkTo p h := by
    have htile : (corridor.getTile p).isSome := by
      unfold PathSearch.canWalkTo at h
      revert h
      cases corridor.getTile p <;> simp [corridor]
    have hp : p.y = 100 ∧ 99 ≤ p.x ∧ p.x ≤ 102 := by
      by_contra hne
      simp [corridor, hne] at htile
    obtain ⟨hy, hx0, hx1⟩ := hp
    refine ⟨?_, ?_, ?_, ?_⟩ <;> grind

theorem getPathMatchingCond_corridor :
    ∃ path goal, [.EAST] = [] ++ path ∧ corridor.Accepts goal ∧
      Walks (fun p => (corridor.canWalkTo p).isSome ∧ ¬corridor.leaves p) ⟨100, 100, 7⟩ path.reverse goal :=
  (getPathMatchingCond_walks corridor_inland (by decide : corridor.getPathMatchingCond 3 [] = some (true, [.EAST]))).1 rfl

/-- The search ends with a result, on every map. There are never more nodes than the table holds, no cost is negative, and a
    closed node opens again only where it became cheaper. -/
theorem getPathMatchingCond_ends (q : PathSearch T) (dirList : List Direction) :
    (∃ n result, ∀ rounds, n ≤ rounds → q.getPathMatchingCond rounds dirList = some result) ∧
    ∀ s, Lib.Reaches q.round q.start s →
      s.nodes.curNode ≤ MAX_NODES ∧ (∀ i < s.nodes.curNode, 0 ≤ (s.nodes.nodes i).f) ∧
      ∀ t, q.round s = .inl t → ∀ i < s.nodes.curNode, ¬s.nodes.openNodes i → t.nodes.openNodes i →
        (t.nodes.nodes i).f < (s.nodes.nodes i).f := by
  refine ⟨?_, fun s hs => ?_⟩
  · obtain ⟨n, r, hr⟩ := q.rounds_leave
    obtain ⟨s, hs, hround⟩ := Lib.reaches_of_loop hr
    have hsearched : ∀ t, r = some t → q.Searched t := by
      rintro t rfl
      exact searched_of_leave hs hround
    have hfinish : ∃ result, finish dirList r = some result := by
      rcases finish_spec hsearched with hout | ⟨path, -, hout, -⟩
      · exact ⟨_, hout⟩
      · exact ⟨_, hout⟩
    obtain ⟨result, hresult⟩ := hfinish
    refine ⟨n, result, fun rounds hn => ?_⟩
    rw [getPathMatchingCond, Lib.loop_mono hr hn]
    exact hresult
  · have htree := (searched_of_reaches hs).tree
    refine ⟨htree.le, fun i hi => (htree.cost i hi).1, fun t ht i hi hclosed hopen => ?_⟩
    obtain ⟨n, hn, rfl⟩ := round_next ht
    rcases (htree.after (htree.best hn)).2.opens i hi hopen with ho | hf
    · exact absurd ho hclosed
    · exact hf

end

end PathSearch
end CrystalServer
