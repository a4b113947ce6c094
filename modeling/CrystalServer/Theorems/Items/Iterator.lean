import CrystalServer.Items.Cylinder
import CrystalServer.Theorems.Items.World
import CrystalServer.Lib.Preorder
import Mathlib.Algebra.Order.BigOperators.Group.List
import Mathlib.Data.Set.Card

/-! # The container iterator

It meets what lies under a container, and nothing twice: it looks into every container once at most. -/

namespace CrystalServer

open World

variable {w : World} {root c x : Ref}

namespace ContainerIterator

/-- An item that is still ahead of the iterator lies in a container that it stands in, at the place where it stands or
    later, or in one that it has not looked into. -/
def Ahead (w : World) (it : ContainerIterator) (x : Ref) : Prop :=
  ∃ c, x ∈ w.itemlist c ∧
    ((∃ s ∈ it.states, s.container = c ∧ x ∈ (w.itemlist c).drop s.index) ∨ c ∉ it.visitedContainers)

/-- It stands in each container once, and has looked into those it stands in. -/
structure Stands (it : ContainerIterator) : Prop where
  nodup : (it.states.map (·.container)).Nodup
  visited : ∀ s ∈ it.states, s.container ∈ it.visitedContainers

theorem Stands.pop {it : ContainerIterator} {top : IteratorState} {rest : List IteratorState} (h : it.Stands)
    (hs : it.states = top :: rest) : ({ it with states := rest } : ContainerIterator).Stands where
  nodup := by
    have := h.nodup
    rw [hs, List.map_cons] at this
    exact (List.nodup_cons.mp this).2
  visited s hr := h.visited s (hs ▸ List.mem_cons_of_mem top hr)

theorem Stands.advance {it : ContainerIterator} {top : IteratorState} {rest : List IteratorState} (h : it.Stands)
    (hs : it.states = top :: rest) (x : Ref) : (advance w it top rest x).Stands := by
  have hnodup := h.nodup
  have hvisited := h.visited
  rw [hs] at hnodup hvisited
  have hmove : ∀ s ∈ ({ top with index := top.index + 1 } : IteratorState) :: rest, s.container ∈ it.visitedContainers :=
    fun s hmem => by
      rcases List.mem_cons.mp hmem with rfl | hmem
      · exact hvisited top List.mem_cons_self
      · exact hvisited s (List.mem_cons_of_mem top hmem)
  unfold ContainerIterator.advance
  dsimp only
  split_ifs with hopen
  · refine ⟨?_, fun s hmem => ?_⟩
    · refine List.nodup_cons.mpr ⟨fun hmem => ?_, hnodup⟩
      obtain ⟨s, hs', hx⟩ := List.mem_map.mp hmem
      have := hmove s hs'
      rw [hx] at this
      exact hopen.2.2.2 this
    · rcases List.mem_cons.mp hmem with rfl | hmem
      · exact List.mem_cons_self
      · exact List.mem_cons_of_mem x (hmove s hmem)
  · exact ⟨hnodup, hmove⟩

theorem Ahead.of_pop {it : ContainerIterator} {top : IteratorState} {rest : List IteratorState} {y : Ref}
    (hs : it.states = top :: rest) (hy : ({ it with states := rest } : ContainerIterator).Ahead w y) : it.Ahead w y := by
  obtain ⟨c, hyc, ⟨s, hmem, hrest⟩ | hnew⟩ := hy
  · exact ⟨c, hyc, .inl ⟨s, hs ▸ List.mem_cons_of_mem top hmem, hrest⟩⟩
  · exact ⟨c, hyc, .inr hnew⟩

/-- The item that is met is not ahead any more. -/
theorem Ahead.of_advance (hw : w.Forest) {it : ContainerIterator} {top : IteratorState} {rest : List IteratorState}
    {y : Ref} (h : it.Stands) (hs : it.states = top :: rest)
    (hx : (w.itemlist top.container)[top.index]? = some x) (hy : (advance w it top rest x).Ahead w y) :
    it.Ahead w y ∧ y ≠ x := by
  obtain ⟨hlt, hget⟩ := List.getElem?_eq_some_iff.mp hx
  have hdrop : (w.itemlist top.container).drop top.index = x :: (w.itemlist top.container).drop (top.index + 1) := by
    rw [List.drop_eq_getElem_cons hlt, hget]
  have hxm : x ∈ w.itemlist top.container := hget ▸ List.getElem_mem hlt
  have htop : top ∈ it.states := hs ▸ List.mem_cons_self
  have hother : ∀ {c}, y ∈ w.itemlist c → c ≠ top.container → y ≠ x := fun {c} hyc hne hyx => hne <| by
    subst hyx
    exact Option.some.inj (((hw.lists.mem_iff y c).mp hyc).symm.trans ((hw.lists.mem_iff y _).mp hxm))
  -- what is ahead in the containers where the iterator stood before
  have hmoved : ∀ s ∈ ({ top with index := top.index + 1 } : IteratorState) :: rest,
      y ∈ w.itemlist s.container → y ∈ (w.itemlist s.container).drop s.index → it.Ahead w y ∧ y ≠ x := by
    intro s hmem hyc hyd
    rcases List.mem_cons.mp hmem with rfl | hmem
    · have hnodup := hw.lists.nodup top.container
      refine ⟨⟨top.container, hyc, .inl ⟨top, htop, rfl, ?_⟩⟩, fun hyx => ?_⟩
      · rw [hdrop]
        exact List.mem_cons_of_mem x hyd
      · have := (List.drop_sublist top.index _).nodup hnodup
        rw [hdrop] at this
        exact (List.nodup_cons.mp this).1 (hyx ▸ hyd)
    · refine ⟨⟨s.container, hyc, .inl ⟨s, hs ▸ List.mem_cons_of_mem top hmem, rfl, hyd⟩⟩, hother hyc fun heq => ?_⟩
      have := h.nodup
      rw [hs, List.map_cons, ← heq] at this
      exact (List.nodup_cons.mp this).1 (List.mem_map_of_mem hmem)
  obtain ⟨c, hyc, hahead⟩ := hy
  unfold ContainerIterator.advance at hahead
  dsimp only at hahead
  split_ifs at hahead with hopen
  · rcases hahead with ⟨s, hmem, rfl, hyd⟩ | hnew
    · rcases List.mem_cons.mp hmem with rfl | hmem
      · refine ⟨⟨x, hyc, .inr hopen.2.2.2⟩, fun hyx => ?_⟩
        exact hw.acyclic.parent_ne ((hw.lists.mem_iff y x).mp hyc) hyx.symm
      · exact hmoved s hmem hyc hyd
    · have hold : c ∉ it.visitedContainers := fun hc => hnew (List.mem_cons_of_mem x hc)
      exact ⟨⟨c, hyc, .inr hold⟩, hother hyc fun heq => hold (heq ▸ h.visited top htop)⟩
  · rcases hahead with ⟨s, hmem, rfl, hyd⟩ | hold
    · exact hmoved s hmem hyc hyd
    · exact ⟨⟨c, hyc, .inr hold⟩, hother hyc fun heq => hold (heq ▸ h.visited top htop)⟩

theorem toList_spec (hw : w.Forest) (n : Nat) {it : ContainerIterator} (h : it.Stands) :
    (toList w n it).Nodup ∧ ∀ x ∈ toList w n it, it.Ahead w x := by
  induction n generalizing it with
  | zero => exact ⟨List.nodup_nil, fun x hx => absurd hx List.not_mem_nil⟩
  | succ n ih =>
    unfold toList
    cases hs : it.states with
    | nil => exact ⟨List.nodup_nil, fun x hx => absurd hx List.not_mem_nil⟩
    | cons top rest =>
      dsimp only
      cases hx : (w.itemlist top.container)[top.index]? with
      | none =>
        obtain ⟨hnodup, hall⟩ := ih (h.pop hs)
        exact ⟨hnodup, fun y hy => Ahead.of_pop hs (hall y hy)⟩
      | some x =>
        obtain ⟨hnodup, hall⟩ := ih (h.advance (w := w) hs x)
        obtain ⟨hlt, hget⟩ := List.getElem?_eq_some_iff.mp hx
        refine ⟨List.nodup_cons.mpr ⟨fun hmem => (Ahead.of_advance hw h hs hx (hall x hmem)).2 rfl, hnodup⟩, ?_⟩
        intro y hy
        rcases List.mem_cons.mp hy with rfl | hy
        · refine ⟨top.container, hget ▸ List.getElem_mem hlt, .inl ⟨top, hs ▸ List.mem_cons_self, rfl, ?_⟩⟩
          rw [List.drop_eq_getElem_cons hlt, hget]
          exact List.mem_cons_self
        · exact (Ahead.of_advance hw h hs hx (hall y hy)).1

/-- A container is met before what lies in it: nothing that was looked into is still ahead. -/
theorem toList_parents (hw : w.Forest) (n : Nat) {it : ContainerIterator} (h : it.Stands)
    (hv : ∀ c ∈ it.visitedContainers, ¬it.Ahead w c) :
    (toList w n it).Pairwise fun x y => w.getParentContainer x ≠ some y := by
  induction n generalizing it with
  | zero => exact List.Pairwise.nil
  | succ n ih =>
    unfold toList
    cases hs : it.states with
    | nil => exact List.Pairwise.nil
    | cons top rest =>
      dsimp only
      cases hx : (w.itemlist top.container)[top.index]? with
      | none => exact ih (h.pop hs) fun c hc hahead => hv c hc (Ahead.of_pop hs hahead)
      | some x =>
        have hparent := (hw.lists.mem_iff x _).mp (List.mem_of_getElem? hx)
        have hmoved := h.advance (w := w) hs x
        refine List.pairwise_cons.mpr ⟨fun y hy hxy => ?_, ih hmoved fun c hc hahead => ?_⟩
        · obtain rfl := Option.some.inj (hparent.symm.trans hxy)
          have hahead := (toList_spec hw n hmoved).2 _ hy
          exact hv top.container (h.visited top (hs ▸ List.mem_cons_self)) (Ahead.of_advance hw h hs hx hahead).1
        · obtain ⟨hold, hne⟩ := Ahead.of_advance hw h hs hx hahead
          unfold advance at hc
          dsimp only at hc
          split_ifs at hc
          · rcases List.mem_cons.mp hc with hcx | hc
            · exact hne hcx
            · exact hv c hc hold
          · exact hv c hc hold

/-- What it meets lies under the container that it started from. -/
theorem below_of_mem_toList (hw : w.Forest) (n : Nat) (it : ContainerIterator)
    (h : ∀ s ∈ it.states, s.container = root ∨ Lib.Below w.getParentContainer s.container root) :
    ∀ x ∈ toList w n it, Lib.Below w.getParentContainer x root := by
  induction n generalizing it with
  | zero => exact fun x hx => absurd hx List.not_mem_nil
  | succ n ih =>
    unfold toList
    cases hs : it.states with
    | nil => exact fun x hx => absurd hx List.not_mem_nil
    | cons top rest =>
      rw [hs] at h
      have htop := h top List.mem_cons_self
      dsimp only
      cases hx : (w.itemlist top.container)[top.index]? with
      | none => exact ih _ fun s hmem => h s (List.mem_cons_of_mem top hmem)
      | some x =>
        have hparent := (hw.lists.mem_iff x _).mp (List.mem_of_getElem? hx)
        have hbelow : Lib.Below w.getParentContainer x root := by
          rcases htop with htop | htop
          · exact Lib.below_of_parent (htop ▸ hparent)
          · exact .head hparent htop
        have hmove : ∀ s ∈ ({ top with index := top.index + 1 } : IteratorState) :: rest,
            s.container = root ∨ Lib.Below w.getParentContainer s.container root := fun s hmem => by
          rcases List.mem_cons.mp hmem with rfl | hmem
          · exact htop
          · exact h s (List.mem_cons_of_mem top hmem)
        intro y hy
        rcases List.mem_cons.mp hy with rfl | hy
        · exact hbelow
        · refine ih (advance w it top rest x) (fun s hmem => ?_) y hy
          unfold advance at hmem
          dsimp only at hmem
          split_ifs at hmem
          · rcases List.mem_cons.mp hmem with rfl | hmem
            · exact .inr hbelow
            · exact hmove s hmem
          · exact hmove s hmem

end ContainerIterator

namespace Container
variable (env : Env)

/-- The iterator meets nothing twice, and only what lies under the container, in a container. -/
theorem iterator_spec (root : Ref) (hw : w.Forest) : (root :: iterator env w root).Nodup ∧
    ∀ x ∈ iterator env w root, Lib.Below w.getParentContainer x root ∧ ∃ c, x ∈ w.itemlist c := by
  have hstands : ContainerIterator.Stands ⟨[⟨root, 0, 1⟩], [root], env.MAX_CONTAINER_DEPTH⟩ :=
    ⟨List.nodup_singleton root, fun s hs => by
      rw [List.mem_singleton.mp hs]
      exact List.mem_singleton_self root⟩
  obtain ⟨hnodup, hall⟩ := ContainerIterator.toList_spec hw
    (((List.range w.next).map fun c => (w.itemlist c).length + 1).sum + 1) hstands
  have hbelow : ∀ x ∈ iterator env w root, Lib.Below w.getParentContainer x root :=
    ContainerIterator.below_of_mem_toList hw _ _ fun s hs => .inl (by rw [List.mem_singleton.mp hs])
  refine ⟨List.nodup_cons.mpr ⟨fun hmem => hw.acyclic root (hbelow root hmem), hnodup⟩, fun x hx => ⟨hbelow x hx, ?_⟩⟩
  obtain ⟨c, hc, -⟩ := hall x hx
  exact ⟨c, hc⟩

/-- A container that lies in no other one is gone through from the outside in. -/
theorem iterator_parents {root : Ref} (hw : w.Forest) (hroot : w.getParentContainer root = none) :
    (iterator env w root).Pairwise fun x y => w.getParentContainer x ≠ some y := by
  refine ContainerIterator.toList_parents hw _ ⟨List.nodup_singleton root, fun s hs => ?_⟩ fun c hc hahead => ?_
  · rw [List.mem_singleton.mp hs]
    exact List.mem_singleton_self root
  · obtain ⟨d, hd, -⟩ := hahead
    rw [List.mem_singleton.mp hc] at hd
    exact nomatch hroot.symm.trans ((hw.lists.mem_iff root d).mp hd)

end Container
end CrystalServer

/-! ## The order of the container iterator

On any graph of containers, with cycles or with containers that lie in several places, the iterator is a depth first walk that
goes into each container once. -/

namespace CrystalServer
variable {w : World} {root c x : Ref} {maxDepth : Nat}

namespace ContainerIterator

/-- `advance` pushes the containers that hold something. -/
def opens (w : World) (x : Ref) : Bool := w.isContainer x ∧ w.itemlist x ≠ []

/-- The iterator at its start. -/
def start (root : Ref) (maxDepth : Nat) : ContainerIterator := ⟨[⟨root, 0, 1⟩], [root], maxDepth⟩

theorem drop_succ {l todo : List Ref} {i : Nat} (h : l.drop i = x :: todo) : l[i]? = some x ∧ l.drop (i + 1) = todo := by
  constructor
  · rw [← List.head?_drop, h]
    rfl
  · rw [← List.tail_drop, h]
    rfl

/-- With the rest of a container to go through, the iterator meets what the walk meets there, and goes on below it on the stack;
    it takes a round for each item and one more for each container. -/
theorem toList_preorder (w : World) (maxDepth depth : Nat) (todo : List Ref) (visited : List (Ref × Nat)) :
    let res := Lib.preorder w.itemlist (opens w) maxDepth depth todo visited
    ∃ k, k + visited.length = res.1.length + res.2.length + 1 ∧ ∀ n c i rest, (w.itemlist c).drop i = todo →
      toList w (k + n) ⟨⟨c, i, depth⟩ :: rest, visited.map Prod.fst, maxDepth⟩ =
        res.1 ++ toList w n ⟨rest, res.2.map Prod.fst, maxDepth⟩ := by
  fun_induction Lib.preorder w.itemlist (opens w) maxDepth depth todo visited with
  | case1 depth visited =>
    refine ⟨1, by simp; omega, fun n c i rest htodo => ?_⟩
    rw [Nat.add_comm, toList]
    dsimp only
    rw [List.getElem?_eq_none (List.drop_eq_nil_iff.mp htodo)]
    rfl
  | case2 depth visited x todo hin below rest hbelow hrest =>
    obtain ⟨kBelow, hlenBelow, hrunBelow⟩ := hbelow
    obtain ⟨kRest, hlenRest, hrunRest⟩ := hrest
    refine ⟨kBelow + kRest + 1, ?_, fun n c i states htodo => ?_⟩
    · simp only [List.length_cons, List.length_append] at hlenBelow hlenRest ⊢
      change kRest + below.2.length = rest.1.length + rest.2.length + 1 at hlenRest
      change kBelow + (visited.length + 1) = below.1.length + below.2.length + 1 at hlenBelow
      omega
    · obtain ⟨hget, hdrop⟩ := drop_succ htodo
      have hadvance : advance w ⟨⟨c, i, depth⟩ :: states, visited.map Prod.fst, maxDepth⟩ ⟨c, i, depth⟩ states x =
          ⟨⟨x, 0, depth + 1⟩ :: ⟨c, i + 1, depth⟩ :: states, x :: visited.map Prod.fst, maxDepth⟩ := by
        obtain ⟨hopens, hdepth, hnew⟩ := hin
        obtain ⟨hcontainer, hlist⟩ := of_decide_eq_true hopens
        exact if_pos ⟨hcontainer, hlist, hdepth, hnew⟩
      have hinside := hrunBelow (kRest + n) x 0 (⟨c, i + 1, depth⟩ :: states) rfl
      have hafter := hrunRest n c (i + 1) states hdrop
      rw [show kBelow + kRest + 1 + n = kBelow + (kRest + n) + 1 by omega, toList]
      dsimp only
      rw [hget]
      dsimp only
      rw [hadvance, List.cons_append, List.append_assoc]
      exact congrArg (x :: ·) (hinside.trans (congrArg (below.1 ++ ·) hafter))
  | case3 depth visited x todo hout rest hrest =>
    obtain ⟨kRest, hlenRest, hrunRest⟩ := hrest
    refine ⟨kRest + 1, ?_, fun n c i states htodo => ?_⟩
    · simp only [List.length_cons]
      change kRest + visited.length = rest.1.length + rest.2.length + 1 at hlenRest
      omega
    · obtain ⟨hget, hdrop⟩ := drop_succ htodo
      have hadvance : advance w ⟨⟨c, i, depth⟩ :: states, visited.map Prod.fst, maxDepth⟩ ⟨c, i, depth⟩ states x =
          ⟨⟨c, i + 1, depth⟩ :: states, visited.map Prod.fst, maxDepth⟩ := by
        refine if_neg fun hall => ?_
        obtain ⟨hcontainer, hlist, hdepth, hnew⟩ := hall
        exact hout ⟨decide_eq_true ⟨hcontainer, hlist⟩, hdepth, hnew⟩
      rw [show kRest + 1 + n = kRest + n + 1 by omega, toList]
      dsimp only
      rw [hget]
      dsimp only
      rw [hadvance, List.cons_append]
      exact congrArg (x :: ·) (hrunRest n c (i + 1) states hdrop)

/-- What the iterator meets, in its order, and the containers that it goes into with their levels. -/
def tour (w : World) (root : Ref) (maxDepth : Nat) : List Ref × List (Ref × Nat) :=
  Lib.preorderFrom w.itemlist (opens w) maxDepth root

/-- How many rounds the loop takes. -/
def tourRounds (w : World) (root : Ref) (maxDepth : Nat) : Nat :=
  (tour w root maxDepth).1.length + (tour w root maxDepth).2.length

/-- The loop comes to its end. -/
theorem toList_start (w : World) (root : Ref) (maxDepth : Nat) {n : Nat} (hn : tourRounds w root maxDepth ≤ n) :
    toList w n (start root maxDepth) = (tour w root maxDepth).1 := by
  obtain ⟨k, hk, hrun⟩ := toList_preorder w maxDepth 1 (w.itemlist root) [(root, 1)]
  change k + 1 = tourRounds w root maxDepth + 1 at hk
  have hall := hrun (n - k) root 0 [] rfl
  rw [show k + (n - k) = n by omega] at hall
  refine hall.trans ?_
  have hend : ∀ m visited, toList w m ⟨[], visited, maxDepth⟩ = [] := by
    rintro (_ | m) visited <;> rfl
  rw [hend, List.append_nil]
  rfl

theorem tour_toured (w : World) (root : Ref) (hmax : 1 ≤ maxDepth) :
    Lib.Toured w.itemlist (opens w) maxDepth root (tour w root maxDepth).1 (tour w root maxDepth).2 :=
  Lib.toured hmax

/-- The rounds of a loop over items in memory. -/
theorem tourRounds_le (hw : ∀ r, w.itemlist r ≠ [] → r < w.next) (root : Ref) (hmax : 1 ≤ maxDepth) :
    tourRounds w root maxDepth ≤ ((List.range w.next).map fun c => (w.itemlist c).length + 1).sum + 1 := by
  have h := tour_toured w root hmax
  have hrounds : tourRounds w root maxDepth =
      (((tour w root maxDepth).2.map Prod.fst).map fun c => (w.itemlist c).length + 1).sum := by
    unfold tourRounds
    rw [h.perm.length_eq, List.length_flatMap, List.map_map]
    generalize (tour w root maxDepth).2 = entered
    induction entered with
    | nil => rfl
    | cons e entered ih =>
      simp only [List.map_cons, List.sum_cons, List.length_cons, Function.comp_apply]
      omega
  by_cases hroot : w.itemlist root = []
  · have hempty : tour w root maxDepth = ([], [(root, 1)]) := by
      unfold tour Lib.preorderFrom
      rw [hroot, Lib.preorder]
    unfold tourRounds
    rw [hempty]
    exact Nat.le_add_left ..
  · have hsub : (tour w root maxDepth).2.map Prod.fst ⊆ List.range w.next := fun x hx => by
      obtain ⟨e, he, rfl⟩ := List.mem_map.mp hx
      refine List.mem_range.mpr (hw _ ?_)
      rcases (h.gone e he).1 with heq | hopens
      · rwa [heq]
      · exact (of_decide_eq_true hopens).2
    obtain ⟨l, hperm, hl⟩ := List.subperm_of_subset h.nodup hsub
    rw [hrounds, ← (hperm.map _).sum_eq]
    exact ((hl.map _).sum_le_sum fun _ _ => Nat.zero_le _).trans (Nat.le_succ _)

end ContainerIterator

open ContainerIterator
namespace Container
variable (env : Env)

theorem iterator_eq (hw : ∀ r, w.itemlist r ≠ [] → r < w.next) (root : Ref) (hmax : 1 ≤ env.MAX_CONTAINER_DEPTH) :
    iterator env w root = (tour w root env.MAX_CONTAINER_DEPTH).1 :=
  toList_start w root _ (tourRounds_le hw root hmax)

/-- The container is reached from the root through so many levels, itself and the root among them. -/
def AtLevel (w : World) (root c : Ref) (d : Nat) : Prop := Lib.Level w.itemlist (opens w) root c d

/-- A container with what is in it is a tree: each item has one place. -/
def IsTree (w : World) (root : Ref) : Prop := Lib.TreeFrom w.itemlist (opens w) root

/-- The items in a container and in the containers in it. -/
def nested (w : World) (root : Ref) : Set Ref := {x | ∃ c d, AtLevel w root c d ∧ x ∈ w.itemlist c}

variable {env}

/-- In a tree that is not too deep the counts are those of all that is in it. -/
theorem holdingCount_eq (hw : ∀ r, w.itemlist r ≠ [] → r < w.next) (hmax : 1 ≤ env.MAX_CONTAINER_DEPTH)
    (ht : IsTree w root) (hdeep : ∀ c d, AtLevel w root c d → d ≤ env.MAX_CONTAINER_DEPTH) :
    getItemHoldingCount env w root = (nested w root).ncard ∧
      getContainerHoldingCount env w root = {x ∈ nested w root | w.isContainer x}.ncard := by
  obtain ⟨hnodup, hmem⟩ := (tour_toured w root hmax).tree ht hdeep
  have heq := iterator_eq env hw root hmax
  unfold getItemHoldingCount getContainerHoldingCount
  rw [heq]
  constructor
  · have hset : nested w root = ((tour w root env.MAX_CONTAINER_DEPTH).1.toFinset : Set Ref) := by
      ext x
      simp [nested, AtLevel, hmem]
    rw [hset, Set.ncard_coe_finset, List.toFinset_card_of_nodup hnodup]
  · have hset : {x ∈ nested w root | w.isContainer x} =
        (((tour w root env.MAX_CONTAINER_DEPTH).1.filter w.isContainer).toFinset : Set Ref) := by
      ext x
      simp [nested, AtLevel, hmem]
    rw [hset, Set.ncard_coe_finset, List.toFinset_card_of_nodup (hnodup.filter _)]

/-- The loop over a container ends. It goes into each container once at most, and there it meets each place once; the
    containers it goes into are just those that can be reached past none that it came to at the last level. In a tree these are
    all within the levels. -/
theorem iterator_tour (hw : ∀ r, w.itemlist r ≠ [] → r < w.next) (root : Ref) (hmax : 1 ≤ env.MAX_CONTAINER_DEPTH) :
    let maxDepth := env.MAX_CONTAINER_DEPTH
    let (out, entered) := tour w root maxDepth
    ((∀ n, tourRounds w root maxDepth ≤ n → toList w n (start root maxDepth) = out) ∧ iterator env w root = out) ∧
      ((entered.map Prod.fst).Nodup ∧ out.Perm (entered.flatMap fun e => w.itemlist e.1)) ∧
      (∀ e ∈ entered, AtLevel w root e.1 e.2 ∧ e.2 ≤ maxDepth) ∧
      (∀ c, c ∈ entered.map Prod.fst ↔
        Relation.ReflTransGen (fun a b => (a, maxDepth) ∉ entered ∧ b ∈ w.itemlist a ∧ opens w b) root c) ∧
      (IsTree w root → (∀ c d, AtLevel w root c d → d ≤ maxDepth → (c, d) ∈ entered) ∧
        ((∀ c d, AtLevel w root c d → d ≤ maxDepth) → getItemHoldingCount env w root = (nested w root).ncard ∧
          getContainerHoldingCount env w root = {x ∈ nested w root | w.isContainer x}.ncard)) := by
  have h := tour_toured w root hmax
  refine ⟨⟨fun n hn => toList_start w root _ hn, iterator_eq env hw root hmax⟩, ⟨h.nodup, h.perm⟩,
    fun e he => ⟨h.level he, (h.gone e he).2⟩, h.mem_iff, fun ht => ⟨fun c d => ?_, holdingCount_eq hw hmax ht⟩⟩
  exact h.mem_of_level ht.level_unique

/-! Two boxes: one is in the other and at the top beside it, and the walk comes to it at level 3 first. -/

def box (l : List Ref) : Item := ⟨2469, 1, none, none, some ⟨2000, 8, 0, l, true, false, false⟩⟩

def boxes (lists : List (List Ref)) : World where
  item r := box (lists.getD r [])
  next := lists.length
  players _ := ⟨fun _ => none, none, false, false, 0, 0, false⟩

def boxEnv : Env where
  items id := ⟨id, .container, false, 1, 2000, 0, 0, 0, false, true, true, false, false, false, .none, 0, nofun⟩
  MAX_CONTAINER := 500
  MAX_CONTAINER_DEPTH := 3
  ENABLE_PLAYER_PUT_ITEM_IN_AMMO_SLOT := false
  isOwner _ _ := true
  onPlayerEquip _ _ _ _ := true

theorem boxes_made (lists : List (List Ref)) (r : Ref) (h : (boxes lists).itemlist r ≠ []) : r < (boxes lists).next := by
  by_contra hle
  refine h ?_
  change lists.getD r [] = []
  rw [List.getD_eq_getElem?_getD, List.getElem?_eq_none (Nat.le_of_not_lt hle)]
  rfl

theorem iterator_tour_chain :
    getItemHoldingCount boxEnv (boxes [[1], [2], []]) 0 = (nested (boxes [[1], [2], []]) 0).ncard := by
  have hlevel : ∀ c d, AtLevel (boxes [[1], [2], []]) 0 c d → (c = 0 ∧ d = 1) ∨ (c = 1 ∧ d = 2) := fun c d h => by
    induction h with
    | root => exact .inl ⟨rfl, rfl⟩
    | child _ hmem hopens ih =>
      obtain ⟨rfl, rfl⟩ | ⟨rfl, rfl⟩ := ih
      · exact .inr ⟨List.mem_singleton.mp hmem, rfl⟩
      · cases List.mem_singleton.mp hmem
        exact absurd hopens (by decide)
  have htree : IsTree (boxes [[1], [2], []]) 0 := by
    refine ⟨fun x d hx => ?_, fun x d x' d' y hx hx' hy hy' => ?_, fun x d hx => ?_⟩
    · obtain ⟨rfl, -⟩ | ⟨rfl, -⟩ := hlevel x d hx <;> decide
    · obtain ⟨rfl, -⟩ | ⟨rfl, -⟩ := hlevel x d hx <;> obtain ⟨rfl, -⟩ | ⟨rfl, -⟩ := hlevel x' d' hx'
      · rfl
      · cases List.mem_singleton.mp hy
        exact absurd hy' (by decide)
      · cases List.mem_singleton.mp hy
        exact absurd hy' (by decide)
      · rfl
    · obtain ⟨rfl, -⟩ | ⟨rfl, -⟩ := hlevel x d hx <;> decide
  have hmax : 1 ≤ boxEnv.MAX_CONTAINER_DEPTH := by decide
  obtain ⟨-, -, -, -, h⟩ := iterator_tour (boxes_made [[1], [2], []]) 0 hmax
  refine ((h htree).2 fun c d hc => ?_).1
  obtain ⟨-, rfl⟩ | ⟨-, rfl⟩ := hlevel c d hc <;> decide

theorem iterator_not_all : AtLevel (boxes [[1, 2], [2], [3], [4], []]) 0 3 3 ∧
    4 ∈ (boxes [[1, 2], [2], [3], [4], []]).itemlist 3 ∧ 4 ∉ iterator boxEnv (boxes [[1, 2], [2], [3], [4], []]) 0 := by
  have htwo : AtLevel (boxes [[1, 2], [2], [3], [4], []]) 0 2 2 := .child .root (by decide) (by decide)
  exact ⟨.child htwo (by decide) (by decide), by decide, by decide⟩

end Container
end CrystalServer
