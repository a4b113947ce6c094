import CrystalServer.Items.Container
import CrystalServer.Lib.SubtreeSum

/-! # Items in memory: what the elementary updates do

The proofs read a world through the parent container of each item, the list and the total of each container,
and the plain part of each item, which holds neither. -/

namespace CrystalServer
open Container

/-- An item without its place and without what it holds. -/
def Item.plain (i : Item) : Item := { i with m_parent := none, container := none }

/-- An item without its total. -/
def Item.untotalled (i : Item) : Item :=
  { i with container := i.container.map fun k => { k with totalWeight := 0 } }

namespace World
variable {w : World} {r x c : Ref}

@[simp] theorem item_modify (w : World) (r : Ref) (f : Item → Item) :
    (w.modify r f).item = Function.update w.item r (f (w.item r)) := rfl

@[simp] theorem next_modify (w : World) (r : Ref) (f : Item → Item) : (w.modify r f).next = w.next := rfl

@[simp] theorem next_setParent (w : World) (r : Ref) (c : Cylinder) : (w.setParent r c).next = w.next := rfl

@[simp] theorem next_resetParent (w : World) (r : Ref) : (w.resetParent r).next = w.next := rfl

@[simp] theorem next_setItemlist (w : World) (c : Ref) (l : List Ref) : (w.setItemlist c l).next = w.next := rfl

@[simp] theorem next_setTotalWeight (w : World) (c : Ref) (t : UInt32) : (w.setTotalWeight c t).next = w.next := rfl

/-! ### What an update leaves alone -/

/-- A projection of items that an update of one item keeps. -/
theorem proj_modify {β : Type*} (g : Item → β) {f : Item → Item} (hf : g (f (w.item r)) = g (w.item r)) :
    (fun x => g ((w.modify r f).item x)) = fun x => g (w.item x) := by
  funext x
  by_cases hx : x = r
  · subst hx
    rw [item_modify, Function.update_self, hf]
  · rw [item_modify, Function.update_of_ne hx]

/-- A projection of items that an update of one item changes there. -/
theorem proj_modify_update {β : Type*} (g : Item → β) (f : Item → Item) :
    (fun x => g ((w.modify r f).item x)) = Function.update (fun x => g (w.item x)) r (g (f (w.item r))) := by
  funext x
  by_cases hx : x = r
  · subst hx
    rw [item_modify, Function.update_self, Function.update_self]
  · rw [item_modify, Function.update_of_ne hx, Function.update_of_ne hx]

@[simp] theorem plain_setParent (c : Cylinder) : ((w.setParent r c).item x).plain = (w.item x).plain :=
  congrFun (proj_modify Item.plain rfl) x

@[simp] theorem plain_resetParent : ((w.resetParent r).item x).plain = (w.item x).plain :=
  congrFun (proj_modify Item.plain rfl) x

@[simp] theorem plain_setItemlist (l : List Ref) : ((w.setItemlist c l).item x).plain = (w.item x).plain :=
  congrFun (proj_modify Item.plain rfl) x

@[simp] theorem untotalled_setTotalWeight (t : UInt32) :
    ((w.setTotalWeight c t).item x).untotalled = (w.item x).untotalled := by
  refine congrFun (proj_modify Item.untotalled ?_) x
  cases h : (w.item c).container <;> simp [Item.untotalled, h]

/-! ### Parents -/

theorem getParentContainer_congr {w' : World} (h : (w'.item x).m_parent = (w.item x).m_parent) :
    w'.getParentContainer x = w.getParentContainer x := by
  unfold getParentContainer getParent
  rw [h]

theorem getParentContainer_setParent (w : World) (r c : Ref) :
    (w.setParent r (.container c)).getParentContainer = Function.update w.getParentContainer r (some c) :=
  proj_modify_update (fun i => i.m_parent.bind (·.getContainer)) _

theorem getParentContainer_resetParent (w : World) (r : Ref) :
    (w.resetParent r).getParentContainer = Function.update w.getParentContainer r none :=
  proj_modify_update (fun i => i.m_parent.bind (·.getContainer)) _

@[simp] theorem getParentContainer_setItemlist (w : World) (c : Ref) (l : List Ref) :
    (w.setItemlist c l).getParentContainer = w.getParentContainer :=
  funext fun x => getParentContainer_congr (congrFun (proj_modify Item.m_parent rfl) x)

/-! ### Lists and totals -/

theorem isContainer_of_mem (h : x ∈ w.itemlist c) : w.isContainer c := by
  unfold itemlist Item.getItemList at h
  unfold isContainer
  cases hk : (w.item c).container with
  | none =>
    rw [hk] at h
    exact absurd h List.not_mem_nil
  | some k => rfl

@[simp] theorem itemlist_setParent (w : World) (r : Ref) (c : Cylinder) : (w.setParent r c).itemlist = w.itemlist :=
  proj_modify Item.getItemList rfl

@[simp] theorem itemlist_resetParent (w : World) (r : Ref) : (w.resetParent r).itemlist = w.itemlist :=
  proj_modify Item.getItemList rfl

theorem itemlist_setItemlist (hc : w.isContainer c) (l : List Ref) :
    (w.setItemlist c l).itemlist = Function.update w.itemlist c l := by
  obtain ⟨k, hk⟩ := Option.isSome_iff_exists.mp hc
  refine (proj_modify_update Item.getItemList _).trans ?_
  rw [hk]
  rfl

@[simp] theorem totalWeight_setParent (w : World) (r : Ref) (c : Cylinder) :
    (w.setParent r c).totalWeight = w.totalWeight :=
  proj_modify Item.getTotalWeight rfl

@[simp] theorem totalWeight_resetParent (w : World) (r : Ref) : (w.resetParent r).totalWeight = w.totalWeight :=
  proj_modify Item.getTotalWeight rfl

@[simp] theorem totalWeight_setItemlist (w : World) (c : Ref) (l : List Ref) :
    (w.setItemlist c l).totalWeight = w.totalWeight := by
  refine proj_modify Item.getTotalWeight ?_
  unfold Item.getTotalWeight
  cases (w.item c).container <;> rfl

theorem totalWeight_setTotalWeight (hc : w.isContainer c) (t : UInt32) :
    (w.setTotalWeight c t).totalWeight = Function.update w.totalWeight c t := by
  obtain ⟨k, hk⟩ := Option.isSome_iff_exists.mp hc
  refine (proj_modify_update Item.getTotalWeight _).trans ?_
  rw [hk]
  rfl

/-! ### What does not look at totals -/

/-- Two worlds that differ in totals only. -/
structure SameButTotals (w w' : World) : Prop where
  item : ∀ x, (w'.item x).untotalled = (w.item x).untotalled
  next : w'.next = w.next
  players : w'.players = w.players

namespace SameButTotals
variable {w' w'' : World}

theorem refl (w : World) : SameButTotals w w := ⟨fun _ => rfl, rfl, rfl⟩

theorem trans (h : SameButTotals w w') (h' : SameButTotals w' w'') : SameButTotals w w'' :=
  ⟨fun x => (h'.item x).trans (h.item x), h'.next.trans h.next, h'.players.trans h.players⟩

theorem m_parent (h : SameButTotals w w') (x : Ref) : (w'.item x).m_parent = (w.item x).m_parent := by
  have := congrArg Item.m_parent (h.item x)
  exact this

theorem plain (h : SameButTotals w w') (x : Ref) : (w'.item x).plain = (w.item x).plain := by
  have := congrArg Item.plain (h.item x)
  exact this

theorem getParentContainer (h : SameButTotals w w') : w'.getParentContainer = w.getParentContainer :=
  funext fun x => getParentContainer_congr (h.m_parent x)

theorem isContainer (h : SameButTotals w w') : w'.isContainer c ↔ w.isContainer c := by
  have := congrArg (fun i => i.container.isSome) (h.item c)
  simp only [Item.untotalled, Option.isSome_map] at this
  exact iff_of_eq (congrArg (· = true) this)

theorem proj {β : Type*} (h : SameButTotals w w') (g : Container → β)
    (hg : ∀ k t, g { k with totalWeight := t } = g k) (x : Ref) :
    (w'.item x).container.map g = (w.item x).container.map g := by
  have := congrArg (fun i => i.container.map g) (h.item x)
  simpa only [Item.untotalled, Option.map_map, Function.comp_def, hg] using this

theorem itemlist (h : SameButTotals w w') : w'.itemlist = w.itemlist :=
  funext fun x => congrArg (·.getD []) (h.proj (·.itemlist) (fun _ _ => rfl) x)

end SameButTotals

theorem sameButTotals_setTotalWeight (w : World) (c : Ref) (t : UInt32) : SameButTotals w (w.setTotalWeight c t) :=
  ⟨fun _ => untotalled_setTotalWeight t, rfl, rfl⟩

end World

/-! ### The weights on the way up -/

namespace Container
open World
variable {w : World} {this : Ref}

theorem updateItemWeightLoop_same (diff : UInt32) (n : Nat) (this : Ref) (w : World) :
    SameButTotals w (updateItemWeightLoop diff n this w) := by
  induction n generalizing this w with
  | zero => exact sameButTotals_setTotalWeight w this _
  | succ n ih =>
    rw [updateItemWeightLoop]
    cases w.getParentContainer this with
    | none => exact sameButTotals_setTotalWeight w this _
    | some p => exact (sameButTotals_setTotalWeight w this _).trans (ih p _)

theorem updateItemWeight_same (w : World) (this : Ref) (diff : UInt32) :
    SameButTotals w (updateItemWeight w this diff) :=
  updateItemWeightLoop_same diff w.next this w

theorem totalWeight_updateItemWeightLoop (diff : UInt32) (n : Nat) {this : Ref} {w : World}
    (hc : w.isContainer this) (hp : ∀ r p, w.getParentContainer r = some p → w.isContainer p) :
    (updateItemWeightLoop diff n this w).totalWeight =
      Lib.addUp w.getParentContainer diff n this w.totalWeight := by
  induction n generalizing this w with
  | zero => exact totalWeight_setTotalWeight hc _
  | succ n ih =>
    rw [updateItemWeightLoop, Lib.addUp]
    cases hthis : w.getParentContainer this with
    | none => exact totalWeight_setTotalWeight hc _
    | some p =>
      have same := sameButTotals_setTotalWeight w this (w.totalWeight this + diff)
      have := ih (same.isContainer.mpr (hp this p hthis)) fun r q hq =>
        same.isContainer.mpr (hp r q (same.getParentContainer ▸ hq))
      rw [same.getParentContainer, totalWeight_setTotalWeight hc] at this
      exact this

end Container
end CrystalServer

/-! ## The forest of containers

A container lists just the items whose parent it is, once each, and no container lies inside itself. Hanging
an item that lies in no container under one that is not inside it keeps this, and so does taking it out. -/

namespace CrystalServer.World
open Container

/-- The containers hold each other as a forest does. -/
structure Forest (w : World) : Prop where
  lists : Lib.Lists w.getParentContainer w.itemlist
  acyclic : Lib.Acyclic w.getParentContainer
  made : ∀ r c, w.getParentContainer r = some c → r < w.next ∧ c < w.next

variable {w w' : World} {r x c : Ref} {l : List Ref}

namespace Forest

theorem isContainer (h : w.Forest) (hr : w.getParentContainer r = some c) : w.isContainer c :=
  isContainer_of_mem ((h.lists.mem_iff r c).mpr hr)

theorem ends (h : w.Forest) (r : Ref) : Lib.Ends w.getParentContainer w.next r := by
  have := h.acyclic.ends (Finset.range w.next) r fun y _ hy => by
    obtain ⟨c, hc⟩ := Option.isSome_iff_exists.mp hy
    exact Finset.mem_range.mpr (h.made y c hc).1
  rwa [Finset.card_range] at this

theorem low (h : w.Forest) (r : Ref) : Lib.Low w.itemlist (w.next + 1) r := by
  have := Lib.low_of_acyclic h.lists h.acyclic (Finset.range w.next) r fun y hy => by
    obtain ⟨c, hc, -⟩ := Lib.below_cases hy
    exact Finset.mem_range.mpr (h.made y c hc).1
  rwa [Finset.card_range] at this

theorem same (h : w.Forest) (hs : SameButTotals w w') : w'.Forest where
  lists := by
    rw [hs.getParentContainer, hs.itemlist]
    exact h.lists
  acyclic := by
    rw [hs.getParentContainer]
    exact h.acyclic
  made := by
    rw [hs.getParentContainer, hs.next]
    exact h.made

/-- An item that lies nowhere comes into a container. -/
theorem hang (h : w.Forest) (hx : w.getParentContainer x = none) (hxn : x < w.next) (hcn : c < w.next)
    (hne : c ≠ x) (hb : ¬Lib.Below w.getParentContainer c x) (hl : l.Perm (x :: w.itemlist c))
    (hpar : w'.getParentContainer = Function.update w.getParentContainer x (some c))
    (hlist : w'.itemlist = Function.update w.itemlist c l) (hnext : w'.next = w.next) : w'.Forest where
  lists := by
    rw [hpar, hlist]
    exact h.lists.hang hx hl
  acyclic := by
    rw [hpar]
    exact h.acyclic.hang hne hb
  made := by
    intro r p hr
    rw [hpar] at hr
    rw [hnext]
    by_cases hrx : r = x
    · rw [hrx, Function.update_self] at hr
      cases hr
      exact ⟨hrx ▸ hxn, hcn⟩
    · rw [Function.update_of_ne hrx] at hr
      exact h.made r p hr

/-- An item is taken out of its container. -/
theorem cut (h : w.Forest) (hx : w.getParentContainer x = some c) (hl : (w.itemlist c).Perm (x :: l))
    (hpar : w'.getParentContainer = Function.update w.getParentContainer x none)
    (hlist : w'.itemlist = Function.update w.itemlist c l) (hnext : w'.next = w.next) : w'.Forest where
  lists := by
    rw [hpar, hlist]
    exact h.lists.cut hx hl
  acyclic := by
    rw [hpar]
    exact h.acyclic.cut x
  made := by
    intro r p hr
    rw [hpar] at hr
    rw [hnext]
    by_cases hrx : r = x
    · rw [hrx, Function.update_self] at hr
      exact nomatch hr
    · rw [Function.update_of_ne hrx] at hr
      exact h.made r p hr

/-- An item outside takes the place of another one in a container. -/
theorem swap {y : Ref} (h : w.Forest) (hx : w.getParentContainer x = none) (hxn : x < w.next) (hne : c ≠ x)
    (hb : ¬Lib.Below w.getParentContainer c x) (hy : w.getParentContainer y = some c) {l' : List Ref}
    (hl : (w.itemlist c).Perm (y :: l)) (hl' : l'.Perm (x :: l))
    (hpar : w'.getParentContainer = Function.update (Function.update w.getParentContainer x (some c)) y none)
    (hlist : w'.itemlist = Function.update w.itemlist c l') (hnext : w'.next = w.next) : w'.Forest := by
  have hyx : y ≠ x := by
    rintro rfl
    rw [hx] at hy
    exact nomatch hy
  have hcy : c ≠ y := h.acyclic.parent_ne hy
  -- the world between the two changes
  let u := (w.resetParent y).setItemlist c l
  have hupar : u.getParentContainer = Function.update w.getParentContainer y none :=
    (getParentContainer_setItemlist _ c l).trans (getParentContainer_resetParent w y)
  have hulist : u.itemlist = Function.update w.itemlist c l := by
    have hk : (w.resetParent y).isContainer c :=
      isContainer_of_mem (x := y) (by rw [itemlist_resetParent]; exact (h.lists.mem_iff y c).mpr hy)
    exact (itemlist_setItemlist hk l).trans (by rw [itemlist_resetParent])
  have hu : u.Forest := h.cut hy hl hupar hulist rfl
  refine hu.hang (x := x) (c := c) (l := l') ?_ hxn (h.made y c hy).2 hne (fun hbelow => hb ?_) ?_ ?_ ?_ hnext
  · rw [hupar, Function.update_of_ne hyx.symm, hx]
  · rw [hupar] at hbelow
    exact Lib.below_of_cut hbelow
  · rw [hulist, Function.update_self]
    exact hl'
  · rw [hupar, hpar, Function.update_comm hyx.symm]
  · rw [hulist, hlist, Function.update_idem]

end Forest

/-! ### What a container lacks -/

section
variable (items : UInt16 → ItemType)

/-- What the total of a container lacks. -/
def lack (w : World) (c : Ref) : UInt32 :=
  Lib.defect w.itemlist (fun r => (w.item r).getWeight items) w.totalWeight c

theorem lack_eq (w : World) (c : Ref) : w.lack items c = ((w.itemlist c).map (w.getWeight items)).sum - w.totalWeight c :=
  rfl

variable {items}

theorem plain_getWeight (i : Item) : i.plain.getWeight items = i.getWeight items := rfl

theorem getWeight_congr (h : ∀ x, (w'.item x).plain = (w.item x).plain) :
    (fun r => (w'.item r).getWeight items) = fun r => (w.item r).getWeight items :=
  funext fun x => (plain_getWeight (w'.item x)).symm.trans ((congrArg _ (h x)).trans (plain_getWeight (w.item x)))

/-- Another list for a container. -/
theorem lack_of_itemlist (items : UInt16 → ItemType) (hplain : ∀ x, (w'.item x).plain = (w.item x).plain) (htot : w'.totalWeight = w.totalWeight)
    (hlist : w'.itemlist = Function.update w.itemlist c l) (y : Ref) :
    w'.lack items y = w.lack items y + if y = c then
      (l.map (w.getWeight items)).sum - ((w.itemlist c).map (w.getWeight items)).sum else 0 := by
  unfold lack Lib.defect
  rw [getWeight_congr hplain, htot, hlist]
  by_cases hy : y = c
  · subst hy
    rw [Function.update_self, if_pos rfl]
    have : w.getWeight items = fun r => (w.item r).getWeight items + w.totalWeight r := rfl
    rw [this]
    abel
  · rw [Function.update_of_ne hy, if_neg hy, add_zero]

theorem lack_updateItemWeight (h : w.Forest) (hc : w.isContainer c) (d : UInt32) (y : Ref) :
    (updateItemWeight w c d).lack items y = w.lack items y - if y = c then d else 0 := by
  have same := updateItemWeight_same w c d
  have := Lib.defect_addUp h.lists (fun r => (w.item r).getWeight items) d (h.ends c) w.totalWeight y
  unfold lack
  rw [getWeight_congr same.plain, same.itemlist]
  rw [← totalWeight_updateItemWeightLoop d w.next hc fun r p hr => h.isContainer hr] at this
  exact this

/-- An item changes inside a container, by itself. -/
theorem lack_modify (h : w.Forest) {f : Item → Item} (hf : ∀ i, (f i).container = i.container)
    (hc : w.getParentContainer r = some c) (y : Ref) :
    (w.modify r f).lack items y = w.lack items y + if y = c then
      (f (w.item r)).getWeight items - (w.item r).getWeight items else 0 := by
  have hlist : (w.modify r f).itemlist = w.itemlist :=
    proj_modify Item.getItemList (by unfold Item.getItemList; rw [hf])
  have htot : (w.modify r f).totalWeight = w.totalWeight :=
    proj_modify Item.getTotalWeight (by unfold Item.getTotalWeight; rw [hf])
  have hown := proj_modify_update (w := w) (r := r) (fun i => i.getWeight items) f
  have hd : (f (w.item r)).getWeight items =
      (w.item r).getWeight items + ((f (w.item r)).getWeight items - (w.item r).getWeight items) := by abel
  unfold lack Lib.defect
  rw [hlist, htot, hown, hd]
  simp only [add_comm _ (w.totalWeight _)]
  rw [Lib.sum_map_update (h.lists.nodup y) w.totalWeight, if_congr (h.lists.mem_iff r y) rfl rfl, hc,
    if_congr ((Option.some_inj).trans eq_comm) rfl rfl, ← hd]
  abel

end
end CrystalServer.World
