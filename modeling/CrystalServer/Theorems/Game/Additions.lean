import CrystalServer.Theorems.Game.AddItem

/-! # Adding items: what stays

An item that is added leaves everything else where it is, in containers, slots and outside, and brings no more than its
own units. So items can be added one after another. -/

namespace CrystalServer

/-- What was in memory stays where it was, but for one item that lay nowhere. -/
structure Keeps (w w' : World) (x : Ref) : Prop where
  next : w.next ≤ w'.next
  stays : ∀ r k, w.getParent r = some k → w'.getParent r = some k
  free : ∀ r, r < w.next → r ≠ x → w.getParent r = none → w'.getParent r = none
  container : ∀ r, r < w.next → w'.isContainer r = w.isContainer r
  id : ∀ r, r < w.next → (w'.item r).id = (w.item r).id

/-- The cylinders are in order after as before. -/
structure Orders (items : UInt16 → ItemType) (w w' : World) : Prop where
  carried : Carried items w'
  slotted : Slotted w → Slotted w'

variable {items : UInt16 → ItemType} {w w' w'' : World} {dest top : Cylinder} {x y t : Ref}

namespace Keeps

theorem refl (w : World) (x : Ref) : Keeps w w x := ⟨le_rfl, fun _ _ h => h, fun _ _ _ h => h, fun _ _ => rfl, fun _ _ => rfl⟩

theorem trans (h : Keeps w w' x) (h' : Keeps w' w'' y) (hy : y = x ∨ w.next ≤ y) : Keeps w w'' x where
  next := h.next.trans h'.next
  stays r k hr := h'.stays r k (h.stays r k hr)
  free r hr hrx hp := by
    refine h'.free r (hr.trans_le h.next) ?_ (h.free r hr hrx hp)
    rintro rfl
    rcases hy with hy | hy
    · exact hrx hy
    · exact absurd hr (not_lt.mpr hy)
  container r hr := (h'.container r (hr.trans_le h.next)).trans (h.container r hr)
  id r hr := (h'.id r (hr.trans_le h.next)).trans (h.id r hr)

theorem below {k k' : Cylinder} (h : Keeps w w' x) (hb : Lib.Below w.holder k k') : Lib.Below w'.holder k k' :=
  Lib.below_mono (fun a b hab => by
    cases a with
    | container r => exact h.stays r b hab
    | player p => exact nomatch hab) hb

theorem heldBy {p : PlayerRef} {c : Ref} (h : Keeps w w' x) (hc : HeldBy w p c) : HeldBy w' p c :=
  ⟨⟨(h.container c hc.1.2).trans hc.1.1, hc.1.2.trans_le h.next⟩, h.below hc.2⟩

end Keeps

theorem Orders.trans (h : Orders items w w') (h' : Orders items w' w'') : Orders items w w'' :=
  ⟨h'.carried, fun hs => h'.slotted (h.slotted hs)⟩

theorem Recounts.keeps {k : Nat} (h : Recounts w w' t k) (x : Ref) : Keeps w w' x where
  next := h.next.ge
  stays r k hr := (h.parent r).trans hr
  free r _ _ hr := (h.parent r).trans hr
  container r _ := h.container r
  id r _ := by
    by_cases hrt : r = t
    · rw [hrt, h.id]
    · have := congrArg Item.id (h.plain r hrt)
      exact this

theorem Recounts.orders {k : Nat} (h : Recounts w w' t k) (hw : Carried items w) : Orders items w w' where
  carried := h.carried hw
  slotted hs := by
    refine ⟨fun p r hr => ?_, fun p i j r hi hj => ?_⟩
    · rw [h.parent] at hr
      rw [h.players]
      exact hs.slot p r hr
    · rw [h.players] at hi hj
      exact hs.once p i j r hi hj

theorem keeps_new {i : Item} (hp : i.m_parent = none) (hw : Carried items w) (x : Ref) : Keeps w (w.new i) x := by
  have hnext : w.getParent w.next = none :=
    Option.eq_none_iff_forall_ne_some.mpr fun k hk => absurd (hw.made _ k hk) (lt_irrefl _)
  have hparent := World.getParent_new hp hnext
  refine ⟨Nat.le_succ _, fun r k hr => ?_, fun r _ _ hr => ?_, fun r hr => ?_, fun r hr => ?_⟩
  · rw [hparent]
    exact hr
  · rw [hparent]
    exact hr
  · rw [World.isContainer, World.item_new, Function.update_of_ne (Nat.ne_of_lt hr)]
    rfl
  · rw [World.item_new, Function.update_of_ne (Nat.ne_of_lt hr)]

theorem orders_new {i : Item} (hi : i.Fresh items) (hw : Carried items w) : Orders items w (w.new i) where
  carried := carried_new hi hw
  slotted hs := by
    have hnext : w.getParent w.next = none :=
      Option.eq_none_iff_forall_ne_some.mpr fun k hk => absurd (hw.made _ k hk) (lt_irrefl _)
    have hparent := World.getParent_new hi.free hnext
    refine ⟨fun p r hr => ?_, hs.once⟩
    rw [hparent] at hr
    exact hs.slot p r hr

namespace Game

/-! ### One call -/

variable {env : Env} {item : Ref}

/-- Which world a call comes to. -/
theorem addWorld_cases (hw : Carried env.items w) (hd : dest.InMemory w) (fuel : Nat) :
    let res := internalAddItemLoop env (fuel + 1) w dest item INDEX_WHEREEVER 0 false
    res.1 = w ∨
      AddLetThrough env w dest item ∧ mergeItem env w dest item = none ∧
        res.1 = (addPlace env w dest item).cylinder.addThing env w (addPlace env w dest item).index (some item) ∨
      ∃ t, mergeItem env w dest item = some t ∧ (res.1 = mergedWorld env w dest item t ∨
        room env.items (w.item t) < addTaken env w dest item ∧ res.1 = (remainderCall env w dest item fuel t).1) := by
  intro res
  have hres : res = _ := internalAddItemLoop_eq fuel
  split at hres
  · exact Or.inl (congrArg Prod.fst hres)
  rename_i hadds
  split at hres
  · exact Or.inl (congrArg Prod.fst hres)
  rename_i htakes
  cases hm : mergeItem env w dest item with
  | none =>
    rw [hm] at hres
    exact Or.inr (Or.inl ⟨⟨not_not.mp hadds, htakes⟩, rfl, congrArg Prod.fst hres⟩)
  | some t =>
    rw [hm] at hres
    dsimp only at hres
    refine Or.inr (Or.inr ⟨t, rfl, ?_⟩)
    by_cases hlt : room env.items (w.item t) < addTaken env w dest item
    · have hpos := (room_of_takesMore (mergeItem_spec hw hd hm).2.2.1).1
      have htaken := addTaken_le env w dest item
      have hnat := UInt32.lt_iff_toNat_lt.mp hlt
      rw [addRest_of_lt hlt, if_pos (by omega), if_pos (by rw [addCount_toNat]; omega)] at hres
      exact Or.inr ⟨hlt, by rw [hres]⟩
    · rw [addRest_of_le (UInt32.not_lt.mp hlt), if_neg (lt_irrefl _)] at hres
      exact Or.inl (congrArg Prod.fst hres)

/-! ### An empty slot -/

theorem equals_symm {r : Ref} (h : w.equals r t) : w.equals t r := by
  unfold World.equals at h ⊢
  simp only [Bool.and_eq_true, beq_iff_eq, List.all_eq_true, Bool.or_eq_true, bne_iff_ne, ne_eq, Bool.not_eq_true',
    Bool.and_eq_false_iff, bne_eq_false_iff_eq] at h ⊢
  obtain ⟨⟨⟨hid, hstore⟩, howner⟩, hall⟩ := h
  refine ⟨⟨⟨hid.symm, hstore.symm⟩, howner.symm⟩, fun b hb => ?_⟩
  by_cases hs : b.type = .store
  · exact Or.inl hs
  refine Or.inr fun a ha => ?_
  by_cases hab : a.type = b.type
  · rcases hall a ha with h | h
    · exact absurd (hab.symm.trans h) hs
    · rcases h b hb with h | h
      · exact absurd hab h
      · rw [hab] at h
        exact Or.inr (h.imp (Or.imp_right Eq.symm) (Or.imp_right Eq.symm))
  · exact Or.inl (Ne.symm hab)

/-- A slot that is found is empty, or holds a stack that the item goes on. -/
theorem slot_found {p : PlayerRef} {slots : List Nat} {containers : List Ref} {place : Place}
    (h : Player.queryDestinationSlots env w p item 0 slots containers = .inl place) :
    place.cylinder = .player p ∧ (place.destItem = none → (w.players p).inventory place.index.toNat = none) ∧
      ∀ t, place.destItem = some t → (w.item item).isStackable env.items ∧ w.equals t item := by
  induction slots generalizing containers with
  | nil => cases h
  | cons s slots ih =>
    unfold Player.queryDestinationSlots at h
    dsimp only at h
    cases hs : (w.players p).inventory s with
    | none =>
      rw [hs] at h
      dsimp only at h
      split_ifs at h
      · cases h
        exact ⟨rfl, fun _ => hs, by rintro _ ⟨⟩⟩
      · exact ih h
    | some k =>
      rw [hs] at h
      dsimp only at h
      split_ifs at h with h₁ h₂
      · exact ih h
      · cases h
        refine ⟨rfl, (by rintro ⟨⟩), fun t ht => ?_⟩
        cases ht
        exact ⟨h₂.2.1, (Bool.and_eq_true_iff.mp h₂.2.2.2).1⟩
      · exact ih h
      · exact ih h

theorem stack_found {p : PlayerRef} {c : Ref} {l containers : List Ref} {n : Nat} {place : Place}
    (h : Player.stackLoop env w p c item l n containers = .inl place) : ∃ c, place.cylinder = .container c := by
  induction l generalizing n containers with
  | nil => exact nomatch h
  | cons k l ih =>
    unfold Player.stackLoop at h
    split at h
    · exact ih h
    · split at h
      · cases h
        exact ⟨c, rfl⟩
      · exact ih h

theorem container_found {p : PlayerRef} (fuel : Nat) {containers : List Ref} {place : Place}
    (h : Player.queryDestinationContainers env w p item 0 fuel containers = some place) :
    ∃ c, place.cylinder = .container c := by
  induction fuel generalizing containers with
  | zero => exact nomatch h
  | succ fuel ih =>
    cases containers with
    | nil => exact nomatch h
    | cons c containers =>
      unfold Player.queryDestinationContainers at h
      dsimp only at h
      split at h
      · split at h
        · cases h
          exact ⟨c, rfl⟩
        · exact ih h
      · cases hs : Player.stackLoop env w p c item (w.itemlist c) 0 containers with
        | inl place' =>
          rw [hs] at h
          cases h
          exact stack_found hs
        | inr rest =>
          rw [hs] at h
          obtain ⟨n, containers'⟩ := rest
          dsimp only at h
          split at h
          · cases h
            exact ⟨c, rfl⟩
          · exact ih h

/-- Where a player puts an item anywhere. -/
theorem queryDestination_wherever (env : Env) (w : World) (p : PlayerRef) (item : Ref) {index : Int}
    (h : index = 0 ∨ index = INDEX_WHEREEVER) : (Cylinder.player p).queryDestination env w index item none 0 =
      match Player.queryDestinationSlots env w p item 0 (List.range' 1 10) [] with
      | .inl place => place
      | .inr containers => (Player.queryDestinationContainers env w p item 0 (w.next + 1) containers).getD
        ⟨.player p, index, none⟩ :=
  if_pos h

/-- Where an item comes to a slot of the player without a merge, the slot is empty. -/
theorem slot_empty {p q : PlayerRef} (hm : mergeItem env w (.player p) item = none)
    (hplace : (addPlace env w (.player p) item).cylinder = .player q)
    (htake : TakesPlace w (addPlace env w (.player p) item)) :
    (w.players q).inventory (addPlace env w (.player p) item).index.toNat = none := by
  have hcases : addPlace env w (.player p) item = _ := queryDestination_wherever env w p item (.inr rfl)
  unfold mergeItem at hm
  generalize addPlace env w (.player p) item = place at hm hplace htake hcases ⊢
  cases hslots : Player.queryDestinationSlots env w p item 0 (List.range' 1 10) [] with
  | inl found =>
    rw [hslots] at hcases
    obtain rfl := hcases
    obtain ⟨hcyl, hnone, hsome⟩ := slot_found hslots
    rw [hcyl] at hplace
    cases hplace
    cases hd : place.destItem with
    | none => exact hnone hd
    | some t =>
      obtain ⟨hs, heq⟩ := hsome t hd
      rw [hd, Option.filter_some, if_pos (Bool.and_eq_true_iff.mpr ⟨hs, equals_symm heq⟩)] at hm
      exact nomatch hm
  | inr containers =>
    rw [hslots] at hcases
    dsimp only at hcases
    cases hfound : Player.queryDestinationContainers env w p item 0 (w.next + 1) containers with
    | some found =>
      rw [hfound, Option.getD_some] at hcases
      obtain ⟨c, hc⟩ := container_found _ hfound
      rw [hcases, hc] at hplace
      exact nomatch hplace
    | none =>
      rw [hfound, Option.getD_none] at hcases
      rw [hcases] at htake
      exact absurd htake.1 (show ¬CONST_SLOT_FIRST ≤ INDEX_WHEREEVER by decide)

/-! ### `addThing` -/

theorem parent_setParent (w : World) (r : Ref) (k : Cylinder) :
    (w.setParent r k).getParent = Function.update w.getParent r (some k) :=
  World.proj_modify_update Item.m_parent _

/-- An item from outside comes to a slot of a player. -/
theorem forest_slot {p : PlayerRef} {slot : Nat} (hw : w.Forest) (hx : w.getParent x = none) :
    ((w.setParent x (.player p)).setInventory p slot (some x)).Forest := by
  have hpar : ((w.setParent x (.player p)).setInventory p slot (some x)).getParentContainer = w.getParentContainer := by
    funext r
    change ((w.setParent x (.player p)).getParent r).bind _ = (w.getParent r).bind _
    rw [parent_setParent]
    by_cases hr : r = x
    · rw [hr, Function.update_self, hx]
      rfl
    · rw [Function.update_of_ne hr]
  have hlist : ((w.setParent x (.player p)).setInventory p slot (some x)).itemlist = w.itemlist :=
    World.itemlist_setParent w x (.player p)
  refine ⟨?_, ?_, ?_⟩
  · rw [hpar, hlist]
    exact hw.lists
  · rw [hpar]
    exact hw.acyclic
  · rw [hpar]
    exact hw.made

theorem keeps_container {c : Ref} (hw : Carried items w) (hc : w.isContainer c) (hcn : c < w.next)
    (ho : Container.Outside w c x) (hx : w.getParent x = none) :
    Keeps w (Container.internalAddThing items w c (some x)) x ∧
      Orders items w (Container.internalAddThing items w c (some x)) := by
  have htouch := World.internalAddThing_touches items w c x
  have hself : (Container.internalAddThing items w c (some x)).getParent x = some (.container c) :=
    World.m_parent_internalAddThing
  have hother : ∀ r, r ≠ x → (Container.internalAddThing items w c (some x)).getParent r = w.getParent r := htouch.parent
  have hplain : ∀ r, ((Container.internalAddThing items w c (some x)).item r).plain = (w.item r).plain :=
    World.plain_internalAddThing
  have hid : ∀ r, ((Container.internalAddThing items w c (some x)).item r).id = (w.item r).id := fun r => by
    have := congrArg Item.id (hplain r)
    exact this
  have hne : ∀ r k, w.getParent r = some k → r ≠ x := fun r k hr hrx => by cases (hrx ▸ hr).symm.trans hx
  refine ⟨⟨htouch.next.ge, fun r k hr => (hother r (hne r k hr)).trans hr, fun r _ hrx hr => (hother r hrx).trans hr,
    fun r _ => htouch.isContainer r, fun r _ => hid r⟩,
    ⟨(Container.internalAddThing_spec items hw.forest hc hcn ho).1, fun r hr => ?_, fun p s r hr => ?_, fun r k hr => ?_⟩,
    fun hs => ⟨fun p r hr => ?_, fun p i j r hi hj => ?_⟩⟩
  · rw [htouch.isContainer] at hr
    have := hw.single r hr
    rwa [Item.isStackable, ← hid] at this
  · rw [htouch.players] at hr
    have := hw.slots p s r hr
    exact (hother r (hne r _ this)).trans this
  · rw [htouch.next]
    by_cases hrx : r = x
    · rw [hrx]
      exact ho.made
    · rw [hother r hrx] at hr
      exact hw.made r k hr
  · have hrx : r ≠ x := by
      rintro rfl
      cases hself.symm.trans hr
    rw [hother r hrx] at hr
    rw [htouch.players]
    exact hs.slot p r hr
  · rw [htouch.players] at hi hj
    exact hs.once p i j r hi hj

theorem keeps_slot {p : PlayerRef} {slot : Nat} (hw : Carried items w) (hx : w.getParent x = none) (hxn : x < w.next)
    (hslot : slot ∈ List.range' 1 11) (hempty : (w.players p).inventory slot = none) :
    Keeps w ((w.setParent x (.player p)).setInventory p slot (some x)) x ∧
      Orders items w ((w.setParent x (.player p)).setInventory p slot (some x)) := by
  have hpar : ((w.setParent x (.player p)).setInventory p slot (some x)).getParent =
      Function.update w.getParent x (some (.player p)) := parent_setParent w x (.player p)
  have hplain : ∀ r, (((w.setParent x (.player p)).setInventory p slot (some x)).item r).plain = (w.item r).plain :=
    fun r => World.plain_setParent (.player p)
  have hcon : ∀ r, ((w.setParent x (.player p)).setInventory p slot (some x)).isContainer r = w.isContainer r :=
    fun r => Bool.eq_iff_iff.mpr Container.isContainer_setParent
  have hid : ∀ r, (((w.setParent x (.player p)).setInventory p slot (some x)).item r).id = (w.item r).id := fun r => by
    have := congrArg Item.id (hplain r)
    exact this
  have hinv : ∀ q i, (((w.setParent x (.player p)).setInventory p slot (some x)).players q).inventory i =
      if q = p ∧ i = slot then some x else (w.players q).inventory i := fun q i => by
    change (Function.update w.players p _ q).inventory i = _
    by_cases hq : q = p
    · subst hq
      rw [Function.update_self]
      by_cases hi : i = slot
      · rw [hi, if_pos ⟨rfl, rfl⟩]
        exact Function.update_self ..
      · rw [if_neg fun h => hi h.2]
        exact Function.update_of_ne hi ..
    · rw [Function.update_of_ne hq, if_neg fun h => hq h.1]
  have hne : ∀ r k, w.getParent r = some k → r ≠ x := fun r k hr hrx => by cases (hrx ▸ hr).symm.trans hx
  have hnot : ∀ q i, (w.players q).inventory i ≠ some x := fun q i h => hne x _ (hw.slots q i x h) rfl
  refine ⟨⟨le_rfl, fun r k hr => ?_, fun r _ hrx hr => ?_, fun r _ => hcon r, fun r _ => hid r⟩,
    ⟨forest_slot hw.forest hx, fun r hr => ?_, fun q i r hr => ?_, fun r k hr => ?_⟩,
    fun hs => ⟨fun q r hr => ?_, fun q i j r hi hj => ?_⟩⟩
  · rw [hpar, Function.update_of_ne (hne r k hr)]
    exact hr
  · rw [hpar, Function.update_of_ne hrx]
    exact hr
  · rw [hcon] at hr
    have := hw.single r hr
    rwa [Item.isStackable, ← hid] at this
  · rw [hinv] at hr
    split_ifs at hr with h
    · cases hr
      rw [hpar, Function.update_self, h.1]
    · have := hw.slots q i r hr
      rw [hpar, Function.update_of_ne (hne r _ this)]
      exact this
  · by_cases hrx : r = x
    · exact hrx ▸ hxn
    · rw [hpar, Function.update_of_ne hrx] at hr
      exact hw.made r k hr
  · by_cases hrx : r = x
    · rw [hpar, hrx, Function.update_self] at hr
      cases hr
      exact ⟨slot, hslot, by rw [hinv, if_pos ⟨rfl, rfl⟩, hrx]⟩
    · rw [hpar, Function.update_of_ne hrx] at hr
      obtain ⟨i, hi, hir⟩ := hs.slot q r hr
      refine ⟨i, hi, ?_⟩
      rw [hinv, if_neg, hir]
      rintro ⟨rfl, rfl⟩
      cases hempty.symm.trans hir
  · rw [hinv] at hi hj
    split_ifs at hi hj with h h' h'
    · exact h.2.trans h'.2.symm
    · cases hi
      exact absurd hj (hnot q j)
    · cases hj
      exact absurd hi (hnot q i)
    · exact hs.once q i j r hi hj

theorem addThing_keeps (hw : Carried env.items w) (hd : dest.InMemory w) (hx : w.getParent item = none)
    (hxn : item < w.next) (h : AddLetThrough env w dest item) (hm : mergeItem env w dest item = none) :
    let w' := (addPlace env w dest item).cylinder.addThing env w (addPlace env w dest item).index (some item)
    Keeps w w' item ∧ Orders env.items w w' := by
  intro w'
  by_cases htake : TakesPlace w (addPlace env w dest item)
  swap
  · have hsame : w' = w := (addThing_held hw hd hx hxn h).2 htake
    rw [hsame]
    exact ⟨Keeps.refl w item, hw, id⟩
  have hp : Placed env w item dest (addPlace env w dest item) := placed hw hd
  have hmem := hp.inMemory
  have hadds := h.adds
  have hfree : w.getParentContainer item = none := by
    rw [World.getParentContainer, hx]
    rfl
  cases hk : (addPlace env w dest item).cylinder with
  | container c =>
    have hw' : w' = Container.addThing env.items w c (addPlace env w dest item).index (some item) := by
      change (addPlace env w dest item).cylinder.addThing _ _ _ _ = _
      rw [hk]
      rfl
    rw [hk] at hmem hadds
    obtain ⟨hne, hb⟩ := Container.queryAdd_noerror (hw.forest.ends _) hadds
    rw [TakesPlace, hk] at htake
    rw [hw', Container.addThing, if_neg (not_le.mpr htake)]
    exact keeps_container hw hmem.1 hmem.2 ⟨hfree, hxn, hne.symm, hb⟩ hx
  | player q =>
    have hdest : dest = .player q := by
      rcases hp.inside with hin | ⟨-, hb⟩
      · exact (hk.symm.trans hin).symm
      · rw [hk] at hb
        exact absurd hb (Lib.not_below_of_root rfl)
    subst hdest
    have hempty := slot_empty hm hk htake
    rw [TakesPlace, hk] at htake
    have hw' : w' = Player.addThing w q (addPlace env w (.player q) item).index (some item) := by
      change (addPlace env w (.player q) item).cylinder.addThing _ _ _ _ = _
      rw [hk]
      rfl
    have hslot : (addPlace env w (.player q) item).index.toNat ∈ List.range' 1 11 := by
      have h₁ : (1 : Int) ≤ (addPlace env w (.player q) item).index := htake.1
      have h₂ : (addPlace env w (.player q) item).index ≤ 11 := htake.2
      rw [List.mem_range'_1]
      omega
    rw [hw', Player.addThing, if_neg fun h => by
      rcases h with h | h
      · exact absurd htake.1 (not_le.mpr h)
      · exact absurd htake.2 (not_le.mpr h)]
    exact keeps_slot hw hx hxn hslot hempty

/-! ### All calls -/

theorem addLoop_keeps (fuel : Nat) (hw : Carried env.items w) (hd : dest.InMemory w) (hx : w.getParent item = none)
    (hxn : item < w.next) :
    let res := internalAddItemLoop env fuel w dest item INDEX_WHEREEVER 0 false
    Keeps w res.1 item ∧ Orders env.items w res.1 := by
  induction fuel generalizing w item with
  | zero => exact ⟨Keeps.refl w item, hw, id⟩
  | succ fuel ih =>
    intro res
    rcases addWorld_cases hw hd fuel with hres | ⟨hlet, hm, hres⟩ | ⟨t, hm, hres⟩
    · rw [show res.1 = w from hres]
      exact ⟨Keeps.refl w item, hw, id⟩
    · rw [show res.1 = _ from hres]
      exact addThing_keeps hw hd hx hxn hlet hm
    · obtain ⟨hs, -, htakes, hheld, hrec⟩ := mergeItem_spec hw hd hm
      have hmerge := hrec (.ofNat (w.item t).getItemCount + min (room env.items (w.item t)) (addTaken env w dest item))
      have hkeeps : Keeps w (mergedWorld env w dest item t) item := hmerge.keeps item
      have horders : Orders env.items w (mergedWorld env w dest item t) := hmerge.orders hw
      rcases hres with hres | ⟨hlt, hres⟩
      · rw [show res.1 = _ from hres]
        exact ⟨hkeeps, horders⟩
      · obtain ⟨hcarried, hmem, hfree, hnext, -⟩ := remainder_spec hw hd hx hm hlt
        obtain ⟨as, k, hclone⟩ := Item.clone_eq env.items ((mergedWorld env w dest item t).item item)
        obtain ⟨hcall, horder⟩ := ih hcarried hmem hfree hnext
        have hnew := keeps_new (i := ((((mergedWorld env w dest item t).item item).clone env.items).setItemCount
          (UInt8.ofInt (addRest env w dest item t)).toNat)) (by rw [hclone]; rfl) horders.carried item
        have hordernew := orders_new (i := ((((mergedWorld env w dest item t).item item).clone env.items).setItemCount
          (UInt8.ofInt (addRest env w dest item t)).toNat)) (Item.fresh_of_none (by rw [hclone]; rfl) (by rw [hclone]; rfl))
          horders.carried
        rw [show res.1 = _ from hres]
        exact ⟨(hkeeps.trans hnew (.inl rfl)).trans hcall (.inr hkeeps.next), (horders.trans hordernew).trans horder⟩

/-- The units of an id grow by what the item brings at most. -/
theorem addLoop_grows (fuel : Nat) (hw : Carried env.items w) (hd : dest.InMemory w) (htop : dest.Within w top)
    (hx : w.getParent item = none) (hxn : item < w.next)
    (hclone : (w.item item).isStackable env.items → cloneId (w.item item).id = (w.item item).id) (id : UInt16) :
    let res := internalAddItemLoop env fuel w dest item INDEX_WHEREEVER 0 false
    w.held env.items top id ≤ res.1.held env.items top id ∧
      res.1.held env.items top id ≤ w.held env.items top id + w.brought env.items item id := by
  induction fuel generalizing w item with
  | zero => exact ⟨le_rfl, Nat.le_add_right ..⟩
  | succ fuel ih =>
    intro res
    rcases addLevel hw hd hx hxn fuel with ⟨-, -, hworld, -⟩ | ⟨-, hm, -, hheld, hlost⟩ | ⟨t, -, hm, hle, -, hheld⟩ |
      ⟨t, -, hm, hlt, hworld, -⟩
    · rw [show res.1 = w from hworld]
      exact ⟨le_rfl, Nat.le_add_right ..⟩
    · by_cases hplace : TakesPlace w (addPlace env w dest item)
      · have hown : res.1.held env.items top id = _ := hheld hplace top htop id
        rw [hown]
        exact ⟨Nat.le_add_right .., le_rfl⟩
      · rw [show res.1 = w from hlost hplace]
        exact ⟨le_rfl, Nat.le_add_right ..⟩
    · obtain ⟨hs, -⟩ := mergeItem_spec hw hd hm
      have hown : res.1.held env.items top id = _ := hheld top htop id
      have htaken := addTaken_le env w dest item
      have hplain : ¬w.isContainer item := fun hc => absurd hs (by rw [hw.single item hc]; exact Bool.false_ne_true)
      rw [World.brought_single hw.forest hplain, Item.units, World.part_of_stackable hs]
      rw [World.part_of_stackable hs] at hown
      rw [hown]
      split_ifs <;> omega
    · obtain ⟨hs, -, htakes, -⟩ := mergeItem_spec hw hd hm
      obtain ⟨hcarried, hmem, hfree, hnext, hcont, hid, hcount, haround⟩ := remainder_spec hw hd hx hm hlt
      obtain ⟨hwithin, hheld⟩ := haround top htop
      rw [hclone hs] at hid
      have hplain : ¬w.isContainer item := fun hc => absurd hs (by rw [hw.single item hc]; exact Bool.false_ne_true)
      have hsrest : ((remainderWorld env w dest item t).item (mergedWorld env w dest item t).next).isStackable
          env.items := by
        rw [Item.isStackable, hid]
        exact hs
      obtain ⟨hmore, hmost⟩ := ih hcarried hmem hwithin hfree hnext fun _ => by rw [hid, hclone hs]
      rw [World.brought_single hcarried.forest hcont, Item.units, World.part_of_stackable hsrest, hid, hcount] at hmost
      have hstart := hheld id
      have htaken := addTaken_le env w dest item
      have hroom := UInt32.lt_iff_toNat_lt.mp hlt
      have hres : res.1 = (remainderCall env w dest item fuel t).1 := hworld
      change _ ≤ (remainderCall env w dest item fuel t).1.held env.items top id at hmore
      change (remainderCall env w dest item fuel t).1.held env.items top id ≤ _ at hmost
      rw [World.brought_single hw.forest hplain, Item.units, World.part_of_stackable hs, hres]
      rw [World.part_of_stackable hs] at hstart
      split_ifs at hstart hmost ⊢ <;> omega

/-- A call leaves the rest in order. -/
theorem internalAddItem_keeps (hw : Carried env.items w) (hd : dest.InMemory w) (hx : w.getParent item = none)
    (hxn : item < w.next) :
    Keeps w (internalAddItem env w dest item INDEX_WHEREEVER 0 false).1 item ∧
      Orders env.items w (internalAddItem env w dest item INDEX_WHEREEVER 0 false).1 :=
  addLoop_keeps _ hw hd hx hxn

theorem internalAddItem_grows (hw : Carried env.items w) (hd : dest.InMemory w) (htop : dest.Within w top)
    (hx : w.getParent item = none) (hxn : item < w.next)
    (hclone : (w.item item).isStackable env.items → cloneId (w.item item).id = (w.item item).id) (id : UInt16) :
    w.held env.items top id ≤ (internalAddItem env w dest item INDEX_WHEREEVER 0 false).1.held env.items top id ∧
      (internalAddItem env w dest item INDEX_WHEREEVER 0 false).1.held env.items top id ≤
        w.held env.items top id + w.brought env.items item id :=
  addLoop_grows _ hw hd htop hx hxn hclone id

end Game
end CrystalServer
