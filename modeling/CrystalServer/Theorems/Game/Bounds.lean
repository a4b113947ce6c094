import CrystalServer.Game.TileMoves
import CrystalServer.Theorems.Game.Cylinders

/-! # Moving and adding: capacity and stack sizes

What a call takes away keeps a container below its capacity and leaves no empty stack. What it puts in keeps it there
just when the container has a free slot and the stack is sound: the queries do not see to this everywhere. -/

namespace CrystalServer
open World Container

/-- A stack is neither empty nor above its size. -/
def Item.Sound (items : UInt16 → ItemType) (i : Item) : Prop :=
  i.isStackable items → 1 ≤ i.getItemCount ∧ i.getItemCount ≤ i.getStackSize items

namespace World

/-- One of the containers `S` that has no pagination. -/
def Limited (w : World) (S : Set Ref) (c : Ref) : Prop := c ∈ S ∧ w.isContainer c ∧ ¬hasPagination w c

/-- The containers of `S` without pagination are not above their capacity, and the stacks in them are sound. -/
def Bounded (items : UInt16 → ItemType) (S : Set Ref) (w : World) : Prop :=
  ∀ c, w.Limited S c → size w c ≤ (capacity w c).toNat ∧ ∀ r ∈ w.itemlist c, (w.item r).Sound items

/-- The lists lead to items in memory. -/
def Listed (w : World) : Prop := ∀ c r, r ∈ w.itemlist c → r < w.next

/-- The containers are the same and as large as before. -/
structure SameSizes (w w' : World) : Prop where
  limited : ∀ {S : Set Ref} c, w'.Limited S c ↔ w.Limited S c
  capacity : ∀ c, Container.capacity w' c = Container.capacity w c

variable {items : UInt16 → ItemType} {S : Set Ref} {w w' w'' : World} {c x : Ref}

theorem sameSizes_of_proj (h : ∀ c, (w'.item c).container.map (fun k => (k.maxSize, k.pagination)) =
    (w.item c).container.map fun k => (k.maxSize, k.pagination)) : SameSizes w w' := by
  have hproj : ∀ {β : Type} (g : UInt16 × Bool → β) (d : β) (c : Ref),
      ((w'.item c).container.map fun k => g (k.maxSize, k.pagination)).getD d =
        ((w.item c).container.map fun k => g (k.maxSize, k.pagination)).getD d := fun g d c => by
    have := congrArg (fun o => (o.map g).getD d) (h c)
    rwa [Option.map_map, Option.map_map] at this
  refine ⟨fun c => and_congr_right' (and_congr ?_ (not_congr ?_)), fun c => hproj (fun k => k.1.toUInt32) 0 c⟩
  · have := congrArg Option.isSome (h c)
    rw [Option.isSome_map, Option.isSome_map] at this
    exact iff_of_eq (congrArg (· = true) this)
  · exact iff_of_eq (congrArg (· = true) (hproj (·.2) false c))

theorem Listed.loosens (h : w.Listed) (hl : Loosens w w') : w'.Listed := fun c r hr => by
  rcases hl.listed c r hr with hr | hr
  · exact (h c r hr).trans_le hl.next
  · exact hr

namespace SameSizes

theorem trans (h : SameSizes w w') (h' : SameSizes w' w'') : SameSizes w w'' :=
  ⟨fun c => (h'.limited c).trans (h.limited c), fun c => (h'.capacity c).trans (h.capacity c)⟩

theorem modify {r : Ref} {f : Item → Item} (hf : ((f (w.item r)).container.map fun k => (k.maxSize, k.pagination)) =
    (w.item r).container.map fun k => (k.maxSize, k.pagination)) : SameSizes w (w.modify r f) :=
  sameSizes_of_proj (congrFun (proj_modify (fun i => i.container.map fun k => (k.maxSize, k.pagination)) hf))

theorem setItemlist (w : World) (c : Ref) (l : List Ref) : SameSizes w (w.setItemlist c l) :=
  modify (Option.map_map _ _ _)

theorem same (h : SameButTotals w w') : SameSizes w w' :=
  sameSizes_of_proj (h.proj (fun k => (k.maxSize, k.pagination)) fun _ _ => rfl)

end SameSizes

/-- Lists that hold what they held, with what was sound still sound. -/
theorem Bounded.mono (h : w.Bounded items S) (hs : SameSizes w w') (hl : ∀ c, (w'.itemlist c).Sublist (w.itemlist c))
    (hi : ∀ c, w.Limited S c → ∀ r ∈ w'.itemlist c, (w.item r).Sound items → (w'.item r).Sound items) :
    w'.Bounded items S := fun c hc => by
  have hc' := (hs.limited c).mp hc
  obtain ⟨hsize, hsound⟩ := h c hc'
  refine ⟨?_, fun r hr => hi c hc' r hr (hsound r ((hl c).subset hr))⟩
  rw [hs.capacity]
  exact (hl c).length_le.trans hsize

theorem sound_plain (i : Item) : i.plain.Sound items ↔ i.Sound items := Iff.rfl

theorem sound_congr {i j : Item} (h : i.plain = j.plain) : i.Sound items ↔ j.Sound items := by
  rw [← sound_plain i, h, sound_plain]

/-- Nothing changes but what the containers do not show. -/
theorem bounded_congr (hs : SameSizes w w') (hl : w'.itemlist = w.itemlist)
    (hp : ∀ r, (w'.item r).plain = (w.item r).plain) : w'.Bounded items S ↔ w.Bounded items S := by
  refine forall_congr' fun c => imp_congr (hs.limited c) ?_
  rw [hs.capacity, size, size, hl]
  exact and_congr_right' (forall₂_congr fun r _ => sound_congr (hp r))

/-- Another item comes into a container. -/
theorem bounded_cons (h : w.Bounded items S) : (w.setItemlist c (x :: w.itemlist c)).Bounded items S ↔
    (w.Limited S c → size w c < (Container.capacity w c).toNat ∧ (w.item x).Sound items) := by
  have hs := SameSizes.setItemlist w c (x :: w.itemlist c)
  have hsound : ∀ r, ((w.setItemlist c (x :: w.itemlist c)).item r).Sound items ↔ (w.item r).Sound items :=
    fun r => sound_congr (plain_setItemlist _)
  constructor
  · intro h' hc
    obtain ⟨hsize, hall⟩ := h' c ((hs.limited c).mpr hc)
    have hlist : (w.setItemlist c (x :: w.itemlist c)).itemlist c = x :: w.itemlist c := by
      rw [itemlist_setItemlist hc.2.1, Function.update_self]
    rw [size, hlist, hs.capacity] at hsize
    rw [hlist] at hall
    exact ⟨hsize, (hsound x).mp (hall x List.mem_cons_self)⟩
  · intro hx d hd
    have hd' := (hs.limited d).mp hd
    obtain ⟨hsize, hall⟩ := h d hd'
    rw [hs.capacity, size]
    by_cases hdc : d = c
    · subst hdc
      have hlist : (w.setItemlist d (x :: w.itemlist d)).itemlist d = x :: w.itemlist d := by
        rw [itemlist_setItemlist hd'.2.1, Function.update_self]
      rw [hlist]
      refine ⟨(hx hd').1, fun r hr => (hsound r).mpr ?_⟩
      rcases List.mem_cons.mp hr with rfl | hr
      · exact (hx hd').2
      · exact hall r hr
    · have hlist : (w.setItemlist c (x :: w.itemlist c)).itemlist d = w.itemlist d := by
        unfold World.itemlist World.setItemlist
        rw [item_modify, Function.update_of_ne hdc]
      rw [hlist]
      exact ⟨hsize, fun r hr => (hsound r).mpr (hall r hr)⟩

end World

/-! ### What comes in -/

/-- What the cylinder has a free slot for, unless it does not take the index. -/
def Cylinder.Takes (items : UInt16 → ItemType) (S : Set Ref) (w : World) (index : Int) (i : Item) : Cylinder → Prop
  | .container c => w.Limited S c → index < (capacity w c).toNat → size w c < (capacity w c).toNat ∧ i.Sound items
  | .player _ => True

variable {env : Env} {items : UInt16 → ItemType} {S : Set Ref} {w w' : World} {x : Ref}

theorem bounded_setParent (w : World) (x : Ref) (k : Cylinder) : (w.setParent x k).Bounded items S ↔ w.Bounded items S :=
  bounded_congr (.modify rfl) (itemlist_setParent w x k) fun _ => plain_setParent k

theorem bounded_resetParent (w : World) (x : Ref) : (w.resetParent x).Bounded items S ↔ w.Bounded items S :=
  bounded_congr (.modify rfl) (itemlist_resetParent w x) fun _ => plain_resetParent

theorem bounded_updateItemWeight (w : World) (c : Ref) (d : UInt32) :
    (updateItemWeight w c d).Bounded items S ↔ w.Bounded items S := by
  have hsame := updateItemWeight_same w c d
  exact bounded_congr (.same hsame) hsame.itemlist hsame.plain

theorem bounded_internalAddThing (c : Ref) (h : w.Bounded items S) : (internalAddThing items w c (some x)).Bounded items S ↔
    (w.Limited S c → size w c < (capacity w c).toNat ∧ (w.item x).Sound items) := by
  have hs : SameSizes w (w.setParent x (.container c)) := .modify rfl
  have hlist := itemlist_setParent w x (.container c)
  have hcons := bounded_cons (c := c) (x := x) ((bounded_setParent w x (.container c)).mpr h)
  rw [hs.limited, hs.capacity, size, hlist, sound_congr (plain_setParent (.container c))] at hcons
  exact (bounded_updateItemWeight _ c _).trans hcons

theorem Cylinder.bounded_addThing (index : Int) (k : Cylinder) (h : w.Bounded env.items S) :
    (k.addThing env w index (some x)).Bounded env.items S ↔ k.Takes env.items S w index (w.item x) := by
  cases k with
  | player p =>
    refine iff_of_true ?_ trivial
    simp only [Cylinder.addThing, Player.addThing]
    split
    · exact h
    · exact (bounded_setParent w x (.player p)).mpr h
  | container c =>
    simp only [Cylinder.addThing, Container.addThing, Cylinder.Takes]
    split
    · rename_i hge
      exact iff_of_true h fun _ hlt => absurd hge (not_le.mpr hlt)
    · rename_i hlt
      exact (bounded_internalAddThing c h).trans (imp_congr_right fun _ => ⟨fun h' _ => h', fun h' => h' (not_le.mp hlt)⟩)

/-! ### What changes in place or goes out -/

/-- An item changes, and is sound if it was. -/
theorem bounded_modify {f : Item → Item} (h : w.Bounded items S)
    (hc : (f (w.item x)).container = (w.item x).container) (hs : (w.item x).Sound items → (f (w.item x)).Sound items) :
    (w.modify x f).Bounded items S := by
  have hlist : (w.modify x f).itemlist = w.itemlist :=
    proj_modify Item.getItemList (by unfold Item.getItemList; rw [hc])
  refine h.mono (.modify (by rw [hc])) (fun c => ?_) fun c _ r _ hr => ?_
  · rw [hlist]
  · rw [item_modify]
    by_cases hrx : r = x
    · subst hrx
      rw [Function.update_self]
      exact hs hr
    · rwa [Function.update_of_ne hrx]

/-- What is left of a stack that loses a part. -/
theorem Item.Sound.part {i : Item} {count : UInt32} (h : i.Sound items) (hs : i.isStackable items)
    (hle : count.toNat ≤ i.getItemCount) (hne : count.toNat ≠ i.getItemCount) :
    (i.setItemCount (countLeft i count)).Sound items := fun _ => by
  obtain ⟨-, hsize⟩ := h hs
  have hlt : i.getItemCount < 256 := i.count.toNat_lt
  have hleft : (i.setItemCount (countLeft i count)).getItemCount = i.getItemCount - count.toNat := by
    rw [Item.setItemCount, countLeft_eq hle, Item.getItemCount, UInt8.toNat_ofNat', Nat.mod_eq_of_lt (by omega)]
  have hstack : (i.setItemCount (countLeft i count)).getStackSize items = i.getStackSize items := rfl
  rw [hleft, hstack]
  omega

/-- What `queryRemove` sees to. -/
structure MayTake (items : UInt16 → ItemType) (w : World) (x : Ref) (count : UInt32) : Prop where
  pos : 0 < count.toNat
  le : (w.item x).isStackable items → count.toNat ≤ (w.item x).getItemCount

theorem MayTake.congr {count : UInt32} (h : MayTake items w' x count)
    (hp : (w'.item x).plain = (w.item x).plain) : MayTake items w x count := by
  have hid : (w'.item x).id = (w.item x).id := by
    have := congrArg Item.id hp
    exact this
  have hcount : (w'.item x).getItemCount = (w.item x).getItemCount := by
    have := congrArg Item.getItemCount hp
    exact this
  refine ⟨h.pos, fun hs => ?_⟩
  rw [← hcount]
  refine h.le ?_
  rwa [Item.isStackable, hid]

theorem bounded_part {count : UInt32} (h : w.Bounded items S) (hq : MayTake items w x count)
    (hcount : (w.item x).isStackable items ∧ count.toNat ≠ (w.item x).getItemCount) :
    (w.modify x (·.setItemCount (countLeft (w.item x) count))).Bounded items S :=
  bounded_modify h rfl fun hs => hs.part hcount.1 (hq.le hcount.1) hcount.2

theorem Container.bounded_removeThing (c : Ref) {count : UInt32} (h : w.Bounded items S) (hq : MayTake items w x count) :
    (Container.removeThing items w c x count).Bounded items S := by
  by_cases hx : x ∈ w.itemlist c
  · by_cases hcount : (w.item x).isStackable items ∧ count.toNat ≠ (w.item x).getItemCount
    · rw [removeThing_part hx hcount]
      exact (bounded_updateItemWeight _ c _).mpr (bounded_part h hq hcount)
    · rw [removeThing_whole hx hcount]
      have hout := (bounded_resetParent (updateItemWeight w c (-w.getWeight items x)) x).mpr
        ((bounded_updateItemWeight w c _).mpr h)
      have hlist : ((updateItemWeight w c (-w.getWeight items x)).resetParent x).itemlist = w.itemlist :=
        (itemlist_resetParent _ x).trans (updateItemWeight_same w c _).itemlist
      refine hout.mono (.setItemlist _ c _) (fun d => ?_) fun _ _ r _ => (sound_congr (plain_setItemlist _)).mpr
      have hc := isContainer_resetParent (r := x) |>.mpr
        ((updateItemWeight_same w c (-w.getWeight items x)).isContainer.mpr (isContainer_of_mem hx))
      rw [itemlist_setItemlist hc, hlist]
      by_cases hdc : d = c
      · rw [hdc, Function.update_self]
        exact List.erase_sublist
      · rw [Function.update_of_ne hdc]
  · rw [Container.removeThing, if_neg hx]
    exact h

theorem Cylinder.bounded_removeThing (k : Cylinder) {count : UInt32} (h : w.Bounded env.items S)
    (hq : MayTake env.items w x count) : (k.removeThing env w x count).Bounded env.items S := by
  cases k with
  | container c => exact Container.bounded_removeThing c h hq
  | player p =>
    simp only [Cylinder.removeThing, Player.removeThing]
    split
    · exact h
    split
    · rename_i hcount
      exact bounded_part h hq hcount
    · exact (bounded_resetParent w x).mpr h

theorem Cylinder.mayTake {k : Cylinder} {count flags : UInt32} (h : k.queryRemove env w x count flags = .NOERROR) :
    MayTake env.items w x count := by
  cases k with
  | container c =>
    obtain ⟨-, hpos, hle⟩ := queryRemove_noerror h
    exact ⟨hpos, hle⟩
  | player p =>
    simp only [Cylinder.queryRemove, Player.queryRemove] at h
    split at h
    · exact nomatch h
    split at h
    · exact nomatch h
    rename_i hcount
    obtain ⟨h0, hle⟩ := not_or.mp hcount
    exact ⟨Nat.pos_of_ne_zero fun hz => h0 (UInt32.toNat_inj.mp hz), fun hs => not_lt.mp fun hlt => hle ⟨hs, hlt⟩⟩

/-! ### Stacks that take more -/

/-- How much of an amount a stack takes. -/
def stackTakes (items : UInt16 → ItemType) (i : Item) (m : UInt32) : UInt32 :=
  min (.ofNat (i.getStackSize items) - .ofNat i.getItemCount) m

theorem Item.Sound.merged {i : Item} (h : i.Sound items) (hs : i.isStackable items) (m : UInt32) :
    ((i.setID items i.id).setSubType items (.ofNat i.getItemCount + stackTakes items i m).toUInt16).Sound items := by
  obtain ⟨as, he⟩ := Item.plain_setID_setSubType hs (UInt32.toUInt16 (.ofNat i.getItemCount + stackTakes items i m))
  rw [he]
  intro _
  obtain ⟨hpos, hsize⟩ := h hs
  have hstack : i.getStackSize items < 256 := by
    rw [Item.getStackSize, if_pos hs]
    exact (items i.id).stackSize.toNat_lt
  have hroom : (UInt32.ofNat (i.getStackSize items) - .ofNat i.getItemCount).toNat =
      i.getStackSize items - i.getItemCount := by
    rw [UInt32.toNat_sub, UInt32.toNat_ofNat', UInt32.toNat_ofNat']
    omega
  have htakes : (stackTakes items i m).toNat ≤ i.getStackSize items - i.getItemCount := by
    rw [← hroom, stackTakes]
    rcases UInt32.le_total (.ofNat (i.getStackSize items) - .ofNat i.getItemCount) m with hle | hle
    · rw [show min _ m = _ from if_pos hle]
    · rw [Game.min_of_le hle]
      exact UInt32.le_iff_toNat_le.mp hle
  have hsum : (UInt32.toUInt16 (.ofNat i.getItemCount + stackTakes items i m)).toNat =
      i.getItemCount + (stackTakes items i m).toNat := by
    rw [UInt32.toNat_toUInt16, UInt32.toNat_add, UInt32.toNat_ofNat']
    omega
  have hcount : (⟨i.id, .ofNat (UInt32.toUInt16 (.ofNat i.getItemCount + stackTakes items i m)).toNat, as, i.m_parent,
      i.container⟩ : Item).getItemCount = i.getItemCount + (stackTakes items i m).toNat := by
    rw [Item.getItemCount, hsum, UInt8.toNat_ofNat', Nat.mod_eq_of_lt (by omega)]
  have hsame : (⟨i.id, .ofNat (UInt32.toUInt16 (.ofNat i.getItemCount + stackTakes items i m)).toNat, as, i.m_parent,
      i.container⟩ : Item).getStackSize items = i.getStackSize items := rfl
  rw [hcount, hsame]
  omega

theorem bounded_merged (h : w.Bounded items S) (hs : (w.item x).isStackable items) (m : UInt32) :
    (w.modify x fun i => (i.setID items (w.item x).id).setSubType items
      (UInt32.toUInt16 (.ofNat (w.item x).getItemCount + stackTakes items (w.item x) m))).Bounded items S := by
  refine bounded_modify h ?_ fun hx => hx.merged hs m
  obtain ⟨as, n, he⟩ := Item.setID_setSubType_eq items (w.item x) (w.item x).id
    (UInt32.toUInt16 (.ofNat (w.item x).getItemCount + stackTakes items (w.item x) m))
  rw [he]

theorem Cylinder.bounded_updateThing (k : Cylinder) (h : w.Bounded env.items S) (hs : (w.item x).isStackable env.items)
    (m : UInt32) : (k.updateThing env w x (w.item x).id
      (.ofNat (w.item x).getItemCount + stackTakes env.items (w.item x) m)).Bounded env.items S := by
  cases k with
  | container c =>
    simp only [Cylinder.updateThing]
    by_cases hx : x ∈ w.itemlist c
    · rw [updateThing_of_mem hx]
      exact (bounded_updateItemWeight _ c _).mpr (bounded_merged h hs m)
    · rw [Container.updateThing, if_neg hx]
      exact h
  | player p =>
    simp only [Cylinder.updateThing, Player.updateThing]
    split
    · exact h
    · exact bounded_merged h hs m

/-! ### Taking away and putting in -/

theorem sameSizes_internalAddThing (items : UInt16 → ItemType) (w : World) (c x : Ref) :
    SameSizes w (internalAddThing items w c (some x)) :=
  ((SameSizes.modify rfl).trans (.setItemlist _ c _)).trans (.same (updateItemWeight_same _ c _))

theorem itemlist_internalAddThing (items : UInt16 → ItemType) {c : Ref} (hc : w.isContainer c) (x : Ref) :
    (internalAddThing items w c (some x)).itemlist = Function.update w.itemlist c (x :: w.itemlist c) := by
  refine (updateItemWeight_same _ c _).itemlist.trans ?_
  rw [itemlist_setItemlist (isContainer_setParent.mpr hc), itemlist_setParent]

theorem itemlist_removeThing {c : Ref} (hx : x ∈ w.itemlist c) (count : UInt32) :
    (Container.removeThing items w c x count).itemlist =
      if (w.item x).isStackable items ∧ count.toNat ≠ (w.item x).getItemCount then w.itemlist
      else Function.update w.itemlist c ((w.itemlist c).erase x) := by
  split
  · rename_i hcount
    rw [removeThing_part hx hcount]
    refine (updateItemWeight_same _ c _).itemlist.trans ?_
    exact proj_modify Item.getItemList rfl
  · rename_i hcount
    rw [removeThing_whole hx hcount]
    have hc := isContainer_resetParent (r := x) |>.mpr
      ((updateItemWeight_same w c (-w.getWeight items x)).isContainer.mpr (isContainer_of_mem hx))
    rw [itemlist_setItemlist hc, itemlist_resetParent, (updateItemWeight_same w c _).itemlist]

theorem sameSizes_removeThing (items : UInt16 → ItemType) {c : Ref} (hx : x ∈ w.itemlist c) (count : UInt32) :
    SameSizes w (Container.removeThing items w c x count) := by
  by_cases hcount : (w.item x).isStackable items ∧ count.toNat ≠ (w.item x).getItemCount
  · rw [removeThing_part hx hcount]
    exact .trans (.modify rfl) (.same (updateItemWeight_same _ c _))
  · rw [removeThing_whole hx hcount]
    exact ((SameSizes.same (updateItemWeight_same w c _)).trans (.modify rfl)).trans (.setItemlist _ c _)

theorem plain_removeThing {c : Ref} (hx : x ∈ w.itemlist c) (count : UInt32) (r : Ref) :
    ((Container.removeThing items w c x count).item r).plain =
      if r = x ∧ (w.item x).isStackable items ∧ count.toNat ≠ (w.item x).getItemCount then
        ((w.item x).setItemCount (countLeft (w.item x) count)).plain
      else (w.item r).plain := by
  by_cases hcount : (w.item x).isStackable items ∧ count.toNat ≠ (w.item x).getItemCount
  · by_cases hrx : r = x
    · rw [if_pos ⟨hrx, hcount⟩, hrx]
      exact plain_removeThing_part hx hcount
    · rw [if_neg fun h => hrx h.1]
      exact (removeThing_touches items hx count).plain r hrx
  · rw [if_neg fun h => hcount h.2]
    exact plain_removeThing_whole hx hcount r

/-- One thing comes in and another goes out, in either order. -/
theorem bounded_swap {c t : Ref} (hx : x ∈ w.itemlist c) (hne : t ≠ x) (count : UInt32)
    (hw' : ∀ r, (w'.item r).plain = (w.item r).plain) (hs : SameSizes w w') (hl : w'.itemlist = w.itemlist) :
    (Container.removeThing items (internalAddThing items w' c (some t)) c x count).Bounded items S ↔
      (internalAddThing items (Container.removeThing items w c x count) c (some t)).Bounded items S := by
  have hc := isContainer_of_mem hx
  have hx' : x ∈ w'.itemlist c := by rwa [hl]
  have hc' := isContainer_of_mem hx'
  have hplain₁ : ∀ r, ((internalAddThing items w' c (some t)).item r).plain = (w.item r).plain := fun r =>
    (plain_internalAddThing r).trans (hw' r)
  have hid : ((internalAddThing items w' c (some t)).item x).id = (w.item x).id := by
    have := congrArg Item.id (hplain₁ x)
    exact this
  have hcnt : ((internalAddThing items w' c (some t)).item x).getItemCount = (w.item x).getItemCount := by
    have := congrArg Item.getItemCount (hplain₁ x)
    exact this
  have hst : ((internalAddThing items w' c (some t)).item x).isStackable items = (w.item x).isStackable items := by
    rw [Item.isStackable, hid, Item.isStackable]
  have hlist₁ := itemlist_internalAddThing items hc' t
  rw [hl] at hlist₁
  have hx₁ : x ∈ (internalAddThing items w' c (some t)).itemlist c := by
    rw [hlist₁, Function.update_self]
    exact List.mem_cons_of_mem t hx
  have hc₂ : (Container.removeThing items w c x count).isContainer c := by
    rw [(removeThing_touches items hx count).isContainer]
    exact hc
  have hsize : SameSizes (internalAddThing items (Container.removeThing items w c x count) c (some t))
      (Container.removeThing items (internalAddThing items w' c (some t)) c x count) := by
    have h₁ := (hs.trans (sameSizes_internalAddThing items w' c t)).trans (sameSizes_removeThing items hx₁ count)
    have h₂ := (sameSizes_removeThing items hx count).trans (sameSizes_internalAddThing items _ c t)
    exact ⟨fun d => (h₁.limited d).trans (h₂.limited d).symm, fun d => (h₁.capacity d).trans (h₂.capacity d).symm⟩
  refine bounded_congr hsize ?_ fun r => ?_
  · rw [itemlist_removeThing hx₁, itemlist_internalAddThing items hc₂, itemlist_removeThing hx, hst, hcnt, hlist₁]
    split
    · rfl
    · rw [Function.update_self, Function.update_idem, Function.update_self, Function.update_idem,
        List.erase_cons_tail (by simpa using hne)]
  · rw [plain_removeThing hx₁, hplain₁, plain_internalAddThing, plain_removeThing hx, hst, hcnt]
    split
    · have hleft : countLeft ((internalAddThing items w' c (some t)).item x) count = countLeft (w.item x) count := by
        have := congrArg (countLeft · count) (hplain₁ x)
        exact this
      rw [hleft]
      exact congrArg (fun i => (i.setItemCount (countLeft (w.item x) count))) (hplain₁ x)
    · rfl

/-! ### New items -/

theorem item_new_of_lt {i : Item} {r : Ref} (hr : r < w.next) : (w.new i).item r = w.item r :=
  Function.update_of_ne (Nat.ne_of_lt hr) ..

theorem bounded_new (hw : w.Listed) {i : Item} (hc : i.container = none) (h : w.Bounded items S) :
    (w.new i).Bounded items S := fun c hlim => by
  have hcn : c ≠ w.next := by
    rintro rfl
    have := hlim.2.1
    rw [isContainer, item_new, Function.update_self, hc] at this
    exact Bool.false_ne_true this
  have hitem : (w.new i).item c = w.item c := Function.update_of_ne hcn ..
  have hlist : (w.new i).itemlist c = w.itemlist c := by rw [World.itemlist, World.itemlist, hitem]
  have hlim' : w.Limited S c := by
    unfold Limited hasPagination containerField isContainer at hlim ⊢
    rwa [hitem] at hlim
  obtain ⟨hsize, hall⟩ := h c hlim'
  have hcap : capacity (w.new i) c = capacity w c := by rw [capacity, capacity, hitem]
  rw [hcap, size, hlist]
  refine ⟨hsize, fun r hr => ?_⟩
  rw [item_new_of_lt (hw c r hr)]
  exact hall r hr

theorem Cylinder.takes_new {k : Cylinder} (hk : k.Made w.next) (index : Int) (i j : Item) :
    k.Takes items S (w.new i) index j ↔ k.Takes items S w index j := by
  cases k with
  | player p => exact Iff.rfl
  | container c =>
    have hitem := item_new_of_lt (i := i) (hk c rfl)
    simp only [Cylinder.Takes, Limited, hasPagination, containerField, isContainer, capacity, size, World.itemlist, hitem]

/-- A new item is put in. -/
theorem Cylinder.bounded_addThing_new (hw : w.Listed) (h : w.Bounded env.items S) {k : Cylinder} (hk : k.Made w.next)
    {i : Item} (hc : i.container = none) (index : Int) :
    (k.addThing env (w.new i) index (some w.next)).Bounded env.items S ↔ k.Takes env.items S w index i := by
  have hitem : (w.new i).item w.next = i := Function.update_self ..
  rw [k.bounded_addThing index (bounded_new hw hc h), k.takes_new hk, hitem]

/-! ### Adding -/

namespace Virtual

/-- What a call of `internalAddItem` puts in, be it the item or a rest of it, finds a free slot and is sound. -/
def AddFits (env : Env) (classOf : Ref → ContainerClass) (S : Set Ref) : Nat → World → Cylinder → Ref → Int → Bool → Prop
  | 0, _, _, _, _, _ => True
  | fuel + 1, w, destCylinder, item, index, test =>
    let itemCount := UInt32.ofNat (w.item item).getItemCount
    let place := queryDestination env classOf w index item none 0 destCylinder
    let (ret, maxQueryCount) := destCylinder.queryMaxCount env w INDEX_WHEREEVER item itemCount 0
    cylinderQueryAdd env classOf w place.index item itemCount 0 false place.cylinder ≠ .NOERROR ∨
      ret ≠ .NOERROR ∧ (destCylinder.getItem.any fun addedItem => (w.item addedItem).id != ITEM_REWARD_CONTAINER) ∨
      test ∨
      match place.destItem.filter fun toItem => (w.item item).isStackable env.items && w.equals item toItem with
      | some toItem =>
        let m := min itemCount maxQueryCount
        let n := stackTakes env.items (w.item toItem) m
        let w := place.cylinder.updateThing env w toItem (w.item toItem).id (.ofNat (w.item toItem).getItemCount + n)
        let count := (m - n).toInt32.toInt
        count > 0 →
          if itemCount.toNat ≠ count then
            let rest := ((w.item item).clone env.items).setItemCount (UInt8.ofInt count).toNat
            AddFits env classOf S fuel (w.new rest) destCylinder w.next INDEX_WHEREEVER false
          else place.cylinder.Takes env.items S w place.index (w.item item)
      | none => place.cylinder.Takes env.items S w place.index (w.item item)

variable {classOf : Ref → ContainerClass} {item : Ref}

theorem clone_container (env : Env) (i : Item) (n : Nat) : ((i.clone env.items).setItemCount n).container = none := by
  obtain ⟨as, k, he⟩ := Item.clone_eq env.items i
  rw [he]
  rfl

theorem clone_parent (env : Env) (i : Item) (n : Nat) : ((i.clone env.items).setItemCount n).m_parent = none := by
  obtain ⟨as, k, he⟩ := Item.clone_eq env.items i
  rw [he]
  rfl

theorem bounded_internalAddItemLoop (fuel : Nat) (hw : w.Listed) (h : w.Bounded env.items S) (dest : Cylinder)
    (index : Int) (test : Bool) : (internalAddItemLoop env classOf fuel w dest item index 0 test).1.Bounded env.items S ↔
      AddFits env classOf S fuel w dest item index test := by
  induction fuel generalizing w item index test with
  | zero => exact iff_of_true h trivial
  | succ fuel ih =>
    rw [internalAddItemLoop, AddFits]
    generalize queryDestination env classOf w index item none 0 dest = place
    dsimp only
    split
    · rename_i hret
      exact iff_of_true h (.inl hret)
    rename_i hret
    rw [or_iff_right hret]
    split
    · rename_i hmax
      exact iff_of_true h (.inl hmax)
    rename_i hmax
    rw [or_iff_right hmax]
    split
    · rename_i htest
      exact iff_of_true h (.inl htest)
    rename_i htest
    rw [or_iff_right htest]
    cases hto : place.destItem.filter fun toItem => (w.item item).isStackable env.items && w.equals item toItem with
    | some toItem =>
      obtain ⟨-, hpred⟩ := Option.filter_eq_some_iff.mp hto
      obtain ⟨hst, heq⟩ := Bool.and_eq_true_iff.mp hpred
      have hs : (w.item toItem).isStackable env.items := by
        rw [Item.isStackable, ← Game.id_of_equals heq]
        exact hst
      -- the stack takes what it can, and the rest comes in as a new item
      generalize min (UInt32.ofNat (w.item item).getItemCount) _ = m
      have hmerged := place.cylinder.bounded_updateThing h hs m
      have hl := Cylinder.updateThing_loosens env w toItem (w.item toItem).id
        (.ofNat (w.item toItem).getItemCount + stackTakes env.items (w.item toItem) m) place.cylinder
      unfold stackTakes at hmerged hl ⊢
      dsimp only
      revert hmerged hl
      generalize place.cylinder.updateThing env w toItem (w.item toItem).id _ = w₁
      intro hmerged hl
      have hn := hw.loosens hl
      split
      · rename_i hpos
        rw [forall_prop_of_true hpos]
        split
        · have hc := clone_container env (w₁.item item)
          have hp := clone_parent env (w₁.item item)
          exact ih (hn.loosens (.new (hp _) (hc _))) (bounded_new hn (hc _) hmerged) INDEX_WHEREEVER false
        · exact place.cylinder.bounded_addThing place.index hmerged
      · rename_i hpos
        exact iff_of_true hmerged fun h => absurd h hpos
    | none => exact place.cylinder.bounded_addThing place.index h

end Virtual

/-! ### Moving -/

namespace MoveEnd
variable {classOf : Ref → ContainerClass} {item : Ref} {k fromCylinder : MoveEnd}

/-- What an end has a free slot for, unless it does not take the index. -/
def Takes (items : UInt16 → ItemType) (S : Set Ref) (w : World) (index : Int) (i : Item) : MoveEnd → Prop
  | .cylinder k => k.Takes items S w index i
  | .tile _ => True

/-- A player, a container made before `bound`, or a tile with such a thing on top. -/
def Made (bound : Ref) : MoveEnd → Prop
  | .cylinder k => k.Made bound
  | .tile answers => ∀ t, answers.topItem = some t → t < bound

theorem bounded_removeThing {count : UInt32} (h : w.Bounded env.items S) (hq : MayTake env.items w x count) :
    (k.removeThing env w x count).Bounded env.items S := by
  cases k with
  | cylinder k => exact k.bounded_removeThing h hq
  | tile answers =>
    simp only [removeThing]
    split
    · rename_i hcount
      exact bounded_part h hq hcount
    · exact (bounded_resetParent w x).mpr h

/-- Taking away puts nothing in. -/
structure Leaves (w w' : World) : Prop where
  next : w'.next = w.next
  isContainer : ∀ c, w'.isContainer c = w.isContainer c
  lists : ∀ c, (w'.itemlist c).Sublist (w.itemlist c)

theorem Leaves.listed (h : Leaves w w') (hw : w.Listed) : w'.Listed := fun c r hr => by
  rw [h.next]
  exact hw c r ((h.lists c).subset hr)

theorem leaves_modify {r : Ref} {f : Item → Item} (hf : (f (w.item r)).container = (w.item r).container) :
    Leaves w (w.modify r f) where
  next := rfl
  isContainer c := congrFun (proj_modify (fun i => i.container.isSome) (by rw [hf])) c
  lists c := by
    have hlist : (w.modify r f).itemlist = w.itemlist :=
      proj_modify Item.getItemList (by unfold Item.getItemList; rw [hf])
    rw [hlist]

theorem leaves_removeThing (env : Env) (w : World) (x : Ref) (count : UInt32) (k : MoveEnd) :
    Leaves w (k.removeThing env w x count) := by
  have hpart : Leaves w (w.modify x (·.setItemCount (countLeft (w.item x) count))) := leaves_modify rfl
  have hwhole : Leaves w (w.resetParent x) := leaves_modify rfl
  have hsame : Leaves w w := ⟨rfl, fun _ => rfl, fun _ => List.Sublist.refl _⟩
  cases k with
  | tile answers =>
    simp only [removeThing]
    split
    · exact hpart
    · exact hwhole
  | cylinder k =>
    cases k with
    | player p =>
      simp only [removeThing, Cylinder.removeThing, Player.removeThing]
      split
      · exact hsame
      split
      · exact hpart
      · exact ⟨hwhole.next, hwhole.isContainer, hwhole.lists⟩
    | container c =>
      simp only [removeThing, Cylinder.removeThing]
      by_cases hx : x ∈ w.itemlist c
      · have htouch := removeThing_touches env.items hx count
        refine ⟨htouch.next, htouch.isContainer, fun d => ?_⟩
        rw [itemlist_removeThing hx]
        split
        · exact List.Sublist.refl _
        · by_cases hdc : d = c
          · rw [hdc, Function.update_self]
            exact List.erase_sublist
          · rw [Function.update_of_ne hdc]
      · rw [Container.removeThing, if_neg hx]
        exact hsame

theorem bounded_addThing (index : Int) (h : w.Bounded env.items S) :
    (k.addThing env w index x).Bounded env.items S ↔ k.Takes env.items S w index (w.item x) := by
  cases k with
  | cylinder k => exact k.bounded_addThing index h
  | tile answers => exact iff_of_true h trivial

theorem bounded_addThing_new (hw : w.Listed) (h : w.Bounded env.items S) (hk : k.Made w.next) {i : Item}
    (hc : i.container = none) (index : Int) :
    (k.addThing env (w.new i) index w.next).Bounded env.items S ↔ k.Takes env.items S w index i := by
  cases k with
  | cylinder k => exact Cylinder.bounded_addThing_new hw h hk hc index
  | tile answers => exact iff_of_true (bounded_new hw hc h) trivial

theorem mayTake {count flags : UInt32} (h : k.queryRemove env w x count flags = .NOERROR) :
    MayTake env.items w x count := by
  cases k with
  | cylinder k => exact Cylinder.mayTake h
  | tile answers =>
    simp only [queryRemove, tileQueryRemove] at h
    split at h
    · exact nomatch h
    split at h
    · exact nomatch h
    rename_i hcount
    obtain ⟨h0, hle⟩ := not_or.mp hcount
    exact ⟨Nat.pos_of_ne_zero fun hz => h0 (UInt32.toNat_inj.mp hz), fun hs => not_lt.mp fun hlt => hle ⟨hs, hlt⟩⟩

theorem bounded_updateThing (h : w.Bounded env.items S) (hs : (w.item x).isStackable env.items) (m : UInt32) :
    (k.updateThing env w x (w.item x).id
      (.ofNat (w.item x).getItemCount + stackTakes env.items (w.item x) m)).Bounded env.items S := by
  cases k with
  | cylinder k => exact k.bounded_updateThing h hs m
  | tile answers => exact bounded_merged h hs m

theorem updateThing_loosens (env : Env) (w : World) (x : Ref) (itemId : UInt16) (count : UInt32) (k : MoveEnd) :
    Loosens w (k.updateThing env w x itemId count) := by
  cases k with
  | cylinder k => exact Cylinder.updateThing_loosens env w x itemId count k
  | tile answers =>
    obtain ⟨as, n, he⟩ := Item.setID_setSubType_eq env.items (w.item x) itemId count.toUInt16
    have hm : Loosens w (w.modify x fun i => (i.setID env.items itemId).setSubType env.items count.toUInt16) :=
      .modify (by rw [he]) (by rw [he])
    exact hm

/-! ### The thing -/

/-- A rest that is put in as a new item finds a free slot and is sound. -/
def RestFits (env : Env) (S : Set Ref) (w : World) (k : MoveEnd) (index : Int) (item : Ref) (newCount : Int) : Prop :=
  newCount > 0 →
    k.Takes env.items S w index (((w.item item).clone env.items).setItemCount (UInt8.ofInt newCount).toNat)

def StackFits (env : Env) (S : Set Ref) (w : World) (k : MoveEnd) (index : Int) (item : Ref) (m : UInt32) (toItem : Option Ref) :
    Prop :=
  match toItem.filter fun toItem => w.equals item toItem with
  | some toItem =>
    let n := stackTakes env.items (w.item toItem) m
    let w := k.updateThing env w toItem (w.item toItem).id (.ofNat (w.item toItem).getItemCount + n)
    RestFits env S w k index item (m - n).toInt32.toInt
  | none => RestFits env S w k index item m.toInt32.toInt

/-- What a move puts in once the thing is removed. -/
def ThingFits (env : Env) (S : Set Ref) (w : World) (fromCylinder k : MoveEnd) (index : Int) (item : Ref) (m : UInt32)
    (toItem : Option Ref) : Prop :=
  let w := fromCylinder.removeThing env w item m
  if (w.item item).isStackable env.items then StackFits env S w k index item m toItem
  else k.Takes env.items S w index (w.item item)

theorem bounded_moveRest (hw : w.Listed) (h : w.Bounded env.items S) (hk : k.Made w.next) (index : Int) (newCount : Int) :
    (moveRest env w k index item newCount).Bounded env.items S ↔ RestFits env S w k index item newCount := by
  unfold moveRest RestFits
  split
  · rename_i hpos
    rw [forall_prop_of_true hpos]
    exact bounded_addThing_new hw h hk (Virtual.clone_container env _ _) index
  · rename_i hpos
    exact iff_of_true h fun h => absurd h hpos

theorem Made.mono {bound bound' : Ref} (h : k.Made bound) (hle : bound ≤ bound') : k.Made bound' := by
  cases k with
  | cylinder k => exact Cylinder.Made.mono h hle
  | tile answers => exact fun t ht => (h t ht).trans_le hle

theorem bounded_moveStack (hw : w.Listed) (h : w.Bounded env.items S) (hk : k.Made w.next) (index : Int)
    (hs : (w.item item).isStackable env.items) (m : UInt32) (toItem : Option Ref) :
    (moveStack env w k index item m toItem).Bounded env.items S ↔ StackFits env S w k index item m toItem := by
  unfold moveStack StackFits
  cases hto : toItem.filter fun toItem => w.equals item toItem with
  | none => exact bounded_moveRest hw h hk index _
  | some toItem =>
    have heq := (Option.filter_eq_some_iff.mp hto).2
    have hst : (w.item toItem).isStackable env.items := by
      rw [Item.isStackable, ← Game.id_of_equals heq]
      exact hs
    have hl := updateThing_loosens env w toItem (w.item toItem).id
      (.ofNat (w.item toItem).getItemCount + stackTakes env.items (w.item toItem) m) k
    exact bounded_moveRest (hw.loosens hl) (bounded_updateThing h hst m) (hk.mono hl.next) index _

theorem bounded_moveThing (hw : w.Listed) (h : w.Bounded env.items S) (hk : k.Made w.next) (index : Int) {m : UInt32}
    (hq : MayTake env.items w item m) (toItem : Option Ref) :
    (moveThing env w fromCylinder k index item m toItem).Bounded env.items S ↔
      ThingFits env S w fromCylinder k index item m toItem := by
  have hl := leaves_removeThing env w item m fromCylinder
  have hout : (fromCylinder.removeThing env w item m).Bounded env.items S := bounded_removeThing h hq
  unfold moveThing ThingFits
  dsimp only
  split
  · rename_i hs
    exact bounded_moveStack (hl.listed hw) hout (hl.next ▸ hk) index hs m toItem
  · exact bounded_addThing index hout

/-! ### The exchange -/

/-- No container. -/
def Open (k : MoveEnd) : Prop := ∀ c, k ≠ .cylinder (.container c)

theorem Open.takes (hk : k.Open) (index : Int) (i : Item) : k.Takes items S w index i := by
  cases k with
  | tile answers => trivial
  | cylinder k =>
    cases k with
    | player p => trivial
    | container c => exact absurd rfl (hk c)

theorem Open.bounded_addThing (hk : k.Open) (index : Int) (x : Ref) :
    (k.addThing env w index x).Bounded items S ↔ w.Bounded items S := by
  cases k with
  | tile answers => exact Iff.rfl
  | cylinder k =>
    cases k with
    | player p =>
      simp only [addThing, Cylinder.addThing, Player.addThing]
      split
      · exact Iff.rfl
      · exact bounded_setParent w x (.player p)
    | container c => exact absurd rfl (hk c)

/-- Only what an open end takes is put in. -/
theorem Open.thingFits (hk : k.Open) (index : Int) (m : UInt32) (toItem : Option Ref) :
    ThingFits env S w fromCylinder k index item m toItem := by
  have hrest : ∀ w newCount, RestFits env S w k index item newCount := fun w newCount _ => hk.takes index _
  unfold ThingFits StackFits
  dsimp only
  split
  · split
    · exact hrest _ _
    · exact hrest _ _
  · exact hk.takes index _

theorem bounded_new_iff (hw : w.Listed) (hfree : ¬w.isContainer w.next) {i : Item} (hc : i.container = none) :
    (w.new i).Bounded items S ↔ w.Bounded items S := by
  refine ⟨fun h c hlim => ?_, bounded_new hw hc⟩
  have hcn : c ≠ w.next := by
    rintro rfl
    exact hfree hlim.2.1
  have hitem : (w.new i).item c = w.item c := Function.update_of_ne hcn ..
  have hlim' : (w.new i).Limited S c := by
    unfold Limited hasPagination containerField isContainer at hlim ⊢
    rwa [hitem]
  obtain ⟨hsize, hall⟩ := h c hlim'
  rw [capacity, size, World.itemlist, hitem] at hsize
  rw [World.itemlist, hitem] at hall
  refine ⟨hsize, fun r hr => ?_⟩
  have := hall r hr
  rwa [item_new_of_lt (hw c r hr)] at this

/-- Nothing is put into a container. -/
theorem Open.bounded_moveThing (hw : w.Listed) (hfree : ¬w.isContainer w.next) (hk : k.Open) (index : Int) (m : UInt32) :
    (moveThing env w fromCylinder k index item m none).Bounded items S ↔
      (fromCylinder.removeThing env w item m).Bounded items S := by
  have hl := leaves_removeThing env w item m fromCylinder
  unfold moveThing
  dsimp only
  split
  · unfold moveStack moveRest
    dsimp only [Option.filter_none]
    split
    · rw [hk.bounded_addThing]
      refine bounded_new_iff (hl.listed hw) ?_ (Virtual.clone_container env _ _)
      rwa [hl.next, hl.isContainer]
    · exact Iff.rfl
  · exact hk.bounded_addThing index item

/-- The item in the way is taken away whole, and no container shows it. -/
theorem Open.removeThing_whole (env : Env) (w : World) (hk : k.Open) (t : Ref) :
    let w' := k.removeThing env w t (.ofNat (w.item t).getItemCount)
    SameSizes w w' ∧ w'.itemlist = w.itemlist ∧ ∀ r, (w'.item r).plain = (w.item r).plain := by
  have hcount : (w.item t).getItemCount < 256 := (w.item t).count.toNat_lt
  have hwhole : ¬((w.item t).isStackable env.items ∧ (UInt32.ofNat (w.item t).getItemCount).toNat ≠
      (w.item t).getItemCount) := fun h => h.2 (by rw [UInt32.toNat_ofNat', Nat.mod_eq_of_lt (by omega)])
  have hreset : SameSizes w (w.resetParent t) ∧ (w.resetParent t).itemlist = w.itemlist ∧
      ∀ r, ((w.resetParent t).item r).plain = (w.item r).plain :=
    ⟨.modify rfl, itemlist_resetParent w t, fun _ => plain_resetParent⟩
  cases k with
  | tile answers =>
    simp only [removeThing]
    rw [if_neg hwhole]
    exact hreset
  | cylinder k =>
    cases k with
    | player p =>
      simp only [removeThing, Cylinder.removeThing, Player.removeThing]
      split
      · exact ⟨⟨fun _ => Iff.rfl, fun _ => rfl⟩, rfl, fun _ => rfl⟩
      · rw [if_neg hwhole]
        exact ⟨⟨hreset.1.limited, hreset.1.capacity⟩, hreset.2⟩
    | container c => exact absurd rfl (hk c)

/-- The exchange is made: the source takes the item in the way, and it may be taken away. -/
def Exchanges (env : Env) (classOf : Ref → ContainerClass) (w : World) (fromCylinder : MoveEnd) (d : EndPlace)
    (item toItem : Ref) : Prop :=
  let toItemCount := UInt32.ofNat (w.item toItem).getItemCount
  let maxExchange := fromCylinder.queryMaxCount env w INDEX_WHEREEVER toItem toItemCount 0
  fromCylinder.queryAdd env classOf w (fromCylinder.getThingIndex w item) toItem toItemCount 0 false = .NOERROR ∧
    ¬(maxExchange.1 ≠ .NOERROR ∧ maxExchange.2 = 0) ∧
    d.cylinder.queryRemove env w toItem toItemCount 0 = .NOERROR

def exchanged (env : Env) (w : World) (fromCylinder : MoveEnd) (d : EndPlace) (toItem : Ref) : World :=
  fromCylinder.addThingFront env (d.cylinder.removeThing env w toItem (.ofNat (w.item toItem).getItemCount)) toItem

/-- What is moved once the exchange is made. -/
def amountAfter (env : Env) (classOf : Ref → ContainerClass) (w : World) (fromCylinder : MoveEnd) (d : EndPlace)
    (item : Ref) (count : UInt32) (tradeItem : Option Ref) : Option UInt32 :=
  if d.cylinder.queryAdd env classOf w d.index item count 0 false = .NOERROR then
    (moveAmount env w fromCylinder d item count 0 tradeItem).toOption
  else none

/-- What a call of `internalMoveItem` puts in finds a free slot and is sound: the thing or what is left of it, and the
    item that is given for it, which may take the place of a thing that leaves whole. -/
def MoveFits (env : Env) (classOf : Ref → ContainerClass) (S : Set Ref) (w : World)
    (fromCylinder toCylinder : MoveEnd) (index : Int) (item : Ref) (count : UInt32) (actor : Bool) (tradeItem : Option Ref) : Prop :=
  let d := (toCylinder.destinationLoop env classOf w item index 0).1
  let count := moveUpCount env w fromCylinder d.cylinder item count
  let ret := d.cylinder.queryAdd env classOf w d.index item count 0 actor
  d.destItem = some item ∨ fromCylinder.queryRemove env w item 1 0 ≠ .NOERROR ∨
    if ret = .NEEDEXCHANGE then
      ∀ toItem, d.destItem = some toItem → Exchanges env classOf w fromCylinder d item toItem →
        match amountAfter env classOf (exchanged env w fromCylinder d toItem) fromCylinder d item count tradeItem with
        | some m => fromCylinder.Takes env.items S (fromCylinder.removeThing env w item m) 0 (w.item toItem)
        | none => fromCylinder.Takes env.items S w 0 (w.item toItem)
    else ret = .NOERROR → ∀ m, moveAmount env w fromCylinder d item count 0 tradeItem = .ok m →
      ThingFits env S w fromCylinder d.cylinder d.index item m d.destItem

theorem removes_of_moveAmount {d : EndPlace} {count flags m : UInt32} {tradeItem : Option Ref}
    (h : moveAmount env w fromCylinder d item count flags tradeItem = .ok m) :
    fromCylinder.queryRemove env w item m flags = .NOERROR := by
  unfold moveAmount at h
  dsimp only at h
  split at h
  · exact nomatch h
  split at h
  · exact nomatch h
  rename_i hrem
  split at h
  · exact nomatch h
  · cases h
    exact not_not.mp hrem

theorem removes_of_amountAfter {d : EndPlace} {count m : UInt32} {tradeItem : Option Ref}
    (h : amountAfter env classOf w fromCylinder d item count tradeItem = some m) :
    fromCylinder.queryRemove env w item m 0 = .NOERROR := by
  unfold amountAfter at h
  split at h
  · cases ha : moveAmount env w fromCylinder d item count 0 tradeItem with
    | error ret =>
      rw [ha] at h
      exact nomatch h
    | ok m' =>
      rw [ha] at h
      cases h
      exact removes_of_moveAmount ha
  · exact nomatch h

/-- The thing comes after the item that was given for it. -/
theorem bounded_exchange (classOf : Ref → ContainerClass) {d : EndPlace} {t : Ref} (count : UInt32)
    (tradeItem : Option Ref) (hw : w.Listed)
    (hfree : ¬w.isContainer w.next) (h : w.Bounded env.items S) (hd : d.cylinder.Open) (ht : t < w.next) (hne : t ≠ item)
    (hq : fromCylinder.queryRemove env w item 1 0 = .NOERROR) :
    let w' := exchanged env w fromCylinder d t
    match amountAfter env classOf w' fromCylinder d item count tradeItem with
    | some m => (moveThing env w' fromCylinder d.cylinder d.index item m none).Bounded env.items S ↔
        fromCylinder.Takes env.items S (fromCylinder.removeThing env w item m) 0 (w.item t)
    | none => w'.Bounded env.items S ↔ fromCylinder.Takes env.items S w 0 (w.item t) := by
  intro w'
  obtain ⟨hsize, hlist, hplain⟩ := hd.removeThing_whole env w t
  have hleaves := leaves_removeThing env w t (.ofNat (w.item t).getItemCount) d.cylinder
  have hw' : w' = fromCylinder.addThingFront env
    (d.cylinder.removeThing env w t (.ofNat (w.item t).getItemCount)) t := rfl
  revert hsize hlist hplain hleaves hw'
  generalize d.cylinder.removeThing env w t (.ofNat (w.item t).getItemCount) = w₁
  intro hsize hlist hplain hleaves hw'
  have hb₁ : w₁.Bounded env.items S := (bounded_congr hsize hlist hplain).mpr h
  have hw₁ := hleaves.listed hw
  have hfree₁ : ¬w₁.isContainer w₁.next := by rwa [hleaves.next, hleaves.isContainer]
  -- where the source takes the item into no container, all stays bounded
  have hkeep : w' = w₁ → fromCylinder.Takes env.items S w 0 (w.item t) →
      (∀ m, fromCylinder.Takes env.items S (fromCylinder.removeThing env w item m) 0 (w.item t)) →
      match amountAfter env classOf w' fromCylinder d item count tradeItem with
      | some m => (moveThing env w' fromCylinder d.cylinder d.index item m none).Bounded env.items S ↔
          fromCylinder.Takes env.items S (fromCylinder.removeThing env w item m) 0 (w.item t)
      | none => w'.Bounded env.items S ↔ fromCylinder.Takes env.items S w 0 (w.item t) := by
    rintro heq htakes htakes'
    rw [heq]
    split
    · rename_i m hm
      refine iff_of_true ?_ (htakes' m)
      rw [hd.bounded_moveThing hw₁ hfree₁]
      exact bounded_removeThing hb₁ (mayTake (removes_of_amountAfter hm))
    · exact iff_of_true hb₁ htakes
  match fromCylinder, hw', hq, hkeep with
  | .tile answers, hw', hq, hkeep => exact hkeep hw' trivial fun _ => trivial
  | .cylinder (.player p), hw', hq, hkeep => exact hkeep hw' trivial fun _ => trivial
  | .cylinder (.container c), hw', hq, hkeep =>
    have hx : item ∈ w.itemlist c := (queryRemove_noerror hq).1
    by_cases hcap : (0 : Int) < (capacity w c).toNat
    · have hw' : w' = internalAddThing env.items w₁ c (some t) := by
        rw [hw']
        simp only [addThingFront, Cylinder.addThingFront, Container.addThing]
        rw [if_neg (by rw [hsize.capacity]; omega)]
      have hc₁ : w₁.isContainer c := by
        rw [hleaves.isContainer]
        exact isContainer_of_mem hx
      have htouch := internalAddThing_touches env.items w₁ c t
      split
      · rename_i m hm
        have hmay : MayTake env.items w item m := (mayTake (removes_of_amountAfter hm)).congr (by
          rw [hw', plain_internalAddThing]
          exact hplain item)
        have hlisted : w'.Listed := fun e r hr => by
          rw [hw', itemlist_internalAddThing env.items hc₁] at hr
          rw [hw', htouch.next]
          by_cases hec : e = c
          · rw [hec, Function.update_self] at hr
            rcases List.mem_cons.mp hr with rfl | hr
            · rwa [hleaves.next]
            · exact hw₁ c r hr
          · rw [Function.update_of_ne hec] at hr
            exact hw₁ e r hr
        have hfree' : ¬w'.isContainer w'.next := by
          rwa [hw', htouch.next, htouch.isContainer]
        have hsizes := sameSizes_removeThing env.items hx m
        have hsound : ((Container.removeThing env.items w c item m).item t).Sound env.items ↔
            (w.item t).Sound env.items := sound_congr (by
          rw [plain_removeThing hx, if_neg fun h => hne h.1])
        rw [hd.bounded_moveThing hlisted hfree', hw']
        refine (bounded_swap hx hne m hplain hsize hlist).trans ?_
        rw [bounded_internalAddThing c (Container.bounded_removeThing c h hmay), hsound]
        refine imp_congr_right fun _ => ⟨fun h _ => h, fun h => h ?_⟩
        have hcap' := hsizes.capacity c
        exact hcap'.symm ▸ hcap
      · rw [hw', bounded_internalAddThing c hb₁, hsize.limited, hsize.capacity, size, hlist, sound_congr (hplain t)]
        exact imp_congr_right fun _ => ⟨fun h _ => h, fun h => h hcap⟩
    · refine hkeep ?_ (fun _ h => absurd h hcap) fun m _ h => absurd h ?_
      · rw [hw']
        simp only [addThingFront, Cylinder.addThingFront, Container.addThing]
        rw [if_pos (by rw [hsize.capacity]; omega)]
      · have hsizes := sameSizes_removeThing env.items hx m
        rw [show removeThing env w item m (.cylinder (.container c)) = Container.removeThing env.items w c item m from rfl,
          hsizes.capacity]
        exact hcap

theorem moveExchange_none {d : EndPlace} (h : d.destItem = none) (count flags : UInt32) :
    moveExchange env classOf w fromCylinder d item count flags = (w, .NEEDEXCHANGE, none) := by
  rw [moveExchange, h]

theorem moveExchange_of_exchanges {d : EndPlace} {t : Ref} (ht : d.destItem = some t)
    (h : Exchanges env classOf w fromCylinder d item t) (count : UInt32) :
    moveExchange env classOf w fromCylinder d item count 0 =
      (exchanged env w fromCylinder d t,
        d.cylinder.queryAdd env classOf (exchanged env w fromCylinder d t) d.index item count 0 false, none) := by
  obtain ⟨hadds, htakes, hremoves⟩ := h
  rw [moveExchange, ht]
  dsimp only
  rw [if_neg (not_not.mpr hadds), if_neg htakes, if_pos hremoves]
  rfl

theorem moveExchange_of_not {d : EndPlace} {t : Ref} (ht : d.destItem = some t)
    (h : ¬Exchanges env classOf w fromCylinder d item t) (count : UInt32) :
    ∃ ret, moveExchange env classOf w fromCylinder d item count 0 = (w, ret, some t) := by
  rw [moveExchange, ht]
  dsimp only
  split
  · exact ⟨_, rfl⟩
  rename_i hadds
  split
  · exact ⟨_, rfl⟩
  rename_i htakes
  rw [if_neg fun hremoves => h ⟨not_not.mp hadds, htakes, hremoves⟩]
  exact ⟨_, rfl⟩

theorem destinationLoop_made (env : Env) (classOf : Ref → ContainerClass) (hw : w.Nested) (hk : k.Made w.next)
    (item : Ref) (index : Int) :
    let r := k.destinationLoop env classOf w item index 0
    r.2 = 0 ∧ r.1.cylinder.Made w.next ∧ ∀ t, r.1.destItem = some t → t < w.next := by
  cases k with
  | cylinder k =>
    obtain ⟨⟨hmade, hitem⟩, hflags⟩ := CrystalServer.destinationLoop_made env classOf item hw.within Game.MAP_MAX_LAYERS
      (show Place.Made w.next ⟨k, index, none⟩ from ⟨hk, nofun⟩)
    exact ⟨hflags, hmade, hitem⟩
  | tile answers => exact ⟨rfl, hk, hk⟩

theorem open_of_needexchange {index : Int} {count : UInt32} {actor : Bool}
    (h : k.queryAdd env classOf w index item count 0 actor = .NEEDEXCHANGE) : k.Open := by
  rintro c rfl
  have h' : Virtual.cylinderQueryAdd env classOf w index item count 0 actor (.container c) = .NEEDEXCHANGE := h
  obtain ⟨p, hp⟩ := player_of_needexchange h'
  exact nomatch hp

/-- What follows once `queryAdd` has answered, where no exchange was made. -/
theorem bounded_afterwards {d : EndPlace} (hw : w.Listed) (h : w.Bounded env.items S) (hk : d.cylinder.Made w.next)
    (count : UInt32) (tradeItem : Option Ref) (ret : ReturnValue) (toItem : Option Ref) :
    (if ret ≠ .NOERROR then (w, ret)
      else match moveAmount env w fromCylinder d item count 0 tradeItem with
        | .error ret => (w, ret)
        | .ok m =>
          let (retMaxCount, maxQueryCount) := d.cylinder.queryMaxCount env w d.index item count 0
          let w := moveThing env w fromCylinder d.cylinder d.index item m toItem
          (w, if (w.item item).isStackable env.items ∧ maxQueryCount < count then retMaxCount else .NOERROR)).1.Bounded
      env.items S ↔ (ret = .NOERROR → ∀ m, moveAmount env w fromCylinder d item count 0 tradeItem = .ok m →
        ThingFits env S w fromCylinder d.cylinder d.index item m toItem) := by
  split
  · rename_i hret
    exact iff_of_true h fun h => absurd h hret
  rename_i hret
  rw [forall_prop_of_true (not_not.mp hret)]
  cases ha : moveAmount env w fromCylinder d item count 0 tradeItem with
  | error ret => exact iff_of_true h nofun
  | ok m =>
    refine (bounded_moveThing hw h hk d.index (mayTake (removes_of_moveAmount ha)) toItem).trans ⟨fun h m' hm => ?_, fun h => h m rfl⟩
    cases hm
    exact h

theorem bounded_internalMoveItem (hw : w.Nested) (hfree : ¬w.isContainer w.next) (h : w.Bounded env.items S)
    {toCylinder : MoveEnd} (hto : toCylinder.Made w.next) (index : Int) (count : UInt32) (actor : Bool)
    (tradeItem : Option Ref) :
    (internalMoveItem env classOf w fromCylinder toCylinder index item count 0 actor tradeItem).1.Bounded env.items S ↔
      MoveFits env classOf S w fromCylinder toCylinder index item count actor tradeItem := by
  have hloop := destinationLoop_made env classOf hw hto item index
  unfold internalMoveItem MoveFits
  revert hloop
  generalize toCylinder.destinationLoop env classOf w item index 0 = loop
  obtain ⟨d, flags⟩ := loop
  rintro ⟨rfl, hd, hitem⟩
  dsimp only at hd hitem ⊢
  generalize moveUpCount env w fromCylinder d.cylinder item count = count
  split
  · rename_i hsame
    exact iff_of_true h (.inl hsame)
  rename_i hsame
  rw [or_iff_right hsame]
  split
  · rename_i hremoves
    exact iff_of_true h (.inl hremoves)
  rename_i hremoves
  rw [or_iff_right hremoves]
  by_cases hneed : d.cylinder.queryAdd env classOf w d.index item count 0 actor = .NEEDEXCHANGE
  · rw [if_pos hneed, if_pos hneed]
    have hopen := open_of_needexchange hneed
    cases ht : d.destItem with
    | none =>
      rw [moveExchange_none ht]
      exact iff_of_true h nofun
    | some t =>
      have hne : t ≠ item := fun he => hsame (he ▸ ht)
      by_cases hex : Exchanges env classOf w fromCylinder d item t
      · rw [moveExchange_of_exchanges ht hex]
        have hexchange := bounded_exchange classOf count tradeItem
          hw.listed hfree h hopen (hitem t ht) hne (not_not.mp hremoves)
        refine Iff.trans ?_ ⟨fun h t' ht' _ => Option.some.inj ht' ▸ h, fun h => h t rfl hex⟩
        revert hexchange
        unfold amountAfter
        generalize exchanged env w fromCylinder d t = w'
        dsimp only
        by_cases hadds : d.cylinder.queryAdd env classOf w' d.index item count 0 false = .NOERROR
        · rw [if_pos hadds, if_neg (not_not.mpr hadds)]
          cases ha : moveAmount env w' fromCylinder d item count 0 tradeItem with
          | error ret => exact id
          | ok m => exact id
        · rw [if_neg hadds, if_pos hadds]
          exact id
      · obtain ⟨ret, hret⟩ := moveExchange_of_not ht hex count
        rw [hret]
        refine (bounded_afterwards hw.listed h hd count tradeItem ret (some t)).trans ?_
        refine iff_of_true (fun _ m _ => hopen.thingFits d.index m (some t)) fun t' ht' hex' => ?_
        cases ht'
        exact absurd hex' hex
  · rw [if_neg hneed, if_neg hneed]
    exact bounded_afterwards hw.listed h hd count tradeItem _ d.destItem

/-! ### Calls -/

/-- Between cylinders nothing is different. -/
theorem internalMoveItem_cylinder (env : Env) (classOf : Ref → ContainerClass) (w : World) (a b : Cylinder) (index : Int)
    (item : Ref) (count flags : UInt32) (actor : Bool) (tradeItem : Option Ref) :
    internalMoveItem env classOf w (.cylinder a) (.cylinder b) index item count flags actor tradeItem =
      Virtual.internalMoveItem env classOf w a b index item count flags actor tradeItem := by
  have hup : ∀ (b : Cylinder) count, moveUpCount env w (.cylinder a) (.cylinder b) item count =
      Virtual.moveUpCount env w a b item count := fun b count => by
    simp only [moveUpCount, Virtual.moveUpCount, hasParent, decide_eq_true_eq]
  have hexchange : ∀ (d : Place) count flags, moveExchange env classOf w (.cylinder a)
      ⟨.cylinder d.cylinder, d.index, d.destItem⟩ item count flags =
        Virtual.moveExchange env classOf w a d item count flags := fun d count flags => by
    unfold moveExchange Virtual.moveExchange
    cases d.destItem with
    | none => rfl
    | some t => rfl
  cases hr : Virtual.destinationLoop env classOf w item Game.MAP_MAX_LAYERS ⟨b, index, none⟩ flags with
  | mk d flags =>
    unfold internalMoveItem Virtual.internalMoveItem
    simp only [destinationLoop, hr, hup, hexchange, queryRemove, queryAdd, queryMaxCount]
    refine if_congr Iff.rfl rfl (if_congr Iff.rfl rfl ?_)
    generalize (if Virtual.cylinderQueryAdd env classOf w d.index item _ flags actor d.cylinder = .NEEDEXCHANGE then _
      else _ : World × ReturnValue × Option Ref) = r
    obtain ⟨w', ret, toItem⟩ := r
    refine if_congr Iff.rfl rfl ?_
    have hamount : moveAmount env w' (.cylinder a) ⟨.cylinder d.cylinder, d.index, d.destItem⟩ item
        (Virtual.moveUpCount env w a d.cylinder item count) flags tradeItem =
        let (retMaxCount, maxQueryCount) := d.cylinder.queryMaxCount env w' d.index item
          (Virtual.moveUpCount env w a d.cylinder item count) flags
        if retMaxCount ≠ .NOERROR ∧ maxQueryCount = 0 then .error retMaxCount
        else
          let m := Game.moveCount env.items (w'.item item) (Virtual.moveUpCount env w a d.cylinder item count)
            maxQueryCount
          if a.queryRemove env w' item m flags ≠ .NOERROR then .error (a.queryRemove env w' item m flags)
          else if Virtual.insideTradeItem w' tradeItem d.cylinder then .error .NOTENOUGHROOM
          else .ok m := rfl
    have hthing : ∀ m, moveThing env w' (.cylinder a) (.cylinder d.cylinder) d.index item m toItem =
        Virtual.moveThing env w' a d.cylinder d.index item m toItem := fun m => by
      unfold moveThing Virtual.moveThing moveStack Virtual.moveStack
      rfl
    rw [hamount]
    simp only [hthing]
    split_ifs with hmax hremoves htrade hless
    · rfl
    · rfl
    · rfl
    · exact congrArg (Prod.mk _) (if_pos hless)
    · exact congrArg (Prod.mk _) (if_neg hless)

/-- Where a call may lead is in memory. -/
def Op.Made (w : World) : Op → Prop
  | .internalMoveItem _ toCylinder _ _ _ _ _ => toCylinder.Made w.next
  | .internalAddItem _ _ _ _ => True

/-- What a call puts in finds a free slot and is sound. -/
def Op.Fits (env : Env) (classOf : Ref → ContainerClass) (S : Set Ref) (w : World) : Op → Prop
  | .internalMoveItem fromCylinder toCylinder index item count actor tradeItem =>
    MoveFits env classOf S w fromCylinder toCylinder index item count actor tradeItem
  | .internalAddItem toCylinder item index test =>
    Virtual.AddFits env classOf S ((w.item item).getItemCount + 1) w toCylinder item index test

/-- Gold coins stack, nothing else does. -/
def purseEnv : Env where
  items id := { Container.tenType id with
    stackable := id = ITEM_GOLD_COIN, stackSize := 100, slotPosition := SLOTP_RIGHT ||| SLOTP_LEFT, plain := fun _ => rfl }
  MAX_CONTAINER := 500
  MAX_CONTAINER_DEPTH := 200
  ENABLE_PLAYER_PUT_ITEM_IN_AMMO_SLOT := false
  isOwner _ _ := true
  onPlayerEquip _ _ _ _ := true

/-- A player with a backpack at 0 that is full: it holds two things, of which he has offered the one at 1. Fifty coins
    at 3 are to come in. -/
def offeredWorld : World where
  item
    | 0 => ⟨2854, 1, none, some (.player 0), some ⟨2000, 2, 20, [1, 2], true, false, false⟩⟩
    | 1 => ⟨2856, 1, none, some (.container 0), none⟩
    | 2 => ⟨2856, 1, none, some (.container 0), none⟩
    | _ + 3 => ⟨ITEM_GOLD_COIN, 50, none, none, none⟩
  next := 4
  players p := ⟨fun s => if p = 0 ∧ s = 3 then some 0 else none, some 1, false, false, 40000, 30, true⟩

theorem offeredWorld_parent {r c : Ref} (h : offeredWorld.getParentContainer r = some c) :
    (r = 1 ∨ r = 2) ∧ c = 0 := by
  match r with
  | 0 | _ + 3 => exact nomatch h
  | 1 | 2 =>
    cases h
    decide

theorem offeredWorld_nested : offeredWorld.Nested where
  acyclic x hx := by
    obtain ⟨c, hc, hx⟩ := Lib.below_cases hx
    obtain ⟨hr, rfl⟩ := offeredWorld_parent hc
    rcases hx with rfl | hx
    · exact absurd hr (by decide)
    · obtain ⟨d, hd, -⟩ := Lib.below_cases hx
      exact absurd (offeredWorld_parent hd).1 (by decide)
  made r c hr := by
    obtain ⟨rfl | rfl, rfl⟩ := offeredWorld_parent hr <;> decide
  listed c r hr := by
    match c with
    | 0 =>
      have hr : r ∈ [1, 2] := hr
      rcases List.mem_pair.mp hr with rfl | rfl <;> decide
    | 1 | 2 | _ + 3 => exact absurd hr List.not_mem_nil
  slots p s r hr := by
    obtain ⟨-, hr⟩ := Option.ite_none_right_eq_some.mp hr
    cases hr
    decide

theorem offeredWorld_bounded : offeredWorld.Bounded purseEnv.items Set.univ := by
  rintro c ⟨-, hc, -⟩
  match c with
  | 0 =>
    refine ⟨by decide, fun r hr => ?_⟩
    have hr : r ∈ [1, 2] := hr
    rcases List.mem_pair.mp hr with rfl | rfl
    · exact fun h => absurd h (by decide)
    · exact fun h => absurd h (by decide)
  | 1 | 2 | _ + 3 => exact absurd hc Bool.false_ne_true

def offeredClass (_ : Ref) : ContainerClass := .Container

end MoveEnd
end CrystalServer
