import CrystalServer.Theorems.Items.World

/-! # Containers: what each change does

Each function that changes a container keeps the forest, and says by how much it leaves the total of the
container wrong. -/

namespace CrystalServer

namespace Item

theorem setID_eq (items : UInt16 → ItemType) (item : Item) (newid : UInt16) :
    ∃ as, item.setID items newid = { item with id := newid, attributePtr := as } := by
  simp only [setID, setDecaying, setDuration, setAttribute, removeAttribute]
  split_ifs <;> exact ⟨_, rfl⟩

theorem setSubType_eq (items : UInt16 → ItemType) (item : Item) (n : UInt16) :
    ∃ as k, item.setSubType items n = { item with attributePtr := as, count := k } := by
  simp only [setSubType, setAttribute, setItemCount]
  split_ifs <;> exact ⟨_, _, rfl⟩

theorem setID_setSubType_eq (items : UInt16 → ItemType) (item : Item) (newid n : UInt16) :
    ∃ as k, (item.setID items newid).setSubType items n =
      { item with id := newid, attributePtr := as, count := k } := by
  obtain ⟨as, h⟩ := setID_eq items item newid
  obtain ⟨as', k, h'⟩ := setSubType_eq items { item with id := newid, attributePtr := as } n
  rw [h, h']
  exact ⟨as', k, rfl⟩

end Item

namespace Container
open World
variable {items : UInt16 → ItemType} {w : World} {this x : Ref}

/-- An item that may come into a container: it lies in none, and the container is not inside it. -/
structure Outside (w : World) (this x : Ref) : Prop where
  free : w.getParentContainer x = none
  made : x < w.next
  ne : this ≠ x
  notBelow : ¬Lib.Below w.getParentContainer this x

theorem isContainer_modify {r c : Ref} {f : Item → Item}
    (hf : (f (w.item r)).container.isSome = (w.item r).container.isSome) :
    (w.modify r f).isContainer c ↔ w.isContainer c :=
  iff_of_eq (congrArg (· = true) (congrFun (proj_modify (fun i => i.container.isSome) hf) c))

@[simp] theorem isContainer_setParent {r c : Ref} {p : Cylinder} :
    (w.setParent r p).isContainer c ↔ w.isContainer c :=
  isContainer_modify rfl

@[simp] theorem isContainer_resetParent {r c : Ref} : (w.resetParent r).isContainer c ↔ w.isContainer c :=
  isContainer_modify rfl

@[simp] theorem isContainer_setItemlist {r c : Ref} {l : List Ref} :
    (w.setItemlist r l).isContainer c ↔ w.isContainer c :=
  isContainer_modify Option.isSome_map

/-! ### Coming in -/

/-- An item lies in a container with the given list, and the weight was added on the way up. -/
theorem linked {w₁ : World} {l : List Ref} (h : w.Forest) (hcn : this < w.next)
    (ho : Outside w this x) (hl : l.Perm (x :: w.itemlist this)) (hplain : ∀ y, (w₁.item y).plain = (w.item y).plain)
    (htot : w₁.totalWeight = w.totalWeight) (hnext : w₁.next = w.next)
    (hpar : w₁.getParentContainer = Function.update w.getParentContainer x (some this))
    (hlist : w₁.itemlist = Function.update w.itemlist this l) :
    (updateItemWeight w₁ this (w₁.getWeight items x)).Forest ∧
      ∀ y, (updateItemWeight w₁ this (w₁.getWeight items x)).lack items y = w.lack items y := by
  have h₁ : w₁.Forest := h.hang ho.free ho.made hcn ho.ne ho.notBelow hl hpar hlist hnext
  have hc₁ : w₁.isContainer this := h₁.isContainer (r := x) (by rw [hpar, Function.update_self])
  have hweight : w₁.getWeight items = w.getWeight items := by
    funext y
    exact congrArg₂ (· + ·) (congrFun (getWeight_congr hplain) y) (congrFun htot y)
  refine ⟨h₁.same (updateItemWeight_same _ _ _), fun y => ?_⟩
  rw [lack_updateItemWeight h₁ hc₁, lack_of_itemlist items hplain htot hlist, hweight,
    (hl.map (w.getWeight items)).sum_eq, List.map_cons, List.sum_cons]
  split_ifs <;> abel

theorem internalAddThing_spec (items : UInt16 → ItemType) (h : w.Forest) (hc : w.isContainer this) (hcn : this < w.next) (ho : Outside w this x) :
    (internalAddThing items w this (some x)).Forest ∧
      ∀ y, (internalAddThing items w this (some x)).lack items y = w.lack items y := by
  refine linked (l := x :: w.itemlist this) h hcn ho (List.Perm.refl _) (fun y => ?_) ?_ rfl ?_ ?_
  · rw [plain_setItemlist, plain_setParent]
  · rw [totalWeight_setItemlist, totalWeight_setParent]
  · rw [getParentContainer_setItemlist, getParentContainer_setParent]
  · rw [itemlist_setItemlist (isContainer_setParent.mpr hc), itemlist_setParent]

theorem addItemBack_spec (items : UInt16 → ItemType) (h : w.Forest) (hc : w.isContainer this) (hcn : this < w.next) (ho : Outside w this x) :
    (addItemBack items w this x).Forest ∧ ∀ y, (addItemBack items w this x).lack items y = w.lack items y := by
  refine linked (l := w.itemlist this ++ [x]) h hcn ho (List.perm_append_singleton x _) (fun y => ?_) ?_ rfl ?_ ?_
  · rw [addItem, plain_setParent, plain_setItemlist]
  · rw [addItem, totalWeight_setParent, totalWeight_setItemlist]
  · rw [addItem, getParentContainer_setParent, getParentContainer_setItemlist]
  · rw [addItem, itemlist_setParent, itemlist_setItemlist hc]

/-! ### Changing in place -/

/-- An item of a container changes, and the difference of its weight was added on the way up. -/
theorem changed {f : Item → Item} (h : w.Forest) (hx : x ∈ w.itemlist this)
    (hf : ∀ i, (f i).container = i.container ∧ (f i).m_parent = i.m_parent) {d : UInt32}
    (hd : d = -w.getWeight items x + (w.modify x f).getWeight items x) :
    (updateItemWeight (w.modify x f) this d).Forest ∧
      ∀ y, (updateItemWeight (w.modify x f) this d).lack items y = w.lack items y := by
  have hp := (h.lists.mem_iff x this).mp hx
  have hpar : (w.modify x f).getParentContainer = w.getParentContainer :=
    funext fun y => getParentContainer_congr (congrFun (proj_modify Item.m_parent (hf _).2) y)
  have hlist : (w.modify x f).itemlist = w.itemlist :=
    proj_modify Item.getItemList (by unfold Item.getItemList; rw [(hf _).1])
  have htot : (w.modify x f).totalWeight = w.totalWeight :=
    proj_modify Item.getTotalWeight (by unfold Item.getTotalWeight; rw [(hf _).1])
  have h₁ : (w.modify x f).Forest := by
    refine ⟨?_, ?_, ?_⟩
    · rw [hpar, hlist]
      exact h.lists
    · rw [hpar]
      exact h.acyclic
    · rw [hpar]
      exact h.made
  have hc₁ : (w.modify x f).isContainer this := h₁.isContainer (r := x) (by rw [hpar, hp])
  have hitem : (w.modify x f).item x = f (w.item x) := by rw [item_modify, Function.update_self]
  refine ⟨h₁.same (updateItemWeight_same _ _ _), fun y => ?_⟩
  rw [lack_updateItemWeight h₁ hc₁, lack_modify h (fun i => (hf i).1) hp, hd, World.getWeight, World.getWeight, hitem, htot]
  split_ifs <;> abel

theorem updateThing_of_mem (hx : x ∈ w.itemlist this) (itemId : UInt16) (count : UInt32) :
    updateThing items w this x itemId count =
      let w' := w.modify x fun i => (i.setID items itemId).setSubType items count.toUInt16
      updateItemWeight w' this (-w.getWeight items x + w'.getWeight items x) := by
  rw [updateThing, if_pos hx]

theorem updateThing_spec (items : UInt16 → ItemType) (h : w.Forest) (itemId : UInt16) (count : UInt32) :
    (updateThing items w this x itemId count).Forest ∧
      ∀ y, (updateThing items w this x itemId count).lack items y = w.lack items y := by
  by_cases hx : x ∈ w.itemlist this
  · rw [updateThing_of_mem hx]
    refine changed h hx (fun i => ?_) rfl
    obtain ⟨as, k, he⟩ := Item.setID_setSubType_eq items i itemId count.toUInt16
    rw [he]
    exact ⟨rfl, rfl⟩
  · rw [updateThing, if_neg hx]
    exact ⟨h, fun _ => rfl⟩

/-! ### Coming out -/

/-- An item was taken from the list of its container. -/
theorem unlinked (items : UInt16 → ItemType) (w' : World) {l : List Ref} (h : w.Forest) (hx : x ∈ w.itemlist this)
    (hl : (w.itemlist this).Perm (x :: l)) (hplain : ∀ y, (w'.item y).plain = (w.item y).plain)
    (htot : w'.totalWeight = w.totalWeight) (hnext : w'.next = w.next)
    (hpar : w'.getParentContainer = Function.update w.getParentContainer x none)
    (hlist : w'.itemlist = Function.update w.itemlist this l) :
    w'.Forest ∧ ∀ y, w'.lack items y = w.lack items y - if y = this then w.getWeight items x else 0 := by
  refine ⟨h.cut ((h.lists.mem_iff x this).mp hx) hl hpar hlist hnext, fun y => ?_⟩
  rw [lack_of_itemlist items hplain htot hlist, (hl.map (w.getWeight items)).sum_eq, List.map_cons, List.sum_cons]
  split_ifs <;> abel

theorem removeItem_spec (items : UInt16 → ItemType) (h : w.Forest) (hx : x ∈ w.itemlist this) :
    (removeItem w this (some x)).Forest ∧ ∀ y, (removeItem w this (some x)).lack items y =
      w.lack items y - if y = this then w.getWeight items x else 0 := by
  have hc := isContainer_of_mem hx
  rw [removeItem, if_pos hx]
  refine unlinked items _ h hx (List.perm_cons_erase hx) (fun y => ?_) ?_ rfl ?_ ?_
  · rw [plain_resetParent, plain_setItemlist]
  · rw [totalWeight_resetParent, totalWeight_setItemlist]
  · rw [getParentContainer_resetParent, getParentContainer_setItemlist]
  · rw [itemlist_resetParent, itemlist_setItemlist hc]

/-- A container and what lies above it are not among its items. -/
theorem getWeight_updateItemWeight (h : w.Forest) (hx : x ∈ w.itemlist this) (d : UInt32) :
    (updateItemWeight w this d).getWeight items x = w.getWeight items x := by
  have hp := (h.lists.mem_iff x this).mp hx
  have same := updateItemWeight_same w this d
  have htot := totalWeight_updateItemWeightLoop d w.next (h.isContainer hp) fun r p hr => h.isContainer hr
  have hb : ¬Lib.Below w.getParentContainer this x := fun hb => h.acyclic x (.head hp hb)
  have hne : x ≠ this := by
    rintro rfl
    exact h.acyclic.parent_ne hp rfl
  refine congrArg₂ (· + ·) (congrFun (getWeight_congr same.plain) x) ?_
  exact (congrFun htot x).trans (Lib.addUp_of_not_below d hne hb _)

theorem removeThing_part (hx : x ∈ w.itemlist this) {count : UInt32}
    (hcount : (w.item x).isStackable items ∧ count.toNat ≠ (w.item x).getItemCount) :
    removeThing items w this x count =
      let w' := w.modify x (·.setItemCount (countLeft (w.item x) count))
      updateItemWeight w' this (-w.getWeight items x + w'.getWeight items x) := by
  rw [removeThing, if_pos hx, if_pos hcount]

theorem removeThing_whole (hx : x ∈ w.itemlist this) {count : UInt32}
    (hcount : ¬((w.item x).isStackable items ∧ count.toNat ≠ (w.item x).getItemCount)) :
    removeThing items w this x count =
      ((updateItemWeight w this (-w.getWeight items x)).resetParent x).setItemlist this
        ((w.itemlist this).erase x) := by
  rw [removeThing, if_pos hx, if_neg hcount]
  dsimp only
  rw [itemlist_resetParent, (updateItemWeight_same _ _ _).itemlist]

theorem removeThing_spec (items : UInt16 → ItemType) (h : w.Forest) (count : UInt32) :
    (removeThing items w this x count).Forest ∧
      ∀ y, (removeThing items w this x count).lack items y = w.lack items y := by
  by_cases hx : x ∈ w.itemlist this
  · by_cases hcount : (w.item x).isStackable items ∧ count.toNat ≠ (w.item x).getItemCount
    · rw [removeThing_part hx hcount]
      exact changed (f := fun i => i.setItemCount (countLeft (w.item x) count)) h hx (fun i => ⟨rfl, rfl⟩) rfl
    · rw [removeThing_whole hx hcount]
      have same := updateItemWeight_same w this (-w.getWeight items x)
      have hx₁ : x ∈ (updateItemWeight w this (-w.getWeight items x)).itemlist this := by rwa [same.itemlist]
      have hc₁ := isContainer_resetParent (r := x) |>.mpr (isContainer_of_mem hx₁)
      have hl : ((updateItemWeight w this (-w.getWeight items x)).itemlist this).Perm
          (x :: (w.itemlist this).erase x) := by
        rw [same.itemlist]
        exact List.perm_cons_erase hx
      refine (unlinked items (((updateItemWeight w this (-w.getWeight items x)).resetParent x).setItemlist this
        ((w.itemlist this).erase x)) (h.same same) hx₁ hl (fun y => ?_) ?_ rfl ?_ ?_).imp_right fun hlack y => ?_
      · rw [plain_setItemlist, plain_resetParent]
      · rw [totalWeight_setItemlist, totalWeight_resetParent]
      · rw [getParentContainer_setItemlist, getParentContainer_resetParent]
      · rw [itemlist_setItemlist hc₁, itemlist_resetParent]
      · rw [hlack y, lack_updateItemWeight h (isContainer_of_mem hx), getWeight_updateItemWeight h hx]
        split_ifs <;> abel
  · rw [removeThing, if_neg hx]
    exact ⟨h, fun _ => rfl⟩

/-! ### One for another -/

theorem resetParent_setTotalWeight (w : World) (r c : Ref) (t : UInt32) :
    (w.resetParent r).setTotalWeight c t = (w.setTotalWeight c t).resetParent r := by
  unfold setTotalWeight resetParent World.modify
  by_cases h : c = r
  · subst h
    simp
  · simp [Function.update_of_ne h, Function.update_of_ne (Ne.symm h), Function.update_comm h]

/-- The way up does not ask for the parent of an item that is not on it. -/
theorem updateItemWeightLoop_resetParent (diff : UInt32) (n : Nat) {r : Ref} (hne : this ≠ r)
    (hb : ¬Lib.Below w.getParentContainer this r) :
    updateItemWeightLoop diff n this (w.resetParent r) = (updateItemWeightLoop diff n this w).resetParent r := by
  have htot : (w.resetParent r).totalWeight this = w.totalWeight this := by rw [totalWeight_resetParent]
  induction n generalizing this w with
  | zero => rw [updateItemWeightLoop, updateItemWeightLoop, htot, resetParent_setTotalWeight]
  | succ n ih =>
    rw [updateItemWeightLoop, updateItemWeightLoop, htot, getParentContainer_resetParent, Function.update_of_ne hne,
      resetParent_setTotalWeight]
    cases hp : w.getParentContainer this with
    | none => rfl
    | some p =>
      have hpb := Lib.below_of_parent hp
      have same := sameButTotals_setTotalWeight w this (w.totalWeight this + diff)
      refine ih ?_ ?_ (by rw [totalWeight_resetParent])
      · rintro rfl
        exact hb hpb
      · rw [same.getParentContainer]
        exact fun h => hb (hpb.trans h)

theorem replaceThing_spec (items : UInt16 → ItemType) (h : w.Forest) (index : UInt32) (ho : Outside w this x) :
    (replaceThing items w this index (some x)).Forest ∧
      ∀ y, (replaceThing items w this index (some x)).lack items y = w.lack items y := by
  cases hr : (w.itemlist this)[index.toNat]? with
  | none =>
    have heq : replaceThing items w this index (some x) = w := by simp only [replaceThing, hr]
    rw [heq]
    exact ⟨h, fun _ => rfl⟩
  | some r =>
    obtain ⟨hi, hri⟩ := List.getElem?_eq_some_iff.mp hr
    have hrm : r ∈ w.itemlist this := hri ▸ List.getElem_mem hi
    have hrp := (h.lists.mem_iff r this).mp hrm
    have hl : (w.itemlist this).Perm (r :: (w.itemlist this).eraseIdx index.toNat) := by
      rw [← hri]
      exact (List.getElem_cons_eraseIdx_perm hi).symm
    have hl' : ((w.itemlist this).set index.toNat x).Perm (x :: (w.itemlist this).eraseIdx index.toNat) :=
      List.set_perm_cons_eraseIdx hi x
    -- the links before the weights are made good
    let w₁ := (w.setItemlist this ((w.itemlist this).set index.toNat x)).setParent x (.container this)
    have hplain₁ : ∀ y, (w₁.item y).plain = (w.item y).plain := fun y => by
      rw [plain_setParent, plain_setItemlist]
    have htot₁ : w₁.totalWeight = w.totalWeight := by rw [totalWeight_setParent, totalWeight_setItemlist]
    have hpar₁ : w₁.getParentContainer = Function.update w.getParentContainer x (some this) := by
      rw [getParentContainer_setParent, getParentContainer_setItemlist]
    have hlist₁ : w₁.itemlist = Function.update w.itemlist this ((w.itemlist this).set index.toNat x) := by
      rw [itemlist_setParent, itemlist_setItemlist (isContainer_of_mem hrm)]
    have hweight₁ : w₁.getWeight items = w.getWeight items := by
      funext y
      exact congrArg₂ (· + ·) (congrFun (getWeight_congr hplain₁) y) (congrFun htot₁ y)
    have hrb : ¬Lib.Below w₁.getParentContainer this r := fun hb => by
      rw [hpar₁] at hb
      rcases Lib.below_of_hang hb with hb | ⟨hb, -⟩
      · exact h.acyclic r (.head hrp hb)
      · rcases hb with hb | hb
        · exact ho.ne hb
        · exact ho.notBelow hb
    have hu : (w₁.resetParent r).Forest := by
      refine h.swap ho.free ho.made ho.ne ho.notBelow hrp hl hl' ?_ ?_ rfl
      · rw [getParentContainer_resetParent, hpar₁]
      · rw [itemlist_resetParent, hlist₁]
    have hplain : ∀ y, ((w₁.resetParent r).item y).plain = (w.item y).plain := fun y => by
      rw [plain_resetParent, hplain₁]
    have hlack := lack_of_itemlist items hplain (by rw [totalWeight_resetParent, htot₁])
      (by rw [itemlist_resetParent, hlist₁])
    have hc : (w₁.resetParent r).isContainer this :=
      isContainer_resetParent.mpr (isContainer_setParent.mpr (isContainer_setItemlist.mpr (isContainer_of_mem hrm)))
    have heq : replaceThing items w this index (some x) =
        updateItemWeight (w₁.resetParent r) this (-w.getWeight items r + w.getWeight items x) := by
      simp only [replaceThing, hr]
      refine (updateItemWeightLoop_resetParent _ _ (h.acyclic.parent_ne hrp) hrb).symm.trans ?_
      rw [show (w.setItemlist this ((w.itemlist this).set index.toNat x)).setParent x (.container this) = w₁ from rfl,
        hweight₁]
      rfl
    rw [heq]
    refine ⟨hu.same (updateItemWeight_same _ _ _), fun y => ?_⟩
    rw [lack_updateItemWeight hu hc, hlack y, (hl.map (w.getWeight items)).sum_eq,
      (hl'.map (w.getWeight items)).sum_eq, List.map_cons, List.map_cons, List.sum_cons, List.sum_cons]
    split_ifs <;> abel

end Container
end CrystalServer
