import CrystalServer.Creatures.PlayerQuery
import CrystalServer.Theorems.Items.ContainerQuery

/-! # Items that are merged and taken away

What merging two stacks and copying one does to ids and counts. An item that is taken away whole has no parent any more, and
nothing else changes its place. -/

namespace CrystalServer

/-! ### Items -/

namespace Item
variable {items : UInt16 → ItemType}

theorem setSubType_of_stackable {item : Item} (h : item.isStackable items) (n : UInt16) :
    item.setSubType items n = item.setItemCount n.toNat := by
  have hg : (items item.id).group = .none := (items item.id).plain h
  have hs : (items item.id).stackable = true := h
  simp [setSubType, hg, hs]

theorem setID_self (items : UInt16 → ItemType) (item : Item) : ∃ as, item.setID items item.id = { item with attributePtr := as } :=
  setID_eq items item item.id

/-- A stack gets another count. -/
theorem plain_setID_setSubType {item : Item} (h : item.isStackable items) (n : UInt16) :
    ∃ as, ((item.setID items item.id).setSubType items n) =
      { item with attributePtr := as, count := .ofNat n.toNat } := by
  obtain ⟨as, hs⟩ := setID_self items item
  refine ⟨as, ?_⟩
  rw [hs]
  have h' : ({ item with attributePtr := as } : Item).isStackable items := h
  exact setSubType_of_stackable h' n

theorem make_eq (items : UInt16 → ItemType) (itemId itemCount : UInt16) :
    ∃ as k, make items itemId itemCount = ⟨itemId, k, as, none, none⟩ := by
  simp only [make, setAttribute, setItemCount, setDuration]
  split_ifs <;> exact ⟨_, _, rfl⟩

theorem createItem_eq (items : UInt16 → ItemType) (type count : UInt16) :
    ∃ as k, CreateItem items type count = ⟨(ItemTransformationMap.lookup type).getD type, k, as, none, none⟩ :=
  make_eq items _ _

/-- The count is kept in a byte. -/
theorem count_make_mod {id count : UInt16} (hs : (items id).stackable) (hne : count ≠ 0) :
    (make items id count).getItemCount = count.toNat % 256 := by
  have hg : (items id).group = .none := (items id).plain hs
  have hcount : (UInt8.ofNat count.toNat).toNat = count.toNat % 256 := UInt8.toNat_ofNat'
  unfold make
  simp only [hg, hs, hne, reduceCtorEq, or_self, if_false, if_true, ne_eq, not_false_eq_true]
  split_ifs <;> exact hcount

/-- A stack is made of as many pieces as are asked for. -/
theorem count_make {id count : UInt16} (hs : (items id).stackable) (hpos : 0 < count.toNat) (hlt : count.toNat < 256) :
    (make items id count).getItemCount = count.toNat := by
  rw [count_make_mod hs fun h => absurd hpos (by rw [h]; exact lt_irrefl _), Nat.mod_eq_of_lt hlt]

theorem count_make_single {id : UInt16} (hs : ¬(items id).stackable) (count : UInt16) :
    (make items id count).getItemCount = 1 := by
  unfold make
  simp only [eq_false_of_ne_true hs, Bool.false_eq_true, if_false, setAttribute, setDuration, getItemCount]
  split_ifs <;> rfl

theorem clone_eq (items : UInt16 → ItemType) (item : Item) :
    ∃ as k, item.clone items = ⟨(ItemTransformationMap.lookup item.id).getD item.id, k, as, none, none⟩ := by
  obtain ⟨as, k, h⟩ := make_eq items ((ItemTransformationMap.lookup item.id).getD item.id)
    (if (items item.id).stackable ∧ item.count.toUInt16 = 0 then 1 else item.count.toUInt16)
  unfold clone CreateItem
  dsimp only
  rw [h]
  cases item.attributePtr with
  | none => exact ⟨_, _, rfl⟩
  | some as' => exact ⟨_, _, rfl⟩

end Item

namespace Game
open Container
variable {w : World} {items : UInt16 → ItemType} {dest : Ref}

/-- The id of the copy that `Item::clone` makes. -/
def cloneId (id : UInt16) : UInt16 := (Item.ItemTransformationMap.lookup id).getD id

/-- A copy is copied under its own id. -/
theorem cloneId_cloneId (id : UInt16) : cloneId (cloneId id) = cloneId id := by
  have hall : Item.ItemTransformationMap.all (fun e => cloneId e.2 == e.2) = true := by decide
  have hlist : ∀ e ∈ Item.ItemTransformationMap, cloneId e.2 = e.2 := fun e he => eq_of_beq (List.all_eq_true.mp hall e he)
  cases h : Item.ItemTransformationMap.lookup id with
  | none =>
    have hid : cloneId id = id := by rw [cloneId, h]; rfl
    rw [hid, hid]
  | some v =>
    have hid : cloneId id = v := by rw [cloneId, h]; rfl
    obtain ⟨l₁, l₂, hl, -⟩ := List.lookup_eq_some_iff.mp h
    rw [hid]
    exact hlist (id, v) (hl ▸ List.mem_append_right l₁ List.mem_cons_self)

theorem below_made (hw : w.Forest) {a b : Ref} (h : Lib.Below w.getParentContainer a b) : b < w.next := by
  cases h with
  | single h => exact (hw.made _ _ h).2
  | tail _ h => exact (hw.made _ _ h).2

theorem outside_new (hw : w.Forest) {i : Item} (hp : i.m_parent = none) (hcn : dest < w.next) :
    Outside (w.new i) dest w.next where
  free := (congrFun (World.getParentContainer_new hp hw) _).trans (World.free_next hw)
  made := Nat.lt_succ_self _
  ne := Nat.ne_of_lt hcn
  notBelow := by
    rw [World.getParentContainer_new hp hw]
    exact fun hb => absurd (below_made hw hb) (lt_irrefl _)

/-- The room on a stack, in the arithmetic of the code. -/
def room (items : UInt16 → ItemType) (i : Item) : UInt32 := .ofNat (i.getStackSize items) - .ofNat i.getItemCount

/-- Where a stack takes less than what comes, it has room up to its size. -/
theorem room_of_lt {i : Item} {m : UInt32} (hm : m.toNat < 256) (h : room items i < m) :
    i.getItemCount + (room items i).toNat = i.getStackSize items ∧ i.getStackSize items < 256 := by
  have hc : i.getItemCount < 256 := i.count.toNat_lt
  have hs : i.getStackSize items < 256 := by
    unfold Item.getStackSize
    split_ifs
    · exact (items i.id).stackSize.toNat_lt
    · decide
  have hlt := UInt32.lt_iff_toNat_lt.mp h
  have hroom : (room items i).toNat = (2 ^ 32 - i.getItemCount + i.getStackSize items) % 2 ^ 32 := by
    rw [room, UInt32.toNat_sub, UInt32.toNat_ofNat', UInt32.toNat_ofNat',
      Nat.mod_eq_of_lt (a := i.getItemCount) (by omega), Nat.mod_eq_of_lt (a := i.getStackSize items) (by omega)]
  omega

theorem min_of_le {a b : UInt32} (h : b ≤ a) : min a b = b := by
  have hmin : min a b = if a ≤ b then a else b := rfl
  rw [hmin]
  split_ifs with h'
  · exact UInt32.le_antisymm h' h
  · rfl

theorem min_of_lt {a b : UInt32} (h : a < b) : min a b = a :=
  if_pos (UInt32.le_of_lt h)

theorem id_of_equals {r r' : Ref} (h : w.equals r r') : (w.item r).id = (w.item r').id := by
  unfold World.equals at h
  simp only [Bool.and_eq_true, beq_iff_eq] at h
  exact h.1.1.1

end Game
end CrystalServer

/-! ### Items off their place -/

namespace CrystalServer

/-- Containers hold each other as a forest does, no stack is a container, and what is in a slot knows it. -/
structure Carried (items : UInt16 → ItemType) (w : World) : Prop where
  forest : w.Forest
  single : ∀ r, w.isContainer r → (w.item r).isStackable items = false
  slots : ∀ p s r, (w.players p).inventory s = some r → w.getParent r = some (.player p)
  made : ∀ r k, w.getParent r = some k → r < w.next

/-- What has a player for its parent lies in one slot. -/
structure Slotted (w : World) : Prop where
  slot : ∀ p r, w.getParent r = some (.player p) → ∃ i ∈ List.range' 1 11, (w.players p).inventory i = some r
  once : ∀ p i j r, (w.players p).inventory i = some r → (w.players p).inventory j = some r → i = j

/-- The item at `x` is taken away. -/
structure Cuts (w w' : World) (x : Ref) : Prop where
  next : w'.next = w.next
  parent : w'.getParent = Function.update w.getParent x none
  plain : ∀ r, (w'.item r).plain = (w.item r).plain
  container : ∀ r, w'.isContainer r = w.isContainer r
  forest : w'.Forest
  slots : ∀ p i, (w'.players p).inventory i =
    if (w.players p).inventory i = some x then none else (w.players p).inventory i

variable {items : UInt16 → ItemType} {w w' : World} {x r : Ref} {dest : Cylinder}

/-- Nothing lies in an item with an empty list. -/
theorem World.not_below_empty (hw : w.Forest) (h : w.itemlist x = []) (k : Cylinder) :
    ¬Lib.Below w.holder k (.container x) := fun hb => by
  obtain ⟨c, hc⟩ : ∃ c, w.holder c = some (.container x) := by
    cases hb with
    | single h => exact ⟨_, h⟩
    | tail _ h => exact ⟨_, h⟩
  cases c with
  | container c =>
    have hmem := (hw.lists.mem_iff c x).mpr (World.getParentContainer_of_getParent hc)
    rw [h] at hmem
    exact List.not_mem_nil hmem
  | player p => exact nomatch hc

theorem World.not_below_single (hw : w.Forest) (h : ¬w.isContainer x) (k : Cylinder) :
    ¬Lib.Below w.holder k (.container x) :=
  World.not_below_empty hw (World.getItemList_of_none (Option.not_isSome_iff_eq_none.mp h)) k

/-- An item with nothing in it brings itself. -/
theorem World.brought_alone (hw : w.Forest) (h : ∀ k, ¬Lib.Below w.holder k (.container x)) (id : UInt16) :
    w.brought items x id = (w.item x).units items id := by
  classical
  rw [World.brought, World.held_eq items hw, Finset.sum_eq_zero fun r _ => if_neg (h (.container r)), add_zero]

theorem World.brought_single (hw : w.Forest) (h : ¬w.isContainer x) (id : UInt16) :
    w.brought items x id = (w.item x).units items id :=
  World.brought_alone hw (World.not_below_single hw h) id

namespace Cuts

theorem getParent_of_ne (h : Cuts w w' x) (hr : r ≠ x) : w'.getParent r = w.getParent r := by
  rw [h.parent, Function.update_of_ne hr]

theorem holder (h : Cuts w w' x) : w'.holder = Function.update w.holder (.container x) none := by
  funext k
  cases k with
  | container r =>
    by_cases hr : r = x
    · rw [hr, Function.update_self]
      exact (congrFun h.parent x).trans (Function.update_self ..)
    · rw [Function.update_of_ne fun h => hr (Cylinder.container.inj h)]
      exact h.getParent_of_ne hr
  | player p =>
    have hne : Cylinder.player p ≠ .container x := fun h => Cylinder.noConfusion h
    rw [Function.update_of_ne hne]
    rfl

theorem carried (h : Cuts w w' x) (hw : Carried items w) : Carried items w' where
  forest := h.forest
  single r hr := by
    have hid : (w'.item r).id = (w.item r).id := by
      have := congrArg Item.id (h.plain r)
      exact this
    have := hw.single r (by rwa [h.container] at hr)
    rwa [Item.isStackable, ← hid] at this
  slots p s r hr := by
    rw [h.slots] at hr
    obtain ⟨hne, hr⟩ := Option.ite_none_left_eq_some.mp hr
    rw [h.getParent_of_ne fun h => hne (h ▸ hr)]
    exact hw.slots p s r hr
  made r k hr := by
    rw [h.next]
    by_cases hrx : r = x
    · rw [h.parent, hrx, Function.update_self] at hr
      exact nomatch hr
    · rw [h.getParent_of_ne hrx] at hr
      exact hw.made r k hr

theorem slotted (h : Cuts w w' x) (hw : Slotted w) : Slotted w' where
  slot p r hr := by
    have hrx : r ≠ x := fun hrx => by
      rw [h.parent, hrx, Function.update_self] at hr
      exact nomatch hr
    rw [h.getParent_of_ne hrx] at hr
    obtain ⟨i, hi, hir⟩ := hw.slot p r hr
    refine ⟨i, hi, ?_⟩
    rw [h.slots, if_neg (by rw [hir]; exact fun h => hrx (Option.some.inj h)), hir]
  once p i j r hi hj := by
    rw [h.slots] at hi hj
    exact hw.once p i j r (Option.ite_none_left_eq_some.mp hi).2 (Option.ite_none_left_eq_some.mp hj).2

/-- The others stay where they were. -/
theorem below (h : Cuts w w' x) (hx : ∀ k, ¬Lib.Below w.holder k (.container x)) (hr : r ≠ x)
    (hb : Lib.Below w.holder (.container r) dest) : Lib.Below w'.holder (.container r) dest := by
  rw [h.holder]
  exact Lib.below_cut hb (fun h => hr (Cylinder.container.inj h)) (hx _)

/-- The cylinder has the units of the item less. -/
theorem held (h : Cuts w w' x) (hw : w.Forest) (hx : ∀ k, ¬Lib.Below w.holder k (.container x)) (hxn : x < w.next)
    (hb : Lib.Below w.holder (.container x) dest) (id : UInt16) :
    w'.held items dest id + (w.item x).units items id = w.held items dest id := by
  obtain ⟨k, hk, hkd⟩ := Lib.below_cases hb
  have hx' : ∀ k, ¬Lib.Below w'.holder k (.container x) := fun k hb => hx k (Lib.below_of_cut (h.holder ▸ hb))
  have hkx : k ≠ .container x := fun hkx => hx _ (hkx ▸ Lib.below_of_parent hk)
  have hholder : w.holder = Function.update w'.holder (.container x) (some k) := by
    rw [h.holder, Function.update_idem, ← hk, Function.update_eq_self]
  have hne : dest ≠ .container x := fun hd => hx _ (hd ▸ hb)
  have hfree : w'.getParent x = none := by rw [h.parent, Function.update_self]
  have hbelow : k = dest ∨ Lib.Below w'.holder k dest := hkd.imp_right fun hkd => by
    rw [h.holder]
    exact Lib.below_cut hkd hkx (hx _)
  have hhang : w.held items dest id = w'.held items dest id + w'.brought items x id :=
    World.held_of_hang h.forest hw h.next.symm (fun r => (h.plain r).symm) hholder hfree (h.next ▸ hxn) hbelow hne
      (hx' _) id
  rw [hhang, World.brought_alone h.forest hx', World.units_congr (h.plain x)]

end Cuts

/-! ### The functions that take away -/

theorem cuts_container (items : UInt16 → ItemType) {c : Ref} (hw : Carried items w) (hx : x ∈ w.itemlist c)
    {count : UInt32} (hwhole : ¬((w.item x).isStackable items ∧ count.toNat ≠ (w.item x).getItemCount)) :
    Cuts w (Container.removeThing items w c x count) x := by
  have htouch := World.removeThing_touches items hx count
  have hpar := World.getParent_of_getParentContainer ((hw.forest.lists.mem_iff x c).mp hx)
  refine ⟨htouch.next, ?_, World.plain_removeThing_whole hx hwhole, htouch.isContainer,
    (Container.removeThing_spec items hw.forest count).1, fun p i => ?_⟩
  · funext r
    by_cases hr : r = x
    · rw [hr, Function.update_self, Container.removeThing_whole hx hwhole]
      have : (fun r => (((Container.updateItemWeight w c (-w.getWeight items x)).resetParent x).setItemlist c
          ((w.itemlist c).erase x)).getParent r) = _ := World.proj_modify Item.m_parent rfl
      rw [congrFun this x, World.resetParent, World.item_modify, Function.update_self]
    · rw [Function.update_of_ne hr]
      exact htouch.parent r hr
  · rw [htouch.players, if_neg fun h => by
      have := hw.slots p i x h
      rw [hpar] at this
      exact nomatch this]

theorem cuts_player (env : Env) {p : PlayerRef} (hw : Carried env.items w) (hslots : Slotted w)
    (hx : w.getParent x = some (.player p)) {count : UInt32}
    (hwhole : ¬((w.item x).isStackable env.items ∧ count.toNat ≠ (w.item x).getItemCount)) :
    Cuts w (Player.removeThing env w p x count) x := by
  obtain ⟨i, hi, hix⟩ := hslots.slot p x hx
  have hindex : Player.getThingIndex w p x = some i := by
    cases hj : Player.getThingIndex w p x with
    | none =>
      have := List.find?_eq_none.mp hj i hi
      exact absurd hix (by simpa using this)
    | some j =>
      have := List.find?_some hj
      rw [hslots.once p i j x hix (by simpa using this)]
  have heq : Player.removeThing env w p x count = (w.resetParent x).setInventory p i none := by
    rw [Player.removeThing, hindex]
    exact if_neg hwhole
  have hfree : w.getParentContainer x = none := by
    rw [World.getParentContainer, hx]
    rfl
  have hparent : (w.resetParent x).getParent = Function.update w.getParent x none :=
    World.proj_modify_update Item.m_parent _
  have hpc : (w.resetParent x).getParentContainer = w.getParentContainer := by
    rw [World.getParentContainer_resetParent, ← hfree, Function.update_eq_self]
  rw [heq]
  refine ⟨rfl, hparent, fun r => World.plain_resetParent, fun r => ?_, ⟨?_, ?_, ?_⟩, fun q j => ?_⟩
  · exact Bool.eq_iff_iff.mpr Container.isContainer_resetParent
  · have := hw.forest.lists
    rwa [← hpc, ← World.itemlist_resetParent w x] at this
  · have := hw.forest.acyclic
    rwa [← hpc] at this
  · have := hw.forest.made
    rwa [← hpc] at this
  · change (Function.update w.players p _ q).inventory j = _
    by_cases hq : q = p
    · subst hq
      rw [Function.update_self]
      by_cases hj : j = i
      · subst hj
        rw [if_pos hix]
        exact Function.update_self ..
      · rw [if_neg fun h => hj (hslots.once q j i x h hix)]
        exact Function.update_of_ne hj ..
    · rw [Function.update_of_ne hq, if_neg fun h => ?_]
      have := hw.slots q j x h
      rw [hx] at this
      exact hq (Cylinder.player.inj (Option.some.inj this)).symm

end CrystalServer
