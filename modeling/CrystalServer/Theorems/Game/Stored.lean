import CrystalServer.Theorems.Game.AddItem
import CrystalServer.Theorems.Game.Bounds

/-! # What lies in containers and slots

The units of an id in all of them together, and how they change when a stack gets another count, an item is taken away,
or a new one comes into a container. -/

namespace CrystalServer

open Container

/-- A container that held no more than it may still does, and a stack that was sound, or is new, is sound. -/
structure KeepsOrder (items : UInt16 → ItemType) (w w' : World) : Prop where
  rooms : ∀ c, size w c ≤ (capacity w c).toNat → size w' c ≤ (capacity w' c).toNat
  sound : ∀ r < w'.next, (r < w.next → (w.item r).Sound items) → (w'.item r).Sound items

namespace World

section
variable (items : UInt16 → ItemType) (w : World) (id : UInt16)

/-- The units of one item that has a place. -/
def storedAt (r : Ref) : Nat := if (w.getParent r).isSome then (w.item r).units items id else 0

/-- The units of an id in all containers and slots. -/
def stored : Nat := ∑ r ∈ Finset.range w.next, w.storedAt items id r

end

variable {items : UInt16 → ItemType} {w w' : World} {x c : Ref}

theorem storedAt_congr (hp : w'.getParent x = w.getParent x) (hplain : (w'.item x).plain = (w.item x).plain)
    (id : UInt16) : w'.storedAt items id x = w.storedAt items id x := by
  rw [storedAt, storedAt, hp, units_congr hplain]

theorem stored_of_change (items : UInt16 → ItemType) (hnext : w'.next = w.next) (hx : x < w.next)
    (hparent : ∀ r, r ≠ x → w'.getParent r = w.getParent r)
    (hplain : ∀ r, r ≠ x → (w'.item r).plain = (w.item r).plain) (id : UInt16) :
    w'.stored items id + w.storedAt items id x = w.stored items id + w'.storedAt items id x := by
  rw [stored, stored, hnext]
  exact Lib.sum_add_eq (Finset.mem_range.mpr hx) fun r hr => storedAt_congr (hparent r hr) (hplain r hr) id

/-- A container holds as much as before, if nothing changed its place. -/
theorem size_congr (hw : w.Forest) (hw' : w'.Forest) (h : ∀ r, w'.getParent r = w.getParent r) (c : Ref) :
    size w' c = size w c := by
  refine ((List.perm_ext_iff_of_nodup (hw'.lists.nodup c) (hw.lists.nodup c)).mpr fun r => ?_).length_eq
  rw [hw'.lists.mem_iff, hw.lists.mem_iff, getParentContainer_congr (h r)]

/-- Only the stacks of a list changed, and they have so many units more. -/
structure Refills (items : UInt16 → ItemType) (w w' : World) (l : List Ref) (itemId : UInt16) (n : Nat) : Prop where
  forest : w'.Forest
  order : KeepsOrder items w w'
  next : w'.next = w.next
  parent : ∀ r, w'.getParent r = w.getParent r
  container : ∀ r, w'.isContainer r = w.isContainer r
  capacity : ∀ r, capacity w' r = capacity w r
  id : ∀ r, (w'.item r).id = (w.item r).id
  count : ∀ r ∉ l, (w'.item r).getItemCount = (w.item r).getItemCount
  stored : ∀ id, w'.stored items id = w.stored items id + if id = itemId then n else 0

/-- A new item came into a container. -/
structure Creates (w w' : World) (c : Ref) (i : Item) : Prop where
  next : w'.next = w.next + 1
  forest : w'.Forest
  parent : w'.getParent = Function.update w.getParent w.next (some (.container c))
  itemlist : w'.itemlist = Function.update w.itemlist c (w.next :: w.itemlist c)
  plain : ∀ r, (w'.item r).plain = if r = w.next then i.plain else (w.item r).plain
  container : ∀ r, r ≠ w.next → w'.isContainer r = w.isContainer r
  capacity : ∀ r, r ≠ w.next → capacity w' r = capacity w r

end World

open World

variable {items : UInt16 → ItemType} {w w' w'' : World} {x c : Ref}

namespace KeepsOrder

theorem refl (items : UInt16 → ItemType) (w : World) : KeepsOrder items w w := ⟨fun _ h => h, fun _ hr h => h hr⟩

theorem trans (h : KeepsOrder items w w') (h' : KeepsOrder items w' w'') : KeepsOrder items w w'' :=
  ⟨fun c hc => h'.rooms c (h.rooms c hc), fun r hr hold => h'.sound r hr fun hr' => h.sound r hr' hold⟩

end KeepsOrder

/-! ### A stack gets another count -/

namespace Recounts
variable {k : Nat}

theorem slotted (h : Recounts w w' x k) (hw : Slotted w) : Slotted w' where
  slot p r hr := by
    rw [h.parent] at hr
    rw [h.players]
    exact hw.slot p r hr
  once p i j r hi hj := by
    rw [h.players] at hi hj
    exact hw.once p i j r hi hj

theorem stored (items : UInt16 → ItemType) (h : Recounts w w' x k) (hs : (w.item x).isStackable items) (hp : (w.getParent x).isSome)
    (hx : x < w.next) (id : UInt16) : w'.stored items id + (if (w.item x).id = id then (w.item x).getItemCount else 0) =
      w.stored items id + if (w.item x).id = id then k else 0 := by
  have hs' : (w'.item x).isStackable items := by rwa [Item.isStackable, h.id]
  have := stored_of_change items h.next hx (fun r _ => h.parent r) h.plain id
  rw [storedAt, storedAt, h.parent, if_pos hp, if_pos hp, Item.units, Item.units, part_of_stackable hs,
    part_of_stackable hs', h.id, h.count] at this
  exact this

theorem order (h : Recounts w w' x k) (hw : w.Forest) (hcap : ∀ r, capacity w' r = capacity w r)
    (hk : 1 ≤ k ∧ k ≤ (w.item x).getStackSize items) : KeepsOrder items w w' where
  rooms c hc := by
    rwa [size_congr hw (h.forest hw) h.parent, hcap]
  sound r hr hold := by
    rw [h.next] at hr
    by_cases hrx : r = x
    · subst hrx
      intro _
      rwa [h.count, Item.getStackSize, Item.isStackable, h.id]
    · exact (sound_congr (h.plain r hrx)).mpr (hold hr)

end Recounts

/-- A stack in a container gets more. -/
theorem refills_one (hw : w.Forest) (hx : x ∈ w.itemlist c) (hs : (w.item x).isStackable items)
    (hsound : (w.item x).Sound items) {n : Nat} (hn : (w.item x).getItemCount + n ≤ (w.item x).getStackSize items) (hsize : (w.item x).getStackSize items < 256) :
    Recounts w (Container.updateThing items w c x (w.item x).id (.ofNat ((w.item x).getItemCount + n))) x
        ((w.item x).getItemCount + n) ∧
      Refills items w (Container.updateThing items w c x (w.item x).id (.ofNat ((w.item x).getItemCount + n))) [x]
        (w.item x).id n := by
  have hk : (UInt32.ofNat ((w.item x).getItemCount + n)).toNat % 256 = (w.item x).getItemCount + n := by
    rw [UInt32.toNat_ofNat', Nat.mod_eq_of_lt (by omega), Nat.mod_eq_of_lt (by omega)]
  have h := recounts_container hx hs (.ofNat ((w.item x).getItemCount + n))
  have htouch := updateThing_touches items hx (w.item x).id (.ofNat ((w.item x).getItemCount + n))
  rw [hk] at h
  have hparent := (hw.lists.mem_iff x c).mp hx
  have hmade := (hw.made x c hparent).1
  have hsome : (w.getParent x).isSome := by rw [getParent_of_getParentContainer hparent]; rfl
  have hpos := (hsound hs).1
  refine ⟨h, h.forest hw, h.order hw htouch.capacity ⟨by omega, hn⟩, h.next, h.parent, h.container,
    htouch.capacity, fun r => ?_, fun r hr => ?_, fun id => ?_⟩
  · by_cases hrx : r = x
    · rw [hrx, h.id]
    · have := congrArg Item.id (h.plain r hrx)
      exact this
  · have := congrArg Item.getItemCount (h.plain r fun hrx => hr (hrx ▸ List.mem_singleton_self x))
    exact this
  · have := h.stored items hs hsome hmade id
    rw [if_congr (eq_comm (a := id)) rfl rfl]
    split_ifs at this ⊢ <;> omega

namespace World.Refills
variable {l l' : List Ref} {itemId : UInt16} {n n' : Nat}

theorem refl (items : UInt16 → ItemType) (hw : w.Forest) (l : List Ref) (itemId : UInt16) :
    Refills items w w l itemId 0 where
  forest := hw
  order := .refl items w
  next := rfl
  parent _ := rfl
  container _ := rfl
  capacity _ := rfl
  id _ := rfl
  count _ _ := rfl
  stored id := by rw [ite_self, add_zero]

theorem trans (h : Refills items w w' l itemId n) (h' : Refills items w' w'' l' itemId n') :
    Refills items w w'' (l ++ l') itemId (n + n') where
  forest := h'.forest
  order := h.order.trans h'.order
  next := h'.next.trans h.next
  parent r := (h'.parent r).trans (h.parent r)
  container r := (h'.container r).trans (h.container r)
  capacity r := (h'.capacity r).trans (h.capacity r)
  id r := (h'.id r).trans (h.id r)
  count r hr := by
    rw [List.mem_append, not_or] at hr
    rw [h'.count r hr.2, h.count r hr.1]
  stored id := by
    rw [h'.stored, h.stored]
    split_ifs <;> omega

theorem itemlist (h : Refills items w w' l itemId n) (hw : w.Forest) : x ∈ w'.itemlist c ↔ x ∈ w.itemlist c := by
  rw [h.forest.lists.mem_iff, hw.lists.mem_iff, getParentContainer_congr (h.parent x)]

end World.Refills

/-! ### An item is taken away -/

theorem Cuts.stored (items : UInt16 → ItemType) (h : Cuts w w' x) (hp : (w.getParent x).isSome) (hx : x < w.next) (id : UInt16) :
    w'.stored items id + (w.item x).units items id = w.stored items id := by
  have := stored_of_change items h.next hx (fun r => h.getParent_of_ne) (fun r _ => h.plain r) id
  rw [storedAt, storedAt, if_pos hp, h.parent, Function.update_self] at this
  exact this

/-! ### A new item comes into a container -/

theorem creates_addThing (items : UInt16 → ItemType) (hw : w.Forest) (hc : w.isContainer c) (hcn : c < w.next)
    (hfree : size w c < (capacity w c).toNat) {i : Item} (hp : i.m_parent = none) (hl : i.getItemList = []) :
    Creates w (Container.addThing items (w.new i) c 0 (some w.next)) c i := by
  have hold : (w.new i).item c = w.item c := by rw [item_new, Function.update_of_ne (Nat.ne_of_lt hcn)]
  have hcap : capacity (w.new i) c = capacity w c := by rw [capacity, capacity, hold]
  have hc' : (w.new i).isContainer c := by rwa [isContainer, hold]
  have hadd : Container.addThing items (w.new i) c 0 (some w.next) = internalAddThing items (w.new i) c (some w.next) :=
    if_neg (by rw [hcap]; omega)
  have htouch := internalAddThing_touches items (w.new i) c w.next
  rw [hadd]
  refine ⟨htouch.next, ?_, ?_, ?_, fun r => ?_, fun r hr => ?_, fun r hr => ?_⟩
  · exact (internalAddThing_spec items (forest_new hp hl hw) hc' (Nat.lt_succ_of_lt hcn) (Game.outside_new hw hp hcn)).1
  · funext r
    by_cases hr : r = w.next
    · rw [hr, Function.update_self]
      exact m_parent_internalAddThing
    · rw [Function.update_of_ne hr]
      refine (htouch.parent r hr).trans ?_
      rw [item_new, Function.update_of_ne hr]
      rfl
  · rw [itemlist_internalAddThing items hc', itemlist_new hl hw]
  · rw [plain_internalAddThing, item_new]
    by_cases hr : r = w.next
    · rw [hr, Function.update_self, if_pos rfl]
    · rw [Function.update_of_ne hr, if_neg hr]
  · rw [htouch.isContainer, isContainer, isContainer, item_new, Function.update_of_ne hr]
  · rw [htouch.capacity, capacity, capacity, item_new, Function.update_of_ne hr]

namespace World.Creates
variable {i : Item}

theorem stored (h : Creates w w' c i) (id : UInt16) : w'.stored items id = w.stored items id + i.units items id := by
  have hlast : w'.storedAt items id w.next = i.units items id := by
    rw [storedAt, h.parent, Function.update_self, units_congr (j := i)]
    · rfl
    · rw [h.plain, if_pos rfl]
  rw [World.stored, World.stored, h.next, Finset.sum_range_succ, hlast]
  refine congrArg (· + _) (Finset.sum_congr rfl fun r hr => storedAt_congr ?_ ?_ id)
  · rw [h.parent, Function.update_of_ne (Nat.ne_of_lt (Finset.mem_range.mp hr))]
  · rw [h.plain, if_neg (Nat.ne_of_lt (Finset.mem_range.mp hr))]

theorem size_eq (h : Creates w w' c i) (r : Ref) : size w' r = size w r + if r = c then 1 else 0 := by
  rw [size, size, h.itemlist]
  by_cases hr : r = c
  · rw [hr, Function.update_self, if_pos rfl, List.length_cons]
  · rw [Function.update_of_ne hr, if_neg hr, add_zero]

theorem order (h : Creates w w' c i) (hw : w.Forest) (hcn : c < w.next)
    (hfree : size w c < (Container.capacity w c).toNat) (hi : i.Sound items) : KeepsOrder items w w' where
  rooms r hr' := by
    rw [h.size_eq]
    by_cases hr : r = w.next
    · have hnil : w.itemlist r = [] := List.eq_nil_iff_forall_not_mem.mpr fun y hy =>
        absurd (hw.made y r ((hw.lists.mem_iff y r).mp hy)).2 (hr ▸ lt_irrefl _)
      have hrc : r ≠ c := fun hrc => absurd hcn (hrc ▸ hr ▸ lt_irrefl _)
      rw [if_neg hrc, size, hnil]
      exact Nat.zero_le _
    · rw [h.capacity r hr]
      split_ifs with hrc
      · rw [hrc]
        exact hfree
      · exact hr'
  sound r hr hold := by
    rw [h.next] at hr
    by_cases hrn : r = w.next
    · exact (sound_congr (by rw [h.plain, if_pos hrn])).mpr hi
    · exact (sound_congr (by rw [h.plain, if_neg hrn])).mpr (hold (Nat.lt_of_le_of_ne (Nat.le_of_lt_succ hr) hrn))

end World.Creates

end CrystalServer
