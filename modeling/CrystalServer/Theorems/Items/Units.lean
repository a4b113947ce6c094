import CrystalServer.Lib.SumBy
import CrystalServer.Items.Cylinder
import CrystalServer.Theorems.Items.Container

/-! # Containers: how many units lie in them

The units of an id are what a player counts: the pieces of a stack, or one for an item that does not stack.
A change that touches one item changes the total by what this item comes to. -/

namespace CrystalServer

/-- What `n` pieces of an item count for its id. -/
def Item.part (items : UInt16 → ItemType) (id : UInt16) (i : Item) (n : Nat) : Nat :=
  if i.id = id then (if i.isStackable items then n else 1) else 0

def Item.units (items : UInt16 → ItemType) (id : UInt16) (i : Item) : Nat := i.part items id i.getItemCount

namespace World
open Container

section
variable (items : UInt16 → ItemType)

/-- The units of an id in all containers. -/
def total (w : World) (id : UInt16) : Nat :=
  ∑ c ∈ Finset.range w.next, ((w.itemlist c).map fun r => (w.item r).units items id).sum

/-- The units of one item that lies in a container. -/
def lying (w : World) (id : UInt16) (r : Ref) : Nat :=
  if (w.getParentContainer r).isSome then (w.item r).units items id else 0

end

variable {items : UInt16 → ItemType} {w w' w'' : World} {x : Ref}

theorem total_eq (h : w.Forest) (id : UInt16) : w.total items id = ∑ r ∈ Finset.range w.next, w.lying items id r :=
  Lib.sum_children h.lists (fun r c hr => by simpa only [Finset.mem_range] using h.made r c hr) _

theorem units_plain (i : Item) (id : UInt16) : i.plain.units items id = i.units items id := rfl

theorem units_congr {i j : Item} (h : i.plain = j.plain) (id : UInt16) : i.units items id = j.units items id :=
  (units_plain i id).symm.trans ((congrArg (Item.units items id) h).trans (units_plain j id))

/-! ### One item at a time -/

/-- Only the item at `x` may have changed in itself, or its place. -/
structure Touches (w w' : World) (x : Ref) : Prop where
  next : w'.next = w.next
  players : w'.players = w.players
  plain : ∀ r, r ≠ x → (w'.item r).plain = (w.item r).plain
  parent : ∀ r, r ≠ x → (w'.item r).m_parent = (w.item r).m_parent
  maxSize : ∀ r, (w'.item r).container.map (·.maxSize) = (w.item r).container.map (·.maxSize)

namespace Touches

theorem trans (h : Touches w w' x) (h' : Touches w' w'' x) : Touches w w'' x :=
  ⟨h'.next.trans h.next, h'.players.trans h.players, fun r hr => (h'.plain r hr).trans (h.plain r hr),
    fun r hr => (h'.parent r hr).trans (h.parent r hr), fun r => (h'.maxSize r).trans (h.maxSize r)⟩

theorem of_same (h : SameButTotals w w') (x : Ref) : Touches w w' x where
  next := h.next
  players := h.players
  plain r _ := h.plain r
  parent r _ := h.m_parent r
  maxSize := h.proj (·.maxSize) fun _ _ => rfl

theorem modify {f : Item → Item} (hf : (f (w.item x)).container = (w.item x).container) :
    Touches w (w.modify x f) x where
  next := rfl
  players := rfl
  plain r hr := by rw [item_modify, Function.update_of_ne hr]
  parent r hr := by rw [item_modify, Function.update_of_ne hr]
  maxSize r := congrFun (proj_modify (fun i => i.container.map (·.maxSize)) (congrArg _ hf)) r

theorem setItemlist (w : World) (c : Ref) (l : List Ref) (x : Ref) : Touches w (w.setItemlist c l) x where
  next := rfl
  players := rfl
  plain _ _ := plain_setItemlist l
  parent r _ := congrFun (proj_modify Item.m_parent rfl) r
  maxSize r := congrFun (proj_modify (fun i => i.container.map (·.maxSize)) (Option.map_map _ _ _)) r

theorem isContainer (h : Touches w w' x) (r : Ref) : w'.isContainer r = w.isContainer r := by
  have := congrArg Option.isSome (h.maxSize r)
  rwa [Option.isSome_map, Option.isSome_map] at this

theorem capacity (h : Touches w w' x) (r : Ref) : capacity w' r = capacity w r := by
  have := congrArg (fun o => (o.map UInt16.toUInt32).getD 0) (h.maxSize r)
  rwa [Option.map_map, Option.map_map] at this

theorem lying_of_ne (h : Touches w w' x) (id : UInt16) {r : Ref} (hr : r ≠ x) :
    w'.lying items id r = w.lying items id r := by
  unfold lying
  rw [getParentContainer_congr (h.parent r hr), units_congr (h.plain r hr)]

theorem total (h : Touches w w' x) (items : UInt16 → ItemType) (hw : w.Forest) (hw' : w'.Forest) (hx : x < w.next) (id : UInt16) :
    w'.total items id + w.lying items id x = w.total items id + w'.lying items id x := by
  rw [total_eq hw, total_eq hw', h.next]
  exact Lib.sum_add_eq (Finset.mem_range.mpr hx) fun r hr => h.lying_of_ne id hr

end Touches

/-! ### What the changes touch -/

variable {this : Ref}

theorem internalAddThing_touches (items : UInt16 → ItemType) (w : World) (this x : Ref) :
    Touches w (internalAddThing items w this (some x)) x :=
  ((Touches.modify rfl).trans (Touches.setItemlist _ this _ x)).trans (Touches.of_same (updateItemWeight_same _ _ _) x)

theorem plain_internalAddThing (r : Ref) :
    ((internalAddThing items w this (some x)).item r).plain = (w.item r).plain := by
  refine ((updateItemWeight_same _ _ _).plain r).trans ?_
  rw [plain_setItemlist, plain_setParent]

theorem m_parent_internalAddThing :
    ((internalAddThing items w this (some x)).item x).m_parent = some (.container this) := by
  refine ((updateItemWeight_same _ _ _).m_parent x).trans ((congrFun (proj_modify Item.m_parent rfl) x).trans ?_)
  rw [World.setParent, item_modify, Function.update_self]

theorem updateThing_touches (items : UInt16 → ItemType) (hx : x ∈ w.itemlist this) (itemId : UInt16) (count : UInt32) :
    Touches w (updateThing items w this x itemId count) x := by
  rw [updateThing_of_mem hx]
  refine (Touches.modify ?_).trans (Touches.of_same (updateItemWeight_same _ _ _) x)
  obtain ⟨as, k, he⟩ := Item.setID_setSubType_eq items (w.item x) itemId count.toUInt16
  rw [he]

theorem plain_updateThing (hx : x ∈ w.itemlist this) (itemId : UInt16) (count : UInt32) :
    ((updateThing items w this x itemId count).item x).plain =
      (((w.item x).setID items itemId).setSubType items count.toUInt16).plain := by
  rw [updateThing_of_mem hx]
  refine ((updateItemWeight_same _ _ _).plain x).trans ?_
  rw [item_modify, Function.update_self]

theorem m_parent_updateThing (hx : x ∈ w.itemlist this) (itemId : UInt16) (count : UInt32) :
    ((updateThing items w this x itemId count).item x).m_parent = (w.item x).m_parent := by
  rw [updateThing_of_mem hx]
  refine ((updateItemWeight_same _ _ _).m_parent x).trans ?_
  obtain ⟨as, k, he⟩ := Item.setID_setSubType_eq items (w.item x) itemId count.toUInt16
  rw [item_modify, Function.update_self, he]

theorem removeThing_touches (items : UInt16 → ItemType) (hx : x ∈ w.itemlist this) (count : UInt32) :
    Touches w (removeThing items w this x count) x := by
  by_cases hcount : (w.item x).isStackable items ∧ count.toNat ≠ (w.item x).getItemCount
  · rw [removeThing_part hx hcount]
    exact (Touches.modify rfl).trans (Touches.of_same (updateItemWeight_same _ _ _) x)
  · rw [removeThing_whole hx hcount]
    exact ((Touches.of_same (updateItemWeight_same _ _ _) x).trans (Touches.modify rfl)).trans
      (Touches.setItemlist _ this _ x)

theorem toNat_ofInt_natCast (n : Nat) : (UInt8.ofInt (n : Int)).toNat = n % 256 := by
  rw [UInt8.ofInt]
  simp
  omega

/-- What is left of a stack. -/
theorem countLeft_eq {item : Item} {count : UInt32} (h : count.toNat ≤ item.getItemCount) :
    countLeft item count = item.getItemCount - count.toNat := by
  have hle : count.toNat ≤ item.count.toNat := h
  have hlt := item.count.toNat_lt
  have hsub : (item.count.toUInt32 - count).toNat = item.count.toNat - count.toNat := by
    rw [UInt32.toNat_sub_of_le _ _ (UInt32.le_iff_toNat_le.mpr (by simpa using hle))]
    simp
  rw [countLeft, Lib.toInt_toInt32_of_lt (by rw [hsub]; omega), hsub, max_eq_right (Int.natCast_nonneg _),
    toNat_ofInt_natCast, Item.getItemCount, Nat.mod_eq_of_lt (by omega)]

theorem lying_of_parent {c : Cylinder} {k : Ref} (hc : c = .container k) (hx : (w.item x).m_parent = some c)
    (id : UInt16) : w.lying items id x = (w.item x).units items id := by
  have : w.getParentContainer x = some k := by rw [World.getParentContainer, World.getParent, hx, hc]; rfl
  rw [lying, this]
  rfl

theorem lying_of_free (hx : w.getParentContainer x = none) (id : UInt16) : w.lying items id x = 0 := by
  rw [lying, hx]
  rfl

theorem lying_of_mem (hw : w.Forest) (hx : x ∈ w.itemlist this) (id : UInt16) :
    w.lying items id x = (w.item x).units items id := by
  rw [lying, (hw.lists.mem_iff x this).mp hx]
  rfl

section
variable {count : UInt32}

theorem plain_removeThing_part (hx : x ∈ w.itemlist this)
    (hcount : (w.item x).isStackable items ∧ count.toNat ≠ (w.item x).getItemCount) :
    ((removeThing items w this x count).item x).plain =
      ((w.item x).setItemCount (countLeft (w.item x) count)).plain := by
  rw [removeThing_part hx hcount]
  refine ((updateItemWeight_same _ _ _).plain x).trans ?_
  rw [item_modify, Function.update_self]

theorem m_parent_removeThing_part (hx : x ∈ w.itemlist this)
    (hcount : (w.item x).isStackable items ∧ count.toNat ≠ (w.item x).getItemCount) :
    ((removeThing items w this x count).item x).m_parent = (w.item x).m_parent := by
  rw [removeThing_part hx hcount]
  refine ((updateItemWeight_same _ _ _).m_parent x).trans ?_
  rw [item_modify, Function.update_self]
  rfl

theorem plain_removeThing_whole (hx : x ∈ w.itemlist this)
    (hcount : ¬((w.item x).isStackable items ∧ count.toNat ≠ (w.item x).getItemCount)) (r : Ref) :
    ((removeThing items w this x count).item r).plain = (w.item r).plain := by
  rw [removeThing_whole hx hcount, plain_setItemlist, plain_resetParent]
  exact (updateItemWeight_same _ _ _).plain r

theorem getParentContainer_removeThing_whole (hx : x ∈ w.itemlist this)
    (hcount : ¬((w.item x).isStackable items ∧ count.toNat ≠ (w.item x).getItemCount)) :
    (removeThing items w this x count).getParentContainer = Function.update w.getParentContainer x none := by
  rw [removeThing_whole hx hcount, getParentContainer_setItemlist, getParentContainer_resetParent,
    (updateItemWeight_same _ _ _).getParentContainer]

theorem part_of_stackable {i : Item} (h : i.isStackable items) (id : UInt16) (n : Nat) :
    i.part items id n = if i.id = id then n else 0 := by
  rw [Item.part, if_pos h]

theorem part_of_single {i : Item} (h : ¬i.isStackable items) (id : UInt16) (n : Nat) :
    i.part items id n = if i.id = id then 1 else 0 := by
  rw [Item.part, if_neg h]

theorem part_setItemCount (i : Item) (k : Nat) (id : UInt16) (n : Nat) :
    (i.setItemCount k).part items id n = i.part items id n := rfl

/-- Taking pieces of a stack, or an item that does not stack, out of a container. -/
theorem removeThing_total (hw : w.Forest) (hx : x ∈ w.itemlist this)
    (hle : (w.item x).isStackable items → count.toNat ≤ (w.item x).getItemCount) (id : UInt16) :
    (removeThing items w this x count).total items id + (w.item x).part items id count.toNat = w.total items id := by
  have hp := (hw.lists.mem_iff x this).mp hx
  have htotal := (removeThing_touches items hx count).total items hw
    (removeThing_spec items hw count).1 (hw.made x this hp).1 id
  suffices hl : (removeThing items w this x count).lying items id x + (w.item x).part items id count.toNat =
      w.lying items id x by omega
  rw [lying_of_mem hw hx]
  by_cases hcount : (w.item x).isStackable items ∧ count.toNat ≠ (w.item x).getItemCount
  · have hle := hle hcount.1
    have hpar : (removeThing items w this x count).getParentContainer x = some this :=
      (getParentContainer_congr (m_parent_removeThing_part hx hcount)).trans hp
    have hlt := (w.item x).count.toNat_lt
    have hleft : ((w.item x).setItemCount (countLeft (w.item x) count)).getItemCount =
        (w.item x).getItemCount - count.toNat := by
      rw [Item.setItemCount, Item.getItemCount, countLeft_eq hle, UInt8.toNat_ofNat',
        Nat.mod_eq_of_lt (by rw [Item.getItemCount]; omega)]
    rw [lying, hpar, units_congr (plain_removeThing_part hx hcount), Item.units, Item.units, hleft, part_setItemCount,
      part_of_stackable hcount.1, part_of_stackable hcount.1, part_of_stackable hcount.1]
    simp only [Option.isSome_some, if_true]
    split_ifs
    · omega
    · rfl
  · rw [lying_of_free (by rw [getParentContainer_removeThing_whole hx hcount, Function.update_self]), Item.units, zero_add]
    by_cases hs : (w.item x).isStackable items
    · rw [not_not.mp fun hne => hcount ⟨hs, hne⟩]
    · rw [part_of_single hs, part_of_single hs]

end

/-! ### New items -/

variable {i : Item}

theorem item_new (w : World) (i : Item) : (w.new i).item = Function.update w.item w.next i := rfl

theorem next_new (w : World) (i : Item) : (w.new i).next = w.next + 1 := rfl

theorem free_next (hw : w.Forest) : w.getParentContainer w.next = none :=
  Option.eq_none_iff_forall_ne_some.mpr fun _ hc => absurd (hw.made _ _ hc).1 (lt_irrefl _)

theorem getParentContainer_new (hi : i.m_parent = none) (hw : w.Forest) :
    (w.new i).getParentContainer = w.getParentContainer := by
  funext r
  by_cases hr : r = w.next
  · subst hr
    rw [free_next hw, World.getParentContainer, World.getParent, item_new, Function.update_self, hi]
    rfl
  · refine getParentContainer_congr ?_
    rw [item_new, Function.update_of_ne hr]

theorem getItemList_of_none (h : i.container = none) : i.getItemList = [] := by
  rw [Item.getItemList, h]
  rfl

theorem itemlist_new (hi : i.getItemList = []) (hw : w.Forest) : (w.new i).itemlist = w.itemlist := by
  funext r
  by_cases hr : r = w.next
  · subst hr
    have hempty : w.itemlist w.next = [] :=
      List.eq_nil_iff_forall_not_mem.mpr fun x hx =>
        absurd (hw.made _ _ ((hw.lists.mem_iff x _).mp hx)).2 (lt_irrefl _)
    rw [hempty, World.itemlist, item_new, Function.update_self, hi]
  · rw [World.itemlist, World.itemlist, item_new, Function.update_of_ne hr]

theorem forest_new (hp : i.m_parent = none) (hc : i.getItemList = []) (hw : w.Forest) : (w.new i).Forest where
  lists := by
    rw [getParentContainer_new hp hw, itemlist_new hc hw]
    exact hw.lists
  acyclic := by
    rw [getParentContainer_new hp hw]
    exact hw.acyclic
  made r c hr := by
    rw [getParentContainer_new hp hw] at hr
    obtain ⟨h₁, h₂⟩ := hw.made r c hr
    exact ⟨Nat.lt_succ_of_lt h₁, Nat.lt_succ_of_lt h₂⟩

theorem total_new (hp : i.m_parent = none) (hc : i.getItemList = []) (hw : w.Forest) (id : UInt16) :
    (w.new i).total items id = w.total items id := by
  have hnew : (w.new i).lying items id w.next = 0 :=
    lying_of_free ((congrFun (getParentContainer_new hp hw) _).trans (free_next hw)) id
  rw [total_eq (forest_new hp hc hw), total_eq hw, next_new, Finset.sum_range_succ]
  have hold : ∀ r ∈ Finset.range w.next, (w.new i).lying items id r = w.lying items id r := fun r hr => by
    rw [lying, lying, getParentContainer_new hp hw, item_new,
      Function.update_of_ne (Nat.ne_of_lt (Finset.mem_range.mp hr))]
  exact (congrArg₂ (· + ·) (Finset.sum_congr rfl hold) hnew).trans (add_zero _)

/-- A new item that comes into a container. -/
theorem internalAddThing_total (hw : w.Forest) (hc : w.isContainer this) (hcn : this < w.next)
    (ho : Outside w this x) (id : UInt16) :
    (internalAddThing items w this (some x)).total items id = w.total items id + (w.item x).units items id := by
  have htotal := (internalAddThing_touches items w this x).total items hw
    (internalAddThing_spec items hw hc hcn ho).1 ho.made id
  rw [lying_of_free ho.free, lying_of_parent rfl m_parent_internalAddThing,
    units_congr (plain_internalAddThing x)] at htotal
  exact htotal

end World
end CrystalServer

/-! ## What a container or a player holds

An item is held by a cylinder when the way up from it, over the parents, comes to the cylinder. The units that a
cylinder holds grow by what an item brings when it comes in anywhere below. -/

namespace CrystalServer.World

/-- What holds a cylinder, as far as containers and players go. -/
def holder (w : World) : Cylinder → Option Cylinder
  | .container r => w.getParent r
  | .player _ => none

/-- An item is held by the cylinder, within so many containers. -/
def heldLoop (w : World) (dest : Cylinder) : Nat → Ref → Bool
  | 0, r => w.getParent r = some dest
  | n + 1, r =>
    w.getParent r = some dest ||
      match w.getParentContainer r with
      | some c => heldLoop w dest n c
      | none => false

/-- The units of an id that a cylinder holds, with everything nested in it. -/
def held (items : UInt16 → ItemType) (w : World) (dest : Cylinder) (id : UInt16) : Nat :=
  ∑ r ∈ Finset.range w.next, if w.heldLoop dest w.next r then (w.item r).units items id else 0

/-- The units of an id that an item brings along. -/
def brought (items : UInt16 → ItemType) (w : World) (x : Ref) (id : UInt16) : Nat :=
  (w.item x).units items id + w.held items (.container x) id

variable {items : UInt16 → ItemType} {w w' : World} {dest : Cylinder} {x c : Ref}

theorem getParent_of_getParentContainer (h : w.getParentContainer x = some c) : w.getParent x = some (.container c) := by
  unfold getParentContainer at h
  cases hp : w.getParent x with
  | none =>
    rw [hp] at h
    exact nomatch h
  | some p =>
    rw [hp] at h
    cases p with
    | container k =>
      cases h
      rfl
    | player k => exact nomatch h

theorem getParentContainer_of_getParent (h : w.getParent x = some (.container c)) : w.getParentContainer x = some c := by
  rw [getParentContainer, h]
  rfl

theorem below_holder_iff {r : Ref} : Lib.Below w.holder (.container r) dest ↔ w.getParent r = some dest ∨
    ∃ c, w.getParentContainer r = some c ∧ Lib.Below w.holder (.container c) dest := by
  constructor
  · intro h
    obtain ⟨p, hp, rfl | hb⟩ := Lib.below_cases h
    · exact .inl hp
    · cases p with
      | container c => exact .inr ⟨c, getParentContainer_of_getParent hp, hb⟩
      | player p => exact absurd hb (Lib.not_below_of_root rfl)
  · rintro (h | ⟨c, hc, hb⟩)
    · exact Lib.below_of_parent h
    · exact .head (getParent_of_getParentContainer hc) hb

theorem below_container {a b : Ref} (h : Lib.Below w.holder (.container a) (.container b)) :
    Lib.Below w.getParentContainer a b := by
  generalize ha : Cylinder.container a = k at h
  induction h using Relation.TransGen.head_induction_on generalizing a with
  | single h =>
    subst ha
    exact Lib.below_of_parent (getParentContainer_of_getParent h)
  | @head k k' h hb ih =>
    subst ha
    cases k' with
    | container c => exact .head (getParentContainer_of_getParent h) (ih rfl)
    | player p => exact absurd hb (Lib.not_below_of_root rfl)

theorem below_holder_of_below {a b : Ref} (h : Lib.Below w.getParentContainer a b) :
    Lib.Below w.holder (.container a) (.container b) := by
  induction h using Relation.TransGen.head_induction_on with
  | single h => exact Lib.below_of_parent (getParent_of_getParentContainer h)
  | head h _ ih => exact .head (getParent_of_getParentContainer h) ih

theorem heldLoop_iff {n : Nat} {r : Ref} (hr : Lib.Ends w.getParentContainer n r) :
    w.heldLoop dest n r ↔ Lib.Below w.holder (.container r) dest := by
  induction n generalizing r with
  | zero =>
    have hr : w.getParentContainer r = none := hr
    rw [below_holder_iff, heldLoop, decide_eq_true_iff]
    exact ⟨.inl, fun h => h.elim id fun ⟨c, hc, _⟩ => nomatch hr.symm.trans hc⟩
  | succ n ih =>
    rw [below_holder_iff, heldLoop, Bool.or_eq_true, decide_eq_true_iff]
    refine or_congr_right ?_
    cases hp : w.getParentContainer r with
    | none => exact iff_of_false Bool.false_ne_true fun ⟨c, hc, _⟩ => nomatch hc
    | some c =>
      rw [ih (hr c hp)]
      exact ⟨fun h => ⟨c, rfl, h⟩, fun ⟨k, hk, h⟩ => Option.some.inj hk ▸ h⟩

open Classical in
theorem held_eq (items : UInt16 → ItemType) (hw : w.Forest) (dest : Cylinder) (id : UInt16) :
    w.held items dest id =
      ∑ r ∈ Finset.range w.next, if Lib.Below w.holder (.container r) dest then (w.item r).units items id else 0 :=
  Finset.sum_congr rfl fun r _ => if_congr (heldLoop_iff (hw.ends r)) rfl rfl

/-- One item changes in itself. -/
theorem held_of_change (hw : w.Forest) (hw' : w'.Forest) (hnext : w'.next = w.next)
    (hparent : ∀ r, w'.getParent r = w.getParent r) (hplain : ∀ r, r ≠ x → (w'.item r).plain = (w.item r).plain)
    (hx : x < w.next) (hheld : Lib.Below w.holder (.container x) dest) (id : UInt16) :
    w'.held items dest id + (w.item x).units items id = w.held items dest id + (w'.item x).units items id := by
  classical
  have hholder : w'.holder = w.holder := by
    funext c
    cases c with
    | container r => exact hparent r
    | player p => rfl
  rw [held_eq items hw, held_eq items hw', hnext, hholder]
  have := Lib.sum_add_eq (Finset.mem_range.mpr hx)
    (f := fun r => if Lib.Below w.holder (.container r) dest then (w.item r).units items id else 0)
    (g := fun r => if Lib.Below w.holder (.container r) dest then (w'.item r).units items id else 0) fun r hr => by
      rw [units_congr (hplain r hr)]
  simpa only [if_pos hheld] using this

/-- An item from outside comes in somewhere below. -/
theorem held_of_hang (hw : w.Forest) (hw' : w'.Forest) (hnext : w'.next = w.next)
    (hplain : ∀ r, (w'.item r).plain = (w.item r).plain) {k : Cylinder}
    (hholder : w'.holder = Function.update w.holder (.container x) (some k)) (hx : w.getParent x = none)
    (hxn : x < w.next) (hk : k = dest ∨ Lib.Below w.holder k dest) (hne : dest ≠ .container x)
    (hb : ¬Lib.Below w.holder dest (.container x)) (id : UInt16) :
    w'.held items dest id = w.held items dest id + w.brought items x id := by
  classical
  have hroot : w.holder (.container x) = none := hx
  have hself : ¬Lib.Below w.holder (.container x) dest := Lib.not_below_of_root hroot
  have hsplit : ∀ r, (if Lib.Below w'.holder (.container r) dest then (w'.item r).units items id else 0) =
      (if Lib.Below w.holder (.container r) dest then (w.item r).units items id else 0) +
        ((if r = x then (w.item r).units items id else 0) +
          if Lib.Below w.holder (.container r) (.container x) then (w.item r).units items id else 0) := fun r => by
    rw [units_congr (hplain r), hholder, if_congr (Lib.below_hang_iff hroot) rfl rfl]
    have hr : (Cylinder.container r = .container x ∨ Lib.Below w.holder (.container r) (.container x)) ∧
        (k = dest ∨ Lib.Below w.holder k dest) ↔ r = x ∨ Lib.Below w.holder (.container r) (.container x) := by
      rw [and_iff_left hk, Cylinder.container.injEq]
    rw [if_congr (or_congr_right hr) rfl rfl]
    by_cases hrx : r = x
    · subst hrx
      have hrr : ¬Lib.Below w.holder (.container r) (.container r) := Lib.not_below_of_root hroot
      simp [hself, hrr]
    · by_cases hbx : Lib.Below w.holder (.container r) (.container x)
      · have hbd : ¬Lib.Below w.holder (.container r) dest := fun hbd => by
          rcases Lib.below_linear hbd hbx with h | h | h
          · exact hne h
          · exact hb h
          · exact hself h
        simp [hrx, hbx, hbd]
      · simp [hrx, hbx]
  rw [held_eq items hw', held_eq items hw, brought, held_eq items hw, hnext, Finset.sum_congr rfl fun r _ => hsplit r,
    Finset.sum_add_distrib, Finset.sum_add_distrib, Finset.sum_ite_eq', if_pos (Finset.mem_range.mpr hxn)]

theorem getParent_new {i : Item} (hi : i.m_parent = none) (hnext : w.getParent w.next = none) :
    (w.new i).getParent = w.getParent := by
  funext r
  by_cases hr : r = w.next
  · subst hr
    rw [hnext, getParent, item_new, Function.update_self, hi]
  · rw [getParent, item_new, Function.update_of_ne hr]
    rfl

/-- A new item is held by nothing. -/
theorem held_new {i : Item} (hp : i.m_parent = none) (hc : i.getItemList = []) (hw : w.Forest)
    (hnext : w.getParent w.next = none) (id : UInt16) : (w.new i).held items dest id = w.held items dest id := by
  classical
  have hholder : (w.new i).holder = w.holder := by
    funext c
    cases c with
    | container r => exact congrFun (getParent_new hp hnext) r
    | player p => rfl
  have hlast : ¬Lib.Below w.holder (.container w.next) dest := Lib.not_below_of_root hnext
  rw [held_eq items (forest_new hp hc hw), held_eq items hw, next_new, hholder, Finset.sum_range_succ, if_neg hlast,
    add_zero]
  refine Finset.sum_congr rfl fun r hr => ?_
  rw [item_new, Function.update_of_ne (Nat.ne_of_lt (Finset.mem_range.mp hr))]

end CrystalServer.World
