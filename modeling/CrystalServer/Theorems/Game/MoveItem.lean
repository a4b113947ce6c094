import CrystalServer.Game.AddItem
import CrystalServer.Theorems.Items.Taken
import CrystalServer.Theorems.Items.ContainerWeight

/-! # Moving items: nothing is lost

A move between containers first asks, then removes, then adds. What was removed is all added again unless the
container does not take the index that `queryDestination` settled on, the new item for the rest is of another
id, or the count of the stack it goes to wraps around. -/

namespace CrystalServer

/-! ### The world of a move -/

/-- Containers hold each other as a forest does, no stack is a container, and players are not concerned. -/
structure Grove (items : UInt16 → ItemType) (w : World) : Prop where
  forest : w.Forest
  single : ∀ r, w.isContainer r → (w.item r).isStackable items = false
  roots : ∀ r p, w.getParent r ≠ some (.player p)

namespace Game
open Container
variable {env : Env} {w : World} {item : Ref}

/-- What the loop over `queryDestination` settles on: a container, and one of its items if any. -/
theorem destinationLoop_spec (env : Env) (item : Ref) (hw : w.Forest) (n : Nat) {d : Destination} (hc : w.isContainer d.cylinder)
    (hn : d.cylinder < w.next) (hd : d.destItem = none) :
    let r := destinationLoop env w item n d 0
    r.2 = 0 ∧ w.isContainer r.1.cylinder ∧ r.1.cylinder < w.next ∧
      ∀ t, r.1.destItem = some t → t ∈ w.itemlist r.1.cylinder := by
  induction n generalizing d with
  | zero => exact ⟨rfl, hc, hn, fun t ht => nomatch hd.symm.trans ht⟩
  | succ n ih =>
    have hcases := queryDestination_cases env w d.cylinder d.index item 0
    rw [destinationLoop]
    dsimp only at hcases ⊢
    rw [hd]
    split
    · rename_i heq
      refine ⟨rfl, ?_, ?_, fun t ht => ?_⟩
      · rwa [heq]
      · rwa [heq]
      · rcases hcases with ⟨-, hmem⟩ | ⟨hnone, -⟩
        · rw [heq]
          exact hmem t ht
        · exact nomatch hnone.symm.trans ht
    · rename_i hne
      rcases hcases with ⟨heq, -⟩ | ⟨hnone, hup | ⟨hmem, hsub⟩⟩
      · exact absurd heq hne
      · exact ih (hw.isContainer hup) (hw.made _ _ hup).2 hnone
      · exact ih hsub (hw.made _ _ ((hw.lists.mem_iff _ _).mp hmem)).1 hnone

/-! ### What comes in -/

variable {items : UInt16 → ItemType} {dest : Ref} {index : Int}

/-- A container takes an item just when the index is below its capacity. -/
theorem addThing_total (items : UInt16 → ItemType) (index : Int) (hw : w.Forest) (hc : w.isContainer dest) (hcn : dest < w.next) (ho : Outside w dest item)
    (id : UInt16) : (addThing items w dest index (some item)).total items id =
      w.total items id + if index < (capacity w dest).toNat then (w.item item).units items id else 0 := by
  unfold addThing
  by_cases hi : index < (capacity w dest).toNat
  · rw [if_neg (not_le.mpr hi), if_pos hi, World.internalAddThing_total hw hc hcn ho]
  · rw [if_pos (not_lt.mp hi), if_neg hi, add_zero]

theorem moveRest_total (hw : w.Forest) (hc : w.isContainer dest) (hcn : dest < w.next) {n : Nat} (hn : n < 256)
    (id : UInt16) : (moveRest items w dest index item n).total items id = w.total items id +
      if 0 < n ∧ index < (capacity w dest).toNat ∧ cloneId (w.item item).id = id then
        (if (items id).stackable then n else 1) else 0 := by
  unfold moveRest
  by_cases hpos : 0 < n
  · obtain ⟨as, k, he⟩ := Item.clone_eq items (w.item item)
    have hnew : ((w.item item).clone items).setItemCount (UInt8.ofInt n).toNat =
        ⟨cloneId (w.item item).id, .ofNat n, as, none, none⟩ := by
      rw [he, World.toNat_ofInt_natCast, Nat.mod_eq_of_lt hn]
      rfl
    rw [if_pos (Int.natCast_pos.mpr hpos), hnew]
    generalize hi : (⟨cloneId (w.item item).id, .ofNat n, as, none, none⟩ : Item) = i
    have hp : i.m_parent = none := by rw [← hi]
    have hk : i.getItemList = [] := by rw [← hi]; rfl
    have hto : (w.new i).item dest = w.item dest := by
      rw [World.item_new, Function.update_of_ne (Nat.ne_of_lt hcn)]
    have hcap : capacity (w.new i) dest = capacity w dest := by rw [capacity, capacity, hto]
    have hct : (w.new i).isContainer dest := by rwa [World.isContainer, hto]
    have htotal := addThing_total items index (World.forest_new hp hk hw) hct
      (Nat.lt_succ_of_lt hcn) (outside_new hw hp hcn) id
    rw [World.total_new hp hk hw, hcap, World.item_new, Function.update_self] at htotal
    refine htotal.trans (congrArg _ ?_)
    have hunits : i.units items id = if cloneId (w.item item).id = id then
        (if (items id).stackable then n else 1) else 0 := by
      rw [← hi, Item.units, Item.part, Item.getItemCount, Item.isStackable]
      dsimp only
      rw [UInt8.toNat_ofNat', Nat.mod_eq_of_lt hn]
      split_ifs with h₁ h₂ h₃ h₃ <;> simp_all
    rw [hunits]
    split_ifs <;> simp_all
  · have hz : n = 0 := Nat.eq_zero_of_not_pos hpos
    subst hz
    simp

/-- A stack in a container gets another count, of which the low byte stays. -/
theorem updateThing_total (hw : w.Forest) {t : Ref} (ht : t ∈ w.itemlist dest) (hs : (w.item t).isStackable items)
    (k : UInt32) (id : UInt16) :
    (updateThing items w dest t (w.item t).id k).total items id + (w.item t).units items id =
      w.total items id + (w.item t).part items id (k.toNat % 256) := by
  have hp := (hw.lists.mem_iff t dest).mp ht
  have htotal := (World.updateThing_touches items ht (w.item t).id k).total items hw
    (updateThing_spec items hw _ k).1 (hw.made t dest hp).1 id
  have hpar : (updateThing items w dest t (w.item t).id k).getParentContainer t = some dest :=
    (World.getParentContainer_congr (World.m_parent_updateThing ht _ k)).trans hp
  obtain ⟨as, he⟩ := Item.plain_setID_setSubType hs k.toUInt16
  have hunits : ((updateThing items w dest t (w.item t).id k).item t).units items id =
      (w.item t).part items id (k.toNat % 256) := by
    rw [World.units_congr (World.plain_updateThing ht _ k), he, Item.units, Item.getItemCount]
    dsimp only
    rw [UInt8.toNat_ofNat', UInt32.toNat_toUInt16, Nat.mod_mod_of_dvd _ (by decide)]
    rfl
  rw [World.lying_of_mem hw ht, World.lying, hpar, hunits] at htotal
  exact htotal

section
variable {m : UInt32}

/-- Whether the container takes the rest of a stack under the id that it had. -/
def TakesRest (w : World) (dest : Ref) (index : Int) (item : Ref) : Prop :=
  index < (capacity w dest).toNat ∧ cloneId (w.item item).id = (w.item item).id

/-- What is put into a container of `m` pieces that were taken out. -/
theorem moveRest_all (hw : w.Forest) (hc : w.isContainer dest) (hcn : dest < w.next)
    (hs : (w.item item).isStackable items) {n : Nat} (hpos : 0 < n) (hn : n < 256) :
    (∀ id, (moveRest items w dest index item n).total items id = w.total items id + (w.item item).part items id n) ↔
      TakesRest w dest index item := by
  constructor
  · intro h
    have hid := h (w.item item).id
    rw [moveRest_total hw hc hcn hn, World.part_of_stackable hs, if_pos rfl] at hid
    split_ifs at hid with h₁
    · exact h₁.2
    · exact h₁.2
    · omega
  · rintro ⟨hi, hid⟩ id
    rw [moveRest_total hw hc hcn hn, World.part_of_stackable hs, hid]
    by_cases h : (w.item item).id = id
    · have hst : (items id).stackable = true := h ▸ hs
      rw [if_pos ⟨hpos, hi, h⟩, if_pos h, if_pos hst]
    · rw [if_neg fun hh => h hh.2.2, if_neg h]

theorem TakesRest.congr {w' : World} (index : Int) (hcap : capacity w' dest = capacity w dest)
    (hid : (w'.item item).id = (w.item item).id) : TakesRest w' dest index item ↔ TakesRest w dest index item := by
  unfold TakesRest
  rw [hcap, hid]

/-- Whether a container holds all of a stack after `moveStack`. -/
def StackFits (items : UInt16 → ItemType) (w : World) (dest : Ref) (index : Int) (item : Ref) (m : UInt32)
    (toItem : Option Ref) : Prop :=
  match toItem.filter fun toItem => w.equals item toItem with
  | some t =>
    if m ≤ room items (w.item t) then (w.item t).getItemCount + m.toNat < 256 else TakesRest w dest index item
  | none => TakesRest w dest index item

/-- The merge of `n` pieces into a stack. -/
theorem merge_total (hw : w.Forest) {t : Ref} (ht : t ∈ w.itemlist dest) (heq : w.equals item t)
    (hs : (w.item item).isStackable items) {n : UInt32} (hn : n.toNat < 256) (id : UInt16) :
    (updateThing items w dest t (w.item t).id (.ofNat (w.item t).getItemCount + n)).total items id +
        (w.item item).part items id (w.item t).getItemCount =
      w.total items id + (w.item item).part items id (((w.item t).getItemCount + n.toNat) % 256) := by
  have hid := id_of_equals heq
  have hst : (w.item t).isStackable items := by rwa [Item.isStackable, ← hid]
  have hlt : (w.item t).getItemCount < 256 := (w.item t).count.toNat_lt
  have htotal := updateThing_total hw ht hst (.ofNat (w.item t).getItemCount + n) id
  have hsum : (UInt32.ofNat (w.item t).getItemCount + n).toNat = (w.item t).getItemCount + n.toNat := by
    rw [UInt32.toNat_add, UInt32.toNat_ofNat', Nat.mod_eq_of_lt (a := (w.item t).getItemCount) (by omega),
      Nat.mod_eq_of_lt (by omega)]
  have hpart : ∀ k, (w.item t).part items id k = (w.item item).part items id k := fun k => by
    rw [World.part_of_stackable hst, World.part_of_stackable hs, hid]
  rw [← hsum, ← hpart, ← hpart]
  exact htotal

theorem moveStack_all (index : Int) (hw : w.Forest) (hc : w.isContainer dest) (hcn : dest < w.next)
    (hs : (w.item item).isStackable items) (hpos : 0 < m.toNat) (hm : m.toNat < 256) {toItem : Option Ref}
    (ht : ∀ t, toItem = some t → t ∈ w.itemlist dest ∧ t ≠ item) :
    (∀ id, (moveStack items w dest index item m toItem).total items id =
        w.total items id + (w.item item).part items id m.toNat) ↔ StackFits items w dest index item m toItem := by
  unfold moveStack StackFits
  cases hf : toItem.filter fun toItem => w.equals item toItem with
  | none =>
    dsimp only
    rw [Lib.toInt_toInt32_of_lt (by omega)]
    exact moveRest_all hw hc hcn hs hpos hm
  | some t =>
    obtain ⟨hsome, heq⟩ := Option.filter_eq_some_iff.mp hf
    obtain ⟨htm, hne⟩ := ht t hsome
    have hlt : (w.item t).getItemCount < 256 := (w.item t).count.toNat_lt
    have hroom : UInt32.ofNat ((w.item t).getStackSize items) - .ofNat (w.item t).getItemCount =
      room items (w.item t) := rfl
    dsimp only
    rw [hroom]
    by_cases hle : m ≤ room items (w.item t)
    · -- all of it goes to the stack
      rw [if_pos hle, min_of_le hle, sub_self]
      have hzero : ∀ w' : World, moveRest items w' dest index item (0 : UInt32).toInt32.toInt = w' := fun w' => by
        rw [moveRest, if_neg (by decide)]
      have htotal := merge_total hw htm heq hs hm
      simp only [hzero]
      constructor
      · intro h
        have h₁ := h (w.item item).id
        have h₂ := htotal (w.item item).id
        rw [World.part_of_stackable hs, if_pos rfl] at h₁
        rw [World.part_of_stackable hs, World.part_of_stackable hs, if_pos rfl, if_pos rfl] at h₂
        omega
      · intro h id
        have h₂ := htotal id
        rw [Nat.mod_eq_of_lt h] at h₂
        rw [World.part_of_stackable hs] at h₂ ⊢
        rw [World.part_of_stackable hs] at h₂
        split_ifs at h₂ ⊢ <;> omega
    · -- the stack is filled up, and the rest goes in as a new item
      have hlt' : room items (w.item t) < m := UInt32.not_le.mp hle
      obtain ⟨hfull, hsize⟩ := room_of_lt hm hlt'
      have hltn := UInt32.lt_iff_toNat_lt.mp hlt'
      rw [if_neg hle, min_of_lt hlt']
      generalize hw₂ : updateThing items w dest t (w.item t).id (.ofNat (w.item t).getItemCount + room items (w.item t)) =
        w₂
      have htotal := merge_total hw htm heq hs (n := room items (w.item t)) (by omega)
      have htouch : World.Touches w w₂ t := hw₂ ▸ World.updateThing_touches items htm _ _
      have hf₂ : w₂.Forest := hw₂ ▸ (updateThing_spec items hw _ _).1
      rw [hw₂] at htotal
      have hid₂ : (w₂.item item).id = (w.item item).id := by
        have := congrArg Item.id (htouch.plain item hne.symm)
        exact this
      have hs₂ : (w₂.item item).isStackable items := by rwa [Item.isStackable, hid₂]
      have hsub : (m - room items (w.item t)).toInt32.toInt = ((m.toNat - (room items (w.item t)).toNat : Nat) : Int) := by
        have := UInt32.toNat_sub_of_le m (room items (w.item t)) (UInt32.le_of_lt hlt')
        rw [Lib.toInt_toInt32_of_lt (by omega), this]
      rw [hsub, ← TakesRest.congr index (htouch.capacity dest) hid₂,
        ← moveRest_all hf₂ ((htouch.isContainer dest).trans hc) (htouch.next ▸ hcn) hs₂ (n := m.toNat - (room items (w.item t)).toNat)
          (by omega) (by omega)]
      refine forall_congr' fun id => ?_
      have h₂ := htotal id
      rw [Nat.mod_eq_of_lt (by omega)] at h₂
      rw [World.part_of_stackable hs] at h₂ ⊢
      rw [World.part_of_stackable hs] at h₂
      rw [World.part_of_stackable hs₂, hid₂]
      split_ifs at h₂ ⊢ <;> omega

/-! ### What was taken out -/

theorem getOwnerId_single {r : Ref} (h : ¬w.isContainer r) : w.getOwnerId r = (w.item r).getOwnerId := by
  have hk : (w.item r).container = none := Option.not_isSome_iff_eq_none.mp h
  have hl : w.itemlist r = [] := by
    rw [World.itemlist, Item.getItemList, hk]
    rfl
  simp only [World.getOwnerId, World.getOwnerIdLoop, hl, List.map_nil, List.find?_nil, Option.getD_none]
  split_ifs with h0
  · rfl
  · exact (UInt32.le_zero_iff.mp (UInt32.not_lt.mp h0)).symm

/-- Stacks are compared by their ids and attributes. -/
theorem equals_congr {w' : World} {r t : Ref} (hsingle : ∀ x, w.isContainer x → (w.item x).isStackable items = false)
    (hs : (w.item r).isStackable items) (hcr : w'.isContainer r = w.isContainer r)
    (hct : w'.isContainer t = w.isContainer t) (hr : (w'.item r).id = (w.item r).id)
    (hra : (w'.item r).attributePtr = (w.item r).attributePtr) (ht : (w'.item t).id = (w.item t).id)
    (hta : (w'.item t).attributePtr = (w.item t).attributePtr) : w'.equals r t = w.equals r t := by
  by_cases hid : (w.item r).id = (w.item t).id
  · have hst : (w.item t).isStackable items := by rwa [Item.isStackable, ← hid]
    have hnr : ¬w.isContainer r := fun hc => by simp [hsingle r hc] at hs
    have hnt : ¬w.isContainer t := fun hc => by simp [hsingle t hc] at hst
    have hnr' : ¬w'.isContainer r := by rwa [hcr]
    have hnt' : ¬w'.isContainer t := by rwa [hct]
    unfold World.equals
    rw [getOwnerId_single hnr, getOwnerId_single hnt, getOwnerId_single hnr', getOwnerId_single hnt']
    simp only [Item.isStoreItem, Item.getOwnerId, Item.getInteger, Item.getAttributeVector, hr, hra, ht, hta]
    rfl
  · have h₁ : w.equals r t = false := Bool.eq_false_iff.mpr fun h => hid (id_of_equals h)
    have h₂ : w'.equals r t = false := Bool.eq_false_iff.mpr fun h => hid (by rw [← hr, ← ht]; exact id_of_equals h)
    rw [h₁, h₂]

/-- An item keeps its id and its attributes while pieces of it are taken out. -/
theorem removeThing_keeps (items : UInt16 → ItemType) {this : Ref} (hx : item ∈ w.itemlist this) (count : UInt32) (r : Ref) :
    ((removeThing items w this item count).item r).id = (w.item r).id ∧
      ((removeThing items w this item count).item r).attributePtr = (w.item r).attributePtr := by
  have key : ∀ {i j : Item}, i.plain = j.plain → i.id = j.id ∧ i.attributePtr = j.attributePtr := fun h => by
    have h₁ := congrArg Item.id h
    have h₂ := congrArg Item.attributePtr h
    exact ⟨h₁, h₂⟩
  by_cases hr : r = item
  · subst hr
    by_cases hcount : (w.item r).isStackable items ∧ count.toNat ≠ (w.item r).getItemCount
    · obtain ⟨h₁, h₂⟩ := key (World.plain_removeThing_part hx hcount)
      exact ⟨h₁, h₂⟩
    · exact key (World.plain_removeThing_whole hx hcount r)
  · exact key ((World.removeThing_touches items hx count).plain r hr)

theorem StackFits.congr {w' : World} (htouch : World.Touches w w' item)
    (hkeeps : ∀ r, (w'.item r).id = (w.item r).id ∧ (w'.item r).attributePtr = (w.item r).attributePtr)
    (hsingle : ∀ x, w.isContainer x → (w.item x).isStackable items = false) (hs : (w.item item).isStackable items)
    {toItem : Option Ref} (hne : ∀ t, toItem = some t → t ≠ item) :
    StackFits items w' dest index item m toItem ↔ StackFits items w dest index item m toItem := by
  have hequals : (fun t => w'.equals item t) = fun t => w.equals item t := funext fun t =>
    equals_congr hsingle hs (htouch.isContainer item) (htouch.isContainer t) (hkeeps item).1 (hkeeps item).2
      (hkeeps t).1 (hkeeps t).2
  have hrest := TakesRest.congr index (htouch.capacity dest) (hkeeps item).1
  unfold StackFits
  rw [hequals]
  cases hf : toItem.filter fun t => w.equals item t with
  | none => exact hrest
  | some t =>
    have hplain := htouch.plain t (hne t (Option.filter_eq_some_iff.mp hf).1)
    have hcount : (w'.item t).getItemCount = (w.item t).getItemCount := by
      have := congrArg Item.getItemCount hplain
      exact this
    have hroom : room items (w'.item t) = room items (w.item t) := by
      rw [room, room, hcount, Item.getStackSize, Item.getStackSize, Item.isStackable, Item.isStackable, (hkeeps t).1]
    dsimp only
    rw [hcount, hroom]
    split_ifs
    · rfl
    · exact hrest

/-- Whether a container holds all that `moveThing` moves. -/
def MoveFits (items : UInt16 → ItemType) (w : World) (dest : Ref) (index : Int) (item : Ref) (m : UInt32)
    (toItem : Option Ref) : Prop :=
  if (w.item item).isStackable items then StackFits items w dest index item m toItem
  else index < (capacity w dest).toNat

theorem moveThing_all (index : Int) {fromCylinder : Ref} (hw : w.Forest)
    (hsingle : ∀ r, w.isContainer r → (w.item r).isStackable items = false) (hmem : item ∈ w.itemlist fromCylinder)
    (hpos : 0 < m.toNat) (hle : (w.item item).isStackable items → m.toNat ≤ (w.item item).getItemCount)
    (hc : w.isContainer dest) (hcn : dest < w.next) (hne : item ≠ dest)
    (hb : ¬Lib.Below w.getParentContainer dest item) {toItem : Option Ref}
    (ht : ∀ t, toItem = some t → t ∈ w.itemlist dest ∧ t ≠ item) :
    (∀ id, (moveThing items w fromCylinder dest index item m toItem).total items id = w.total items id) ↔
      MoveFits items w dest index item m toItem := by
  have hremoved := World.removeThing_total hw hmem hle
  have htouch := World.removeThing_touches items hmem m
  have hf₁ : (removeThing items w fromCylinder item m).Forest := (removeThing_spec items hw m).1
  have hkeeps := removeThing_keeps items hmem m
  have hmade := hw.made _ _ ((hw.lists.mem_iff item fromCylinder).mp hmem)
  have hid₁ := (hkeeps item).1
  have hpart : ∀ id, ((removeThing items w fromCylinder item m).item item).part items id m.toNat =
      (w.item item).part items id m.toNat := fun id => by
    rw [Item.part, Item.part, Item.isStackable, Item.isStackable, hid₁]
  have hlist : ∀ t, t ∈ w.itemlist dest → t ≠ item → t ∈ (removeThing items w fromCylinder item m).itemlist dest :=
    fun t ht hti => (hf₁.lists.mem_iff t dest).mpr
      ((World.getParentContainer_congr (htouch.parent t hti)).trans ((hw.lists.mem_iff t dest).mp ht))
  have hcap := htouch.capacity dest
  have hiff : ∀ {w' : World}, (∀ id, w'.total items id = w.total items id) ↔
      ∀ id, w'.total items id = (removeThing items w fromCylinder item m).total items id +
        (w.item item).part items id m.toNat :=
    forall_congr' fun id => by rw [hremoved id]
  rw [hiff]
  unfold moveThing MoveFits
  dsimp only
  by_cases hs : (w.item item).isStackable items
  · have hs₁ : ((removeThing items w fromCylinder item m).item item).isStackable items := by
      rwa [Item.isStackable, hid₁]
    have hlt : (w.item item).getItemCount < 256 := (w.item item).count.toNat_lt
    have hstack := moveStack_all index hf₁ ((htouch.isContainer dest).trans hc) (htouch.next ▸ hcn) hs₁ hpos
      (lt_of_le_of_lt (hle hs) hlt) fun t h => ⟨hlist t (ht t h).1 (ht t h).2, (ht t h).2⟩
    simp only [hpart] at hstack
    rw [if_pos hs, if_pos hs₁, hstack, StackFits.congr htouch hkeeps hsingle hs fun t h => (ht t h).2]
  · have hs₁ : ¬((removeThing items w fromCylinder item m).item item).isStackable items := by
      rwa [Item.isStackable, hid₁]
    have hwhole : ¬((w.item item).isStackable items ∧ m.toNat ≠ (w.item item).getItemCount) := fun h => hs h.1
    have hpar := World.getParentContainer_removeThing_whole hmem hwhole
    have ho : Outside (removeThing items w fromCylinder item m) dest item := by
      refine ⟨by rw [hpar, Function.update_self], htouch.next ▸ hmade.1, hne.symm, fun h => hb ?_⟩
      rw [hpar] at h
      exact Lib.below_of_cut h
    have hadd := addThing_total items index hf₁ ((htouch.isContainer dest).trans hc) (htouch.next ▸ hcn) ho
    rw [if_neg hs, if_neg hs₁]
    simp only [hadd, hcap, Item.units]
    constructor
    · intro h
      have h₁ := h (w.item item).id
      rw [World.part_of_single hs, World.part_of_single hs₁, hid₁, if_pos rfl] at h₁
      by_contra hlt
      rw [if_neg hlt] at h₁
      omega
    · intro h id
      rw [if_pos h, World.part_of_single hs, World.part_of_single hs₁, hid₁]

end

/-! ### The whole move -/

section
variable (env : Env) (w : World) (fromCylinder dest : Ref) (index : Int) (item : Ref) (count : UInt32)

/-- Where a move goes: the container, the index and the item there. -/
def moveDestination : Destination := (destinationLoop env w item MAP_MAX_LAYERS ⟨dest, index, none⟩ 0).1

/-- The count that is asked of the destination. -/
def askedCount : UInt32 := moveUpCount env w fromCylinder (moveDestination env w dest index item).cylinder item count

/-- How much the destination takes of it, with the answer. -/
def askedMaxCount : ReturnValue × UInt32 :=
  let d := moveDestination env w dest index item
  queryMaxCount env w d.cylinder d.index item (askedCount env w fromCylinder dest index item count) 0

def movedCount : UInt32 :=
  moveCount env.items (w.item item) (askedCount env w fromCylinder dest index item count)
    (askedMaxCount env w fromCylinder dest index item count).2

/-- No query stands against the move. -/
structure LetThrough (tradeItem : Option Ref) : Prop where
  other : (moveDestination env w dest index item).destItem ≠ some item
  removes : queryRemove env w fromCylinder item 1 0 = .NOERROR
  adds : queryAdd env w (moveDestination env w dest index item).cylinder (moveDestination env w dest index item).index
    item (askedCount env w fromCylinder dest index item count) 0 = .NOERROR
  takes : ¬((askedMaxCount env w fromCylinder dest index item count).1 ≠ .NOERROR ∧
    (askedMaxCount env w fromCylinder dest index item count).2 = 0)
  removesAll : queryRemove env w fromCylinder item (movedCount env w fromCylinder dest index item count) 0 = .NOERROR
  trade : insideTradeItem w (moveDestination env w dest index item).cylinder tradeItem = false

end

theorem internalMoveItem_cases (env : Env) (fromCylinder : Ref) (index : Int) (item : Ref) (count : UInt32)
    (tradeItem : Option Ref) (hw : w.Forest) (hc : w.isContainer dest) (hcn : dest < w.next) :
    let w' := (internalMoveItem env w fromCylinder dest index item count 0 tradeItem).1
    let d := moveDestination env w dest index item
    (LetThrough env w fromCylinder dest index item count tradeItem ∧
      w' = moveThing env.items w fromCylinder d.cylinder d.index item
        (movedCount env w fromCylinder dest index item count) d.destItem) ∨
      ¬LetThrough env w fromCylinder dest index item count tradeItem ∧ w' = w := by
  have hloop : destinationLoop env w item MAP_MAX_LAYERS ⟨dest, index, none⟩ 0 =
      (moveDestination env w dest index item, 0) :=
    Prod.ext rfl (destinationLoop_spec env item hw MAP_MAX_LAYERS hc hcn rfl).1
  dsimp only
  unfold internalMoveItem
  rw [hloop]
  dsimp only
  split
  · rename_i h
    exact .inr ⟨fun hl => hl.other h, rfl⟩
  rename_i hother
  split
  · rename_i h
    exact .inr ⟨fun hl => h hl.removes, rfl⟩
  rename_i hremoves
  rw [if_neg queryAdd_ne_needexchange]
  dsimp only
  split
  · rename_i h
    exact .inr ⟨fun hl => h hl.adds, rfl⟩
  rename_i hadds
  split
  · rename_i h
    exact .inr ⟨fun hl => hl.takes h, rfl⟩
  rename_i htakes
  split
  · rename_i h
    exact .inr ⟨fun hl => h hl.removesAll, rfl⟩
  rename_i hall
  split
  · rename_i h
    exact .inr ⟨fun hl => Bool.false_ne_true (hl.trade.symm.trans h), rfl⟩
  rename_i htrade
  exact .inl ⟨⟨hother, not_not.mp hremoves, not_not.mp hadds, htakes, not_not.mp hall, Bool.eq_false_iff.mpr htrade⟩, rfl⟩

theorem moveDestination_spec (env : Env) (item : Ref) (index : Int) (hw : w.Forest) (hc : w.isContainer dest)
    (hcn : dest < w.next) :
    let d := moveDestination env w dest index item
    w.isContainer d.cylinder ∧ d.cylinder < w.next ∧ ∀ t, d.destItem = some t → t ∈ w.itemlist d.cylinder :=
  (destinationLoop_spec env item (d := ⟨dest, index, none⟩) hw MAP_MAX_LAYERS hc hcn rfl).2

/-- A move between containers leaves the units of every id alone just when the container at its end takes all that
    is moved, or a query stands against it. -/
theorem internalMoveItem_total (env : Env) {w : World} (hw : Grove env.items w) (fromCylinder : Ref) {dest : Ref}
    (hdest : w.isContainer dest) (hn : dest < w.next) (index : Int) (item : Ref) (count : UInt32)
    (tradeItem : Option Ref) :
    let d := moveDestination env w dest index item
    (∀ id, (internalMoveItem env w fromCylinder dest index item count 0 tradeItem).1.total env.items id =
        w.total env.items id) ↔
      (LetThrough env w fromCylinder dest index item count tradeItem →
        MoveFits env.items w d.cylinder d.index item (movedCount env w fromCylinder dest index item count)
          d.destItem) := by
  have hf := hw.forest
  obtain ⟨hc, hcn, ht⟩ := moveDestination_spec env item index hf hdest hn
  dsimp only
  rcases internalMoveItem_cases env fromCylinder index item count tradeItem hf hdest hn with ⟨hl, heq⟩ | ⟨hl, heq⟩
  · obtain ⟨hmem, hpos, hle⟩ := queryRemove_noerror hl.removesAll
    obtain ⟨hne, hb⟩ := queryAdd_noerror (hf.ends _) hl.adds
    have hiff := moveThing_all (moveDestination env w dest index item).index hf hw.single hmem hpos hle hc hcn hne hb
      fun t h => ⟨ht t h, fun hti => hl.other (hti ▸ h)⟩
    rw [heq]
    exact hiff.trans ⟨fun h _ => h, fun h => h hl⟩
  · rw [heq]
    exact iff_of_true (fun _ => rfl) fun h => absurd h hl

/-! ### A thing that goes to a later page -/

/-- Settings under which nothing is refused, and types that weigh 10. -/
def tenEnv : Env where
  items := tenType
  MAX_CONTAINER := 500
  MAX_CONTAINER_DEPTH := 200
  ENABLE_PLAYER_PUT_ITEM_IN_AMMO_SLOT := false
  isOwner _ _ := true
  onPlayerEquip _ _ _ _ := true

/-- A container with pages at 0, and a bag at 1 with a thing in it. -/
def pageWorld : World where
  item
    | 0 => ⟨23721, 1, none, none, some ⟨2000, 32, 0, [], true, true, false⟩⟩
    | 1 => ⟨2853, 1, none, none, some ⟨2000, 8, 10, [2], true, false, false⟩⟩
    | 2 => ⟨3264, 1, none, some (.container 1), none⟩
    | _ + 3 => ⟨3264, 1, none, none, none⟩
  next := 3
  players _ := ⟨fun _ => none, none, false, false, 0, 0, false⟩

theorem pageWorld_parent {r c : Ref} (h : pageWorld.getParentContainer r = some c) : r = 2 ∧ c = 1 := by
  match r with
  | 0 | 1 | _ + 3 => exact nomatch h
  | 2 =>
    cases h
    exact ⟨rfl, rfl⟩

theorem pageWorld_grove : Grove tenType pageWorld where
  forest.lists := by
    constructor
    · intro x c
      constructor
      · intro hx
        match c with
        | 0 | 2 | _ + 3 => exact absurd hx List.not_mem_nil
        | 1 =>
          cases List.mem_singleton.mp hx
          rfl
      · intro hx
        obtain ⟨rfl, rfl⟩ := pageWorld_parent hx
        exact List.mem_singleton_self 2
    · intro c
      match c with
      | 0 | 2 | _ + 3 => exact List.nodup_nil
      | 1 => exact List.nodup_singleton 2
  forest.acyclic x hx := by
    obtain ⟨c, hc, hx⟩ := Lib.below_cases hx
    obtain ⟨rfl, rfl⟩ := pageWorld_parent hc
    rcases hx with hx | hx
    · exact absurd hx (by decide)
    · obtain ⟨c, hc, -⟩ := Lib.below_cases hx
      exact absurd (pageWorld_parent hc).1 (by decide)
  forest.made r c hr := by
    obtain ⟨rfl, rfl⟩ := pageWorld_parent hr
    decide
  single r _ := rfl
  roots r p h := by
    match r with
    | 0 | 1 | 2 | _ + 3 => exact nomatch h

theorem internalMoveItem_total_page :
    (∀ id, (internalMoveItem tenEnv pageWorld 1 0 3 2 1 0 none).1.total tenType id = pageWorld.total tenType id) ↔
      (LetThrough tenEnv pageWorld 1 0 3 2 1 none → MoveFits tenType pageWorld 0 3 2 1 none) :=
  internalMoveItem_total tenEnv pageWorld_grove 1 rfl (by decide) 3 2 1 none

theorem internalMoveItem_loses : ¬∀ (env : Env) (w : World) (fromCylinder dest item : Ref) (index : Int)
    (count : UInt32), Grove env.items w → w.getParent item = some (.container fromCylinder) → w.isContainer dest →
    dest < w.next → 1 ≤ (w.item item).getItemCount →
    (w.item item).getItemCount ≤ (w.item item).getStackSize env.items →
    ∀ id, (internalMoveItem env w fromCylinder dest index item count 0 none).1.total env.items id =
      w.total env.items id := by
  intro h
  have h₁ := h tenEnv pageWorld 1 0 2 40 1 pageWorld_grove rfl rfl (by decide) (by decide) (by decide) 3264
  revert h₁
  decide

end Game
end CrystalServer
