import CrystalServer.Game.Stash
import CrystalServer.Lib.Chunks
import CrystalServer.Theorems.Game.Gather
import CrystalServer.Theorems.Game.Stored
import CrystalServer.Theorems.Items.Iterator

/-! # Placing what comes out of the stash

Chunk after chunk is poured onto the cached stacks, and what is left of a chunk makes a stack of its own in a cached
container. Nothing is lost just when the chunks fit. -/

namespace CrystalServer.Stash

open World Container

section
variable (env : StashEnv) (w : World)

/-- The room on a stack. -/
def roomOn (x : Ref) : Nat := (w.item x).getStackSize env.items - (w.item x).getItemCount

def stackRoom (l : List Ref) : Nat := (l.map (roomOn env w)).sum

/-- The free slots of a container. -/
def slotsIn (c : Ref) : Nat := (capacity w c).toNat - size w c

def slotRoom (l : List Ref) : Nat := (l.map (slotsIn w)).sum

/-- Sound stacks of the id in containers. -/
structure Cached (itemId : UInt16) (l : List Ref) : Prop where
  nodup : l.Nodup
  id : ∀ x ∈ l, (w.item x).id = itemId
  lies : ∀ x ∈ l, ∃ c, x ∈ w.itemlist c
  sound : ∀ x ∈ l, (w.item x).Sound env.items

/-- Containers in memory. -/
structure Bins (l : List Ref) : Prop where
  nodup : l.Nodup
  container : ∀ c ∈ l, w.isContainer c ∧ c < w.next

/-- The id of what is made of an id: a type with a class of its own keeps it. -/
def newId (itemId : UInt16) : UInt16 := if (env.newContainer itemId).isSome then itemId else Game.cloneId itemId

end

variable {env : StashEnv} {w w' : World} {itemId : UInt16} {l l' : List Ref} {x c : Ref}

/-! ### What is made -/

theorem alike_cloneId (env : StashEnv) (id : UInt16) :
    (env.items (Game.cloneId id)).stackable = (env.items id).stackable ∧
      (env.items (Game.cloneId id)).stackSize = (env.items id).stackSize := by
  unfold Game.cloneId
  cases h : Item.ItemTransformationMap.lookup id with
  | none => exact ⟨rfl, rfl⟩
  | some v =>
    obtain ⟨l₁, l₂, hl, -⟩ := List.lookup_eq_some_iff.mp h
    exact env.alike (id, v) (hl ▸ List.mem_append_right l₁ List.mem_cons_self)

/-- What is made has no place, and a container part only where the type has one. -/
theorem createItemBatch_eq (env : StashEnv) (itemId : UInt16) (n : Nat) :
    ∃ k as, createItemBatch env itemId n = ⟨newId env itemId, k, as, none, env.newContainer itemId⟩ := by
  unfold createItemBatch newId
  cases env.newContainer itemId with
  | some k =>
    obtain ⟨as, m, he⟩ := Item.make_eq env.items itemId 0
    dsimp only
    rw [he]
    exact ⟨m, as, rfl⟩
  | none =>
    obtain ⟨as, m, he⟩ := Item.createItem_eq env.items itemId
      (if (!(env.items itemId).stackable) = true ∧ (env.items itemId).charges > 0 then
        (env.items itemId).charges.toUInt16 else .ofNat n)
    exact ⟨m, as, he⟩

theorem stackable_newId (env : StashEnv) (itemId : UInt16) :
    (env.items (newId env itemId)).stackable = (env.items itemId).stackable ∧
      (env.items (newId env itemId)).stackSize = (env.items itemId).stackSize := by
  unfold newId
  split_ifs
  · exact ⟨rfl, rfl⟩
  · exact alike_cloneId env itemId

theorem m_parent_createItemBatch (env : StashEnv) (itemId : UInt16) (n : Nat) :
    (createItemBatch env itemId n).m_parent = none := by
  obtain ⟨k, as, he⟩ := createItemBatch_eq env itemId n
  rw [he]

theorem getItemList_createItemBatch (env : StashEnv) (itemId : UInt16) (n : Nat) :
    (createItemBatch env itemId n).getItemList = [] := by
  obtain ⟨k, as, he⟩ := createItemBatch_eq env itemId n
  rw [he, Item.getItemList]
  cases h : env.newContainer itemId with
  | none => rfl
  | some m => exact env.empty itemId m h

theorem isStackable_createItemBatch (env : StashEnv) (itemId : UInt16) (n : Nat) :
    (createItemBatch env itemId n).isStackable env.items = (env.items itemId).stackable := by
  obtain ⟨k, as, he⟩ := createItemBatch_eq env itemId n
  rw [he]
  exact (stackable_newId env itemId).1

/-- A stack has the pieces that were asked for. -/
theorem count_createItemBatch (hs : (env.items itemId).stackable) {n : Nat} (hpos : 0 < n) (hlt : n < 256) :
    (createItemBatch env itemId n).getItemCount = n := by
  have hnone : env.newContainer itemId = none := Option.eq_none_iff_forall_ne_some.mpr fun k hk =>
    absurd hs (by rw [env.single itemId k hk]; exact Bool.false_ne_true)
  have hn : (UInt16.ofNat n).toNat = n := by rw [UInt16.toNat_ofNat', Nat.mod_eq_of_lt (by omega)]
  have hne : UInt16.ofNat n ≠ 0 := fun h => by
    rw [h] at hn
    exact hpos.ne hn
  have hcharges : ¬((!(env.items itemId).stackable) = true ∧ (env.items itemId).charges > 0) := by simp [hs]
  have hmake : createItemBatch env itemId n = Item.make env.items (Game.cloneId itemId) (.ofNat n) := by
    unfold createItemBatch
    rw [hnone]
    dsimp only [Item.CreateItem]
    rw [if_neg hcharges, if_neg fun h => hne h.2]
    rfl
  rw [hmake, Item.count_make ((alike_cloneId env itemId).1.trans hs) (hn.symm ▸ hpos) (hn.symm ▸ hlt), hn]

theorem units_createItemBatch (env : StashEnv) (itemId : UInt16) {n : Nat} (hpos : 0 < n) (hlt : n < 256)
    (hn : ¬(env.items itemId).stackable → n = 1) (id : UInt16) :
    (createItemBatch env itemId n).units env.items id = if id = newId env itemId then n else 0 := by
  have hid : (createItemBatch env itemId n).id = newId env itemId := by
    obtain ⟨k, as, he⟩ := createItemBatch_eq env itemId n
    rw [he]
  rw [Item.units, Item.part, hid, isStackable_createItemBatch, if_congr (eq_comm (a := id)) rfl rfl]
  by_cases hs : (env.items itemId).stackable
  · rw [if_pos hs, count_createItemBatch hs hpos hlt]
  · rw [if_neg hs, hn hs]

theorem sound_createItemBatch {n : Nat} (hpos : 0 < n)
    (hn : n ≤ (env.items itemId).stackSize.toNat) : (createItemBatch env itemId n).Sound env.items := fun hs => by
  have hst := (isStackable_createItemBatch env itemId n).symm.trans hs
  have hlt := (env.items itemId).stackSize.toNat_lt
  have hsize : (createItemBatch env itemId n).getStackSize env.items = (env.items itemId).stackSize.toNat := by
    obtain ⟨k, as, he⟩ := createItemBatch_eq env itemId n
    rw [Item.getStackSize, if_pos hs, he, (stackable_newId env itemId).2]
  rw [count_createItemBatch hst hpos (by omega), hsize]
  exact ⟨hpos, hn⟩

/-! ### Pouring onto stacks -/

/-- So many units of a chunk have found their place, which may be none. -/
def Chunk.pour (k : Chunk) (w : World) (itemWeight : UInt32) (n : Nat) : Chunk where
  world := w
  availableCapacity := k.availableCapacity - n * itemWeight.toNat
  addedItemCount := k.addedItemCount + n
  addValue := k.addValue - n
  itemAdded := k.itemAdded || 0 < n

theorem Chunk.pour_zero (k : Chunk) (itemWeight : UInt32) : k.pour k.world itemWeight 0 = k := by
  simp [Chunk.pour]

theorem Chunk.add_eq_pour (k : Chunk) (w : World) (itemWeight : UInt32) {n : Nat} (hn : 0 < n) :
    k.add w itemWeight n = k.pour w itemWeight n := by
  simp [Chunk.add, Chunk.pour, hn]

theorem Chunk.pour_pour (k : Chunk) (w w' : World) (itemWeight : UInt32) (n m : Nat) :
    (k.pour w itemWeight n).pour w' itemWeight m = k.pour w' itemWeight (n + m) := by
  unfold Chunk.pour
  dsimp only
  congr 1
  · push_cast
    ring
  · omega
  · omega
  · rw [Bool.or_assoc, ← Bool.decide_or]
    congr 2
    exact propext (by omega)

theorem availableSpace_eq (h : (w.item x).Sound env.items) (hs : (w.item x).isStackable env.items) :
    (availableSpace env w x).toNat = roomOn env w x := by
  have hle := (h hs).2
  have hlt : (w.item x).getStackSize env.items < 256 := by
    rw [Item.getStackSize, if_pos hs]
    exact (env.items (w.item x).id).stackSize.toNat_lt
  have hsize : (UInt32.ofNat ((w.item x).getStackSize env.items)).toNat = (w.item x).getStackSize env.items := by
    rw [UInt32.toNat_ofNat', Nat.mod_eq_of_lt (by omega)]
  have hcount : (UInt32.ofNat (w.item x).getItemCount).toNat = (w.item x).getItemCount := by
    rw [UInt32.toNat_ofNat', Nat.mod_eq_of_lt (by omega)]
  rw [availableSpace, UInt32.toNat_sub_of_le _ _ (UInt32.le_iff_toNat_le.mpr (by rwa [hsize, hcount])), hsize, hcount, roomOn]

theorem roomOn_congr (hid : (w'.item x).id = (w.item x).id) (hcount : (w'.item x).getItemCount = (w.item x).getItemCount) :
    roomOn env w' x = roomOn env w x := by
  rw [roomOn, roomOn, Item.getStackSize, Item.getStackSize, Item.isStackable, Item.isStackable, hid, hcount]

theorem stackRoom_congr (h : ∀ x ∈ l, roomOn env w' x = roomOn env w x) : stackRoom env w' l = stackRoom env w l :=
  congrArg List.sum (List.map_congr_left h)

namespace Cached

theorem sublist (h : Cached env w itemId l) (hl : l'.Sublist l) : Cached env w itemId l' :=
  ⟨hl.nodup h.nodup, fun x hx => h.id x (hl.subset hx), fun x hx => h.lies x (hl.subset hx),
    fun x hx => h.sound x (hl.subset hx)⟩

theorem tail (h : Cached env w itemId (x :: l)) : x ∉ l ∧ Cached env w itemId l :=
  ⟨(List.nodup_cons.mp h.nodup).1, h.sublist (List.sublist_cons_self x l)⟩

theorem made (h : Cached env w itemId l) (hw : w.Forest) (hx : x ∈ l) : x < w.next := by
  obtain ⟨c, hc⟩ := h.lies x hx
  exact (hw.made x c ((hw.lists.mem_iff x c).mp hc)).1

theorem refills {n : Nat} (h : Cached env w itemId l) (hw : w.Forest) (hr : Refills env.items w w' l' itemId n) :
    Cached env w' itemId l where
  nodup := h.nodup
  id x hx := (hr.id x).trans (h.id x hx)
  lies x hx := by
    obtain ⟨c, hc⟩ := h.lies x hx
    exact ⟨c, (hr.itemlist hw).mpr hc⟩
  sound x hx := hr.order.sound x (hr.next.symm ▸ h.made hw hx) fun _ => h.sound x hx

end Cached

/-- A stack in the cache gets more, and has so much less room. -/
theorem updateStack_spec (hs : (env.items itemId).stackable) (hw : w.Forest)
    (hsound : (w.item x).Sound env.items) (hid : (w.item x).id = itemId) (hx : x ∈ w.itemlist c) {n : Nat} (hn : n ≤ roomOn env w x) :
    Refills env.items w (updateStack env w x ((w.item x).getItemCount + n)) [x] itemId n ∧
      roomOn env (updateStack env w x ((w.item x).getItemCount + n)) x = roomOn env w x - n := by
  have hst : (w.item x).isStackable env.items := by rwa [Item.isStackable, hid]
  have hparent := (hw.lists.mem_iff x c).mp hx
  have hle := (hsound hst).2
  have hlt : (w.item x).getStackSize env.items < 256 := by
    rw [Item.getStackSize, if_pos hst]
    exact (env.items (w.item x).id).stackSize.toNat_lt
  have heq : updateStack env w x ((w.item x).getItemCount + n) =
      Container.updateThing env.items w c x (w.item x).id (.ofNat ((w.item x).getItemCount + n)) := by
    rw [updateStack, getParent_of_getParentContainer hparent]
    rfl
  unfold roomOn at hn
  obtain ⟨hrec, href⟩ := refills_one hw hx hst hsound (n := n) (by omega) hlt
  rw [heq]
  refine ⟨hid ▸ href, ?_⟩
  rw [roomOn, roomOn, hrec.count, Item.getStackSize, Item.isStackable, hrec.id, Nat.sub_add_eq]
  rfl

/-- The chunk is poured onto the stacks as far as there is room. -/
theorem fillStacks_spec (hs : (env.items itemId).stackable) (itemWeight : UInt32) {k : Chunk} (hw : k.world.Forest)
    (hl : Cached env k.world itemId l) :
    ∃ w' l', fillStacks env itemWeight l k =
        (k.pour w' itemWeight (min (stackRoom env k.world l) k.addValue), l') ∧
      Refills env.items k.world w' l itemId (min (stackRoom env k.world l) k.addValue) ∧ l'.Sublist l ∧
      stackRoom env w' l' = stackRoom env k.world l - min (stackRoom env k.world l) k.addValue := by
  induction l generalizing k with
  | nil =>
    refine ⟨k.world, [], ?_, ?_, .slnil, rfl⟩
    · rw [show stackRoom env k.world [] = 0 from rfl, Nat.zero_min, Chunk.pour_zero]
      rfl
    · rw [show stackRoom env k.world [] = 0 from rfl, Nat.zero_min]
      exact .refl _ hw _ itemId
  | cons x l ih =>
    obtain ⟨hxl, htail⟩ := hl.tail
    obtain ⟨c, hxc⟩ := hl.lies x List.mem_cons_self
    have hid := hl.id x List.mem_cons_self
    have hst : (k.world.item x).isStackable env.items := by rwa [Item.isStackable, hid]
    have hsound := hl.sound x List.mem_cons_self
    have hcons : ∀ w l, stackRoom env w (x :: l) = roomOn env w x + stackRoom env w l := fun w l => rfl
    unfold fillStacks
    by_cases hz : k.addValue = 0
    · refine ⟨k.world, x :: l, ?_, ?_, List.Sublist.refl _, ?_⟩
      · rw [if_pos hz, hz, Nat.min_zero, Chunk.pour_zero]
      · rw [hz, Nat.min_zero]
        exact .refl _ hw _ itemId
      · rw [hz, Nat.min_zero, Nat.sub_zero]
    rw [if_neg hz]
    dsimp only
    rw [availableSpace_eq hsound hst]
    by_cases hm : min (roomOn env k.world x) k.addValue > 0
    · rw [if_pos hm]
      generalize hn : min (roomOn env k.world x) k.addValue = n at hm
      obtain ⟨href, hroom⟩ := updateStack_spec hs hw hsound hid hxc (n := n) (by omega)
      generalize updateStack env k.world x ((k.world.item x).getItemCount + n) = w₁ at href hroom
      have hrest : stackRoom env w₁ l = stackRoom env k.world l := stackRoom_congr fun y hy =>
        roomOn_congr (href.id y) (href.count y fun h => hxl (List.mem_singleton.mp h ▸ hy))
      rw [Chunk.add_eq_pour k w₁ itemWeight hm]
      obtain ⟨w₂, l₂, heq, href₂, hsub, hroom₂⟩ := ih (k := k.pour w₁ itemWeight n) href.forest
        (htail.refills hw href)
      change fillStacks env itemWeight l (k.pour w₁ itemWeight n) =
        ((k.pour w₁ itemWeight n).pour w₂ itemWeight (min (stackRoom env w₁ l) (k.addValue - n)), l₂) at heq
      change Refills env.items w₁ w₂ l itemId (min (stackRoom env w₁ l) (k.addValue - n)) at href₂
      change stackRoom env w₂ l₂ = stackRoom env w₁ l - min (stackRoom env w₁ l) (k.addValue - n) at hroom₂
      have hsum : n + min (stackRoom env w₁ l) (k.addValue - n) = min (stackRoom env k.world (x :: l)) k.addValue := by
        rw [hrest, hcons]
        omega
      rw [heq]
      dsimp only
      rw [Chunk.pour_pour, hsum]
      have hx₂ : roomOn env w₂ x = roomOn env k.world x - n :=
        (roomOn_congr (href₂.id x) (href₂.count x hxl)).trans hroom
      refine ⟨w₂, _, rfl, hsum ▸ href.trans href₂, ?_, ?_⟩
      · split_ifs
        · exact hsub.cons x
        · exact hsub.cons_cons x
      · have hfull : (w₁.item x).getItemCount ≥ (w₁.item x).getStackSize env.items ↔ roomOn env w₂ x = 0 := by
          rw [hx₂, ← hroom, roomOn, Nat.sub_eq_zero_iff_le]
        change stackRoom env w₂ (if (w₁.item x).getItemCount ≥ (w₁.item x).getStackSize env.items then l₂ else x :: l₂) = _
        rw [hrest] at hroom₂ hsum
        rw [hcons] at hsum ⊢
        split_ifs with hge
        · have := hfull.mp hge
          omega
        · rw [hcons]
          omega
    · rw [if_neg hm]
      obtain ⟨w₂, l₂, heq, href₂, hsub, hroom₂⟩ := ih hw htail
      have hzero : roomOn env k.world x = 0 := by omega
      have hsame : stackRoom env k.world (x :: l) = stackRoom env k.world l := by rw [hcons, hzero, Nat.zero_add]
      rw [heq, hsame]
      refine ⟨w₂, x :: l₂, rfl, ?_, hsub.cons_cons x, ?_⟩
      · exact { href₂ with count := fun r hr => href₂.count r fun h => hr (List.mem_cons_of_mem x h) }
      · rw [hcons, hroom₂, roomOn_congr (href₂.id x) (href₂.count x hxl), hzero, Nat.zero_add]

/-! ### New stacks -/

theorem hasFreeSlot_iff : hasFreeSlot w c ↔ 0 < slotsIn w c := by
  rw [hasFreeSlot, slotsIn, decide_eq_true_iff, Nat.sub_pos_iff_lt]

namespace Bins

theorem tail (h : Bins w (c :: l)) : c ∉ l ∧ Bins w l := by
  obtain ⟨hc, hnodup⟩ := List.nodup_cons.mp h.nodup
  exact ⟨hc, hnodup, fun d hd => h.container d (List.mem_cons_of_mem c hd)⟩

theorem sublist (h : Bins w l) (hl : l'.Sublist l) : Bins w l' :=
  ⟨hl.nodup h.nodup, fun c hc => h.container c (hl.subset hc)⟩

theorem refills {n : Nat} (h : Bins w l) (hr : Refills env.items w w' l' itemId n) : Bins w' l where
  nodup := h.nodup
  container c hc := by
    rw [hr.container, hr.next]
    exact h.container c hc

theorem creates {i : Item} (h : Bins w l) (hc : Creates w w' c i) : Bins w' l where
  nodup := h.nodup
  container d hd := by
    obtain ⟨hcon, hlt⟩ := h.container d hd
    rw [hc.container d (Nat.ne_of_lt hlt), hc.next]
    exact ⟨hcon, Nat.lt_succ_of_lt hlt⟩

end Bins

theorem slotsIn_refills {n : Nat} (hw : w.Forest) (h : Refills env.items w w' l itemId n) (c : Ref) :
    slotsIn w' c = slotsIn w c := by
  rw [slotsIn, slotsIn, h.capacity, size_congr hw h.forest h.parent]

theorem slotRoom_refills {n : Nat} (hw : w.Forest) (h : Refills env.items w w' l itemId n) (l' : List Ref) :
    slotRoom w' l' = slotRoom w l' :=
  congrArg List.sum (List.map_congr_left fun c _ => slotsIn_refills hw h c)

theorem slotsIn_creates {i : Item} (h : Creates w w' c i) {d : Ref} (hd : d < w.next) :
    slotsIn w' d = slotsIn w d - if d = c then 1 else 0 := by
  rw [slotsIn, slotsIn, h.capacity d (Nat.ne_of_lt hd), h.size_eq, Nat.sub_add_eq]

theorem slotRoom_creates {i : Item} (h : Creates w w' c i) (hl : Bins w l) (hc : c ∉ l) : slotRoom w' l = slotRoom w l :=
  congrArg List.sum (List.map_congr_left fun d hd => by
    have hdc : d ≠ c := fun hdc => hc (hdc ▸ hd)
    rw [slotsIn_creates h (hl.container d hd).2, if_neg hdc, Nat.sub_zero])

theorem Cached.creates {i : Item} (h : Cached env w itemId l) (hw : w.Forest) (hc : Creates w w' c i) :
    Cached env w' itemId l ∧ stackRoom env w' l = stackRoom env w l := by
  have hold : ∀ x ∈ l, (w'.item x).plain = (w.item x).plain := fun x hx => by
    rw [hc.plain, if_neg (Nat.ne_of_lt (h.made hw hx))]
  have hid : ∀ x ∈ l, (w'.item x).id = (w.item x).id := fun x hx => by
    have := congrArg Item.id (hold x hx)
    exact this
  refine ⟨⟨h.nodup, fun x hx => (hid x hx).trans (h.id x hx), fun x hx => ?_,
    fun x hx => (sound_congr (hold x hx)).mpr (h.sound x hx)⟩, stackRoom_congr fun x hx => ?_⟩
  · obtain ⟨d, hd⟩ := h.lies x hx
    refine ⟨d, ?_⟩
    rw [hc.itemlist]
    by_cases hdc : d = c
    · rw [hdc, Function.update_self]
      exact List.mem_cons_of_mem _ (hdc ▸ hd)
    · rwa [Function.update_of_ne hdc]
  · have := congrArg Item.getItemCount (hold x hx)
    exact roomOn_congr (hid x hx) this

theorem createIn_creates (env : StashEnv) (itemId : UInt16) (hw : w.Forest) (hc : w.isContainer c ∧ c < w.next) (hfree : hasFreeSlot w c) (n : Nat) :
    Creates w (createIn env w c itemId n) c (createItemBatch env itemId n) :=
  creates_addThing env.items hw hc.1 hc.2 (Nat.lt_of_sub_pos (hasFreeSlot_iff.mp hfree))
    (m_parent_createItemBatch env itemId n) (getItemList_createItemBatch env itemId n)

theorem fillContainers_idle (n : Nat) (l : List Ref) {k : Chunk} (h : k.addValue = 0) :
    fillContainers env itemId n l k = (k, l) := by
  cases n with
  | zero => rfl
  | succ n =>
    cases l with
    | nil => rfl
    | cons c l => exact if_pos h

/-- Without a free slot nothing happens. -/
theorem fillContainers_full (env : StashEnv) (itemId : UInt16) (n : Nat) {k : Chunk} (h : slotRoom k.world l = 0) :
    ∃ l', fillContainers env itemId n l k = (k, l') ∧ l'.Sublist l := by
  induction n generalizing l with
  | zero => exact ⟨l, rfl, .refl l⟩
  | succ n ih =>
    cases l with
    | nil => exact ⟨[], rfl, .slnil⟩
    | cons c l =>
      have hcons : slotRoom k.world (c :: l) = slotsIn k.world c + slotRoom k.world l := rfl
      have hc : ¬hasFreeSlot k.world c := fun hc => by
        have := hasFreeSlot_iff.mp hc
        omega
      obtain ⟨l', heq, hsub⟩ := ih (l := l) (by omega)
      unfold fillContainers
      dsimp only
      by_cases hz : k.addValue = 0
      · exact ⟨c :: l, if_pos hz, .refl _⟩
      · rw [if_neg hz, if_neg hc]
        exact ⟨l', heq, hsub.cons c⟩

/-- What is left of a chunk takes the first free slot. -/
theorem fillContainers_spec (env : StashEnv) (itemId : UInt16) (n : Nat) {k : Chunk} (hn : l.length ≤ n) (hw : k.world.Forest) (hl : Bins k.world l)
    (hpos : 0 < k.addValue) (hsize : k.addValue ≤ (env.items itemId).stackSize.toNat)
    (hcap : (k.addValue * (env.items itemId).weight.toNat : Int) ≤ k.availableCapacity) (hfree : 0 < slotRoom k.world l) :
    ∃ c l', (k.world.isContainer c ∧ c < k.world.next) ∧ hasFreeSlot k.world c ∧ l'.Sublist l ∧
      fillContainers env itemId n l k =
        (k.pour (createIn env k.world c itemId k.addValue) (env.items itemId).weight k.addValue, l') ∧
      slotRoom (createIn env k.world c itemId k.addValue) l' = slotRoom k.world l - 1 := by
  induction l generalizing n with
  | nil => exact absurd hfree (lt_irrefl 0)
  | cons c l ih =>
    obtain ⟨m, rfl⟩ : ∃ m, n = m + 1 := ⟨n - 1, by rw [List.length_cons] at hn; omega⟩
    obtain ⟨hcl, htail⟩ := hl.tail
    have hcons : ∀ w, slotRoom w (c :: l) = slotsIn w c + slotRoom w l := fun w => rfl
    have hlen : l.length ≤ m := Nat.le_of_succ_le_succ hn
    unfold fillContainers
    dsimp only
    rw [if_neg hpos.ne']
    by_cases hc : hasFreeSlot k.world c
    · have hc' := hl.container c List.mem_cons_self
      have hcre := createIn_creates env itemId hw hc' hc k.addValue
      have hslots := slotsIn_creates hcre hc'.2
      have hrest := slotRoom_creates hcre htail hcl
      have hone := hasFreeSlot_iff.mp hc
      rw [if_pos hc, min_eq_left hsize, if_neg (not_lt.mpr hcap), Chunk.add_eq_pour k _ _ hpos]
      generalize hw₁ : createIn env k.world c itemId k.addValue = w₁ at hcre hslots hrest
      rw [fillContainers_idle m _ (Nat.sub_self k.addValue)]
      refine ⟨c, _, hc', hc, ?_, by rw [hw₁], ?_⟩
      · split_ifs
        · exact .refl _
        · exact (List.Sublist.refl l).cons c
      · rw [if_pos rfl] at hslots
        rw [hw₁, hcons]
        change slotRoom w₁ (if hasFreeSlot w₁ c = true then c :: l else l) = _
        split_ifs with hstill
        · rw [hcons, hslots, hrest]
          omega
        · have : ¬0 < slotsIn w₁ c := fun h => hstill (hasFreeSlot_iff.mpr h)
          omega
    · have hzero : slotsIn k.world c = 0 := Nat.eq_zero_of_not_pos fun h => hc (hasFreeSlot_iff.mpr h)
      have hsame : slotRoom k.world (c :: l) = slotRoom k.world l := by rw [hcons, hzero, Nat.zero_add]
      obtain ⟨d, l', hd, hfree', hsub, heq, hroom⟩ := ih m hlen htail (hsame ▸ hfree)
      rw [if_neg hc, hsame]
      exact ⟨d, l', hd, hfree', hsub.cons c, heq, hroom⟩

/-! ### Chunk after chunk -/

/-- The caches lead to stacks of the id and to containers. -/
structure Ready (env : StashEnv) (itemId : UInt16) (s : Placing) : Prop where
  forest : s.world.Forest
  cached : Cached env s.world itemId s.stackableItemsCache
  bins : Bins s.world s.containersCache

/-- So many units came onto stacks of the id, and so many in new items. -/
structure Adds (env : StashEnv) (itemId : UInt16) (s s' : Placing) (a b : Nat) : Prop where
  ready : Ready env itemId s'
  order : KeepsOrder env.items s.world s'.world
  stored : ∀ id, s'.world.stored env.items id = s.world.stored env.items id + (if id = itemId then a else 0) +
    if id = newId env itemId then b else 0
  count : s'.addedItemCount = s.addedItemCount + (a + b)

variable {s s' s'' : Placing}

theorem Adds.refl (h : Ready env itemId s) : Adds env itemId s s 0 0 :=
  ⟨h, .refl _ _, fun id => by rw [ite_self, ite_self, add_zero, add_zero], rfl⟩

theorem Adds.trans {a b a' b' : Nat} (h : Adds env itemId s s' a b) (h' : Adds env itemId s' s'' a' b') :
    Adds env itemId s s'' (a + a') (b + b') where
  ready := h'.ready
  order := h.order.trans h'.order
  stored id := by
    rw [h'.stored, h.stored]
    split_ifs <;> omega
  count := by
    rw [h'.count, h.count]
    omega

/-- A new item comes into a container. -/
theorem created_adds (h : Ready env itemId s) (hs' : s'.stackableItemsCache = s.stackableItemsCache)
    (hsub : s'.containersCache.Sublist s.containersCache) (hc : s.world.isContainer c ∧ c < s.world.next)
    (hfree : hasFreeSlot s.world c) {n : Nat} (hw : s'.world = createIn env s.world c itemId n)
    (hcount : s'.addedItemCount = s.addedItemCount + n) (hpos : 0 < n)
    (hone : ¬(env.items itemId).stackable → n = 1)
    (hsize : (env.items itemId).stackable → n ≤ (env.items itemId).stackSize.toNat) : Adds env itemId s s' 0 n := by
  have hlt : n < 256 := by
    by_cases hs : (env.items itemId).stackable
    · exact (hsize hs).trans_lt (env.items itemId).stackSize.toNat_lt
    · rw [hone hs]
      decide
  have hcre := createIn_creates env itemId h.forest hc hfree n
  rw [← hw] at hcre
  have hsound : (createItemBatch env itemId n).Sound env.items := fun hi =>
    sound_createItemBatch hpos (hsize ((isStackable_createItemBatch env itemId n).symm.trans hi)) hi
  refine ⟨⟨hcre.forest, ?_, (h.bins.creates hcre).sublist hsub⟩, ?_, fun id => ?_, ?_⟩
  · rw [hs']
    exact (h.cached.creates h.forest hcre).1
  · exact hcre.order h.forest hc.2 (Nat.lt_of_sub_pos (hasFreeSlot_iff.mp hfree)) hsound
  · rw [hcre.stored, units_createItemBatch env itemId hpos hlt hone, ite_self, add_zero]
  · rw [hcount, Nat.zero_add]

/-- The room on the cached stacks. -/
def stacksLeft (env : StashEnv) (s : Placing) : Nat := stackRoom env s.world s.stackableItemsCache

/-- The free slots of the cached containers. -/
def slotsLeft (s : Placing) : Nat := slotRoom s.world s.containersCache

/-- The capacity after so many units. -/
def capacityLeft (env : StashEnv) (itemId : UInt16) (s : Placing) (n : Nat) : Int :=
  s.availableCapacity - n * (env.items itemId).weight.toNat

/-- What becomes of one chunk: it finds room on the stacks, or what is left of it makes a new stack, or is lost. -/
inductive ChunkPlaced (env : StashEnv) (itemId : UInt16) (v : Nat) (s : Placing) : Placing × Bool → Prop
  | poured {s' : Placing} (room : v ≤ stacksLeft env s) (adds : Adds env itemId s s' v 0)
      (capacity : s'.availableCapacity = capacityLeft env itemId s v)
      (left : stacksLeft env s' = stacksLeft env s - v) (slots : slotsLeft s' = slotsLeft s) :
      ChunkPlaced env itemId v s (s', true)
  | opened {s' : Placing} (room : stacksLeft env s < v) (free : 0 < slotsLeft s)
      (adds : Adds env itemId s s' (stacksLeft env s) (v - stacksLeft env s))
      (capacity : s'.availableCapacity = capacityLeft env itemId s v)
      (left : stacksLeft env s' = 0) (slots : slotsLeft s' = slotsLeft s - 1) : ChunkPlaced env itemId v s (s', true)
  | stuck {s' : Placing} {goesOn : Bool} (room : stacksLeft env s < v) (free : slotsLeft s = 0)
      (adds : Adds env itemId s s' (stacksLeft env s) 0)
      (capacity : s'.availableCapacity = capacityLeft env itemId s (stacksLeft env s)) :
      ChunkPlaced env itemId v s (s', goesOn)

theorem placeChunk_placed (hs : (env.items itemId).stackable) (h : Ready env itemId s) {v : Nat}
    (hsize : v ≤ (env.items itemId).stackSize.toNat)
    (hcap : (v * (env.items itemId).weight.toNat : Int) ≤ s.availableCapacity) :
    ChunkPlaced env itemId v s (placeChunk env itemId v s) := by
  obtain ⟨w₁, cached, heq, href, hsub, hroom⟩ := fillStacks_spec (k := ⟨s.world, s.availableCapacity,
    s.addedItemCount, v, false⟩) hs (env.items itemId).weight h.forest h.cached
  change fillStacks env (env.items itemId).weight s.stackableItemsCache
    ⟨s.world, s.availableCapacity, s.addedItemCount, v, false⟩ = _ at heq
  have hS : stackRoom env s.world s.stackableItemsCache = stacksLeft env s := rfl
  dsimp only at heq href hroom
  rw [hS] at heq href hroom
  have hslots := slotRoom_refills h.forest href s.containersCache
  have hstacks : Adds env itemId s ⟨w₁, capacityLeft env itemId s (min (stacksLeft env s) v),
      s.addedItemCount + min (stacksLeft env s) v, s.containersCache, cached⟩ (min (stacksLeft env s) v) 0 :=
    ⟨⟨href.forest, (h.cached.refills h.forest href).sublist hsub, h.bins.refills href⟩, href.order,
      fun id => by rw [href.stored, ite_self, add_zero], rfl⟩
  unfold placeChunk
  dsimp only
  rw [heq]
  dsimp only
  generalize hk : (⟨s.world, s.availableCapacity, s.addedItemCount, v, false⟩ : Chunk).pour w₁ (env.items itemId).weight
    (min (stacksLeft env s) v) = k
  have hadd : k.addValue = v - min (stacksLeft env s) v := by rw [← hk]; rfl
  by_cases hle : v ≤ stacksLeft env s
  · rw [min_eq_right hle] at hk hadd hstacks hroom
    rw [fillContainers_idle _ _ (hadd.trans (Nat.sub_self v)), hadd, Nat.sub_self, decide_eq_true rfl, Bool.or_true, ← hk]
    exact .poured hle hstacks rfl hroom hslots
  have hlt := Nat.lt_of_not_le hle
  rw [min_eq_left hlt.le] at hk hadd hstacks hroom
  by_cases hfree : slotsLeft s = 0
  · obtain ⟨l', hidle, hsub'⟩ := fillContainers_full env itemId
      (k.addValue + s.containersCache.length) (k := k) (l := s.containersCache) (by
        rw [← hk]
        exact hslots.trans hfree)
    rw [hidle, ← hk]
    refine .stuck hlt hfree ⟨⟨hstacks.ready.forest, hstacks.ready.cached, ?_⟩, hstacks.order, hstacks.stored,
      hstacks.count⟩ rfl
    exact hstacks.ready.bins.sublist hsub'
  · have hpos : 0 < k.addValue := by omega
    have hcapk : (k.addValue * (env.items itemId).weight.toNat : Int) ≤ k.availableCapacity := by
      have hsplit : ((v - stacksLeft env s : Nat) : Int) = v - stacksLeft env s := Int.ofNat_sub hlt.le
      rw [hadd, hsplit, ← hk]
      change _ ≤ s.availableCapacity - stacksLeft env s * (env.items itemId).weight.toNat
      rw [Int.sub_mul]
      exact Int.sub_le_sub_right hcap _
    have hbins : Bins k.world s.containersCache := by
      rw [← hk]
      exact hstacks.ready.bins
    have hforest : k.world.Forest := by
      rw [← hk]
      exact href.forest
    have hslots' : slotRoom k.world s.containersCache = slotsLeft s := by
      rw [← hk]
      exact hslots
    obtain ⟨c, l', hc, hfree', hsub', hfill, hleft⟩ := fillContainers_spec env itemId
      (k.addValue + s.containersCache.length) (Nat.le_add_left ..) hforest hbins hpos (by omega) hcapk (by omega)
    rw [hslots'] at hleft
    rw [hfill]
    have hdone : (k.pour (createIn env k.world c itemId k.addValue) (env.items itemId).weight k.addValue).addValue = 0 :=
      Nat.sub_self _
    rw [hdone, decide_eq_true rfl, Bool.or_true]
    have hworld : k.world = w₁ := by rw [← hk]; rfl
    have hadded : k.addedItemCount = s.addedItemCount + stacksLeft env s := by rw [← hk]; rfl
    have hcapacity : k.availableCapacity = capacityLeft env itemId s (stacksLeft env s) := by rw [← hk]; rfl
    rw [hworld] at hc hfree' hleft ⊢
    rw [hadd] at hleft ⊢
    have hnew : Adds env itemId ⟨w₁, capacityLeft env itemId s (stacksLeft env s), s.addedItemCount + stacksLeft env s,
        s.containersCache, cached⟩ ⟨createIn env w₁ c itemId (v - stacksLeft env s), capacityLeft env itemId s v,
        s.addedItemCount + stacksLeft env s + (v - stacksLeft env s), l', cached⟩ 0 (v - stacksLeft env s) := by
      refine created_adds hstacks.ready ?_ hsub' hc hfree' ?_ ?_ (by omega) (fun hn => absurd hs hn) fun _ => by omega
      · rfl
      · rfl
      · rfl
    have hboth := hstacks.trans hnew
    rw [Nat.add_zero, Nat.zero_add] at hboth
    have hcapacity' : (k.pour (createIn env w₁ c itemId (v - stacksLeft env s)) (env.items itemId).weight
        (v - stacksLeft env s)).availableCapacity = capacityLeft env itemId s v := by
      change k.availableCapacity - _ = _
      rw [hcapacity, capacityLeft, capacityLeft, Int.ofNat_sub hlt.le, Int.sub_mul]
      omega
    have hadded' : (k.pour (createIn env w₁ c itemId (v - stacksLeft env s)) (env.items itemId).weight
        (v - stacksLeft env s)).addedItemCount = s.addedItemCount + stacksLeft env s + (v - stacksLeft env s) := by
      change k.addedItemCount + _ = _
      rw [hadded]
    rw [hcapacity', hadded']
    have hcre := createIn_creates env itemId href.forest hc hfree' (v - stacksLeft env s)
    refine .opened hlt (Nat.pos_of_ne_zero hfree) hboth rfl ?_ hleft
    refine (hstacks.ready.cached.creates href.forest hcre).2.trans ?_
    rw [hroom, Nat.sub_self]

/-- What is left to place weighs no more than what is left of the capacity. -/
theorem capacityLeft_ge (env : StashEnv) (itemId : UInt16) {n v m : Nat} (hv : v ≤ n) (hm : m ≤ v)
    (h : (n * (env.items itemId).weight.toNat : Int) ≤ s.availableCapacity) :
    ((n - v : Nat) * (env.items itemId).weight.toNat : Int) ≤ capacityLeft env itemId s m := by
  have hmul : (m * (env.items itemId).weight.toNat : Int) ≤ v * (env.items itemId).weight.toNat :=
    Int.mul_le_mul_of_nonneg_right (Int.ofNat_le.mpr hm) (Int.natCast_nonneg _)
  rw [capacityLeft, Int.ofNat_sub hv, Int.sub_mul]
  omega

/-- All chunks are placed just when they fit. -/
theorem placeStacks_spec (hs : (env.items itemId).stackable) {fuel n : Nat} (hn : n ≤ fuel) (h : Ready env itemId s)
    (hsize : 0 < n → 0 < (env.items itemId).stackSize.toNat)
    (hcap : (n * (env.items itemId).weight.toNat : Int) ≤ s.availableCapacity) :
    ∃ a b, Adds env itemId s (placeStacks env itemId fuel n s) a b ∧ a + b ≤ n ∧
      (a + b = n ↔ Lib.ChunksFit (env.items itemId).stackSize.toNat (stacksLeft env s) (slotsLeft s) n) := by
  induction fuel generalizing n s with
  | zero =>
    obtain rfl : n = 0 := Nat.le_zero.mp hn
    exact ⟨0, 0, .refl h, le_rfl, iff_of_true rfl Lib.chunksFit_zero⟩
  | succ fuel ih =>
    rcases Nat.eq_zero_or_pos n with rfl | hpos
    · refine ⟨0, 0, ?_, le_rfl, iff_of_true rfl Lib.chunksFit_zero⟩
      rw [placeStacks]
      exact .refl h
    have hsize := hsize hpos
    have hone : ((env.items itemId).weight.toNat : Int) ≤ s.availableCapacity := by
      have : ((1 : Nat) * (env.items itemId).weight.toNat : Int) ≤ n * (env.items itemId).weight.toNat :=
        Int.mul_le_mul_of_nonneg_right (Int.ofNat_le.mpr hpos) (Int.natCast_nonneg _)
      rw [Nat.cast_one, one_mul] at this
      exact this.trans hcap
    unfold placeStacks
    dsimp only
    rw [if_pos ⟨hpos, hone⟩]
    generalize hv : min (env.items itemId).stackSize.toNat n = v
    have hvn : v ≤ n := hv ▸ min_le_right ..
    have hcapv : (v * (env.items itemId).weight.toNat : Int) ≤ s.availableCapacity :=
      (Int.mul_le_mul_of_nonneg_right (Int.ofNat_le.mpr hvn) (Int.natCast_nonneg _)).trans hcap
    have hplaced := placeChunk_placed hs h (hv ▸ min_le_left ..) hcapv
    generalize placeChunk env itemId v s = r at hplaced
    have hrest : n - v ≤ fuel := by omega
    have hcapm := fun m hm => capacityLeft_ge env itemId (s := s) (m := m) hvn hm hcap
    cases hplaced with
    | @poured s' room adds capacity left slots =>
      obtain ⟨a, b, hadds, hle, hiff⟩ := ih (s := s') hrest adds.ready (fun _ => hsize) (capacity ▸ hcapm v le_rfl)
      rw [left, slots, ← hv, Lib.chunksFit_pour hsize (hv ▸ room), hv] at hiff
      refine ⟨v + a, 0 + b, adds.trans hadds, by omega, ?_⟩
      rw [← hiff]
      omega
    | @opened s' room free adds capacity left slots =>
      obtain ⟨a, b, hadds, hle, hiff⟩ := ih (s := s') hrest adds.ready (fun _ => hsize) (capacity ▸ hcapm v le_rfl)
      rw [left, slots, ← hv, Lib.chunksFit_open hsize (hv ▸ room) free, hv] at hiff
      refine ⟨_, _, adds.trans hadds, by omega, ?_⟩
      rw [← hiff]
      omega
    | @stuck s' goesOn room free adds capacity =>
      have hno : ¬Lib.ChunksFit (env.items itemId).stackSize.toNat (stacksLeft env s) (slotsLeft s) n := by
        rw [free]
        exact Lib.not_chunksFit hsize (hv ▸ room)
      cases goesOn with
      | false => exact ⟨stacksLeft env s, 0, adds, by omega, iff_of_false (by omega) hno⟩
      | true =>
        obtain ⟨a, b, hadds, hle, -⟩ := ih (s := s') hrest adds.ready (fun _ => hsize)
          (capacity ▸ hcapm (stacksLeft env s) room.le)
        exact ⟨_, _, adds.trans hadds, by omega, iff_of_false (by omega) hno⟩

/-- What does not stack is placed if there are as many free slots. -/
theorem placeSingles_spec (hs : ¬(env.items itemId).stackable) {fuel n : Nat} (h : Ready env itemId s)
    (hn : n + s.containersCache.length ≤ fuel) (hfree : n ≤ slotsLeft s) :
    Adds env itemId s (placeSingles env itemId fuel n s) 0 n := by
  induction fuel generalizing n s with
  | zero =>
    obtain rfl : n = 0 := by omega
    exact .refl h
  | succ fuel ih =>
    unfold placeSingles
    cases hl : s.containersCache with
    | nil =>
      obtain rfl : n = 0 := by
        rw [slotsLeft, hl] at hfree
        exact Nat.le_zero.mp hfree
      exact .refl h
    | cons c rest =>
      rw [hl, List.length_cons] at hn
      have hbins := h.bins
      rw [hl] at hbins
      obtain ⟨hc, htail⟩ := hbins.tail
      have hmade := hbins.container c List.mem_cons_self
      have hsplit : slotsLeft s = slotsIn s.world c + slotRoom s.world rest := by
        rw [slotsLeft, hl]
        rfl
      dsimp only
      rcases Nat.eq_zero_or_pos n with rfl | hpos
      · rw [if_pos rfl]
        exact .refl h
      rw [if_neg hpos.ne']
      by_cases hslot : hasFreeSlot s.world c
      · rw [if_pos hslot]
        have hcre := createIn_creates env itemId h.forest hmade hslot 1
        have hslots := slotsIn_creates hcre hmade.2
        rw [if_pos rfl] at hslots
        have hone := hasFreeSlot_iff.mp hslot
        have hrest := slotRoom_creates hcre htail hc
        generalize hw : createIn env s.world c itemId 1 = w at hslots hrest
        have hstep : Adds env itemId s { s with
            world := w, addedItemCount := s.addedItemCount + 1,
            containersCache := if hasFreeSlot w c then c :: rest else rest } 0 1 := by
          refine created_adds h ?_ ?_ hmade hslot hw.symm ?_ one_pos (fun _ => rfl) fun hstack => absurd hstack hs
          · rfl
          · rw [hl]
            dsimp only
            split_ifs
            · exact .refl _
            · exact (List.Sublist.refl rest).cons c
          · rfl
        have hleft : slotRoom w (if hasFreeSlot w c then c :: rest else rest) = slotsLeft s - 1 := by
          rw [hsplit]
          split_ifs with hstill
          · change slotsIn w c + slotRoom w rest = _
            omega
          · have : ¬0 < slotsIn w c := fun h => hstill (hasFreeSlot_iff.mpr h)
            omega
        have hlen : (if hasFreeSlot w c then c :: rest else rest).length ≤ rest.length + 1 := by
          split_ifs
          · exact le_rfl
          · exact Nat.le_succ _
        have hadds := hstep.trans (ih (n := n - 1) hstep.ready (by dsimp only; omega) (by
          change _ ≤ slotRoom w _
          rw [hleft]
          omega))
        rwa [Nat.zero_add, Nat.add_sub_of_le hpos] at hadds
      · rw [if_neg hslot]
        have hzero : slotsIn s.world c = 0 := Nat.eq_zero_of_not_pos fun h => hslot (hasFreeSlot_iff.mpr h)
        have hready : Ready env itemId { s with containersCache := rest } :=
          ⟨h.forest, h.cached, htail⟩
        have hadds := ih (n := n) hready (by dsimp only; omega) (by
          change n ≤ slotRoom s.world rest
          omega)
        exact ⟨hadds.ready, hadds.order, hadds.stored, hadds.count⟩

/-! ### The caches -/

section
variable {p : PlayerRef}

/-- The containers of a player are met once each. -/
theorem getAllContainers_bins (hw : Carried env.items w) (hs : Slotted w) (p : PlayerRef) :
    Bins w (getAllContainers w p) := by
  have hslot : ∀ i ∈ List.range' 1 10, (w.players p).getInventoryItem i = (w.players p).inventory i := fun i hi => by
    have := List.mem_range'_1.mp hi
    have hlow : (UInt8.ofInt (i : Int)).toNat = i := by rw [toNat_ofInt_natCast, Nat.mod_eq_of_lt (by omega)]
    unfold Player.getInventoryItem
    dsimp only
    rw [hlow, if_neg (by simp only [CONST_SLOT_FIRST, CONST_SLOT_LAST]; omega)]
  have hslots := List.filterMap_congr hslot
  unfold getAllContainers
  rw [hslots]
  generalize hroots : ((List.range' 1 10).filterMap fun slot : Nat => (w.players p).inventory slot).filter
    w.isContainer = roots
  have hroot : ∀ d ∈ roots, w.isContainer d ∧ w.getParent d = some (.player p) := fun d hd => by
    rw [← hroots] at hd
    obtain ⟨hd, hc⟩ := List.mem_filter.mp hd
    obtain ⟨i, -, hi⟩ := List.mem_filterMap.mp hd
    exact ⟨hc, hw.slots p i d hi⟩
  have hnodup : roots.Nodup := by
    rw [← hroots]
    exact (List.Nodup.filterMap (fun i j r hi hj => hs.once p i j r hi hj) (List.nodup_range' ..)).filter _
  have hmade : ∀ k, (k ∈ roots ∨ ∃ d ∈ roots, Lib.Below w.getParentContainer k d) → k ∈ Finset.range w.next := by
    rintro k (hk | ⟨d, -, hb⟩)
    · exact Finset.mem_range.mpr (hw.made k _ (hroot k hk).2)
    · obtain ⟨c, hc, -⟩ := Lib.below_cases hb
      exact Finset.mem_range.mpr (hw.forest.made k c hc).1
  obtain ⟨hwalk, hmem⟩ := Lib.mem_walk_iff hw.forest.lists hnodup (fun d hd => (hroot d hd).1)
    (fun d hd d' hd' => Game.not_below_thing hw.forest (hroot d hd).2 (hroot d' hd').2) hmade
    (Finset.card_range w.next).le (fun k c hc => hw.forest.isContainer hc)
  refine ⟨hwalk, fun c hc => ?_⟩
  obtain ⟨hcon, hin⟩ := (hmem c).mp hc
  exact ⟨hcon, Finset.mem_range.mp (hmade c hin)⟩

/-- The caches of a player, for the container that obtains the item. -/
theorem findCaches_spec (hw : Carried env.items w) (hs : Slotted w) {obtainContainer : Option Ref}
    (ho : ∀ c, obtainContainer = some c → w.isContainer c ∧ c < w.next)
    (hsound : ∀ x ∈ (findCaches env w p itemId obtainContainer).stackableItemsCache, (w.item x).Sound env.items) :
    Bins w (findCaches env w p itemId obtainContainer).containersCache ∧
      Cached env w itemId (findCaches env w p itemId obtainContainer).stackableItemsCache := by
  cases obtainContainer with
  | none => exact ⟨getAllContainers_bins hw hs p, List.nodup_nil, fun x hx => absurd hx List.not_mem_nil,
      fun x hx => absurd hx List.not_mem_nil, hsound⟩
  | some c =>
    obtain ⟨hnodup, hmem⟩ := iterator_spec env.toEnv c hw.forest
    dsimp only [findCaches]
    refine ⟨⟨?_, fun d hd => ?_⟩, (List.nodup_cons.mp hnodup).2.filter _, fun x hx => ?_, fun x hx => ?_, hsound⟩
    · refine List.Sublist.nodup ?_ hnodup
      have hinside := List.filter_sublist (p := fun x => w.isContainer x && hasFreeSlot w x)
        (l := iterator env.toEnv w c)
      split_ifs
      · exact hinside.cons_cons c
      · exact hinside.cons c
    · rcases List.mem_append.mp hd with hd | hd
      · split_ifs at hd
        · rw [List.mem_singleton.mp hd]
          exact ho c rfl
        · exact absurd hd List.not_mem_nil
      · obtain ⟨hd, hcon⟩ := List.mem_filter.mp hd
        obtain ⟨-, e, he⟩ := hmem d hd
        exact ⟨(Bool.and_eq_true_iff.mp hcon).1, (hw.forest.made d e ((hw.forest.lists.mem_iff d e).mp he)).1⟩
    · have := (List.mem_filter.mp hx).2
      simp only [Bool.and_eq_true, decide_eq_true_eq] at this
      exact this.1.1
    · exact (hmem x (List.mem_filter.mp hx).1).2

end

end CrystalServer.Stash
