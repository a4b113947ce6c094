import CrystalServer.Theorems.Game.Money
import CrystalServer.Theorems.Game.Withdraw

/-! # What goes into the stash and comes out of it

What a withdrawal takes from the stash all comes to the containers just when it finds room in chunks of a stack. What is
stowed leaves the containers just when no item that does not stack is counted for more than one. -/

namespace CrystalServer

open World Container

/-- The units of an id in the stash. -/
def StashState.stashed (s : StashState) (id : UInt16) : Nat := ((s.stashItems id).getD 0).toNat

namespace Stash

/-- So many units left the stash, onto stacks and in new items: none with an error, not more than can be carried, and
    no stack or container is fuller than it may be. -/
structure Withdraws (env : StashEnv) (s s' : StashState) (itemId : UInt16) (limit : Nat) (ret : ReturnValue) : Prop where
  moved : ∃ a b, (∀ id, s'.stashed id + (if id = itemId then a + b else 0) = s.stashed id) ∧
    (∀ id, s'.world.stored env.items id = s.world.stored env.items id + (if id = itemId then a else 0) +
      if id = newId env itemId then b else 0) ∧
    (ret ≠ .NOERROR → a + b = 0) ∧ (a + b) * (env.items itemId).weight.toNat ≤ limit
  order : KeepsOrder env.items s.world s'.world

section
variable (env : StashEnv) (s : StashState) (p : PlayerRef) (itemId : UInt16) (itemCount : UInt32)
  (obtainContainer : Option Ref)

/-- How much is taken from the stash. -/
def finalRetrievable : UInt32 :=
  min (maxBySlots env s.world p (env.items itemId) (findCaches env s.world p itemId obtainContainer))
    (retrievableCount s.world p (env.items itemId) itemCount)

/-- What stacks, and is taken from the stash, finds room in chunks of a stack. -/
def FindsRoom : Prop :=
  let itemType := env.items itemId
  let caches := findCaches env s.world p itemId obtainContainer
  let n := finalRetrievable env s p itemId itemCount obtainContainer
  itemType.id ≠ 0 → itemType.stackable → canAddItems env s.world itemType caches n →
    (withdrawItem s.stashItems itemId n).isSome →
    Lib.ChunksFit itemType.stackSize.toNat (stackRoom env s.world caches.stackableItemsCache)
      (slotRoom s.world caches.containersCache) n.toNat

end

variable {env : StashEnv} {s s' : StashState} {p : PlayerRef} {itemId : UInt16} {itemCount : UInt32}
  {obtainContainer : Option Ref}

/-! ### Withdrawing -/

theorem withdraws_refl (env : StashEnv) (s : StashState) (itemId : UInt16) (limit : Nat) (ret : ReturnValue) :
    Withdraws env s s itemId limit ret where
  moved := ⟨0, 0, fun id => by rw [Nat.add_zero 0, ite_self, add_zero], fun id => by rw [ite_self, ite_self, add_zero, add_zero],
    fun _ => rfl, by rw [Nat.zero_mul]; exact Nat.zero_le _⟩
  order := .refl _ _

theorem withdrawItem_spec {st st' : UInt16 → Option UInt32} {n : UInt32} (h : withdrawItem st itemId n = some st')
    (id : UInt16) : ((st' id).getD 0).toNat + (if id = itemId then n.toNat else 0) = ((st id).getD 0).toNat := by
  unfold withdrawItem at h
  cases hst : st itemId with
  | none =>
    rw [hst] at h
    exact nomatch h
  | some m =>
    rw [hst] at h
    dsimp only at h
    have hother : ∀ v, id ≠ itemId → Function.update st itemId v id = st id := fun v hid => Function.update_of_ne hid v st
    split_ifs at h with hgt heq
    · cases h
      have hle := UInt32.lt_iff_toNat_lt.mp hgt
      split_ifs with hid
      · rw [hid, Function.update_self, hst, Option.getD_some, Option.getD_some,
          UInt32.toNat_sub_of_le _ _ (UInt32.le_of_lt hgt)]
        omega
      · rw [hother _ hid, add_zero]
    · cases h
      split_ifs with hid
      · rw [hid, Function.update_self, hst, heq]
        exact Nat.zero_add _
      · rw [hother _ hid, add_zero]

theorem min_toNat (a b : UInt32) : (min a b).toNat = min a.toNat b.toNat := by
  rcases UInt32.le_total a b with h | h
  · rw [show min a b = a from if_pos h, min_eq_left (UInt32.le_iff_toNat_le.mp h)]
  · rw [Game.min_of_le h, min_eq_right (UInt32.le_iff_toNat_le.mp h)]

/-- The free slots that the check counts are there. -/
theorem freeContainerSlots_eq {w : World} {c : Ref} (hle : size w c ≤ (capacity w c).toNat) :
    (freeContainerSlots w c).toNat = slotsIn w c := by
  have hlt := (capacity w c).toNat_lt
  have hsub : (((capacity w c).toNat : Int) - (size w c : Int)) = (((capacity w c).toNat - size w c : Nat) : Int) :=
    (Int.ofNat_sub hle).symm
  rw [freeContainerSlots, slotsIn, hsub]
  rw [UInt32.ofInt]
  simp
  omega

theorem le_slotRoom {w : World} {itemType : ItemType} (hs : ¬itemType.stackable) {c : Caches}
    (hrooms : ∀ k ∈ c.containersCache, size w k ≤ (capacity w k).toNat) {n : UInt32} (h : canAddItems env w itemType c n) :
    n.toNat ≤ slotRoom w c.containersCache := by
  unfold canAddItems at h
  rw [if_neg hs, decide_eq_true_iff] at h
  have hle := UInt32.le_iff_toNat_le.mp h
  rw [Lib.toNat_sum_uint32, List.map_map] at hle
  refine (hle.trans (Nat.mod_le ..)).trans_eq (congrArg List.sum (List.map_congr_left fun k hk => freeContainerSlots_eq (hrooms k hk)))

/-- Nothing comes out of the stash for stacks of size 0: there is no stack in order that it could go on. -/
theorem finalRetrievable_pos
    (hc : Cached env s.world itemId (findCaches env s.world p itemId obtainContainer).stackableItemsCache)
    (hs : (env.items itemId).stackable)
    (hpos : 0 < (finalRetrievable env s p itemId itemCount obtainContainer).toNat) :
    0 < (env.items itemId).stackSize.toNat := by
  refine Nat.pos_of_ne_zero fun hz => hpos.ne' ?_
  have hsize : (env.items itemId).stackSize = 0 := UInt8.toNat_inj.mp hz
  have hnil : (findCaches env s.world p itemId obtainContainer).stackableItemsCache = [] := by
    refine List.eq_nil_iff_forall_not_mem.mpr fun x hx => ?_
    have hid := hc.id x hx
    have hst : (s.world.item x).isStackable env.items := by rwa [Item.isStackable, hid]
    have := hc.sound x hx hst
    rw [Item.getStackSize, if_pos hst, hid, hsize] at this
    exact absurd (this.1.trans this.2) (by decide)
  have hmax : maxBySlots env s.world p (env.items itemId) (findCaches env s.world p itemId obtainContainer) = 0 := by
    unfold maxBySlots freeStackSpace
    dsimp only
    rw [if_pos hs, hnil, hsize]
    simp
  rw [finalRetrievable, hmax, min_toNat]
  exact Nat.zero_min _

/-- The cached containers hold no more than they may, if those of the player do not. -/
theorem findCaches_rooms {w : World} (hrooms : ∀ c ∈ getAllContainers w p, size w c ≤ (capacity w c).toNat) :
    ∀ c ∈ (findCaches env w p itemId obtainContainer).containersCache, size w c ≤ (capacity w c).toNat := by
  have hfree : ∀ {c}, hasFreeSlot w c → size w c ≤ (capacity w c).toNat := fun h => (decide_eq_true_iff.mp h).le
  cases obtainContainer with
  | none => exact hrooms
  | some k =>
    intro c hc
    rcases List.mem_append.mp hc with hc | hc
    · split_ifs at hc with hk
      · rw [List.mem_singleton.mp hc]
        exact hfree hk
      · exact absurd hc List.not_mem_nil
    · exact hfree (Bool.and_eq_true_iff.mp (List.mem_filter.mp hc).2).2

/-- What was taken from the stash is placed just when it finds room. -/
theorem placed_spec (hw : Carried env.items s.world) (hs : Slotted s.world)
    (hobtain : ∀ c, obtainContainer = some c → s.world.isContainer c ∧ c < s.world.next)
    (hsound : ∀ x ∈ (findCaches env s.world p itemId obtainContainer).stackableItemsCache,
      (s.world.item x).Sound env.items)
    (hrooms : ∀ c ∈ getAllContainers s.world p, size s.world c ≤ (capacity s.world c).toNat)
    (hcap : (finalRetrievable env s p itemId itemCount obtainContainer).toNat * (env.items itemId).weight.toNat ≤
      (s.world.players p).getFreeCapacity.toNat)
    (hadd : canAddItems env s.world (env.items itemId) (findCaches env s.world p itemId obtainContainer)
      (finalRetrievable env s p itemId itemCount obtainContainer)) :
    let n := (finalRetrievable env s p itemId itemCount obtainContainer).toNat
    let caches := findCaches env s.world p itemId obtainContainer
    let placing : Placing := ⟨s.world, (s.world.players p).getFreeCapacity.toNat, 0, caches.containersCache,
      caches.stackableItemsCache⟩
    ∃ a b, Adds env itemId placing (if (env.items itemId).stackable then placeStacks env itemId n n placing
        else placeSingles env itemId (n + caches.containersCache.length) n placing) a b ∧ a + b ≤ n ∧
      (a + b = n ↔ ((env.items itemId).stackable → Lib.ChunksFit (env.items itemId).stackSize.toNat
        (stackRoom env s.world caches.stackableItemsCache) (slotRoom s.world caches.containersCache) n)) := by
  intro n caches placing
  obtain ⟨hbins, hcached⟩ := findCaches_spec (p := p) hw hs hobtain hsound
  have hready : Ready env itemId placing := ⟨hw.forest, hcached, hbins⟩
  by_cases hstack : (env.items itemId).stackable
  · obtain ⟨a, b, hadds, hle, hiff⟩ := placeStacks_spec hstack (le_refl n) hready
      (fun hpos => finalRetrievable_pos hcached hstack hpos)
      ((Int.natCast_mul ..).symm.trans_le (Int.ofNat_le.mpr hcap))
    rw [if_pos hstack]
    exact ⟨a, b, hadds, hle, hiff.trans ⟨fun h _ => h, fun h => h hstack⟩⟩
  · rw [if_neg hstack]
    refine ⟨0, n, placeSingles_spec hstack hready le_rfl (le_slotRoom hstack (findCaches_rooms hrooms) hadd), (Nat.zero_add n).le, ?_⟩
    exact iff_of_true (Nat.zero_add n) fun h => absurd h hstack

/-- The units in and out of the stash agree just when the same number came and went. -/
theorem withdraws_iff_eq {n a b limit : Nat} {ret : ReturnValue} (ho : KeepsOrder env.items s.world s'.world)
    (hstash : ∀ id, s'.stashed id + (if id = itemId then n else 0) = s.stashed id)
    (hstored : ∀ id, s'.world.stored env.items id = s.world.stored env.items id + (if id = itemId then a else 0) +
      if id = newId env itemId then b else 0) (hret : ret ≠ .NOERROR → a + b = 0)
    (hlimit : n * (env.items itemId).weight.toNat ≤ limit) :
    Withdraws env s s' itemId limit ret ↔ a + b = n := by
  constructor
  · rintro ⟨⟨a', b', hstash', hstored', -⟩, -⟩
    have h₁ := hstash itemId
    have h₂ := hstash' itemId
    have h₃ := hstored itemId
    have h₄ := hstored' itemId
    have h₅ := hstored (newId env itemId)
    have h₆ := hstored' (newId env itemId)
    rw [if_pos rfl] at h₁ h₂ h₃ h₄ h₅ h₆
    by_cases hid : itemId = newId env itemId
    · rw [if_pos hid] at h₃ h₄
      omega
    · rw [if_neg hid] at h₃ h₄
      rw [if_neg (Ne.symm hid)] at h₅ h₆
      omega
  · rintro rfl
    exact ⟨⟨a, b, hstash, hstored, hret, hlimit⟩, ho⟩

theorem addItemFromStash_iff (hw : Carried env.items s.world) (hs : Slotted s.world)
    (hobtain : ∀ c, obtainContainer = some c → s.world.isContainer c ∧ c < s.world.next)
    (hsound : ∀ x ∈ (findCaches env s.world p itemId obtainContainer).stackableItemsCache,
      (s.world.item x).Sound env.items)
    (hrooms : ∀ c ∈ getAllContainers s.world p, size s.world c ≤ (capacity s.world c).toNat)
    (hweight : 0 < (env.items itemId).weight) :
    Withdraws env s (addItemFromStash env s p itemId itemCount obtainContainer).1 itemId
        (s.world.players p).getFreeCapacity.toNat (addItemFromStash env s p itemId itemCount obtainContainer).2 ↔
      FindsRoom env s p itemId itemCount obtainContainer := by
  have hn : finalRetrievable env s p itemId itemCount obtainContainer =
    min (maxBySlots env s.world p (env.items itemId) (findCaches env s.world p itemId obtainContainer))
      (retrievableCount s.world p (env.items itemId) itemCount) := rfl
  have hidle : ∀ ret, FindsRoom env s p itemId itemCount obtainContainer →
      (Withdraws env s s itemId (s.world.players p).getFreeCapacity.toNat ret ↔
        FindsRoom env s p itemId itemCount obtainContainer) := fun ret h => iff_of_true (withdraws_refl ..) h
  unfold addItemFromStash
  dsimp only
  rw [← hn]
  by_cases hid : (env.items itemId).id = 0
  · rw [if_pos hid]
    exact hidle _ fun h => absurd hid h
  rw [if_neg hid]
  by_cases hzero : retrievableCount s.world p (env.items itemId) itemCount = 0
  · rw [if_pos hzero]
    refine hidle _ fun _ _ _ _ => ?_
    rw [hn, hzero, min_toNat]
    exact .inl ((min_le_right ..).trans (Nat.zero_le _))
  rw [if_neg hzero]
  by_cases hadd : canAddItems env s.world (env.items itemId) (findCaches env s.world p itemId obtainContainer)
      (finalRetrievable env s p itemId itemCount obtainContainer)
  swap
  · rw [if_pos (by simpa using hadd)]
    exact hidle _ fun _ _ h => absurd h hadd
  rw [if_neg (by simpa using hadd)]
  have hcount : (finalRetrievable env s p itemId itemCount obtainContainer).toNat * (env.items itemId).weight.toNat ≤
      (s.world.players p).getFreeCapacity.toNat := by
    have hle : (finalRetrievable env s p itemId itemCount obtainContainer).toNat ≤
        (s.world.players p).getFreeCapacity.toNat / (env.items itemId).weight.toNat := by
      rw [hn, min_toNat, retrievableCount, min_toNat, UInt32.toNat_div]
      omega
    exact (Nat.le_div_iff_mul_le (UInt32.lt_iff_toNat_lt.mp hweight)).mp hle
  cases hstash : withdrawItem s.stashItems itemId (finalRetrievable env s p itemId itemCount obtainContainer) with
  | none => exact hidle _ fun _ _ _ h => by rw [hstash] at h; exact nomatch h
  | some st =>
    obtain ⟨a, b, hadds, hle, hiff⟩ := placed_spec hw hs hobtain hsound hrooms hcount hadd
    have hroom : FindsRoom env s p itemId itemCount obtainContainer ↔ ((env.items itemId).stackable →
        Lib.ChunksFit (env.items itemId).stackSize.toNat
          (stackRoom env s.world (findCaches env s.world p itemId obtainContainer).stackableItemsCache)
          (slotRoom s.world (findCaches env s.world p itemId obtainContainer).containersCache)
          (finalRetrievable env s p itemId itemCount obtainContainer).toNat) := by
      refine ⟨fun h hst => h hid hst hadd (by rw [hstash]; rfl), fun h _ hst _ _ => h hst⟩
    dsimp only
    rw [hroom, ← hiff]
    refine withdraws_iff_eq (a := a) (b := b) hadds.order (withdrawItem_spec hstash) hadds.stored (fun h => ?_) hcount
    have := hadds.count
    rw [this] at h
    split_ifs at h with hpos
    · exact absurd rfl h
    · exact Nat.eq_zero_of_not_pos fun hab => hpos (by dsimp only; omega)

/-! ### Stowing -/

/-- The units of an id in the stash, and in containers and slots. -/
def owned (env : StashEnv) (s : StashState) (id : UInt16) : Nat := s.stashed id + s.world.stored env.items id

/-- The items that `stowItem` goes over, each with a count. -/
def selected (env : StashEnv) (w : World) (p : PlayerRef) (item : Ref) (count : UInt32) (allItems : Bool)
    (lockerItems : List Ref) : List (Ref × UInt32) :=
  if !isItemStorable env w item ∧ (w.item item).id ≠ ITEM_GOLD_POUCH ∨ allItems ∧ w.isContainer item then []
  else stowSelection env w p item count allItems lockerItems

/-- An item with a place that does not stack. -/
def Single (items : UInt16 → ItemType) (w : World) (x : Ref) : Prop :=
  (w.getParent x).isSome ∧ ¬(w.item x).isStackable items

/-- None of some items is counted for more than one where it comes first. -/
def CountedOnce (P : Ref → Prop) (l : List (Ref × UInt32)) : Prop :=
  ∀ l₁ x n l₂, l = l₁ ++ (x, n) :: l₂ → P x → (∀ e ∈ l₁, e.1 = x → e.2 = 0) → n.toNat ≤ 1

theorem countedOnce_cons {P : Ref → Prop} {x : Ref} {n : UInt32} {l : List (Ref × UInt32)} :
    CountedOnce P ((x, n) :: l) ↔ (P x → n.toNat ≤ 1) ∧ CountedOnce (fun y => P y ∧ ¬(y = x ∧ n ≠ 0)) l := by
  constructor
  · refine fun h => ⟨fun hx => h [] x n l rfl hx fun e he => absurd he List.not_mem_nil, ?_⟩
    rintro l₁ y m l₂ rfl ⟨hy, hne⟩ hfirst
    refine h ((x, n) :: l₁) y m l₂ rfl hy fun e he hey => ?_
    rcases List.mem_cons.mp he with rfl | he
    · exact of_not_not fun hn => hne ⟨hey.symm, hn⟩
    · exact hfirst e he hey
  · rintro ⟨hx, hrest⟩ l₁ y m l₂ heq hy hfirst
    cases l₁ with
    | nil =>
      cases heq
      exact hx hy
    | cons e l₁ =>
      cases heq
      refine hrest l₁ y m l₂ rfl ⟨hy, fun h => h.2 (hfirst _ List.mem_cons_self h.1.symm)⟩ fun e he => ?_
      exact hfirst e (List.mem_cons_of_mem _ he)

theorem stashed_addItemOnStash (st : UInt16 → Option UInt32) {n : UInt32} (itemId id : UInt16)
    (hlt : ((st itemId).getD 0).toNat + n.toNat < 2 ^ 32) :
    ((addItemOnStash st itemId n id).getD 0).toNat = ((st id).getD 0).toNat + if id = itemId then n.toNat else 0 := by
  unfold addItemOnStash
  split_ifs with hid
  · rw [hid, Function.update_self, Option.getD_some, UInt32.toNat_add, Nat.mod_eq_of_lt hlt]
  · rw [Function.update_of_ne hid, add_zero]

/-- What one round does: the item is taken away and counted, for more than it is if it does not stack and the count is
    larger. -/
structure Stowed (env : StashEnv) (s s' : StashState) (x : Ref) (n : UInt32) (surplus : Nat) : Prop where
  carried : Carried env.items s'.world
  slotted : Slotted s'.world
  single : ∀ y, Single env.items s'.world y ↔ Single env.items s.world y ∧ ¬(y = x ∧ n ≠ 0)
  owned : ∀ id, owned env s' id = owned env s id + if id = (s.world.item x).id then surplus else 0
  stashed : ∀ id, s'.stashed id ≤ s.stashed id + n.toNat
  surplus : surplus = 0 ↔ (Single env.items s.world x → n.toNat ≤ 1)

theorem toInt_stowed {n : UInt32} (hn : n.toNat < 2 ^ 31) (i : Item) :
    UInt32.ofInt (if n.toInt32.toInt = -1 then i.getItemCount else n.toInt32.toInt) = n := by
  have hint := Lib.toInt_toInt32_of_lt hn
  rw [hint, if_neg (by omega)]
  refine UInt32.toNat_inj.mp ?_
  rw [UInt32.ofInt]
  simp
  omega

/-- A round that takes nothing away. -/
theorem stowed_refl {x : Ref} {n : UInt32} (hw : Carried env.items s.world) (hs : Slotted s.world)
    (h : Single env.items s.world x → n = 0) : Stowed env s s x n 0 where
  carried := hw
  slotted := hs
  single y := by
    refine ⟨fun hy => ⟨hy, fun hyx => hyx.2 (h (hyx.1 ▸ hy))⟩, And.left⟩
  owned id := by rw [ite_self, add_zero]
  stashed id := Nat.le_add_right ..
  surplus := iff_of_true rfl fun hx => by
    rw [h hx]
    exact Nat.zero_le _

theorem single_congr {w w' : World} {y : Ref} (hparent : w'.getParent y = w.getParent y)
    (hid : (w'.item y).id = (w.item y).id) : Single env.items w' y ↔ Single env.items w y := by
  rw [Single, Single, hparent, Item.isStackable, Item.isStackable, hid]

/-- A whole stack is stowed, or an item that does not stack. -/
theorem stowed_cut {x : Ref} {n : UInt32} (hw : Carried env.items s.world) (hs : Slotted s.world)
    (hp : (s.world.getParent x).isSome) (hx : x < s.world.next) (hn : n ≠ 0)
    (hwhole : (s.world.item x).isStackable env.items → n.toNat = (s.world.item x).getItemCount)
    (hlt : s.stashed (s.world.item x).id + n.toNat < 2 ^ 32) {w' : World} (h : Cuts s.world w' x) :
    Stowed env s ⟨w', addItemOnStash s.stashItems (s.world.item x).id n⟩ x n
      (if (s.world.item x).isStackable env.items then 0 else n.toNat - 1) where
  carried := h.carried hw
  slotted := h.slotted hs
  single y := by
    by_cases hyx : y = x
    · refine iff_of_false (fun hy => ?_) fun hy => hy.2 ⟨hyx, hn⟩
      have := hy.1
      rw [hyx, h.parent, Function.update_self] at this
      exact nomatch this
    · have := congrArg Item.id (h.plain y)
      exact (single_congr (h.getParent_of_ne hyx) this).trans ⟨fun hy => ⟨hy, fun hyx' => hyx hyx'.1⟩, And.left⟩
  owned id := by
    have hpos : 0 < n.toNat := Nat.pos_of_ne_zero fun hz => hn (UInt32.toNat_inj.mp hz)
    have hstored := h.stored env.items hp hx id
    have hstash : StashState.stashed ⟨w', addItemOnStash s.stashItems (s.world.item x).id n⟩ id =
      s.stashed id + if id = (s.world.item x).id then n.toNat else 0 := stashed_addItemOnStash _ _ id hlt
    rw [owned, owned, hstash]
    rw [Item.units, Item.part, if_congr (eq_comm (b := id)) rfl rfl] at hstored
    dsimp only
    by_cases hst : (s.world.item x).isStackable env.items
    · have := hwhole hst
      rw [if_pos hst, ite_self]
      rw [if_pos hst] at hstored
      split_ifs at hstored ⊢ <;> omega
    · rw [if_neg hst]
      rw [if_neg hst] at hstored
      split_ifs at hstored ⊢ <;> omega
  stashed id := by
    refine (stashed_addItemOnStash s.stashItems (s.world.item x).id id hlt).trans_le (Nat.add_le_add_left ?_ _)
    split_ifs <;> omega
  surplus := by
    by_cases hst : (s.world.item x).isStackable env.items
    · rw [if_pos hst]
      exact iff_of_true rfl fun hx => absurd hst hx.2
    · rw [if_neg hst]
      exact ⟨fun h _ => by omega, fun h => by have := h ⟨hp, hst⟩; omega⟩

/-- Some pieces of a stack are stowed. -/
theorem stowed_recount {x : Ref} {n : UInt32} (hw : Carried env.items s.world) (hs : Slotted s.world)
    (hp : (s.world.getParent x).isSome) (hx : x < s.world.next) (hst : (s.world.item x).isStackable env.items)
    (hle : n.toNat ≤ (s.world.item x).getItemCount) (hlt : s.stashed (s.world.item x).id + n.toNat < 2 ^ 32) {w' : World}
    (h : Recounts s.world w' x ((s.world.item x).getItemCount - n.toNat)) :
    Stowed env s ⟨w', addItemOnStash s.stashItems (s.world.item x).id n⟩ x n 0 where
  carried := h.carried hw
  slotted := h.slotted hs
  single y := by
    have hid : (w'.item y).id = (s.world.item y).id := by
      by_cases hyx : y = x
      · rw [hyx, h.id]
      · have := congrArg Item.id (h.plain y hyx)
        exact this
    refine (single_congr (h.parent y) hid).trans ⟨fun hy => ⟨hy, fun hyx => hy.2 ?_⟩, And.left⟩
    rwa [hyx.1]
  owned id := by
    have hstored := h.stored env.items hst hp hx id
    have hstash : StashState.stashed ⟨w', addItemOnStash s.stashItems (s.world.item x).id n⟩ id =
      s.stashed id + if id = (s.world.item x).id then n.toNat else 0 := stashed_addItemOnStash _ _ id hlt
    rw [owned, owned, hstash, ite_self]
    rw [if_congr (eq_comm (b := id)) rfl rfl, if_congr (eq_comm (b := id)) rfl rfl] at hstored
    dsimp only
    split_ifs at hstored ⊢ <;> omega
  stashed id := by
    refine (stashed_addItemOnStash s.stashItems (s.world.item x).id id hlt).trans_le (Nat.add_le_add_left ?_ _)
    split_ifs <;> omega
  surplus := iff_of_true rfl fun hx => absurd hst hx.2

theorem stashEntry_spec {e : Ref × UInt32} (hw : Carried env.items s.world) (hs : Slotted s.world)
    (hrem : Removable env.toMoneyEnv e.1) (hn : e.2.toNat < 2 ^ 31)
    (hlt : s.stashed (s.world.item e.1).id + e.2.toNat < 2 ^ 32) :
    ∃ surplus, Stowed env s (stashEntry env s e) e.1 e.2 surplus := by
  obtain ⟨x, n⟩ := e
  dsimp only at hrem hn hlt ⊢
  unfold stashEntry
  dsimp only
  cases hk : s.world.getParent x with
  | none =>
    have hremove : Game.internalRemoveItem env.toMoneyEnv s.world x n.toInt32.toInt = (s.world, .NOTPOSSIBLE) := by
      unfold Game.internalRemoveItem
      rw [hk]
    rw [hremove]
    refine ⟨0, stowed_refl hw hs fun hx => ?_⟩
    have := hx.1
    rw [hk] at this
    exact nomatch this
  | some k =>
    have hp : (s.world.getParent x).isSome := by rw [hk]; rfl
    have hx := hw.made x k hk
    rw [Game.internalRemoveItem_eq hw hs hk hrem (toInt_stowed hn _)]
    by_cases hcount : n = 0 ∨ (s.world.item x).isStackable env.items ∧ n.toNat > (s.world.item x).getItemCount
    · rw [if_pos hcount]
      exact ⟨0, stowed_refl hw hs fun hx => hcount.resolve_right fun h => hx.2 h.1⟩
    · rw [if_neg hcount]
      obtain ⟨hz, hle⟩ := not_or.mp hcount
      dsimp only
      rw [if_pos rfl]
      by_cases hpart : (s.world.item x).isStackable env.items ∧ n.toNat ≠ (s.world.item x).getItemCount
      · have hle' : n.toNat ≤ (s.world.item x).getItemCount := not_lt.mp fun h => hle ⟨hpart.1, h⟩
        exact ⟨0, stowed_recount hw hs hp hx hpart.1 hle' hlt
          (Game.recounts_removeThing hw hs hk hpart.1 (lt_of_le_of_ne hle' hpart.2))⟩
      · exact ⟨_, stowed_cut hw hs hp hx hz (fun hst => of_not_not fun h => hpart ⟨hst, h⟩) hlt
          (Game.cuts_removeThing hw hs hk hpart)⟩

/-- Nothing is lost, and nothing is gained just when what does not stack is counted once. -/
theorem stashContainer_iff {l : List (Ref × UInt32)} (hw : Carried env.items s.world) (hs : Slotted s.world)
    (hrem : ∀ e ∈ l, Removable env.toMoneyEnv e.1) (hn : ∀ e ∈ l, e.2.toNat < 2 ^ 31)
    (hlt : ∀ id, s.stashed id + (l.map (·.2.toNat)).sum < 2 ^ 32) :
    (∀ id, owned env s id ≤ owned env (stashContainer env s l) id) ∧
      ((∀ id, owned env (stashContainer env s l) id = owned env s id) ↔ CountedOnce (Single env.items s.world) l) := by
  induction l generalizing s with
  | nil =>
    refine ⟨fun id => le_rfl, iff_of_true (fun id => rfl) fun l₁ x n l₂ h => ?_⟩
    exact absurd h.symm (List.append_ne_nil_of_right_ne_nil l₁ (List.cons_ne_nil _ l₂))
  | cons e l ih =>
    have hsum : ∀ id, s.stashed id + (e.2.toNat + (l.map (·.2.toNat)).sum) < 2 ^ 32 := hlt
    obtain ⟨surplus, hstep⟩ := stashEntry_spec hw hs (hrem e List.mem_cons_self) (hn e List.mem_cons_self)
      (by have := hsum (s.world.item e.1).id; omega)
    have hfold : stashContainer env s (e :: l) = stashContainer env (stashEntry env s e) l := rfl
    obtain ⟨hmono, hiff⟩ := ih (s := stashEntry env s e) hstep.carried hstep.slotted
      (fun e' he => hrem e' (List.mem_cons_of_mem e he)) (fun e' he => hn e' (List.mem_cons_of_mem e he))
      fun id => by
        have := hsum id
        have := hstep.stashed id
        omega
    have hsingle : Single env.items (stashEntry env s e).world =
        fun y => Single env.items s.world y ∧ ¬(y = e.1 ∧ e.2 ≠ 0) := funext fun y => propext (hstep.single y)
    rw [hfold, countedOnce_cons, ← hstep.surplus, ← hsingle, ← hiff]
    refine ⟨fun id => ?_, fun h => ?_, fun ⟨hz, h⟩ id => ?_⟩
    · refine le_trans ?_ (hmono id)
      rw [hstep.owned]
      exact Nat.le_add_right ..
    · have hzero : surplus = 0 := by
        have h₁ := hmono (s.world.item e.1).id
        have h₂ := hstep.owned (s.world.item e.1).id
        have h₃ := h (s.world.item e.1).id
        rw [if_pos rfl] at h₂
        omega
      refine ⟨hzero, fun id => ?_⟩
      rw [h, hstep.owned, hzero, ite_self, add_zero]
    · rw [h, hstep.owned, hz, ite_self, add_zero]

/-! ### What is selected -/

/-- What is put on the list stays below the limit. -/
structure Limited (env : StashEnv) (s : Stowing) : Prop where
  total : s.totalItemsToStow.toNat ≤ env.STASH_MANAGE_AMOUNT.toNat
  counts : ∀ e ∈ s.itemDict, e.2.toNat ≤ env.STASH_MANAGE_AMOUNT.toNat

section
variable {w : World} {st : Stowing}

theorem limited_nil : Limited env ⟨[], 0⟩ := ⟨Nat.zero_le _, fun _ he => absurd he List.not_mem_nil⟩

theorem Limited.add (h : Limited env st) (x : Ref) (count : UInt32) : Limited env (st.add env x count) := by
  have hsub := UInt32.toNat_sub_of_le _ _ (UInt32.le_iff_toNat_le.mpr h.total)
  have hmin := min_toNat count (env.STASH_MANAGE_AMOUNT - st.totalItemsToStow)
  have hlimit := env.limited
  have htotal := h.total
  refine ⟨?_, fun e he => ?_⟩
  · unfold Stowing.add
    dsimp only
    rw [UInt32.toNat_add, hmin]
    refine (Nat.mod_le ..).trans ?_
    omega
  · rcases List.mem_append.mp he with he | he
    · exact h.counts e he
    · rw [List.mem_singleton.mp he]
      change (min count (env.STASH_MANAGE_AMOUNT - st.totalItemsToStow)).toNat ≤ _
      omega

theorem Limited.addAll (h : Limited env st) (w : World) (id : Option UInt16) (l : List (Ref × UInt32)) :
    Limited env (st.addAll env w id l) := by
  induction l generalizing st with
  | nil => exact h
  | cons e l ih =>
    unfold Stowing.addAll
    split_ifs
    · exact h
    · exact ih h
    · exact ih (h.add _ _)

theorem Limited.sendStowItems (h : Limited env st) (w : World) (item stowItem : Ref) :
    Limited env (sendStowItems env w item stowItem st) := by
  have hfirst : Limited env (if (w.item stowItem).id = (w.item item).id then
      st.add env stowItem (.ofNat (w.item stowItem).getItemCount) else st) := by
    split_ifs
    · exact h.add _ _
    · exact h
  unfold Stash.sendStowItems
  dsimp only
  by_cases hc : w.isContainer stowItem
  · rw [if_pos hc]
    exact hfirst.addAll ..
  · rwa [if_neg hc]

theorem selected_le (w : World) (p : PlayerRef) (item : Ref) (count : UInt32) (allItems : Bool) (lockerItems : List Ref) :
    ∀ e ∈ selected env w p item count allItems lockerItems, e.2.toNat ≤ env.STASH_MANAGE_AMOUNT.toNat := by
  have hlocker : ∀ {st}, Limited env st → ∀ l : List Ref,
      Limited env (l.foldl (fun s x => sendStowItems env w item x s) st) := fun {st} h l => by
    induction l generalizing st with
    | nil => exact h
    | cons x l ih => exact ih (h.sendStowItems w item x)
  have hopt : ∀ {st}, Limited env st → ∀ o : Option Ref,
      Limited env (o.elim st fun x => sendStowItems env w item x st) := fun {st} h o => by
    cases o with
    | none => exact h
    | some x => exact h.sendStowItems w item x
  unfold selected stowSelection
  dsimp only
  split_ifs
  · exact fun e he => absurd he List.not_mem_nil
  · exact (hlocker limited_nil lockerItems).counts
  · exact (hopt (hopt limited_nil _) _).counts
  · exact (limited_nil.addAll ..).counts
  · exact (limited_nil.add item count).counts

end

theorem stowItem_eq (env : StashEnv) (s : StashState) (p : PlayerRef) (item : Ref) (count : UInt32) (allItems : Bool)
    (lockerItems : List Ref) : stowItem env s p item count allItems lockerItems =
      stashContainer env s (selected env s.world p item count allItems lockerItems) := by
  unfold stowItem selected
  split_ifs with h₁ h₂ h₃ h₄ h₅
  · rfl
  · exact absurd (.inl h₁) h₂
  · rfl
  · exact absurd (.inr h₃) h₄
  · exact absurd h₅ (not_or.mpr ⟨h₁, h₃⟩)
  · rfl

/-- What comes out of the stash all comes to the containers just when it finds room in chunks of a stack, and what is
    stowed is what leaves the containers just when no item that does not stack is counted for more than one. -/
theorem transfers_conserve_iff (hw : Carried env.items s.world) (hs : Slotted s.world)
    (p : PlayerRef) (itemId : UInt16) (hweight : 0 < (env.items itemId).weight) (itemCount : UInt32)
    (obtainContainer : Option Ref)
    (hobtain : ∀ c, obtainContainer = some c → s.world.isContainer c ∧ c < s.world.next)
    (hsound : ∀ x ∈ (findCaches env s.world p itemId obtainContainer).stackableItemsCache,
      (s.world.item x).Sound env.items)
    (hrooms : ∀ c ∈ getAllContainers s.world p, size s.world c ≤ (capacity s.world c).toNat)
    (item : Ref) (count : UInt32) (allItems : Bool) (lockerItems : List Ref)
    (hrem : ∀ e ∈ selected env s.world p item count allItems lockerItems, Removable env.toMoneyEnv e.1)
    (hlt : ∀ id, s.stashed id +
      ((selected env s.world p item count allItems lockerItems).map (·.2.toNat)).sum < 2 ^ 32) :
    (Withdraws env s (addItemFromStash env s p itemId itemCount obtainContainer).1 itemId
        (s.world.players p).getFreeCapacity.toNat (addItemFromStash env s p itemId itemCount obtainContainer).2 ↔
      FindsRoom env s p itemId itemCount obtainContainer) ∧
    ((∀ id, owned env (stowItem env s p item count allItems lockerItems) id = owned env s id) ↔
      CountedOnce (Single env.items s.world) (selected env s.world p item count allItems lockerItems)) := by
  refine ⟨addItemFromStash_iff hw hs hobtain hsound hrooms hweight, ?_⟩
  rw [stowItem_eq]
  exact (stashContainer_iff hw hs hrem (fun e he => (selected_le _ _ _ _ _ _ e he).trans_lt env.limited) hlt).2

/-! ### Half a stack and one free slot -/

/-- All but the backpacks stack, to 100 pieces of weight 10. -/
def backpackEnv : StashEnv where
  toMoneyEnv := Game.tileEnv
  STASH_MANAGE_AMOUNT := 100000
  newContainer id := if id = 2853 then some ⟨2000, 8, 0, [], true, false, false⟩ else none
  isStowable _ := true
  canDecay _ _ := false
  isInsideDepot _ _ := false
  limited := by decide
  empty id k h := by
    cases (Option.ite_none_right_eq_some.mp h).2
    rfl
  single id k h := by
    rw [(Option.ite_none_right_eq_some.mp h).1]
    rfl
  alike e he := by
    have hids : ∀ e ∈ Item.ItemTransformationMap, e.1 ≠ 2853 ∧ e.2 ≠ 2853 := by
      simp [Item.ItemTransformationMap]
    obtain ⟨h₁, h₂⟩ := hids e he
    exact ⟨(bne_iff_ne.mpr h₂).trans (bne_iff_ne.mpr h₁).symm, rfl⟩

/-- A player with a backpack of two slots, 50 pieces in it, and 1000 in the stash. -/
def backpackState : StashState where
  world :=
    { item := fun
        | 0 => ⟨2853, 1, none, some (.player 0), some ⟨2000, 2, 500, [1], true, false, false⟩⟩
        | 1 => ⟨268, 50, none, some (.container 0), none⟩
        | _ + 2 => ⟨3264, 1, none, none, none⟩
      next := 2
      players := fun p => ⟨fun s => if p = 0 ∧ s = 3 then some 0 else none, none, false, false, 40000, 510, false⟩ }
  stashItems id := if id = 268 then some 1000 else none

theorem backpackState_parent {r : Ref} {k : Cylinder} (h : backpackState.world.getParent r = some k) :
    r = 0 ∧ k = .player 0 ∨ r = 1 ∧ k = .container 0 := by
  match r with
  | 0 =>
    cases h
    exact .inl ⟨rfl, rfl⟩
  | 1 =>
    cases h
    exact .inr ⟨rfl, rfl⟩
  | _ + 2 => exact nomatch h

theorem backpackState_container {r c : Ref} (h : backpackState.world.getParentContainer r = some c) : r = 1 ∧ c = 0 := by
  obtain ⟨-, hk⟩ | ⟨hr, hk⟩ := backpackState_parent (getParent_of_getParentContainer h)
  · exact nomatch hk
  · exact ⟨hr, Cylinder.container.inj hk⟩

theorem backpackState_slot {p : PlayerRef} {i : Nat} {r : Ref} (h : (backpackState.world.players p).inventory i = some r) :
    p = 0 ∧ i = 3 ∧ r = 0 := by
  obtain ⟨⟨hp, hi⟩, hr⟩ := Option.ite_none_right_eq_some.mp h
  exact ⟨hp, hi, (Option.some.inj hr).symm⟩

theorem backpackState_carried : Carried backpackEnv.items backpackState.world where
  forest.lists := by
    constructor
    · intro x c
      refine ⟨fun hx => ?_, fun h => ?_⟩
      · match c with
        | 0 =>
          cases List.mem_singleton.mp hx
          rfl
        | 1 | _ + 2 => exact absurd hx List.not_mem_nil
      · obtain ⟨rfl, rfl⟩ := backpackState_container h
        exact List.mem_singleton_self 1
    · intro c
      match c with
      | 0 => exact List.nodup_singleton 1
      | 1 | _ + 2 => exact List.nodup_nil
  forest.acyclic x hx := by
    obtain ⟨c, hc, hx⟩ := Lib.below_cases hx
    obtain ⟨rfl, rfl⟩ := backpackState_container hc
    rcases hx with hx | hx
    · exact absurd hx (by decide)
    · obtain ⟨c, hc, -⟩ := Lib.below_cases hx
      exact absurd (backpackState_container hc).1 (by decide)
  forest.made r c hr := by
    obtain ⟨rfl, rfl⟩ := backpackState_container hr
    decide
  single r hr := by
    match r with
    | 0 => rfl
    | 1 | _ + 2 => exact nomatch hr
  slots p s r h := by
    obtain ⟨rfl, rfl, rfl⟩ := backpackState_slot h
    rfl
  made r k h := by
    rcases backpackState_parent h with ⟨rfl, -⟩ | ⟨rfl, -⟩ <;> decide

theorem backpackState_slotted : Slotted backpackState.world where
  slot p r h := by
    obtain ⟨rfl, hk⟩ | ⟨-, hk⟩ := backpackState_parent h
    · cases hk
      exact ⟨3, by decide, rfl⟩
    · exact nomatch hk
  once p i j r hi hj := (backpackState_slot hi).2.1.trans (backpackState_slot hj).2.1.symm

theorem backpackState_obtain : ∀ c, some 0 = some c → backpackState.world.isContainer c ∧ c < backpackState.world.next :=
  fun c hc => by
    cases hc
    decide

theorem backpackState_sound : ∀ x ∈ (findCaches backpackEnv backpackState.world 0 268 (some 0)).stackableItemsCache,
    (backpackState.world.item x).Sound backpackEnv.items := by
  have hcache : (findCaches backpackEnv backpackState.world 0 268 (some 0)).stackableItemsCache = [1] := by decide +kernel
  rw [hcache]
  intro x hx
  rw [List.mem_singleton.mp hx]
  exact fun _ => by decide

theorem backpackState_rooms : ∀ c ∈ getAllContainers backpackState.world 0,
    size backpackState.world c ≤ (capacity backpackState.world c).toNat := by
  have hall : getAllContainers backpackState.world 0 = [0] := by decide +kernel
  rw [hall]
  intro c hc
  rw [List.mem_singleton.mp hc]
  decide

/-- 100 come out of the stash, and 20 are stowed. -/
theorem transfers_conserve_backpack :
    (Withdraws backpackEnv backpackState (addItemFromStash backpackEnv backpackState 0 268 100 (some 0)).1 268
        (backpackState.world.players 0).getFreeCapacity.toNat
        (addItemFromStash backpackEnv backpackState 0 268 100 (some 0)).2 ↔
      FindsRoom backpackEnv backpackState 0 268 100 (some 0)) ∧
    ((∀ id, owned backpackEnv (stowItem backpackEnv backpackState 0 1 20 false []) id =
        owned backpackEnv backpackState id) ↔
      CountedOnce (Single backpackEnv.items backpackState.world)
        (selected backpackEnv backpackState.world 0 1 20 false [])) :=
  transfers_conserve_iff backpackState_carried backpackState_slotted 0 268 (by decide) 100 (some 0) backpackState_obtain
    backpackState_sound backpackState_rooms 1 20 false [] (fun _ _ => ⟨rfl, Bool.false_ne_true⟩) fun id => by
      have hselected : selected backpackEnv backpackState.world 0 1 20 false [] = [(1, 20)] := by decide +kernel
      rw [hselected, StashState.stashed, backpackState]
      dsimp only
      split_ifs <;> decide

/-- Of 150 pieces that leave the stash, 50 get lost. -/
theorem not_transfers_conserve : ¬∀ (env : StashEnv) (s : StashState) (p : PlayerRef) (itemId : UInt16)
    (itemCount : UInt32) (obtainContainer : Option Ref) (item : Ref) (count : UInt32) (allItems : Bool)
    (lockerItems : List Ref), Carried env.items s.world → Slotted s.world → 0 < (env.items itemId).weight →
    (∀ c, obtainContainer = some c → s.world.isContainer c ∧ c < s.world.next) →
    (∀ x ∈ (findCaches env s.world p itemId obtainContainer).stackableItemsCache, (s.world.item x).Sound env.items) →
    (∀ c ∈ getAllContainers s.world p, size s.world c ≤ (capacity s.world c).toNat) →
    (∀ e ∈ selected env s.world p item count allItems lockerItems, Removable env.toMoneyEnv e.1) →
    (∀ id, s.stashed id + ((selected env s.world p item count allItems lockerItems).map (·.2.toNat)).sum < 2 ^ 32) →
    Withdraws env s (addItemFromStash env s p itemId itemCount obtainContainer).1 itemId
        (s.world.players p).getFreeCapacity.toNat (addItemFromStash env s p itemId itemCount obtainContainer).2 ∧
      ∀ id, owned env (stowItem env s p item count allItems lockerItems) id = owned env s id := by
  intro h
  have hselected : selected backpackEnv backpackState.world 0 1 0 false [] = [(1, 0)] := by decide +kernel
  obtain ⟨⟨a, b, hstash, hstored, -⟩, -⟩ := (h backpackEnv backpackState 0 268 150 (some 0) 1 0 false []
    backpackState_carried backpackState_slotted (by decide) backpackState_obtain backpackState_sound backpackState_rooms
    (fun _ _ => ⟨rfl, Bool.false_ne_true⟩) fun id => by
      rw [hselected, StashState.stashed, backpackState]
      dsimp only
      split_ifs <;> decide).1
  have h₁ := hstash 268
  have h₂ := hstored 268
  have hleft : (addItemFromStash backpackEnv backpackState 0 268 150 (some 0)).1.stashed 268 = 850 := by decide +kernel
  have hgot : (addItemFromStash backpackEnv backpackState 0 268 150 (some 0)).1.world.stored backpackEnv.items 268 = 150 := by
    decide +kernel
  have hhad : backpackState.world.stored backpackEnv.items 268 = 50 := by decide +kernel
  have hin : backpackState.stashed 268 = 1000 := by decide
  have hid : newId backpackEnv 268 = 268 := by decide
  rw [hleft, hin, if_pos rfl] at h₁
  rw [hgot, hhad, if_pos rfl, hid, if_pos rfl] at h₂
  omega

end Stash
end CrystalServer
