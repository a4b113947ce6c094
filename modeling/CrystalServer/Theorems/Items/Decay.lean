import CrystalServer.Items.Decay
import CrystalServer.Theorems.Items.Attributes

/-! # Items that decay

An item that is decaying is registered once, under its timestamp, and `checkDecay` is scheduled for the earliest one. -/

namespace CrystalServer
open Lib Item

namespace Item
variable {item item' : Item}

/-- When the item is due, if it is decaying. -/
def dueTime (item : Item) : Option Int :=
  if item.getDecaying = DECAYING_TRUE then some (item.getAttribute int64_t .duration_timestamp) else none

theorem getInteger_eq (item : Item) (type : AttributeType) :
    item.getInteger type =
      if type.isAttributeInteger then ((item.value? type).map fun v => (⟨type, v⟩ : Attribute).getInteger).getD 0 else 0 := by
  unfold getInteger value?
  rw [Option.map_map]
  rfl

theorem dueTime_eq (hstate : item.value? .decaystate = some (.integer DECAYING_TRUE.toNat)) {t : Int}
    (ht : item.value? .duration_timestamp = some (.integer t)) : item.dueTime = some (int64_t.cast t) := by
  unfold dueTime getDecaying getAttribute
  rw [getInteger_eq, getInteger_eq, hstate, ht]
  rfl

theorem dueTime_of_false (hstate : item.value? .decaystate = some (.integer DECAYING_FALSE.toNat)) : item.dueTime = none := by
  unfold dueTime getDecaying
  rw [getInteger_eq, hstate]
  rfl

theorem dueTime_of_none (hstate : item.value? .decaystate = none) : item.dueTime = none := by
  unfold dueTime getDecaying
  rw [getInteger_eq, hstate]
  rfl

theorem dueTime_of_state (h : item.getDecaying = DECAYING_TRUE) :
    item.dueTime = some (item.getAttribute int64_t .duration_timestamp) := if_pos h

theorem getDecaying_of_dueTime {t : Int} (h : item.dueTime = some t) : item.getDecaying = DECAYING_TRUE := by
  by_contra hstate
  unfold dueTime at h
  rw [if_neg hstate] at h
  cases h

/-- A timestamp that is not zero is an attribute of the item. -/
theorem hasAttribute_of_dueTime {t : Int} (h : item.dueTime = some t) (ht : 0 < t) :
    item.hasAttribute .duration_timestamp = true ∧ item.getAttribute int64_t .duration_timestamp = t := by
  unfold dueTime at h
  split_ifs at h
  obtain rfl := Option.some.inj h
  refine ⟨?_, rfl⟩
  rw [hasAttribute_eq]
  unfold getAttribute at ht
  rw [getInteger_eq] at ht
  cases hv : item.value? .duration_timestamp with
  | none =>
    rw [hv] at ht
    exact absurd ht (by decide)
  | some v => rfl

theorem nodup_setAttribute (h : item.types.Nodup) (type : AttributeType) (n : Int) : (item.setAttribute type n).types.Nodup := by
  unfold types
  rw [setAttribute_vector]
  split_ifs
  · exact ItemAttribute.nodup_write h _ _
  · exact h

theorem nodup_setDecaying (h : item.types.Nodup) (decayState : UInt8) : (item.setDecaying decayState).types.Nodup := by
  have hset := nodup_setAttribute h .decaystate decayState.toNat
  unfold setDecaying
  dsimp only
  split_ifs
  · exact nodup_removeAttribute hset _
  · exact hset

theorem value?_setDecaying_false (h : item.types.Nodup) :
    (item.setDecaying DECAYING_FALSE).value? .decaystate = some (.integer DECAYING_FALSE.toNat) ∧
      (item.setDecaying DECAYING_FALSE).value? .duration_timestamp = none := by
  have hset := nodup_setAttribute h .decaystate DECAYING_FALSE.toNat
  unfold setDecaying
  dsimp only
  rw [if_pos rfl, value?_removeAttribute hset, value?_removeAttribute hset, if_neg (by decide), if_pos rfl, value?_setAttribute,
    if_pos ⟨rfl, rfl⟩]
  exact ⟨rfl, rfl⟩

/-- An item that starts to decay is due at its timestamp. -/
theorem dueTime_start (item : Item) {t : Int} (ht : int64_t.InRange t) :
    ((item.setDecaying DECAYING_TRUE).setAttribute .duration_timestamp t).dueTime = some t := by
  have hstate : ((item.setDecaying DECAYING_TRUE).setAttribute .duration_timestamp t).value? .decaystate =
      some (.integer DECAYING_TRUE.toNat) := by
    unfold setDecaying
    rw [if_neg (by decide), value?_setAttribute, if_neg (by decide), value?_setAttribute, if_pos ⟨rfl, rfl⟩]
  rw [dueTime_eq hstate (by rw [value?_setAttribute, if_pos ⟨rfl, rfl⟩]), (int64_t.cast_eq_iff t).mpr ht]

end Item

namespace Decay
variable {s s' : Decay} {item r : Ref} {k : Int}

/-- The item is registered exactly when it is decaying, under its timestamp, and `checkDecay` comes in time. -/
structure Inv (s : Decay) : Prop where
  types : ∀ r, (s.item r).types.Nodup
  sorted : SortedMap.Sorted s.decayMap
  filled : ∀ b ∈ s.decayMap, b.2 ≠ []
  nodup : (Buckets.elements s.decayMap).Nodup
  due : ∀ k r, (k, r) ∈ Buckets.entries s.decayMap ↔ (s.item r).dueTime = some k
  later : ∀ e ∈ Buckets.entries s.decayMap, 0 < e.1 ∧ e.1 < s.OTSYS_TIME.1 + 2 ^ 31
  event : ∀ e ∈ Buckets.entries s.decayMap, ∃ event ∈ s.events, event ≤ e.1 + SCHEDULER_MINTICKS

theorem item_modify (s : Decay) (item : Ref) (f : Item → Item) (r : Ref) :
    (s.modify item f).item r = if r = item then f (s.item item) else s.item r := Function.update_apply ..

/-- Only the item itself was changed, and it is not decaying any more. -/
structure Released (s : Decay) (item : Ref) (s' : Decay) : Prop where
  types : (s'.item item).types.Nodup
  dueTime : (s'.item item).dueTime = none
  others : ∀ r, r ≠ item → s'.item r = s.item r
  decayMap : s'.decayMap = s.decayMap
  events : s'.events = s.events
  clock : s'.OTSYS_TIME = s.OTSYS_TIME

theorem released_modify (s : Decay) {item : Ref} {f : Item → Item} (ht : (f (s.item item)).types.Nodup)
    (hd : (f (s.item item)).dueTime = none) : Released s item (s.modify item f) := by
  refine ⟨?_, ?_, fun r hr => ?_, rfl, rfl, rfl⟩
  · rwa [item_modify, if_pos rfl]
  · rwa [item_modify, if_pos rfl]
  · rw [item_modify, if_neg hr]

theorem Released.modify (h : Released s item s') {f : Item → Item} (ht : (f (s'.item item)).types.Nodup)
    (hd : (f (s'.item item)).dueTime = none) : Released s item (s'.modify item f) := by
  have hmodify := released_modify s' ht hd
  refine ⟨hmodify.types, hmodify.dueTime, fun r hr => ?_, h.decayMap, h.events, h.clock⟩
  exact (hmodify.others r hr).trans (h.others r hr)

theorem restore_released (ht : (s.item item).types.Nodup) : Released s item (s.restore item) := by
  unfold restore
  dsimp only
  split_ifs
  · have hset : ((s.item item).setDuration (s.getDuration item)).types.Nodup := nodup_setAttribute ht _ _
    have hitem : (s.modify item (·.setDuration (s.getDuration item))).item item =
        (s.item item).setDuration (s.getDuration item) := by
      rw [item_modify, if_pos rfl]
    have hreleased := @released_modify (s.modify item (·.setDuration (s.getDuration item))) item
      (f := (·.removeAttribute .decaystate)) (by rw [hitem]; exact nodup_removeAttribute hset _)
      (by rw [hitem]; exact dueTime_of_none (by rw [value?_removeAttribute hset, if_pos rfl]))
    refine ⟨hreleased.types, hreleased.dueTime, fun r hr => ?_, rfl, rfl, rfl⟩
    rw [hreleased.others r hr, item_modify, if_neg hr]
  · exact released_modify s (nodup_removeAttribute ht _) (dueTime_of_none (by rw [value?_removeAttribute ht, if_pos rfl]))

theorem decayItem_released (items : UInt16 → ItemType) (world : DecayWorld) (ht : (s.item item).types.Nodup) :
    Released s item (s.decayItem items world item) := by
  have hfalse := value?_setDecaying_false ht
  have hnodup := nodup_setDecaying ht DECAYING_FALSE
  have hstop := released_modify s (f := (·.setDecaying DECAYING_FALSE)) hnodup (dueTime_of_false hfalse.1)
  have hitem : (s.modify item (·.setDecaying DECAYING_FALSE)).item item = (s.item item).setDecaying DECAYING_FALSE := by
    rw [item_modify, if_pos rfl]
  unfold decayItem internalDecayItem
  split_ifs
  · have hset : ((s.item item).setDuration (s.getDuration item)).types.Nodup := nodup_setAttribute ht _ _
    exact released_modify s (nodup_setDecaying hset _) (dueTime_of_false (value?_setDecaying_false hset).1)
  · -- The timestamp is gone, so the registry is not asked again.
    unfold gameStopDecay
    rw [hitem, hasAttribute_eq, hasAttribute_eq, hfalse.1, hfalse.2, Option.isSome_some, Option.isSome_none,
      if_pos rfl, if_neg (by decide)]
    refine hstop.modify ?_ ?_
    · rw [hitem]
      exact nodup_removeAttribute hnodup _
    · rw [hitem]
      exact dueTime_of_none (by rw [value?_removeAttribute hnodup, if_pos rfl])
  · exact hstop

/-! ### `stopDecay` -/

/-- An entry that is taken out together with what its item remembers. -/
theorem Inv.take (h : Inv s) (hr : Released s item s') {m : List (Int × List Ref)}
    (hm : (Buckets.entries s.decayMap).Perm ((k, item) :: Buckets.entries m)) (hsorted : SortedMap.Sorted m)
    (hfilled : ∀ b ∈ m, b.2 ≠ []) : Inv { s' with decayMap := m } := by
  have hnodup := (hm.map Prod.snd).nodup_iff.mp (by rw [Buckets.map_entries]; exact h.nodup)
  rw [List.map_cons, Buckets.map_entries, List.nodup_cons] at hnodup
  have hsub : ∀ e ∈ Buckets.entries m, e ∈ Buckets.entries s.decayMap := fun e he =>
    hm.mem_iff.mpr (List.mem_cons_of_mem _ he)
  refine ⟨fun r => ?_, hsorted, hfilled, hnodup.2, fun k' r => ?_, fun e he => ?_, fun e he => ?_⟩
  · by_cases hitem : r = item
    · exact hitem ▸ hr.types
    · exact (hr.others r hitem) ▸ h.types r
  · by_cases hitem : r = item
    · subst hitem
      rw [hr.dueTime]
      refine iff_of_false (fun he => hnodup.1 ?_) nofun
      rw [← Buckets.map_entries]
      exact List.mem_map.mpr ⟨_, he, rfl⟩
    · change _ ↔ (s'.item r).dueTime = some k'
      rw [hr.others r hitem, ← h.due, hm.mem_iff, List.mem_cons]
      refine (or_iff_right fun heq => hitem ?_).symm
      exact (Prod.mk.inj heq).2
  · change 0 < e.1 ∧ e.1 < s'.OTSYS_TIME.1 + 2 ^ 31
    rw [hr.clock]
    exact h.later e (hsub e he)
  · change ∃ event ∈ s'.events, _
    rw [hr.events]
    exact h.event e (hsub e he)

/-- `stopDecay` finds an item that is due at the time, and leaves any other one. -/
theorem Inv.stopDecay (h : Inv s) (item : Ref) (timestamp : Int) :
    Inv (s.stopDecay item timestamp) ∧ (s.stopDecay item timestamp).OTSYS_TIME = s.OTSYS_TIME ∧
      ((∀ t, (s.item item).dueTime = some t → t = timestamp) → ((s.stopDecay item timestamp).item item).dueTime = none) := by
  have hreleased := restore_released (h.types item)
  have hkey : ∀ xs, s.decayMap.lookup timestamp = some xs → ((s.item item).dueTime = some timestamp ↔ item ∈ xs) := by
    intro xs hlookup
    rw [← h.due, Buckets.mem_entries]
    refine ⟨fun ⟨ys, hys, hitem⟩ => ?_, fun hitem => ?_⟩
    · obtain rfl := Option.some.inj ((Buckets.lookup_of_mem h.sorted hys).symm.trans hlookup)
      exact hitem
    · obtain ⟨l, r, hsplit, -, -⟩ := Buckets.split_of_lookup h.sorted hlookup
      exact ⟨xs, by rw [hsplit]; simp, hitem⟩
  have hsame : (s.item item).dueTime ≠ some timestamp → Inv s ∧ s.OTSYS_TIME = s.OTSYS_TIME ∧
      ((∀ t, (s.item item).dueTime = some t → t = timestamp) → (s.item item).dueTime = none) := by
    refine fun hne => ⟨h, rfl, fun hall => ?_⟩
    exact Option.eq_none_iff_forall_ne_some.mpr fun t ht => hne (hall t ht ▸ ht)
  unfold Decay.stopDecay
  split_ifs with hpos
  · refine hsame fun heq => ?_
    have := (h.later _ ((h.due timestamp item).mpr heq)).1
    omega
  · cases hlookup : s.decayMap.lookup timestamp with
    | none =>
      refine hsame fun heq => ?_
      obtain ⟨xs, hmem, -⟩ := Buckets.mem_entries.mp ((h.due timestamp item).mpr heq)
      rw [Buckets.lookup_of_mem h.sorted hmem] at hlookup
      cases hlookup
    | some xs =>
      obtain ⟨l, r, hsplit, hinsert, herase⟩ := Buckets.split_of_lookup h.sorted hlookup
      dsimp only
      split_ifs with hone hhead
      · obtain ⟨a, rfl⟩ := List.length_eq_one_iff.mp hone
        obtain rfl := Option.some.inj hhead
        refine ⟨h.take hreleased (Buckets.entries_erase h.sorted hlookup) (Buckets.Sorted.erase h.sorted _) ?_,
          hreleased.clock, fun _ => hreleased.dueTime⟩
        exact fun b hb => h.filled b (List.mem_of_mem_filter hb)
      · refine hsame fun heq => hhead ?_
        obtain ⟨a, rfl⟩ := List.length_eq_one_iff.mp hone
        obtain rfl := List.mem_singleton.mp ((hkey _ hlookup).mp heq)
        rfl
      · cases hfind : xs.findIdx? (fun a => a = item) with
        | none =>
          refine hsame fun heq => ?_
          simpa using List.findIdx?_eq_none_iff.mp hfind item ((hkey _ hlookup).mp heq)
        | some i =>
          cases hback : xs.getLast? with
          | none =>
            rw [List.getLast?_eq_none_iff.mp hback] at hfind
            cases hfind
          | some back =>
            have hxs : xs.Nodup := by
              have hnodup := h.nodup
              rw [hsplit] at hnodup
              unfold Buckets.elements at hnodup
              rw [List.flatMap_append, List.flatMap_cons] at hnodup
              exact (List.nodup_append.mp (List.nodup_append.mp hnodup).2.1).1
            have hmem : item ∈ xs := by
              obtain ⟨hlt, hitem, -⟩ := List.findIdx?_eq_some_iff_getElem.mp hfind
              exact (of_decide_eq_true hitem) ▸ List.getElem_mem hlt
            have hrest : ((xs.set i back).dropLast).Perm (xs.filter fun a => a ≠ item) :=
              @perm_swapRemove _ _ _ (fun a => a) _ _ (by rwa [List.map_id']) i hfind back hback
            have hperm : xs.Perm (item :: (xs.set i back).dropLast) := by
              refine (List.perm_cons_erase hmem).trans (.cons _ ?_)
              rw [hxs.erase_eq_filter]
              simpa [bne, Bool.beq_eq_decide_eq] using hrest.symm
            refine ⟨h.take hreleased (Buckets.entries_insert h.sorted hlookup hperm) (h.sorted.insert _ _) ?_,
              hreleased.clock, fun _ => hreleased.dueTime⟩
            rw [hinsert]
            intro b hb hnil
            rcases List.mem_append.mp hb with hb | hb
            · exact h.filled b (by rw [hsplit]; exact List.mem_append_left _ hb) hnil
            · rcases List.mem_cons.mp hb with rfl | hb
              · have hlength := hperm.length_eq
                rw [show (xs.set i back).dropLast = [] from hnil] at hlength
                exact hone hlength
              · exact h.filled b (by rw [hsplit]; exact List.mem_append_right _ (List.mem_cons_of_mem _ hb)) hnil

/-! ### `startDecay` -/

theorem Inv.schedule (h : Inv s) (delay : Int) : Inv (s.scheduleEvent delay) := by
  refine ⟨h.types, h.sorted, h.filled, h.nodup, h.due, h.later, fun e he => ?_⟩
  obtain ⟨event, hevent, hle⟩ := h.event e he
  exact ⟨event, List.mem_cons_of_mem _ hevent, hle⟩

/-- An item that is not decaying is registered, with an event in time. -/
theorem Inv.push (h : Inv s) (hitem : (s.item item).dueTime = none) {t : Int}
    (ht : 0 < t ∧ t < s.OTSYS_TIME.1 + 2 ^ 31) (hevent : ∃ event ∈ s.events, event ≤ t + SCHEDULER_MINTICKS) :
    Inv { s.modify item fun it => (it.setDecaying DECAYING_TRUE).setAttribute .duration_timestamp t with
      decayMap := Buckets.push t item s.decayMap } := by
  have hperm := Buckets.entries_push h.sorted t item
  have hrange : int64_t.InRange t := inRange_int64.mpr (by have := s.OTSYS_TIME.2; omega)
  have hnotin : item ∉ Buckets.elements s.decayMap := by
    rw [← Buckets.map_entries]
    intro hmem
    obtain ⟨⟨k, r⟩, hk, rfl⟩ := List.mem_map.mp hmem
    rw [(h.due k r).mp hk] at hitem
    cases hitem
  refine ⟨fun r => ?_, h.sorted.insert _ _, fun b hb => ?_, ?_, fun k r => ?_, fun e he => ?_, fun e he => ?_⟩
  · rw [item_modify]
    split_ifs
    · exact nodup_setAttribute (nodup_setDecaying (h.types item) _) _ _
    · exact h.types r
  · rcases SortedMap.mem_insert hb with rfl | hb
    · exact List.append_ne_nil_of_right_ne_nil _ (List.cons_ne_nil _ _)
    · exact h.filled b hb
  · rw [← Buckets.map_entries, (hperm.map Prod.snd).nodup_iff, List.map_cons, Buckets.map_entries]
    exact List.nodup_cons.mpr ⟨hnotin, h.nodup⟩
  · change (k, r) ∈ Buckets.entries (Buckets.push t item s.decayMap) ↔ _
    rw [hperm.mem_iff, List.mem_cons, item_modify]
    split_ifs with hr
    · subst hr
      rw [dueTime_start _ hrange]
      have hno : (k, r) ∉ Buckets.entries s.decayMap := fun hmem => hnotin (by
        rw [← Buckets.map_entries]
        exact List.mem_map.mpr ⟨_, hmem, rfl⟩)
      simp [hno, eq_comm]
    · rw [h.due]
      exact or_iff_right fun heq => hr (Prod.mk.inj heq).2
  · rcases List.mem_cons.mp (hperm.mem_iff.mp he) with rfl | he
    · exact ht
    · exact h.later e he
  · rcases List.mem_cons.mp (hperm.mem_iff.mp he) with rfl | he
    · exact hevent
    · exact h.event e he

/-- What `startDecay` does with an item that is not decaying. -/
theorem Inv.register (h : Inv s) (hitem : (s.item item).dueTime = none) {duration : Int} (hpos : 0 < duration)
    (hlt : duration < 2 ^ 31) :
    Inv (
      let timestamp := s.OTSYS_TIME.1 + duration
      let s :=
        match s.decayMap with
        | [] => s.scheduleEvent (max SCHEDULER_MINTICKS duration)
        | begin :: _ => if timestamp < begin.1 then s.scheduleEvent (max SCHEDULER_MINTICKS duration) else s
      let s := s.modify item fun it => (it.setDecaying DECAYING_TRUE).setAttribute .duration_timestamp timestamp
      { s with decayMap := Buckets.push timestamp item s.decayMap }) := by
  have htime := s.OTSYS_TIME.2
  have hlater : 0 < s.OTSYS_TIME.1 + duration ∧ s.OTSYS_TIME.1 + duration < s.OTSYS_TIME.1 + 2 ^ 31 := by omega
  have hevent : s.OTSYS_TIME.1 + max SCHEDULER_MINTICKS duration ≤ s.OTSYS_TIME.1 + duration + SCHEDULER_MINTICKS := by
    unfold SCHEDULER_MINTICKS
    omega
  have hnew := (h.schedule (max SCHEDULER_MINTICKS duration)).push hitem hlater ⟨_, List.mem_cons_self, hevent⟩
  dsimp only
  cases hmap : s.decayMap with
  | nil =>
    dsimp only
    exact hnew
  | cons begin m =>
    dsimp only
    split_ifs with hfirst
    · exact hnew
    · -- The event for the first key comes in time for this one.
      refine h.push hitem hlater ?_
      obtain ⟨r, hr⟩ := List.exists_mem_of_ne_nil _ (h.filled begin (hmap ▸ List.mem_cons_self))
      obtain ⟨event, hmem, hle⟩ := h.event (begin.1, r) (Buckets.mem_entries.mpr ⟨begin.2, hmap ▸ List.mem_cons_self, hr⟩)
      exact ⟨event, hmem, by dsimp only at hle; omega⟩

theorem Inv.startDecay (h : Inv s) (item : Ref) (duration : Int32) : Inv (s.startDecay item duration) := by
  unfold Decay.startDecay
  by_cases hpos : duration ≤ 0
  · rw [if_pos hpos]
    exact h
  · have hpos' : 0 < duration.toInt := Int.not_le.mp (Int32.le_iff_toInt_le.not.mp hpos)
    rw [if_neg hpos]
    by_cases hattr : (s.item item).hasAttribute .duration_timestamp = true
    · obtain ⟨hinv, -, hnone⟩ := h.stopDecay item ((s.item item).getAttribute int64_t .duration_timestamp)
      rw [if_pos hattr]
      refine hinv.register (hnone fun t ht => ?_) hpos' duration.toInt_lt
      exact (hasAttribute_of_dueTime ht (h.later _ ((h.due t item).mpr ht)).1).2.symm
    · rw [if_neg hattr]
      refine h.register (Option.eq_none_iff_forall_ne_some.mpr fun t ht => hattr ?_) hpos' duration.toInt_lt
      exact (hasAttribute_of_dueTime ht (h.later _ ((h.due t item).mpr ht)).1).1

/-! ### `checkDecay` -/

/-- The items of the list are not decaying any more, and nothing else was changed. -/
theorem foldl_decayItem (items : UInt16 → ItemType) (world : DecayWorld) (l : List Ref) (s : Decay)
    (ht : ∀ r, (s.item r).types.Nodup) :
    (∀ r, ((l.foldl (decayItem items world) s).item r).types.Nodup) ∧
      (∀ r ∈ l, ((l.foldl (decayItem items world) s).item r).dueTime = none) ∧
      (∀ r, r ∉ l → (l.foldl (decayItem items world) s).item r = s.item r) ∧
      (l.foldl (decayItem items world) s).decayMap = s.decayMap ∧
      (l.foldl (decayItem items world) s).events = s.events ∧
      (l.foldl (decayItem items world) s).OTSYS_TIME = s.OTSYS_TIME := by
  induction l generalizing s with
  | nil => exact ⟨ht, nofun, fun _ _ => rfl, rfl, rfl, rfl⟩
  | cons a l ih =>
    have hr := decayItem_released items world (ht a)
    have ht' : ∀ r, ((s.decayItem items world a).item r).types.Nodup := fun r => by
      by_cases hra : r = a
      · exact hra ▸ hr.types
      · exact (hr.others r hra) ▸ ht r
    obtain ⟨htypes, hnone, hothers, hmap, hevents, hclock⟩ := ih (s.decayItem items world a) ht'
    refine ⟨htypes, fun r hmem => ?_, fun r hmem => ?_, hmap.trans hr.decayMap, hevents.trans hr.events,
      hclock.trans hr.clock⟩
    · by_cases hl : r ∈ l
      · exact hnone r hl
      · obtain rfl := (List.mem_cons.mp hmem).resolve_right hl
        exact (congrArg dueTime (hothers r hl)).trans hr.dueTime
    · rw [List.mem_cons, not_or] at hmem
      exact (hothers r hmem.2).trans (hr.others r hmem.1)

theorem gt_of_mem_dropWhile {m : List (Int × List Ref)} (hm : SortedMap.Sorted m) {now : Int} {b : Int × List Ref}
    (hb : b ∈ m.dropWhile (·.1 ≤ now)) : now < b.1 := by
  induction m with
  | nil => exact absurd hb List.not_mem_nil
  | cons a m ih =>
    obtain ⟨ha, hm⟩ := List.pairwise_cons.mp hm
    by_cases hle : a.1 ≤ now
    · rw [List.dropWhile_cons_of_pos (by simpa using hle)] at hb
      exact ih hm hb
    · rw [List.dropWhile_cons_of_neg (by simpa using hle)] at hb
      rcases List.mem_cons.mp hb with rfl | hb
      · exact Int.not_le.mp hle
      · exact (Int.not_le.mp hle).trans (ha b hb)

/-- The registry after the items of the first keys were released. -/
theorem Inv.rest (h : Inv s) {due rest : List (Int × List Ref)} (hsplit : s.decayMap = due ++ rest)
    (htypes : ∀ r, (s'.item r).types.Nodup) (hnone : ∀ r ∈ Buckets.elements due, (s'.item r).dueTime = none)
    (hothers : ∀ r, r ∉ Buckets.elements due → s'.item r = s.item r) (hclock : s'.OTSYS_TIME = s.OTSYS_TIME)
    (hmap : s'.decayMap = rest) (hevent : ∀ e ∈ Buckets.entries rest, ∃ event ∈ s'.events, event ≤ e.1 + SCHEDULER_MINTICKS) :
    Inv s' := by
  have hsorted := h.sorted
  have hnodup := h.nodup
  rw [hsplit] at hsorted hnodup
  unfold Buckets.elements at hnodup
  rw [List.flatMap_append] at hnodup
  obtain ⟨-, hrest, hdisjoint⟩ := List.nodup_append.mp hnodup
  have hentries : Buckets.entries s.decayMap = Buckets.entries due ++ Buckets.entries rest := by
    rw [hsplit, Buckets.entries_append]
  have hsub : ∀ e ∈ Buckets.entries rest, e ∈ Buckets.entries s.decayMap := fun e he => by
    rw [hentries]
    exact List.mem_append_right _ he
  have helements : ∀ {m : List (Int × List Ref)} {k r}, (k, r) ∈ Buckets.entries m → r ∈ Buckets.elements m := by
    intro m k r he
    rw [← Buckets.map_entries]
    exact List.mem_map.mpr ⟨_, he, rfl⟩
  subst hmap
  refine ⟨htypes, hsorted.sublist (List.sublist_append_right ..), fun b hb => ?_, hrest, fun k r => ?_, fun e he => ?_, hevent⟩
  · exact h.filled b (by rw [hsplit]; exact List.mem_append_right _ hb)
  · by_cases hr : r ∈ Buckets.elements due
    · rw [hnone r hr]
      exact iff_of_false (fun he => hdisjoint r hr r (helements he) rfl) nofun
    · rw [hothers r hr, ← h.due, hentries, List.mem_append]
      exact (or_iff_right fun he => hr (helements he)).symm
  · rw [hclock]
    exact h.later e (hsub e he)

/-- Those that are due are released, and the others wait for the event of the first of them. -/
theorem Inv.checkDecay (h : Inv s) (items : UInt16 → ItemType) (world : DecayWorld) (event : Int) :
    Inv (s.checkDecay items world event) ∧
      ∀ e ∈ Buckets.entries (s.checkDecay items world event).decayMap, s.OTSYS_TIME.1 < e.1 := by
  have hsplit : s.decayMap = s.decayMap.takeWhile (·.1 ≤ s.OTSYS_TIME.1) ++ s.decayMap.dropWhile (·.1 ≤ s.OTSYS_TIME.1) :=
    List.takeWhile_append_dropWhile.symm
  have hgt : ∀ b ∈ s.decayMap.dropWhile (·.1 ≤ s.OTSYS_TIME.1), s.OTSYS_TIME.1 < b.1 := fun b hb =>
    gt_of_mem_dropWhile h.sorted hb
  have hsorted := h.sorted
  rw [hsplit] at hsorted
  have hfirst := (List.pairwise_append.mp hsorted).2.1
  unfold Decay.checkDecay
  dsimp only
  generalize s.decayMap.takeWhile (·.1 ≤ s.OTSYS_TIME.1) = due at *
  generalize s.decayMap.dropWhile (·.1 ≤ s.OTSYS_TIME.1) = rest at *
  obtain ⟨htypes, hnone, hothers, hmap, -, hclock⟩ := foldl_decayItem items world (Buckets.elements due)
    { s with decayMap := rest, events := s.events.erase event } h.types
  cases rest with
  | nil =>
    refine ⟨h.rest hsplit htypes hnone hothers hclock hmap nofun, fun e he => ?_⟩
    dsimp only at he
    rw [hmap] at he
    exact absurd he List.not_mem_nil
  | cons it rest =>
    have hit := hgt it List.mem_cons_self
    -- The first key is at most a duration away.
    obtain ⟨r, hr⟩ := List.exists_mem_of_ne_nil _ (h.filled it (by rw [hsplit]; simp))
    have hlater := h.later (it.1, r) (Buckets.mem_entries.mpr ⟨it.2, by rw [hsplit]; simp, hr⟩)
    have hcast : int32_t.cast (it.1 - s.OTSYS_TIME.1) = it.1 - s.OTSYS_TIME.1 :=
      (int32_t.cast_eq_iff _).mpr (inRange_int32.mpr (by omega))
    refine ⟨h.rest hsplit htypes hnone hothers hclock hmap fun e he => ?_, fun e he => ?_⟩
    · refine ⟨_, List.mem_cons_self, ?_⟩
      have hle : it.1 ≤ e.1 := by
        obtain ⟨xs, hmem, -⟩ := Buckets.mem_entries.mp he
        rcases List.mem_cons.mp hmem with heq | hmem
        · exact (congrArg Prod.fst heq).ge
        · exact ((List.pairwise_cons.mp hfirst).1 _ hmem).le
      rw [hclock, hcast]
      unfold SCHEDULER_MINTICKS
      dsimp only
      omega
    · obtain ⟨xs, hmem, -⟩ := Buckets.mem_entries.mp he
      exact hgt _ (hmap ▸ hmem)

/-! ### Runs -/

theorem inv_step (h : Inv s) (items : UInt16 → ItemType) (call : Call) : Inv (step items s call) := by
  cases call with
  | startDecay item duration => exact h.startDecay item duration
  | stopDecay item timestamp => exact (h.stopDecay item timestamp.toInt).1
  | checkDecay event world => exact (h.checkDecay items world event).1
  | clock time =>
    unfold Decay.step
    dsimp only
    split_ifs with hle
    · refine ⟨h.types, h.sorted, h.filled, h.nodup, h.due, fun e he => ?_, h.event⟩
      have := h.later e he
      dsimp only
      omega
    · exact h

/-- Nothing is registered, and no item is decaying. -/
structure Initial (s : Decay) : Prop where
  types : ∀ r, (s.item r).types.Nodup
  state : ∀ r, (s.item r).getDecaying ≠ DECAYING_TRUE
  decayMap : s.decayMap = []

theorem Initial.inv (h : Initial s) : Inv s := by
  have hmap := h.decayMap
  refine ⟨h.types, ?_, ?_, ?_, fun k r => ?_, ?_, ?_⟩
  · rw [hmap]
    exact List.Pairwise.nil
  · rw [hmap]
    exact nofun
  · rw [hmap]
    exact List.nodup_nil
  · rw [hmap]
    unfold dueTime
    rw [if_neg (h.state r)]
    exact iff_of_false nofun nofun
  · rw [hmap]
    exact nofun
  · rw [hmap]
    exact nofun

/-- Each item is registered at most once, exactly while its state says that it is decaying, and under its timestamp;
`checkDecay` is scheduled for the first key. -/
structure Registered (s : Decay) : Prop where
  once : (Buckets.elements s.decayMap).Nodup
  decaying : ∀ item, item ∈ Buckets.elements s.decayMap ↔ (s.item item).getDecaying = DECAYING_TRUE
  timestamp : ∀ key decayItems item, (key, decayItems) ∈ s.decayMap → item ∈ decayItems →
    (s.item item).hasAttribute .duration_timestamp = true ∧
      (s.item item).getAttribute int64_t .duration_timestamp = key
  scheduled : ∀ begin rest, s.decayMap = begin :: rest →
    (∀ b ∈ rest, begin.1 < b.1) ∧ ∃ event ∈ s.events, event ≤ begin.1 + SCHEDULER_MINTICKS

theorem Inv.registered (h : Inv s) : Registered s := by
  refine ⟨h.nodup, fun item => ?_, fun key decayItems item hmem hitem => ?_, fun begin rest hmap => ⟨fun b hb => ?_, ?_⟩⟩
  · rw [← Buckets.map_entries]
    constructor
    · intro hmem
      obtain ⟨⟨k, r⟩, hk, rfl⟩ := List.mem_map.mp hmem
      exact getDecaying_of_dueTime ((h.due k r).mp hk)
    · intro hstate
      exact List.mem_map.mpr ⟨_, (h.due _ item).mpr (dueTime_of_state hstate), rfl⟩
  · have hentry : (key, item) ∈ Buckets.entries s.decayMap := Buckets.mem_entries.mpr ⟨decayItems, hmem, hitem⟩
    exact hasAttribute_of_dueTime ((h.due key item).mp hentry) (h.later _ hentry).1
  · have hsorted := h.sorted
    rw [hmap] at hsorted
    exact (List.pairwise_cons.mp hsorted).1 b hb
  · have hbegin : begin ∈ s.decayMap := hmap ▸ List.mem_cons_self
    obtain ⟨r, hr⟩ := List.exists_mem_of_ne_nil _ (h.filled begin hbegin)
    exact h.event (begin.1, r) (Buckets.mem_entries.mpr ⟨begin.2, hbegin, hr⟩)

theorem inv_run (h : Inv s) (items : UInt16 → ItemType) (calls : List Call) : Inv (run (step items) s calls) := by
  induction calls generalizing s with
  | nil => exact h
  | cons call calls ih => exact ih (inv_step h items call)

/-- In every run the registry and the items agree; `stopDecay` finds each item that is decaying, and `checkDecay` leaves none
that is due. -/
theorem registered_run (items : UInt16 → ItemType) (s : Decay) (calls : List Call) (h : Initial s) :
    let s' := run (step items) s calls
    Registered s' ∧
      (∀ item, (s'.item item).getDecaying = DECAYING_TRUE →
        let after := s'.stopDecay item ((s'.item item).getAttribute int64_t .duration_timestamp)
        (after.item item).getDecaying ≠ DECAYING_TRUE ∧ item ∉ Buckets.elements after.decayMap) ∧
      ∀ event world item, ((s'.checkDecay items world event).item item).getDecaying = DECAYING_TRUE →
        s'.OTSYS_TIME.1 < ((s'.checkDecay items world event).item item).getAttribute int64_t .duration_timestamp := by
  have hinv := inv_run h.inv items calls
  generalize run (step items) s calls = s' at hinv
  refine ⟨hinv.registered, fun item hstate => ?_, fun event world item hstate => ?_⟩
  · obtain ⟨hafter, -, hnone⟩ := hinv.stopDecay item ((s'.item item).getAttribute int64_t .duration_timestamp)
    have hnone := hnone fun t ht => Option.some.inj (ht.symm.trans (dueTime_of_state hstate))
    have hstopped : ((s'.stopDecay item ((s'.item item).getAttribute int64_t .duration_timestamp)).item item).getDecaying ≠
        DECAYING_TRUE := fun hdecaying => by
      rw [dueTime_of_state hdecaying] at hnone
      cases hnone
    exact ⟨hstopped, fun hmem => hstopped ((hafter.registered.decaying item).mp hmem)⟩
  · obtain ⟨hafter, hlater⟩ := hinv.checkDecay items world event
    exact hlater _ ((hafter.due _ item).mpr (dueTime_of_state hstate))

def torchTypes (id : UInt16) : ItemType :=
  ⟨id, .none, false, 1, 50, 0, 10, 2921, false, true, true, false, false, false, .none, 0, ItemType.plain_none false⟩

def unlit : Decay := ⟨[], fun _ => make torchTypes 2920 1, [], ⟨1000000, by decide⟩⟩

def lightTwo : List Call :=
  [.startDecay 1 10000, .startDecay 2 5000, .clock ⟨1006000, by decide⟩,
    .checkDecay 1005000 ⟨fun _ => false, fun _ => false, fun _ => true⟩]

/-- Of two torches that were lit, the one that burns longer is still registered after the other one went out. -/
theorem registered_run_torches :
    Registered (run (step torchTypes) unlit lightTwo) ∧
      1 ∉ Buckets.elements ((run (step torchTypes) unlit lightTwo).stopDecay 1
        (((run (step torchTypes) unlit lightTwo).item 1).getAttribute int64_t .duration_timestamp)).decayMap := by
  have hinitial : Initial unlit := 
    ⟨fun _ => (by decide : (make torchTypes 2920 1).types.Nodup),
      fun _ => (by decide : (make torchTypes 2920 1).getDecaying ≠ DECAYING_TRUE), rfl⟩
  obtain ⟨hregistered, hstop, -⟩ := registered_run torchTypes unlit lightTwo hinitial
  exact ⟨hregistered, (hstop 1 (by decide)).2⟩

end Decay
end CrystalServer
