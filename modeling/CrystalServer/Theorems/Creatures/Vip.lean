import CrystalServer.Creatures.Vip
import CrystalServer.Lib.Run

/-! # VIP lists in memory and in the database

An edit takes the memberships of a player out of the database, and not out of memory: the two agree just as long as each edit
names every group that the player is in. A login numbers the groups anew, which is the same as long as their ids have no gap. -/

namespace CrystalServer.Vip
open Lib PlayerVIP
variable {maxEntries : Nat} {s : State} {guid : UInt32} {id : UInt8} {groups : List VIPGroup}

/-! ### Agreement -/

def VIPGroup.entry (g : VIPGroup) : VIPGroupEntry := ⟨g.id, g.name, g.customizable⟩

/-- A player is in a group in memory. -/
def In (groups : List VIPGroup) (guid : UInt32) (id : UInt8) : Prop := ∃ g ∈ groups, g.id = id ∧ guid ∈ g.vipGroupGuids

/-- The rows are what is in memory. -/
structure Agrees (s : State) : Prop where
  ids : (s.vip.vipGroups.map VIPGroup.id).Nodup
  listed : ∀ guid, guid ∈ s.vip.vipGuids ↔ guid ∈ s.tables.viplist.map VIPEntry.guid
  groups : s.tables.vipgroups = s.vip.vipGroups.map VIPGroup.entry
  members : ∀ guid id, (guid, id) ∈ s.tables.vipgrouplist ↔ In s.vip.vipGroups guid id

/-- The listed players are those of the rows, and each is in the groups that there are rows for. -/
structure Shows (s : State) : Prop where
  listed : ∀ guid, guid ∈ s.vip.vipGuids ↔ guid ∈ s.tables.viplist.map VIPEntry.guid
  belongs : ∀ guid ∈ s.vip.vipGuids, ∀ id, id ∈ getGroupsIdGuidBelongs guid s.vip ↔
    id ∈ s.vip.vipGroups.map VIPGroup.id ∧ (guid, id) ∈ s.tables.vipgrouplist

/-- An edit of a listed player names every group that the player is in. -/
def Whole (s : State) : Operation → Prop
  | .edit vipGuid _ _ _ groupsId =>
    vipGuid ∈ s.vip.vipGuids → ∀ id ∈ getGroupsIdGuidBelongs vipGuid s.vip, id ∈ groupsId
  | _ => True

theorem mem_getGroupsIdGuidBelongs {vip : PlayerVIP} : id ∈ getGroupsIdGuidBelongs guid vip ↔ In vip.vipGroups guid id := by
  unfold getGroupsIdGuidBelongs In
  simp only [List.mem_map, List.mem_filter, decide_eq_true_eq]
  constructor
  · rintro ⟨g, ⟨hg, hguid⟩, rfl⟩
    exact ⟨g, hg, rfl, hguid⟩
  · rintro ⟨g, hg, rfl, hguid⟩
    exact ⟨g, ⟨hg, hguid⟩, rfl⟩

theorem In.id_mem (h : In groups guid id) : id ∈ groups.map VIPGroup.id := by
  obtain ⟨g, hg, rfl, -⟩ := h
  exact List.mem_map_of_mem hg

theorem Agrees.shows (h : Agrees s) : Shows s := by
  refine ⟨h.listed, fun guid _ id => ?_⟩
  rw [mem_getGroupsIdGuidBelongs, h.members]
  exact ⟨fun hin => ⟨hin.id_mem, hin⟩, And.right⟩

/-! ### Joining groups -/

theorem entry_insertGuid (id : UInt8) (guid : UInt32) (groups : List VIPGroup) :
    (insertGuid id guid groups).map VIPGroup.entry = groups.map VIPGroup.entry := by
  induction groups with
  | nil => rfl
  | cons g groups ih =>
    unfold insertGuid
    split_ifs
    · rfl
    · rw [List.map_cons, List.map_cons, ih]

theorem map_id (groups : List VIPGroup) : groups.map VIPGroup.id = (groups.map VIPGroup.entry).map VIPGroupEntry.id := by
  rw [List.map_map]
  rfl

theorem id_insertGuid (id : UInt8) (guid : UInt32) (groups : List VIPGroup) :
    (insertGuid id guid groups).map VIPGroup.id = groups.map VIPGroup.id := by
  rw [map_id, entry_insertGuid, ← map_id]

/-- The player is in the group then, and nothing else changes. -/
theorem in_insertGuid (hids : (groups.map VIPGroup.id).Nodup) {guid' : UInt32} {id' : UInt8} :
    In (insertGuid id guid groups) guid' id' ↔
      In groups guid' id' ∨ guid' = guid ∧ id' = id ∧ id ∈ groups.map VIPGroup.id := by
  induction groups with
  | nil => simp [insertGuid, In]
  | cons g groups ih =>
    obtain ⟨hnot, hids⟩ := List.nodup_cons.mp hids
    have hcons (g : VIPGroup) (groups : List VIPGroup) : In (g :: groups) guid' id' ↔
        (g.id = id' ∧ guid' ∈ g.vipGroupGuids) ∨ In groups guid' id' := by
      unfold In
      simp only [List.mem_cons, exists_eq_or_imp]
    unfold insertGuid
    split_ifs with hid
    · subst hid
      rw [hcons, hcons, List.map_cons, List.mem_cons, Finset.mem_insert]
      tauto
    · rw [hcons, hcons, ih hids, List.map_cons, List.mem_cons]
      have hne : id ≠ g.id := fun h => hid h.symm
      tauto

/-- From one state to the other a player has joined the groups of some ids, in memory and in the rows. -/
structure Joins (guid : UInt32) (joined : List UInt8) (s t : State) : Prop where
  vipGuids : t.vip.vipGuids = s.vip.vipGuids
  entries : t.vip.vipGroups.map VIPGroup.entry = s.vip.vipGroups.map VIPGroup.entry
  viplist : t.tables.viplist = s.tables.viplist
  vipgroups : t.tables.vipgroups = s.tables.vipgroups
  members : ∀ guid' id, In t.vip.vipGroups guid' id ↔
    In s.vip.vipGroups guid' id ∨ guid' = guid ∧ id ∈ joined ∧ id ∈ s.vip.vipGroups.map VIPGroup.id
  rows : ∀ guid' id, (guid', id) ∈ t.tables.vipgrouplist ↔
    (guid', id) ∈ s.tables.vipgrouplist ∨ guid' = guid ∧ id ∈ joined ∧ id ∈ s.vip.vipGroups.map VIPGroup.id

theorem Joins.ids {joined : List UInt8} {t : State} (h : Joins guid joined s t) :
    t.vip.vipGroups.map VIPGroup.id = s.vip.vipGroups.map VIPGroup.id := by
  rw [map_id, h.entries, ← map_id]

theorem mem_addGuidVIPGroupEntry (groupId : UInt8) (guid : UInt32) (t : Tables) (row : UInt32 × UInt8) :
    row ∈ (IOLoginData.addGuidVIPGroupEntry groupId guid t).vipgrouplist ↔
      row ∈ t.vipgrouplist ∨ row = (guid, groupId) := by
  unfold IOLoginData.addGuidVIPGroupEntry
  split_ifs with hmem
  · refine ⟨.inl, ?_⟩
    rintro (h | rfl)
    · exact h
    · exact hmem
  · rw [List.mem_append, List.mem_singleton]

theorem joins_joinGroup (hids : (s.vip.vipGroups.map VIPGroup.id).Nodup) (guid : UInt32) (groupId : UInt8) :
    Joins guid [groupId] s (s.joinGroup guid groupId) := by
  unfold State.joinGroup
  cases hgroup : s.vip.getGroupByID groupId with
  | none =>
    have hnot : groupId ∉ s.vip.vipGroups.map VIPGroup.id := by
      intro hmem
      obtain ⟨g, hg, rfl⟩ := List.mem_map.mp hmem
      simpa using List.find?_eq_none.mp hgroup g hg
    have hnone (guid' : UInt32) (id : UInt8) :
        ¬(guid' = guid ∧ id ∈ [groupId] ∧ id ∈ s.vip.vipGroups.map VIPGroup.id) := by
      rintro ⟨-, hid, hmem⟩
      exact hnot (List.mem_singleton.mp hid ▸ hmem)
    exact ⟨rfl, rfl, rfl, rfl, fun guid' id => (or_iff_left (hnone guid' id)).symm,
      fun guid' id => (or_iff_left (hnone guid' id)).symm⟩
  | some group =>
    obtain rfl : group.id = groupId := by simpa using List.find?_some hgroup
    have hmem : group.id ∈ s.vip.vipGroups.map VIPGroup.id := List.mem_map_of_mem (List.mem_of_find?_eq_some hgroup)
    refine ⟨rfl, entry_insertGuid .., ?_, ?_, fun guid' id => ?_, fun guid' id => ?_⟩
    · dsimp only
      unfold IOLoginData.addGuidVIPGroupEntry
      split_ifs <;> rfl
    · dsimp only
      unfold IOLoginData.addGuidVIPGroupEntry
      split_ifs <;> rfl
    · dsimp only
      rw [addGuidToGroupInternal, in_insertGuid hids, List.mem_singleton]
      refine or_congr_right (and_congr_right fun _ => ?_)
      exact ⟨fun h => ⟨h.1, h.1 ▸ hmem⟩, fun h => ⟨h.1, hmem⟩⟩
    · dsimp only
      rw [mem_addGuidVIPGroupEntry, Prod.mk.injEq, List.mem_singleton]
      refine or_congr_right (and_congr_right fun _ => ?_)
      exact ⟨fun h => ⟨h, h ▸ hmem⟩, And.left⟩

theorem joins_foldl (hids : (s.vip.vipGroups.map VIPGroup.id).Nodup) (guid : UInt32) (joined : List UInt8) :
    Joins guid joined s (joined.foldl (State.joinGroup guid) s) := by
  induction joined generalizing s with
  | nil => exact ⟨rfl, rfl, rfl, rfl, fun _ _ => by simp, fun _ _ => by simp⟩
  | cons groupId joined ih =>
    have hone := joins_joinGroup hids guid groupId
    have hrest := ih (s := s.joinGroup guid groupId) (by rwa [hone.ids])
    refine ⟨hrest.vipGuids.trans hone.vipGuids, hrest.entries.trans hone.entries, hrest.viplist.trans hone.viplist,
      hrest.vipgroups.trans hone.vipgroups, fun guid' id => ?_, fun guid' id => ?_⟩
    · rw [List.foldl_cons, hrest.members, hone.members, hone.ids]
      simp only [List.mem_cons, List.not_mem_nil, or_false]
      tauto
    · rw [List.foldl_cons, hrest.rows, hone.rows, hone.ids]
      simp only [List.mem_cons, List.not_mem_nil, or_false]
      tauto

/-! ### The operations -/

/-- An edit of a listed player: the groups that it names are added in memory, and are all that there is in the rows. -/
theorem edit_spec (h : Agrees s) (hguid : guid ∈ s.vip.vipGuids) (description : String) (icon : UInt32) (notify : Bool)
    (groupsId : List UInt8) {t : State} (ht : t = s.edit guid description icon notify groupsId) :
    t.vip.vipGuids = s.vip.vipGuids ∧ t.vip.vipGroups.map VIPGroup.entry = s.vip.vipGroups.map VIPGroup.entry ∧
    t.tables.viplist.map VIPEntry.guid = s.tables.viplist.map VIPEntry.guid ∧ t.tables.vipgroups = s.tables.vipgroups ∧
    (∀ guid' id, In t.vip.vipGroups guid' id ↔
      In s.vip.vipGroups guid' id ∨ guid' = guid ∧ id ∈ groupsId ∧ id ∈ s.vip.vipGroups.map VIPGroup.id) ∧
    ∀ guid' id, (guid', id) ∈ t.tables.vipgrouplist ↔ (guid', id) ∈ s.tables.vipgrouplist ∧ guid' ≠ guid ∨
      guid' = guid ∧ id ∈ groupsId ∧ id ∈ s.vip.vipGroups.map VIPGroup.id := by
  subst ht
  unfold State.edit
  rw [if_neg (not_not.mpr hguid)]
  have hjoins := joins_foldl (s := ⟨s.vip, IOLoginData.removeGuidVIPGroupEntry guid
    (IOLoginData.editVIPEntry guid description icon notify s.tables)⟩) h.ids guid groupsId
  refine ⟨hjoins.vipGuids, hjoins.entries, ?_, hjoins.vipgroups, hjoins.members, fun guid' id => ?_⟩
  · dsimp only
    rw [hjoins.viplist]
    change (s.tables.viplist.map _).map VIPEntry.guid = _
    rw [List.map_map]
    refine List.map_congr_left fun e _ => ?_
    dsimp only [Function.comp_apply]
    split_ifs with heq
    · exact heq.symm
    · rfl
  · dsimp only
    rw [hjoins.rows]
    change (guid', id) ∈ s.tables.vipgrouplist.filter _ ∨ _ ↔ _
    rw [List.mem_filter, decide_eq_true_eq]

theorem Agrees.edit (h : Agrees s) (description : String) (icon : UInt32) (notify : Bool) {groupsId : List UInt8}
    (hwhole : guid ∈ s.vip.vipGuids → ∀ id ∈ getGroupsIdGuidBelongs guid s.vip, id ∈ groupsId) :
    Agrees (s.edit guid description icon notify groupsId) := by
  by_cases hguid : guid ∈ s.vip.vipGuids
  · obtain ⟨hguids, hentries, hviplist, hvipgroups, hmembers, hrows⟩ := edit_spec h hguid description icon notify groupsId rfl
    refine ⟨?_, fun guid' => ?_, ?_, fun guid' id => ?_⟩
    · rw [map_id, hentries, ← map_id]
      exact h.ids
    · rw [hguids, hviplist]
      exact h.listed guid'
    · rw [hvipgroups, hentries]
      exact h.groups
    · rw [hrows, hmembers, h.members]
      constructor
      · exact Or.imp_left And.left
      · rintro (hin | hnew)
        · by_cases heq : guid' = guid
          · subst heq
            exact .inr ⟨rfl, hwhole hguid id (mem_getGroupsIdGuidBelongs.mpr hin), hin.id_mem⟩
          · exact .inl ⟨hin, heq⟩
        · exact .inr hnew
  · have hsame : s.edit guid description icon notify groupsId = s := if_pos hguid
    rwa [hsame]

theorem Agrees.add (h : Agrees s) (maxEntries : Nat) (guid : UInt32) : Agrees (s.add maxEntries guid) := by
  unfold State.add
  split_ifs
  · exact h
  · exact h
  · refine ⟨h.ids, fun guid' => ?_, h.groups, h.members⟩
    change guid' ∈ insert guid s.vip.vipGuids ↔ guid' ∈ (s.tables.viplist ++ [_]).map VIPEntry.guid
    rw [Finset.mem_insert, List.map_append, List.mem_append, h.listed, or_comm]
    simp

theorem Agrees.remove (h : Agrees s) (guid : UInt32) : Agrees (s.remove guid) := by
  unfold State.remove
  split_ifs
  · refine ⟨h.ids, fun guid' => ?_, h.groups, h.members⟩
    change guid' ∈ s.vip.vipGuids.erase guid ↔ guid' ∈ (s.tables.viplist.filter _).map VIPEntry.guid
    rw [Finset.mem_erase, h.listed]
    simp only [List.mem_map, List.mem_filter, decide_eq_true_eq]
    constructor
    · rintro ⟨hne, e, he, rfl⟩
      exact ⟨e, ⟨he, hne⟩, rfl⟩
    · rintro ⟨e, ⟨he, hne⟩, rfl⟩
      exact ⟨hne, e, he, rfl⟩
  · exact h

theorem isNone_getGroupByID {vip : PlayerVIP} : (vip.getGroupByID id).isNone ↔ id ∉ vip.vipGroups.map VIPGroup.id := by
  unfold getGroupByID
  rw [Option.isNone_iff_eq_none, List.find?_eq_none]
  simp only [decide_eq_true_eq, List.mem_map, not_exists, not_and]

theorem map_eraseP_id (groups : List VIPGroup) (id : UInt8) :
    (groups.eraseP fun g => g.id = id).map VIPGroup.id = (groups.map VIPGroup.id).erase id := by
  rw [List.erase_eq_eraseP', List.eraseP_map]
  rfl

/-- The group that goes is the only one with the id. -/
theorem eraseP_id (hids : (groups.map VIPGroup.id).Nodup) (id : UInt8) :
    (groups.eraseP fun g => g.id = id) = groups.filter fun g => g.id ≠ id := by
  induction groups with
  | nil => rfl
  | cons g groups ih =>
    obtain ⟨hnot, hids⟩ := List.nodup_cons.mp hids
    by_cases hid : g.id = id
    · rw [List.eraseP_cons_of_pos (by simpa using hid), List.filter_cons_of_neg (by simpa using hid), eq_comm,
        List.filter_eq_self]
      intro g' hg'
      have hne : g'.id ≠ g.id := fun heq => hnot (heq ▸ List.mem_map_of_mem hg')
      simpa [← hid] using hne
    · rw [List.eraseP_cons_of_neg (by simpa using hid), List.filter_cons_of_pos (by simpa using hid), ih hids]

theorem Agrees.removeGroup (h : Agrees s) (groupId : UInt8) : Agrees (s.removeGroup groupId) := by
  unfold State.removeGroup
  split_ifs
  · exact h
  · refine ⟨?_, h.listed, ?_, fun guid id => ?_⟩
    · dsimp only
      rw [map_eraseP_id]
      exact h.ids.erase groupId
    · dsimp only [IOLoginData.removeVIPGroupEntry]
      rw [eraseP_id h.ids, h.groups, List.filter_map]
      rfl
    · dsimp only [IOLoginData.removeVIPGroupEntry]
      rw [eraseP_id h.ids, List.mem_filter, h.members]
      unfold In
      simp only [List.mem_filter, decide_eq_true_eq]
      constructor
      · rintro ⟨⟨g, hg, rfl, hguid⟩, hne⟩
        exact ⟨g, ⟨hg, hne⟩, rfl, hguid⟩
      · rintro ⟨g, ⟨hg, hne⟩, rfl, hguid⟩
        exact ⟨⟨g, hg, rfl, hguid⟩, hne⟩

theorem Agrees.step {op : Operation} (h : Agrees s) (hwhole : Whole s op) : Agrees (step maxEntries s op) := by
  cases op with
  | add vipGuid => exact h.add maxEntries vipGuid
  | remove vipGuid => exact h.remove vipGuid
  | edit vipGuid description icon notify groupsId => exact h.edit description icon notify hwhole
  | removeGroup groupId => exact h.removeGroup groupId

/-- An edit that leaves out a group of the player shows: the player stays in it, and the row is gone. -/
theorem whole_of_shows {op : Operation} (h : Agrees s) (hshows : Shows (Vip.step maxEntries s op)) : Whole s op := by
  cases op with
  | add vipGuid => trivial
  | remove vipGuid => trivial
  | removeGroup groupId => trivial
  | edit vipGuid description icon notify groupsId =>
    intro hguid id hid
    obtain ⟨hguids, -, -, -, hmembers, hrows⟩ := edit_spec h hguid description icon notify groupsId rfl
    have hin := mem_getGroupsIdGuidBelongs.mp hid
    have hbelongs := (hshows.belongs vipGuid (hguids ▸ hguid) id).mp
      (mem_getGroupsIdGuidBelongs.mpr ((hmembers vipGuid id).mpr (.inl hin)))
    rcases (hrows vipGuid id).mp hbelongs.2 with hold | hnew
    · exact absurd rfl hold.2
    · exact hnew.2.1

/-! ### The next login -/

/-- The ids of `n` groups that come in one after the other. -/
def numbers (n : Nat) : List UInt8 := (List.range' firstID n).map UInt8.ofNat

/-- What the player sees is what he sees after the next login. -/
structure SeesSame (maxEntries : Nat) (s : State) : Prop where
  listed : (loadPlayerVip maxEntries s.tables).vipGuids = s.vip.vipGuids
  groups : (loadPlayerVip maxEntries s.tables).vipGroups.map VIPGroup.entry = s.vip.vipGroups.map VIPGroup.entry
  belongs : ∀ guid ∈ s.vip.vipGuids, ∀ id,
    id ∈ getGroupsIdGuidBelongs guid (loadPlayerVip maxEntries s.tables) ↔ id ∈ getGroupsIdGuidBelongs guid s.vip

/-- What `addInternal` and `addGroupInternal` leave: the list is no longer than it may be, and the groups have names of their
    own and are numbered with no gap. -/
structure Regular (maxEntries : Nat) (vip : PlayerVIP) : Prop where
  most : vip.vipGuids.card ≤ maxEntries ∧ vip.vipGuids.card ≤ 200
  names : (vip.vipGroups.map VIPGroup.name).Nodup
  numbered : vip.vipGroups.map VIPGroup.id = numbers vip.vipGroups.length
  eight : vip.vipGroups.length ≤ lastID

theorem numbers_succ (n : Nat) : numbers (n + 1) = numbers n ++ [UInt8.ofNat (n + 1)] := by
  unfold numbers
  rw [List.range'_1_concat, List.map_append, firstID, Nat.add_comm 1]
  rfl

theorem getFreeId_eq (vip : PlayerVIP) :
    vip.getFreeId = ((numbers lastID).find? fun i => i ∉ vip.vipGroups.map VIPGroup.id).getD 0 := by
  unfold getFreeId numbers
  have hfun : (fun i => (vip.getGroupByID i).isNone) = fun i => decide (i ∉ vip.vipGroups.map VIPGroup.id) := by
    funext i
    rw [Bool.eq_iff_iff, isNone_getGroupByID, decide_eq_true_eq]
  rw [hfun]
  rfl

/-- The number after the last, up to eight. -/
theorem find_numbers : ∀ n ≤ 8, ((numbers lastID).find? fun i => i ∉ numbers n).getD 0 =
    if n < 8 then UInt8.ofNat (n + 1) else 0 := by decide

theorem ofNat_succ_ne_zero : ∀ n < 8, UInt8.ofNat (n + 1) ≠ 0 := by decide

theorem Regular.getFreeId {vip : PlayerVIP} (h : Regular maxEntries vip) :
    vip.getFreeId = if vip.vipGroups.length < 8 then UInt8.ofNat (vip.vipGroups.length + 1) else 0 := by
  rw [getFreeId_eq, h.numbered, find_numbers _ h.eight]

theorem isSome_getGroupByName {vip : PlayerVIP} {name : String} :
    (vip.getGroupByName name).isSome ↔ name ∈ vip.vipGroups.map VIPGroup.name := by
  unfold getGroupByName
  rw [List.find?_isSome]
  simp only [decide_eq_true_eq, List.mem_map]

theorem full_iff {vip : PlayerVIP} (h : Regular maxEntries vip) :
    vip.full maxEntries ↔ ¬(vip.vipGuids.card + 1 ≤ maxEntries ∧ vip.vipGuids.card + 1 ≤ 200) := by
  obtain ⟨hmax, hmost⟩ := h.most
  unfold full
  rw [Bool.or_eq_true, decide_eq_true_eq, decide_eq_true_eq]
  omega

theorem Regular.insert {vip : PlayerVIP} (h : Regular maxEntries vip) (hfull : ¬vip.full maxEntries) (guid : UInt32) :
    Regular maxEntries { vip with vipGuids := insert guid vip.vipGuids } := by
  rw [full_iff h, not_not] at hfull
  have hcard := Finset.card_insert_le guid vip.vipGuids
  exact ⟨⟨hcard.trans hfull.1, hcard.trans hfull.2⟩, h.names, h.numbered, h.eight⟩

theorem Regular.addInternal {vip : PlayerVIP} (h : Regular maxEntries vip) (guid : UInt32) :
    Regular maxEntries (vip.addInternal maxEntries guid) := by
  unfold PlayerVIP.addInternal
  split_ifs with hfull
  · exact h
  · exact h.insert hfull guid

theorem Regular.addGroupInternal {vip : PlayerVIP} (h : Regular maxEntries vip) (groupId : UInt8) (name : String)
    (customizable : Bool) : Regular maxEntries (vip.addGroupInternal groupId name customizable) := by
  unfold PlayerVIP.addGroupInternal
  split_ifs with hname hfree
  · exact h
  · exact h
  · rw [h.getFreeId] at hfree ⊢
    split_ifs at hfree ⊢ with hlen
    · refine ⟨h.most, ?_, ?_, ?_⟩
      · dsimp only
        rw [List.map_append, List.nodup_append_comm]
        exact List.nodup_cons.mpr ⟨fun hmem => hname (isSome_getGroupByName.mpr hmem), h.names⟩
      · dsimp only
        rw [List.map_append, h.numbered, List.length_append]
        exact (numbers_succ _).symm
      · dsimp only
        rw [List.length_append]
        exact hlen
    · exact absurd rfl hfree

/-- The groups of the rows, with no members yet. -/
def blank (e : VIPGroupEntry) : VIPGroup := ⟨e.id, e.name, e.customizable, ∅⟩

theorem vipGroups_foldl_addInternal (maxEntries : Nat) (vip : PlayerVIP) (guids : List UInt32) :
    (guids.foldl (PlayerVIP.addInternal maxEntries) vip).vipGroups = vip.vipGroups := by
  induction guids generalizing vip with
  | nil => rfl
  | cons guid guids ih =>
    rw [List.foldl_cons, ih]
    unfold PlayerVIP.addInternal
    split_ifs <;> rfl

/-- All players of the rows come in, if there are no more than may be. -/
theorem vipGuids_foldl_addInternal {vip : PlayerVIP} (h : Regular maxEntries vip) (guids : List UInt32)
    (hmost : (vip.vipGuids ∪ guids.toFinset).card ≤ maxEntries ∧ (vip.vipGuids ∪ guids.toFinset).card ≤ 200) :
    (guids.foldl (PlayerVIP.addInternal maxEntries) vip).vipGuids = vip.vipGuids ∪ guids.toFinset := by
  induction guids generalizing vip with
  | nil => exact (Finset.union_empty _).symm
  | cons guid guids ih =>
    have hone : (vip.addInternal maxEntries guid).vipGuids = insert guid vip.vipGuids := by
      unfold PlayerVIP.addInternal
      split_ifs with hfull
      · by_cases hguid : guid ∈ vip.vipGuids
        · exact (Finset.insert_eq_of_mem hguid).symm
        · have hsub : insert guid vip.vipGuids ⊆ vip.vipGuids ∪ (guid :: guids).toFinset :=
            Finset.insert_subset (Finset.mem_union_right _ (by simp)) Finset.subset_union_left
          have hcard := Finset.card_le_card hsub
          rw [Finset.card_insert_of_notMem hguid] at hcard
          exact absurd ⟨hcard.trans hmost.1, hcard.trans hmost.2⟩ ((full_iff h).mp hfull)
      · rfl
    have hunion : insert guid vip.vipGuids ∪ guids.toFinset = vip.vipGuids ∪ (guid :: guids).toFinset := by
      rw [List.toFinset_cons, Finset.union_insert, Finset.insert_union]
    rw [List.foldl_cons, ih (h.addInternal guid) (by rwa [hone, hunion]), hone, hunion]

theorem vipGuids_foldl_addGroupInternal (vip : PlayerVIP) (entries : List VIPGroupEntry) :
    (entries.foldl (fun vip e => vip.addGroupInternal e.id e.name e.customizable) vip).vipGuids = vip.vipGuids := by
  induction entries generalizing vip with
  | nil => rfl
  | cons e entries ih =>
    rw [List.foldl_cons, ih]
    unfold PlayerVIP.addGroupInternal
    split_ifs <;> rfl

/-- Groups with names of their own come in as they are, if their ids go on from the last. -/
theorem vipGroups_foldl_addGroupInternal {vip : PlayerVIP} (h : Regular maxEntries vip) (entries : List VIPGroupEntry)
    (hnames : (vip.vipGroups.map VIPGroup.name ++ entries.map VIPGroupEntry.name).Nodup)
    (hids : vip.vipGroups.map VIPGroup.id ++ entries.map VIPGroupEntry.id = numbers (vip.vipGroups.length + entries.length))
    (height : vip.vipGroups.length + entries.length ≤ lastID) :
    (entries.foldl (fun vip e => vip.addGroupInternal e.id e.name e.customizable) vip).vipGroups =
      vip.vipGroups ++ entries.map blank := by
  induction entries generalizing vip with
  | nil => exact (List.append_nil _).symm
  | cons e entries ih =>
    rw [List.length_cons] at hids height
    have hlen : vip.vipGroups.length < 8 := by
      change _ ≤ 8 at height
      omega
    have hid : e.id = UInt8.ofNat (vip.vipGroups.length + 1) := by
      have hget := congrArg (fun l : List UInt8 => l[vip.vipGroups.length]?) hids
      simp [numbers, firstID] at hget
      rw [hget, UInt8.ofNat_add, UInt8.add_comm]
      rfl
    have hone : vip.addGroupInternal e.id e.name e.customizable = { vip with vipGroups := vip.vipGroups ++ [blank e] } := by
      unfold PlayerVIP.addGroupInternal
      have hname : ¬(vip.getGroupByName e.name).isSome := by
        rw [isSome_getGroupByName]
        intro hmem
        exact (List.nodup_append.mp hnames).2.2 _ hmem _ (by simp) rfl
      rw [if_neg hname, h.getFreeId, if_pos hlen, if_neg (ofNat_succ_ne_zero _ hlen), ← hid]
      rfl
    have hreg := h.addGroupInternal e.id e.name e.customizable
    rw [hone] at hreg
    rw [List.foldl_cons, hone, ih hreg, List.map_cons, List.append_assoc, List.singleton_append]
    · simpa [blank] using hnames
    · simpa [blank, Nat.add_assoc, Nat.add_comm 1] using hids
    · simpa [Nat.add_assoc, Nat.add_comm 1] using height

theorem foldl_addGuidToGroupInternal {vip : PlayerVIP} (hids : (vip.vipGroups.map VIPGroup.id).Nodup)
    (rows : List (UInt32 × UInt8)) {loaded : PlayerVIP}
    (hloaded : loaded = rows.foldl (fun vip row => vip.addGuidToGroupInternal row.2 row.1) vip) :
    loaded.vipGuids = vip.vipGuids ∧ loaded.vipGroups.map VIPGroup.entry = vip.vipGroups.map VIPGroup.entry ∧
    ∀ guid id, In loaded.vipGroups guid id ↔
      In vip.vipGroups guid id ∨ (guid, id) ∈ rows ∧ id ∈ vip.vipGroups.map VIPGroup.id := by
  subst hloaded
  induction rows generalizing vip with
  | nil => simp
  | cons row rows ih =>
    obtain ⟨guid, groupId⟩ := row
    have hone : (vip.addGuidToGroupInternal groupId guid).vipGroups = insertGuid groupId guid vip.vipGroups := rfl
    have hids' : ((vip.addGuidToGroupInternal groupId guid).vipGroups.map VIPGroup.id).Nodup := by rwa [hone, id_insertGuid]
    obtain ⟨hguids, hentries, hmembers⟩ := ih hids'
    refine ⟨hguids, hentries.trans (entry_insertGuid ..), fun guid' id => ?_⟩
    rw [List.foldl_cons, hmembers, hone, in_insertGuid hids, id_insertGuid, List.mem_cons, Prod.mk.injEq]
    constructor
    · rintro ((hin | ⟨rfl, rfl, hmem⟩) | ⟨hrow, hmem⟩)
      · exact .inl hin
      · exact .inr ⟨.inl ⟨rfl, rfl⟩, hmem⟩
      · exact .inr ⟨.inr hrow, hmem⟩
    · rintro (hin | ⟨⟨rfl, rfl⟩ | hrow, hmem⟩)
      · exact .inl (.inl hin)
      · exact .inl (.inr ⟨rfl, rfl, hmem⟩)
      · exact .inr ⟨hrow, hmem⟩

/-- The groups of a login before the memberships come in. -/
def loadGroups (maxEntries : Nat) (t : Tables) : PlayerVIP :=
  t.vipgroups.foldl (fun vip e => vip.addGroupInternal e.id e.name e.customizable)
    ((t.viplist.map VIPEntry.guid).foldl (PlayerVIP.addInternal maxEntries) ⟨∅, []⟩)

theorem numbers_nodup : ∀ n ≤ 8, (numbers n).Nodup := by decide

theorem Regular.ids {vip : PlayerVIP} (h : Regular maxEntries vip) : (vip.vipGroups.map VIPGroup.id).Nodup := by
  rw [h.numbered]
  exact numbers_nodup _ h.eight

theorem regular_empty (maxEntries : Nat) : Regular maxEntries ⟨∅, []⟩ :=
  ⟨⟨Nat.zero_le _, Nat.zero_le _⟩, List.nodup_nil, rfl, Nat.zero_le _⟩

theorem regular_foldl_addInternal (guids : List UInt32) :
    Regular maxEntries (guids.foldl (PlayerVIP.addInternal maxEntries) ⟨∅, []⟩) := by
  change Regular maxEntries (run (PlayerVIP.addInternal maxEntries) ⟨∅, []⟩ guids)
  exact run_induction (Regular maxEntries) (fun _ guid h => h.addInternal guid) guids (regular_empty maxEntries)

theorem regular_loadGroups (maxEntries : Nat) (t : Tables) : Regular maxEntries (loadGroups maxEntries t) := by
  change Regular maxEntries
    (run (fun vip (e : VIPGroupEntry) => vip.addGroupInternal e.id e.name e.customizable) _ t.vipgroups)
  exact run_induction (Regular maxEntries) (fun _ e h => h.addGroupInternal e.id e.name e.customizable) t.vipgroups
    (regular_foldl_addInternal _)

/-- What is regular depends on the groups only by their entries. -/
theorem Regular.congr {vip loaded : PlayerVIP} (h : Regular maxEntries vip) (hguids : loaded.vipGuids = vip.vipGuids)
    (hentries : loaded.vipGroups.map VIPGroup.entry = vip.vipGroups.map VIPGroup.entry) : Regular maxEntries loaded := by
  have hlen : loaded.vipGroups.length = vip.vipGroups.length := by simpa using congrArg List.length hentries
  have hname (groups : List VIPGroup) :
      groups.map VIPGroup.name = (groups.map VIPGroup.entry).map VIPGroupEntry.name := by
    rw [List.map_map]
    rfl
  refine ⟨hguids ▸ h.most, ?_, ?_, hlen ▸ h.eight⟩
  · rw [hname, hentries, ← hname]
    exact h.names
  · rw [map_id, hentries, ← map_id, hlen]
    exact h.numbered

theorem regular_loadPlayerVip (maxEntries : Nat) (t : Tables) : Regular maxEntries (loadPlayerVip maxEntries t) := by
  have hgroups := regular_loadGroups maxEntries t
  obtain ⟨hguids, hentries, -⟩ := foldl_addGuidToGroupInternal hgroups.ids t.vipgrouplist rfl
  exact hgroups.congr hguids hentries

/-- Where the rows are what is in memory, a login gives the same just if what is in memory is what logins give. -/
theorem Agrees.seesSame_iff (h : Agrees s) : SeesSame maxEntries s ↔ Regular maxEntries s.vip := by
  constructor
  · intro hsame
    exact (regular_loadPlayerVip maxEntries s.tables).congr hsame.listed.symm hsame.groups.symm
  · intro hreg
    have hlisted : ((s.tables.viplist.map VIPEntry.guid).foldl (PlayerVIP.addInternal maxEntries) ⟨∅, []⟩).vipGuids =
        s.vip.vipGuids := by
      have hset : (∅ : Finset UInt32) ∪ (s.tables.viplist.map VIPEntry.guid).toFinset = s.vip.vipGuids := by
        ext guid
        rw [Finset.empty_union, List.mem_toFinset, h.listed]
      rw [vipGuids_foldl_addInternal (regular_empty maxEntries), hset]
      rw [hset]
      exact hreg.most
    have hgroups : (loadGroups maxEntries s.tables).vipGroups = (s.vip.vipGroups.map VIPGroup.entry).map blank := by
      unfold loadGroups
      have hnil := vipGroups_foldl_addInternal maxEntries ⟨∅, []⟩ (s.tables.viplist.map VIPEntry.guid)
      rw [vipGroups_foldl_addGroupInternal (regular_foldl_addInternal _), hnil, h.groups, List.nil_append]
      · rw [hnil, h.groups, List.map_map]
        exact hreg.names
      · rw [hnil, h.groups, ← map_id, hreg.numbered]
        simp
      · rw [hnil, h.groups]
        simpa using hreg.eight
    have hentry : (loadGroups maxEntries s.tables).vipGroups.map VIPGroup.entry = s.vip.vipGroups.map VIPGroup.entry := by
      rw [hgroups, List.map_map]
      exact List.map_id _
    obtain ⟨hguids, hentries, hmembers⟩ :=
      foldl_addGuidToGroupInternal (regular_loadGroups maxEntries s.tables).ids s.tables.vipgrouplist rfl
    refine ⟨?_, hentries.trans hentry, fun guid _ id => ?_⟩
    · exact hguids.trans ((vipGuids_foldl_addGroupInternal _ _).trans hlisted)
    · have hempty : ¬In (loadGroups maxEntries s.tables).vipGroups guid id := by
        rintro ⟨g, hg, -, hguid⟩
        rw [hgroups] at hg
        obtain ⟨e, -, rfl⟩ := List.mem_map.mp hg
        exact Finset.notMem_empty _ hguid
      rw [mem_getGroupsIdGuidBelongs, mem_getGroupsIdGuidBelongs, ← h.members]
      refine (hmembers guid id).trans ?_
      rw [or_iff_right hempty, map_id, hentry, ← map_id]
      exact and_iff_left_of_imp fun hrow => ((h.members guid id).mp hrow).id_mem

/-! ### Runs -/

/-- The only group that may go is the one with the last number. -/
def LastGroup (s : State) : Operation → Prop
  | .removeGroup groupId => groupId ∈ s.vip.vipGroups.map VIPGroup.id → groupId.toNat = s.vip.vipGroups.length
  | _ => True

theorem toNat_number {n : Nat} (h : n ≤ 8) : (UInt8.ofNat n).toNat = n :=
  UInt8.toNat_ofNat_of_lt' (h.trans_lt (by decide))

/-- Without the number of one group, the others are numbered with no gap just if it was the last. -/
theorem erase_numbers_iff {n : Nat} (h : n + 1 ≤ 8) (hmem : id ∈ numbers (n + 1)) :
    (numbers (n + 1)).erase id = numbers n ↔ id.toNat = n + 1 := by
  have hnodup := numbers_nodup _ h
  rw [numbers_succ] at hmem hnodup ⊢
  have hlast : UInt8.ofNat (n + 1) ∉ numbers n := fun hn =>
    (List.nodup_append.mp hnodup).2.2 _ hn _ (List.mem_singleton_self _) rfl
  by_cases hid : id ∈ numbers n
  · rw [List.erase_append_left _ hid]
    refine iff_of_false (fun heq => ?_) (fun hn => ?_)
    · exact hlast (heq ▸ List.mem_append_right _ (List.mem_singleton_self _))
    · have heq : id = UInt8.ofNat (n + 1) := by rw [← hn, UInt8.ofNat_toNat]
      exact hlast (heq ▸ hid)
  · obtain rfl : id = UInt8.ofNat (n + 1) := by
      rcases List.mem_append.mp hmem with hn | hn
      · exact absurd hn hid
      · exact List.mem_singleton.mp hn
    rw [List.erase_append_right _ hid, List.erase_cons_head, List.append_nil]
    exact iff_of_true rfl (toNat_number h)

theorem Regular.removeGroup_iff (h : Regular maxEntries s.vip) (groupId : UInt8) :
    Regular maxEntries (s.removeGroup groupId).vip ↔ LastGroup s (.removeGroup groupId) := by
  change _ ↔ (groupId ∈ s.vip.vipGroups.map VIPGroup.id → groupId.toNat = s.vip.vipGroups.length)
  unfold State.removeGroup
  split_ifs with hnone
  · exact iff_of_true h fun hmem => absurd hmem (isNone_getGroupByID.mp hnone)
  · have hmem : groupId ∈ s.vip.vipGroups.map VIPGroup.id := by rwa [isNone_getGroupByID, not_not] at hnone
    rw [forall_prop_of_true hmem]
    obtain ⟨n, hn⟩ : ∃ n, s.vip.vipGroups.length = n + 1 :=
      Nat.exists_eq_succ_of_ne_zero (by rw [← List.length_map VIPGroup.id]; exact (List.length_pos_of_mem hmem).ne')
    have hlen : (s.vip.vipGroups.eraseP fun g => g.id = groupId).length = n := by
      rw [← List.length_map VIPGroup.id, map_eraseP_id, List.length_erase_of_mem hmem, List.length_map, hn]
      rfl
    have hnumbers := h.numbered
    have height : n + 1 ≤ 8 := hn ▸ h.eight
    rw [hn] at hnumbers ⊢
    rw [← erase_numbers_iff height (hnumbers ▸ hmem), ← hnumbers, ← map_eraseP_id]
    constructor
    · intro hreg
      rw [hreg.numbered]
      exact congrArg numbers hlen
    · intro hids
      refine ⟨h.most, ?_, ?_, ?_⟩
      · exact h.names.sublist ((List.eraseP_sublist).map _)
      · exact hids.trans (congrArg numbers hlen.symm)
      · exact hlen.le.trans ((Nat.le_succ n).trans height)

theorem Regular.step_iff (h : Regular maxEntries s.vip) (hagrees : Agrees s) (op : Operation) :
    Regular maxEntries (step maxEntries s op).vip ↔ LastGroup s op := by
  cases op with
  | add vipGuid =>
    refine iff_of_true ?_ trivial
    change Regular maxEntries (s.add maxEntries vipGuid).vip
    unfold State.add
    split_ifs with hfull
    · exact h
    · exact h
    · exact h.insert hfull vipGuid
  | remove vipGuid =>
    refine iff_of_true ?_ trivial
    change Regular maxEntries (s.remove vipGuid).vip
    unfold State.remove
    split_ifs
    · have hcard := Finset.card_le_card (Finset.erase_subset vipGuid s.vip.vipGuids)
      exact ⟨⟨hcard.trans h.most.1, hcard.trans h.most.2⟩, h.names, h.numbered, h.eight⟩
    · exact h
  | edit vipGuid description icon notify groupsId =>
    refine iff_of_true ?_ trivial
    by_cases hguid : vipGuid ∈ s.vip.vipGuids
    · obtain ⟨hguids, hentries, -⟩ := edit_spec hagrees hguid description icon notify groupsId rfl
      exact h.congr hguids hentries
    · have hsame : s.edit vipGuid description icon notify groupsId = s := if_pos hguid
      change Regular maxEntries (s.edit vipGuid description icon notify groupsId).vip
      rwa [hsame]
  | removeGroup groupId => exact h.removeGroup_iff groupId

/-- Memory shows what the rows say all along just if no edit leaves a group of its player out; and what is seen is all along
    what will be seen after the next login just if, moreover, the list is at first as a login leaves it, and no group goes but
    the last. -/
theorem shows_iff (maxEntries : Nat) (h : Agrees s) (ops : List Operation) :
    (Meets (step maxEntries) Whole s ops ↔ ∀ xs, xs <+: ops → Shows (run (step maxEntries) s xs)) ∧
    (Regular maxEntries s.vip ∧ Meets (step maxEntries) (fun s op => Whole s op ∧ LastGroup s op) s ops ↔
      ∀ xs, xs <+: ops → Shows (run (step maxEntries) s xs) ∧ SeesSame maxEntries (run (step maxEntries) s xs)) := by
  constructor
  · exact meets_iff_forall_seen Agrees Shows (fun s => Agrees.shows) (fun s op h => h.step) (fun s op h => whole_of_shows h) h
  · have hruns (hreg : Regular maxEntries s.vip) :
        Meets (step maxEntries) (fun s op => Whole s op ∧ LastGroup s op) s ops ↔
          ∀ xs, xs <+: ops → Shows (run (step maxEntries) s xs) ∧ SeesSame maxEntries (run (step maxEntries) s xs) := by
      refine meets_iff_forall_seen (fun s => Agrees s ∧ Regular maxEntries s.vip) (fun s => Shows s ∧ SeesSame maxEntries s)
        (fun s h => ⟨h.1.shows, h.1.seesSame_iff.mpr h.2⟩)
        (fun s op h hop => ⟨h.1.step hop.1, (h.2.step_iff h.1 op).mpr hop.2⟩) (fun s op h hseen => ?_) ⟨h, hreg⟩
      have hwhole := whole_of_shows h.1 hseen.1
      exact ⟨hwhole, (h.2.step_iff h.1 op).mp ((h.1.step hwhole).seesSame_iff.mp hseen.2)⟩
    constructor
    · rintro ⟨hreg, hmeets⟩
      exact (hruns hreg).mp hmeets
    · intro hseen
      have hreg := h.seesSame_iff.mp (hseen [] List.nil_prefix).2
      exact ⟨hreg, (hruns hreg).mpr hseen⟩

/-- A player with one listed enemy. -/
def oneEnemy : State where
  vip := ⟨{7}, [⟨1, "Enemies", false, {7}⟩, ⟨2, "Friends", false, ∅⟩, ⟨3, "Trading Partner", false, ∅⟩]⟩
  tables := ⟨[⟨7, "", 0, false⟩], [⟨1, "Enemies", false⟩, ⟨2, "Friends", false⟩, ⟨3, "Trading Partner", false⟩], [(7, 1)]⟩

theorem agrees_oneEnemy : Agrees oneEnemy where
  ids := by decide
  listed := by simp [oneEnemy]
  groups := rfl
  members := by
    intro guid id
    simp only [oneEnemy, In, Prod.mk.injEq, List.mem_cons, List.not_mem_nil, or_false,
      exists_eq_or_imp, exists_eq_left, Finset.mem_singleton, Finset.notMem_empty, and_false]
    rw [and_comm, @eq_comm _ id]

theorem regular_oneEnemy : Regular 20 oneEnemy.vip where
  most := ⟨by decide, by decide⟩
  names := by decide
  numbered := by decide
  eight := by decide

/-- An enemy who is made a friend besides, and a group that goes. -/
theorem shows_iff_oneEnemy : Agrees oneEnemy ∧
    Shows (run (step 20) oneEnemy [.edit 7 "" 0 false [1, 2], .removeGroup 3, .add 8]) ∧
    SeesSame 20 (run (step 20) oneEnemy [.edit 7 "" 0 false [1, 2], .removeGroup 3, .add 8]) := by
  refine ⟨agrees_oneEnemy, (shows_iff 20 agrees_oneEnemy _).2.mp ⟨regular_oneEnemy, ?_⟩ _ List.prefix_rfl⟩
  refine ⟨⟨fun _ id hid => ?_, trivial⟩, ⟨trivial, fun _ => rfl⟩, ⟨trivial, trivial⟩, trivial⟩
  have hgroups : getGroupsIdGuidBelongs 7 oneEnemy.vip = [1] := rfl
  rw [hgroups] at hid
  exact List.mem_cons.mpr (.inl (List.mem_singleton.mp hid))

/-- An enemy who is taken out of all groups is still seen in the group, until the next login; and without the first group, a
    login numbers the others anew. -/
theorem not_shows_oneEnemy : Agrees oneEnemy ∧ SeesSame 20 oneEnemy ∧
    ¬Shows (step 20 oneEnemy (.edit 7 "" 0 false [])) ∧ ¬SeesSame 20 (step 20 oneEnemy (.removeGroup 1)) := by
  have hsame : SeesSame 20 oneEnemy := agrees_oneEnemy.seesSame_iff.mpr regular_oneEnemy
  refine ⟨agrees_oneEnemy, hsame, fun hshows => ?_, fun hsame => ?_⟩
  · have hwhole := whole_of_shows agrees_oneEnemy hshows
    exact absurd (hwhole (by decide) 1 (by decide)) List.not_mem_nil
  · have hagrees : Agrees (step 20 oneEnemy (.removeGroup 1)) := agrees_oneEnemy.step trivial
    exact absurd (hagrees.seesSame_iff.mp hsame).numbered (by decide)

end CrystalServer.Vip
