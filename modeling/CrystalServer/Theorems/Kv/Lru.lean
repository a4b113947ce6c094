import CrystalServer.Kv.Store
import CrystalServer.Lib.Run

/-! # The queue and the hash map of the store

Every call but `flush` on a store that is not empty keeps `store_` and `lruQueue_` in step: the queue
lists each key of the map once, the iterator of each entry designates the node of its key, and the map
holds at most `MAX_SIZE` entries. `flush` empties the map and leaves the queue as it is. -/

namespace CrystalServer.Kv
open Lib KVStore

/-- `store_` and `lruQueue_` are in step. -/
structure InStep (MAX_SIZE : Nat) (s : KVStore) : Prop where
  nodup : s.lruQueue_.toList.Nodup
  mem : ∀ key, key ∈ s.lruQueue_.toList ↔ key ∈ s.store_
  iterator : ∀ key e, s.store_.lookup key = some e → s.lruQueue_.deref e.2 = some key
  size : s.store_.keys.length ≤ MAX_SIZE

theorem mem_store_iff {s : KVStore} {key : String} : key ∈ s.store_ ↔ ∃ e, s.store_.lookup key = some e := by
  rw [← AList.lookup_isSome, Option.isSome_iff_exists]

namespace InStep
variable {MAX_SIZE : Nat} {s : KVStore}

theorem empty : InStep MAX_SIZE ⟨∅, NodeList.empty⟩ where
  nodup := List.nodup_nil
  mem key := by simp [AList.mem_keys]
  iterator key e h := by simp at h
  size := Nat.zero_le _

/-- The key that an eviction takes is in the map: an eviction saves the value stored for it. -/
theorem back_mem (h : InStep MAX_SIZE s) {last : String} (hl : s.lruQueue_.back? = some last) : last ∈ s.store_ := by
  rw [NodeList.back?_eq] at hl
  exact (h.mem last).mp (List.mem_of_getLast? hl)

/-- Moving a node inside the queue. -/
theorem reorder (h : InStep MAX_SIZE s) {q : NodeList String} (hp : q.toList.Perm s.lruQueue_.toList)
    (hd : ∀ it, q.deref it = s.lruQueue_.deref it) : InStep MAX_SIZE { s with lruQueue_ := q } where
  nodup := hp.nodup_iff.mpr h.nodup
  mem key := hp.mem_iff.trans (h.mem key)
  iterator key e he := (hd e.2).trans (h.iterator key e he)
  size := h.size

theorem moveFront (h : InStep MAX_SIZE s) (it : Nat) : InStep MAX_SIZE { s with lruQueue_ := s.lruQueue_.moveFront it } :=
  h.reorder (NodeList.toList_moveFront_perm ..) fun _ => NodeList.deref_moveFront ..

theorem moveBack (h : InStep MAX_SIZE s) (it : Nat) : InStep MAX_SIZE { s with lruQueue_ := s.lruQueue_.moveBack it } :=
  h.reorder (NodeList.toList_moveBack_perm ..) fun _ => NodeList.deref_moveBack ..

/-- A new value under a key that is there keeps the iterator. -/
theorem assign (h : InStep MAX_SIZE s) {key : String} {e : ValueWrapper × Nat} (he : s.store_.lookup key = some e)
    (value : ValueWrapper) : InStep MAX_SIZE { s with store_ := s.store_.insert key (value, e.2) } where
  nodup := h.nodup
  mem k := by
    rw [h.mem, AList.mem_insert]
    exact ⟨Or.inr, fun hk => hk.elim (fun hk => hk ▸ mem_store_iff.mpr ⟨e, he⟩) id⟩
  iterator k e' he' := by
    by_cases hk : k = key
    · subst hk
      rw [AList.lookup_insert] at he'
      obtain rfl := Option.some.inj he'
      exact h.iterator k e he
    · rw [AList.lookup_insert_ne hk] at he'
      exact h.iterator k e' he'
  size := by
    have hm : key ∈ s.store_.keys := mem_store_iff.mpr ⟨e, he⟩
    rw [AList.keys_insert, List.length_cons, List.length_erase_of_mem hm]
    have := List.length_pos_of_mem hm
    have := h.size
    omega

/-- An eviction takes one key out of both. -/
theorem evict (h : InStep MAX_SIZE s) {last : String} (hl : s.lruQueue_.back? = some last) :
    InStep (MAX_SIZE - 1) ⟨s.store_.erase last, s.lruQueue_.popBack⟩ where
  nodup := by
    rw [NodeList.toList_popBack]
    exact h.nodup.sublist (List.dropLast_sublist _)
  mem key := by
    have hq : s.lruQueue_.popBack.toList ++ [last] = s.lruQueue_.toList := by
      rw [NodeList.toList_popBack]
      exact List.dropLast_append_getLast? last (NodeList.back?_eq _ ▸ hl)
    have hnd := h.nodup
    rw [← hq, List.nodup_append] at hnd
    rw [AList.mem_erase, ← h.mem, ← hq, List.mem_append, List.mem_singleton]
    constructor
    · exact fun hk => ⟨fun he => hnd.2.2 key hk last List.mem_cons_self he, Or.inl hk⟩
    · rintro ⟨hne, hk | rfl⟩
      · exact hk
      · exact absurd rfl hne
  iterator key e he := by
    have hne : key ≠ last := fun hk => by
      subst hk
      rw [AList.lookup_erase] at he
      cases he
    rw [AList.lookup_erase_ne hne] at he
    exact NodeList.deref_popBack (h.iterator key e he) hl hne
  size := by
    have hm : last ∈ s.store_.keys := h.back_mem hl
    rw [AList.keys_erase, List.length_erase_of_mem hm]
    exact Nat.sub_le_sub_right h.size 1

/-- A new key is added to both. -/
theorem emplace (h : InStep (MAX_SIZE - 1) s) (hpos : 1 ≤ MAX_SIZE) {key : String} (hk : key ∉ s.store_)
    (value : ValueWrapper) :
    InStep MAX_SIZE ⟨s.store_.insert key (value, s.lruQueue_.fresh), s.lruQueue_.pushFront key⟩ where
  nodup := List.nodup_cons.mpr ⟨fun hm => hk ((h.mem key).mp hm), h.nodup⟩
  mem k := by rw [NodeList.toList_pushFront, List.mem_cons, h.mem, AList.mem_insert]
  iterator k e he := by
    by_cases hkk : k = key
    · subst hkk
      rw [AList.lookup_insert] at he
      obtain rfl := Option.some.inj he
      exact NodeList.deref_pushFront_self ..
    · rw [AList.lookup_insert_ne hkk] at he
      exact NodeList.deref_pushFront (h.iterator k e he)
  size := by
    rw [AList.keys_insert, List.length_cons, List.erase_of_not_mem hk]
    have := h.size
    omega

end InStep

section
variable {D : Type} {b : Backend D} {MAX_SIZE : Nat} {w : World D}

theorem InStep.exists_back (h : InStep MAX_SIZE w.kv) {key : String} (hk : key ∈ w.kv.store_) :
    ∃ last, w.kv.lruQueue_.back? = some last := by
  have hm := (h.mem key).mpr hk
  rw [NodeList.back?_eq]
  exact ⟨_, List.getLast?_eq_some_getLast (List.ne_nil_of_mem hm)⟩

/-- What `setLocked` does before it adds a new key leaves room for it. -/
theorem InStep.room (h : InStep MAX_SIZE w.kv) (hpos : 1 ≤ MAX_SIZE) :
    InStep (MAX_SIZE - 1) (if MAX_SIZE ≤ w.kv.store_.keys.length then KVStore.evict b w else w).kv := by
  split
  · rename_i hfull
    obtain ⟨key, hk⟩ := List.exists_mem_of_length_pos (show 0 < w.kv.store_.keys.length by omega)
    obtain ⟨last, hl⟩ := h.exists_back (AList.mem_keys.mpr hk)
    simp only [KVStore.evict, hl]
    exact h.evict hl
  · exact { h with size := by omega }

/-- An eviction adds no key to the map. -/
theorem not_mem_room {key : String} (hk : key ∉ w.kv.store_) :
    key ∉ (if MAX_SIZE ≤ w.kv.store_.keys.length then KVStore.evict b w else w).kv.store_ := by
  split
  · unfold KVStore.evict
    split
    · exact hk
    · exact fun hm => hk (AList.mem_erase.mp hm).2
  · exact hk

theorem InStep.setLocked (h : InStep MAX_SIZE w.kv) (hpos : 1 ≤ MAX_SIZE) (key : String) (value : ValueWrapper) :
    InStep MAX_SIZE (KVStore.setLocked b MAX_SIZE w key value).kv := by
  unfold KVStore.setLocked
  split
  · rename_i e he
    exact (h.assign he value).moveFront e.2
  · rename_i hn
    exact (h.room hpos).emplace hpos (not_mem_room (AList.lookup_eq_none.mp hn)) value

theorem InStep.get (h : InStep MAX_SIZE w.kv) (hpos : 1 ≤ MAX_SIZE) (key : String) (forceLoad : Bool) :
    InStep MAX_SIZE (KVStore.get b MAX_SIZE w key forceLoad).2.kv := by
  unfold KVStore.get
  split
  · simp only
    split
    · exact @InStep.setLocked D b MAX_SIZE ⟨w.kv, (b.load w.db key).2⟩ h hpos key _
    · exact h
  · split
    · split
      · exact h.moveBack _
      · exact h.moveFront _
    · exact h

/-- A call that is not a `flush` of a store with entries. -/
def FlushesEmpty (w : World D) : Op → Prop
  | .flush => w.kv.store_ = ∅
  | _ => True

/-- A call keeps the queue and the map in step unless it flushes a store with entries: the queue keeps
    their keys then. -/
theorem inStep_step_iff (h : InStep MAX_SIZE w.kv) (hpos : 1 ≤ MAX_SIZE) (op : Op) :
    InStep MAX_SIZE (Kv.step b MAX_SIZE w op).kv ↔ FlushesEmpty w op := by
  cases op with
  | set key value _ => exact iff_of_true (h.setLocked hpos key value) trivial
  | get key forceLoad => exact iff_of_true (h.get hpos key forceLoad) trivial
  | remove key => exact iff_of_true (h.setLocked hpos key _) trivial
  | saveAll => exact iff_of_true h trivial
  | flush =>
    show InStep MAX_SIZE ⟨∅, w.kv.lruQueue_⟩ ↔ w.kv.store_ = ∅
    constructor
    · intro h'
      refine AList.ext_iff.mpr (List.eq_nil_iff_forall_not_mem.mpr fun e he => ?_)
      have hq : e.1 ∈ w.kv.lruQueue_.toList := (h.mem e.1).mpr (List.mem_map.mpr ⟨e, he, rfl⟩)
      exact AList.notMem_empty e.1 ((h'.mem e.1).mp hq)
    · intro he
      exact he ▸ h

end

/-- The queue and the map are in step after every part of a run exactly when no `flush` of the run finds
    an entry in the store. The key that an eviction would take then has its value in the map. -/
theorem inStep_run_iff {D : Type} (b : Backend D) (db : D) {MAX_SIZE : Nat} (hpos : 1 ≤ MAX_SIZE) (ops : List Op) :
    (∀ xs, xs <+: ops →
      let w := run (step b MAX_SIZE) (World.init db) xs
      InStep MAX_SIZE w.kv ∧ ∀ last, w.kv.lruQueue_.back? = some last → ∃ e, w.kv.store_.lookup last = some e) ↔
    Meets (step b MAX_SIZE) FlushesEmpty (World.init db) ops := by
  rw [meets_iff_forall_part (fun w : World D => InStep MAX_SIZE w.kv)
    (fun w op hw => inStep_step_iff hw hpos op) InStep.empty]
  exact forall₂_congr fun xs _ => and_iff_left_of_imp fun h last hl => mem_store_iff.mp (h.back_mem hl)

/-- Three keys in a store of two, with forced and plain reads. -/
theorem inStep_run_three :
    let v : ValueWrapper := .mk (.int 1) 1 false
    InStep 2 (run (step (KVMemory.backend 5) 2) (World.init ())
      [.set "a" v trivial, .set "b" v trivial, .get "a" false, .set "c" v trivial, .remove "a", .get "a" true]).kv := by
  intro v
  refine ((inStep_run_iff (KVMemory.backend 5) () (by decide) _).mpr ?_ _ (List.prefix_refl _)).1
  exact ⟨trivial, trivial, trivial, trivial, trivial, trivial, trivial⟩

/-- A flush leaves the key that was set in the queue, but not in the map. -/
theorem flush_not_inStep :
    ¬∀ ops : List Op, InStep 1000000 (run (step (KVMemory.backend 5) 1000000) (World.init ()) ops).kv := by
  intro h
  have hm := ((h [.set "a" (.mk (.int 1) 1 false) trivial, .flush]).mem "a").mp (by decide)
  exact absurd hm (by decide)

end CrystalServer.Kv
