import CrystalServer.Lib.Updates
import CrystalServer.Theorems.Kv.Lru
import CrystalServer.Theorems.Kv.Proto

/-! # The store is a map

What the store holds under a key is the value in its cache, or else the value of the row. Reads,
evictions and loads move values between the two without changing what the store holds, so a read gives
the value written last. -/

namespace CrystalServer.Kv
open Lib KVStore

/-! ### Content -/

/-- Both are nothing, or both are values that are deeply equal. -/
def SameValue (v w : Option ValueWrapper) : Prop := v.map (·.stamp 0) = w.map (·.stamp 0)

theorem sameValue_some {v w : ValueWrapper} : SameValue (some v) (some w) ↔ v.DeepEq w := by
  simp [SameValue, ValueWrapper.DeepEq]

/-- The value of a cache entry, which a deletion mark hides. -/
def ValueWrapper.live (v : ValueWrapper) : Option ValueWrapper := if v.isDeleted then none else some v

section
variable {W : Type} (C : ProtoCodec W)

/-- What the store holds under a key. -/
def content (w : World (Database W)) (key : String) : Option ValueWrapper :=
  match w.kv.store_.lookup key with
  | some e => e.1.live
  | none => (KVSQL.load C w.db key).1

/-- What an operation writes: a value, or nothing for a removal. -/
def Op.write? : Op → Option (String × Option ValueWrapper)
  | .set key value _ => some (key, value.live)
  | .remove key => some (key, none)
  | _ => none

/-- An operation of the map interface: a write or a plain read. -/
def Op.OfMap : Op → Prop
  | .set .. => True
  | .get _ forceLoad => forceLoad = false
  | .remove _ => True
  | _ => False

/-- What a map with the rows of the database holds after the writes of the operations. -/
def expected (db : Database W) (ops : List Op) (key : String) : Option ValueWrapper :=
  written (fun k => (KVSQL.load C db k).1) (ops.filterMap Op.write?) key

/-! ### Rows -/

variable {C}

/-- What a row holds depends neither on the clock nor on what was read before. -/
theorem load_congr {db db' : Database W} {k : String} (h : db'.kv_store.lookup k = db.kv_store.lookup k) :
    SameValue (KVSQL.load C db' k).1 (KVSQL.load C db k).1 := by
  unfold KVSQL.load
  rw [h]
  cases db.kv_store.lookup k with
  | none => rfl
  | some row =>
    cases hp : C.ParseFromArray row.value with
    | none => simp only [hp]; rfl
    | some m =>
      simp only [hp]
      exact sameValue_some.mpr (stamp_fromProto_congr ..)

theorem load_kv_store (db : Database W) (key : String) : (KVSQL.load C db key).2.kv_store = db.kv_store := by
  unfold KVSQL.load
  split
  · rfl
  · split <;> rfl

theorem load_distinctKeys {db : Database W} {key : String} {v : ValueWrapper}
    (h : (KVSQL.load C db key).1 = some v) : v.DistinctKeys := by
  unfold KVSQL.load at h
  split at h
  · cases h
  · split at h
    · cases h
      exact distinctKeys_fromProto ..
    · cases h

theorem load_not_deleted {db : Database W} {key : String} {v : ValueWrapper}
    (h : (KVSQL.load C db key).1 = some v) : v.live = some v := by
  have hc : ∀ (d : ValueVariant) (t : UInt64) (n : Nat),
      (ProtoSerializable.construct db.clock d t n).1.isDeleted = false := by
    intro d t n
    unfold ProtoSerializable.construct
    split <;> rfl
  unfold KVSQL.load at h
  split at h
  · cases h
  · split at h
    · rename_i row _ _ m _
      cases h
      have hd : (ProtoSerializable.fromProto db.clock row.timestamp m db.reads).1.isDeleted = false := by
        cases m <;> exact hc ..
      simp only [ValueWrapper.live, hd, Bool.false_eq_true, if_false]
    · cases h

/-- A saved value is what its row holds from then on; a deleted one leaves no row. -/
theorem load_prepareSave_self (db : Database W) (key : String) {v : ValueWrapper} (hv : v.DistinctKeys) :
    SameValue (KVSQL.load C (KVSQL.prepareSave C db key v) key).1 v.live := by
  unfold KVSQL.prepareSave ValueWrapper.live
  by_cases hd : v.isDeleted = true
  · simp [KVSQL.load, hd, SameValue]
  · rw [if_neg hd, if_neg hd]
    simp only [KVSQL.load, AList.lookup_insert, C.lossless]
    exact sameValue_some.mpr (stamp_fromProto_toProto _ _ _ v _ hv)

theorem lookup_prepareSave_ne {db : Database W} {key k : String} (hk : k ≠ key) (v : ValueWrapper) :
    (KVSQL.prepareSave C db key v).kv_store.lookup k = db.kv_store.lookup k := by
  unfold KVSQL.prepareSave
  by_cases hd : v.isDeleted = true
  · simp [hd, AList.lookup_erase_ne hk]
  · simp [hd, AList.lookup_insert_ne hk]

/-! ### Operations -/

/-- The cache is in step and its values are those of hash maps. -/
structure Sound (MAX_SIZE : Nat) (w : World (Database W)) : Prop where
  inStep : InStep MAX_SIZE w.kv
  distinct : ∀ key e, w.kv.store_.lookup key = some e → e.1.DistinctKeys

variable {MAX_SIZE : Nat} {w : World (Database W)}

theorem content_of_lookup {k : String} {e : ValueWrapper × Nat} (h : w.kv.store_.lookup k = some e) :
    content C w k = e.1.live := by
  simp only [content, h]

theorem content_of_not_mem {k : String} (h : w.kv.store_.lookup k = none) :
    content C w k = (KVSQL.load C w.db k).1 := by
  simp only [content, h]

/-- An eviction moves a value from the cache to its row. -/
theorem content_evict (h : Sound MAX_SIZE w) (k : String) :
    SameValue (content C (evict (KVSQL.backend C) w) k) (content C w k) := by
  unfold evict
  split
  · rfl
  · rename_i last hl
    obtain ⟨e, he⟩ := mem_store_iff.mp (h.inStep.back_mem hl)
    have hv : valueAt (KVSQL.backend C) w last = e.1 := by simp only [valueAt, he]
    rw [hv]
    by_cases hk : k = last
    · subst hk
      rw [content_of_lookup he, content_of_not_mem (AList.lookup_erase ..)]
      exact load_prepareSave_self w.db k (h.distinct k e he)
    · unfold content
      simp only [AList.lookup_erase_ne hk]
      split
      · rfl
      · exact load_congr (lookup_prepareSave_ne hk e.1)

theorem Sound.room (h : Sound MAX_SIZE w) (hpos : 1 ≤ MAX_SIZE) :
    Sound (MAX_SIZE - 1) (if MAX_SIZE ≤ w.kv.store_.keys.length then evict (KVSQL.backend C) w else w) where
  inStep := h.inStep.room hpos
  distinct key e he := by
    split at he
    · unfold evict at he
      split at he
      · exact h.distinct key e he
      · rename_i last _
        have hne : key ≠ last := fun hk => by
          subst hk
          simp only [AList.lookup_erase] at he
          cases he
        exact h.distinct key e (by simpa only [AList.lookup_erase_ne hne] using he)
    · exact h.distinct key e he

theorem content_room (h : Sound MAX_SIZE w) (k : String) :
    SameValue (content C (if MAX_SIZE ≤ w.kv.store_.keys.length then evict (KVSQL.backend C) w else w) k)
      (content C w k) := by
  split
  · exact content_evict h k
  · rfl

/-- `setLocked` changes what the store holds under its key, and nothing else. -/
theorem content_setLocked (h : Sound MAX_SIZE w) (key : String) (value : ValueWrapper) (k : String) :
    SameValue (content C (setLocked (KVSQL.backend C) MAX_SIZE w key value) k)
      (Function.update (content C w) key value.live k) := by
  by_cases hk : k = key
  · subst hk
    rw [Function.update_self]
    unfold setLocked emplace
    split
    · rw [content_of_lookup (AList.lookup_insert _)]
      rfl
    · rw [content_of_lookup (AList.lookup_insert _)]
      rfl
  · rw [Function.update_of_ne hk]
    unfold setLocked emplace
    split
    · unfold content
      simp only [AList.lookup_insert_ne hk]
      rfl
    · refine Eq.trans ?_ (content_room h k)
      unfold content
      simp only [AList.lookup_insert_ne hk]

theorem Sound.setLocked (h : Sound MAX_SIZE w) (hpos : 1 ≤ MAX_SIZE) (key : String) {value : ValueWrapper}
    (hv : value.DistinctKeys) : Sound MAX_SIZE (KVStore.setLocked (KVSQL.backend C) MAX_SIZE w key value) where
  inStep := h.inStep.setLocked hpos key value
  distinct k e he := by
    by_cases hk : k = key
    · subst hk
      unfold KVStore.setLocked emplace at he
      split at he <;> rw [AList.lookup_insert] at he <;> cases he <;> exact hv
    · unfold KVStore.setLocked emplace at he
      split at he <;> rw [AList.lookup_insert_ne hk] at he
      · exact h.distinct k e he
      · exact (h.room hpos).distinct k e he

/-- A plain read gives what the store holds. -/
theorem get_eq_content (w : World (Database W)) (key : String) :
    (KVStore.get (KVSQL.backend C) MAX_SIZE w key false).1 = content C w key := by
  unfold KVStore.get
  split
  · rename_i hn
    rw [content_of_not_mem (AList.lookup_eq_none.mpr (hn.resolve_left (by simp)))]
    simp only
    split
    · rename_i v hv
      exact hv.symm
    · rename_i hv
      exact hv.symm
  · rename_i hn
    cases hl : w.kv.store_.lookup key with
    | none => exact absurd (Or.inr (AList.lookup_eq_none.mp hl)) hn
    | some e =>
      rw [content_of_lookup hl]
      unfold ValueWrapper.live
      by_cases hd : e.1.isDeleted = true <;> simp [hd]

theorem Sound.get (h : Sound MAX_SIZE w) (hpos : 1 ≤ MAX_SIZE) (key : String) :
    Sound MAX_SIZE (KVStore.get (KVSQL.backend C) MAX_SIZE w key false).2 where
  inStep := h.inStep.get hpos key false
  distinct := by
    unfold KVStore.get
    split
    · simp only
      split
      · rename_i v hv
        exact (@Sound.setLocked W C MAX_SIZE ⟨w.kv, (KVSQL.load C w.db key).2⟩ ⟨h.inStep, h.distinct⟩ hpos key v
          (load_distinctKeys hv)).distinct
      · exact h.distinct
    · split
      · split
        · exact h.distinct
        · exact h.distinct
      · exact h.distinct

/-- A plain read does not change what the store holds. -/
theorem content_get (h : Sound MAX_SIZE w) (key k : String) :
    SameValue (content C (KVStore.get (KVSQL.backend C) MAX_SIZE w key false).2 k) (content C w k) := by
  have hdb : ∀ k', SameValue (content C ⟨w.kv, (KVSQL.load C w.db key).2⟩ k') (content C w k') := fun k' => by
    unfold content
    simp only
    split
    · rfl
    · exact load_congr (by rw [load_kv_store])
  unfold KVStore.get
  split
  · rename_i hn
    simp only
    split
    · rename_i v hv
      refine (content_setLocked (w := ⟨w.kv, (KVSQL.load C w.db key).2⟩) ⟨h.inStep, h.distinct⟩ key v k).trans ?_
      by_cases hk : k = key
      · subst hk
        rw [Function.update_self, content_of_not_mem (AList.lookup_eq_none.mpr (hn.resolve_left (by simp))),
          load_not_deleted hv]
        exact congrArg _ hv.symm
      · rw [Function.update_of_ne hk]
        exact hdb k
    · exact hdb k
  · split
    · split <;> rfl
    · rfl

end

/-! ### Runs -/

section
variable {W : Type} {C : ProtoCodec W} {MAX_SIZE : Nat}

/-- After a run of writes and plain reads the store holds what a map would hold. -/
theorem content_run (hpos : 1 ≤ MAX_SIZE) (db : Database W) {ops : List Op} (hops : ∀ op ∈ ops, op.OfMap) :
    Sound MAX_SIZE (run (step (KVSQL.backend C) MAX_SIZE) (World.init db) ops) ∧
      ∀ k, SameValue (content C (run (step (KVSQL.backend C) MAX_SIZE) (World.init db) ops) k) (expected C db ops k) := by
  induction ops using List.reverseRecOn with
  | nil =>
    exact ⟨⟨InStep.empty, fun key e he => by simp [World.init] at he⟩, fun k => rfl⟩
  | append_singleton ops op ih =>
    obtain ⟨hs, hc⟩ := ih fun o ho => hops o (List.mem_append_left _ ho)
    have hop := hops op (List.mem_append_right _ List.mem_cons_self)
    rw [run_concat]
    generalize run (step (KVSQL.backend C) MAX_SIZE) (World.init db) ops = w at hs hc
    have hwrite : ∀ key (value : ValueWrapper), op.write? = some (key, value.live) →
        ∀ k, SameValue (content C (setLocked (KVSQL.backend C) MAX_SIZE w key value) k) (expected C db (ops ++ [op]) k) := by
      intro key value hw k
      refine (content_setLocked hs key value k).trans ?_
      unfold expected
      rw [List.filterMap_append, List.filterMap_cons_some hw, List.filterMap_nil, written_concat]
      by_cases hk : k = key
      · subst hk
        rw [Function.update_self, Function.update_self]
      · rw [Function.update_of_ne hk, Function.update_of_ne hk]
        exact hc k
    cases op with
    | set key value hv => exact ⟨hs.setLocked hpos key hv, hwrite key value rfl⟩
    | remove key => exact ⟨hs.setLocked hpos key trivial, hwrite key .deleted rfl⟩
    | get key forceLoad =>
      obtain rfl : forceLoad = false := hop
      refine ⟨hs.get hpos key, fun k => (content_get hs key k).trans ?_⟩
      have hnone : (Op.get key false).write? = none := rfl
      refine (hc k).trans ?_
      unfold expected
      rw [List.filterMap_append, List.filterMap_cons_none hnone, List.filterMap_nil, List.append_nil]
    | saveAll => exact hop.elim
    | flush => exact hop.elim

end

end CrystalServer.Kv

/-! ## Listing keys

`keys` joins the keys of the cache, deletion marks included, with the names of the selected rows, out of
which every occurrence of the prefix is cut. It agrees with `get` exactly when neither source strays. -/

namespace CrystalServer.Kv
open Lib KVStore

/-! ### Text -/

theorem toList_prefix_iff {p key : String} : p.toList <+: key.toList ↔ ∃ s, key = p ++ s := by
  constructor
  · rintro ⟨t, ht⟩
    exact ⟨String.ofList t, String.toList_inj.mp (by simp [← ht])⟩
  · rintro ⟨s, rfl⟩
    simp

theorem mem_cachedKeys {D : Type} {w : World D} {p s : String} : s ∈ cachedKeys w p ↔ p ++ s ∈ w.kv.store_ := by
  unfold cachedKeys
  simp only [List.mem_map, List.mem_filter, decide_eq_true_eq, toList_prefix_iff]
  constructor
  · rintro ⟨key, ⟨hk, t, rfl⟩, rfl⟩
    simpa using AList.mem_keys.mpr hk
  · intro h
    exact ⟨p ++ s, ⟨h, s, rfl⟩, by simp⟩

/-- With a prefix the cutting always returns. -/
theorem replaceString_eq_some {str p : String} (hp : p ≠ "" ∨ str = "") (r : String) :
    ∃ s, replaceString str p r = some s := by
  unfold replaceString
  split
  · exact ⟨_, rfl⟩
  · rename_i hs
    rw [if_neg (hp.resolve_right hs)]
    exact ⟨_, rfl⟩

theorem replaceString_eq_none {str : String} (hs : str ≠ "") (r : String) : replaceString str "" r = none := by
  simp [replaceString, hs]

/-! ### Agreement -/

section
variable {W : Type} (C : ProtoCodec W) (w : World (Database W)) (p : String)

/-- `keys` returns the suffixes under which `get` finds a value. -/
def KeysAgree (MAX_SIZE : Nat) : Prop :=
  ∃ ks, keys (KVSQL.backend C) w p = some ks ∧
    ∀ s, s ∈ ks ↔ (KVStore.get (KVSQL.backend C) MAX_SIZE w (p ++ s) false).1.isSome

/-- Where `keys` does what it should: the cutting of the prefix returns, no key with the prefix has a
    deletion mark in the cache, each selected row cuts down to a suffix whose key has a value, and each
    readable row that is not in the cache is reached by the cutting. -/
structure KeysSafe : Prop where
  returns : p ≠ "" ∨ ∀ k ∈ KVSQL.matching w.db p, k = ""
  live : ∀ s e, w.kv.store_.lookup (p ++ s) = some e → e.1.isDeleted = false
  selected : ∀ k ∈ KVSQL.matching w.db p, ∀ s, replaceString k p "" = some s → (content C w (p ++ s)).isSome
  reached : ∀ s, p ++ s ∉ w.kv.store_ → (KVSQL.load C w.db (p ++ s)).1.isSome →
    ∃ k ∈ KVSQL.matching w.db p, replaceString k p "" = some s

variable {C w p}

theorem mem_mapM {α β : Type} {f : α → Option β} {l : List α} {r : List β} (h : l.mapM f = some r) {b : β} :
    b ∈ r ↔ ∃ a ∈ l, f a = some b := by
  induction l generalizing r with
  | nil =>
    simp only [List.mapM_nil, Option.pure_def, Option.some.injEq] at h
    simp [← h]
  | cons a l ih =>
    simp only [List.mapM_cons, Option.bind_eq_bind, Option.bind_eq_some_iff, Option.pure_def, Option.some.injEq] at h
    obtain ⟨b', hb', r', hr', rfl⟩ := h
    simp only [List.mem_cons, ih hr', exists_eq_or_imp, hb', Option.some.injEq]
    exact or_congr_left eq_comm

theorem mapM_eq_some {α β : Type} {f : α → Option β} {l : List α} : (∃ r, l.mapM f = some r) ↔ ∀ a ∈ l, ∃ b, f a = some b := by
  induction l with
  | nil => simp
  | cons a l ih =>
    simp only [List.mapM_cons, Option.bind_eq_bind, Option.bind_eq_some_iff, Option.pure_def, Option.some.injEq,
      List.forall_mem_cons, ← ih]
    constructor
    · rintro ⟨_, b, hb, r, hr, rfl⟩
      exact ⟨⟨b, hb⟩, r, hr⟩
    · rintro ⟨⟨b, hb⟩, r, hr⟩
      exact ⟨b :: r, b, hb, r, hr, rfl⟩

theorem keys_eq_some {ks : List String} (h : keys (KVSQL.backend C) w p = some ks) {s : String} :
    s ∈ ks ↔ p ++ s ∈ w.kv.store_ ∨ ∃ k ∈ KVSQL.matching w.db p, replaceString k p "" = some s := by
  obtain ⟨loaded, hl, rfl⟩ := Option.map_eq_some_iff.mp h
  rw [List.mem_append, mem_cachedKeys, mem_mapM hl]

theorem keys_returns_iff : (∃ ks, keys (KVSQL.backend C) w p = some ks) ↔ p ≠ "" ∨ ∀ k ∈ KVSQL.matching w.db p, k = "" := by
  have hk : (∃ ks, keys (KVSQL.backend C) w p = some ks) ↔ ∃ r, KVSQL.loadPrefix w.db p = some r := by
    simp only [keys, Option.map_eq_some_iff]
    exact ⟨fun ⟨_, r, hr, _⟩ => ⟨r, hr⟩, fun ⟨r, hr⟩ => ⟨_, r, hr, rfl⟩⟩
  rw [hk]
  unfold KVSQL.loadPrefix
  rw [mapM_eq_some]
  constructor
  · intro h
    by_cases hp : p = ""
    · subst hp
      refine Or.inr fun k hk => by_contra fun hne => ?_
      obtain ⟨s, hs⟩ := h k hk
      rw [replaceString_eq_none hne] at hs
      cases hs
    · exact Or.inl hp
  · exact fun h k hk => replaceString_eq_some (h.imp_right fun h => h k hk) ""

end

end CrystalServer.Kv
