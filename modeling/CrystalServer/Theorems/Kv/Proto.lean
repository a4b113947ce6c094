import Mathlib.Data.List.Nodup
import CrystalServer.Kv.Value

/-! Converting a value to a protobuf message and back keeps it: every constructor, key and element
    stays, and every timestamp becomes the one given to `fromProto`, or a reading of the clock when
    that one is 0. -/

namespace CrystalServer.Kv
open ProtoSerializable

/-! ### Stamps -/

@[simp] theorem stampElems_append (t : UInt64) (xs ys : List ValueWrapper) :
    stampElems t (xs ++ ys) = stampElems t xs ++ stampElems t ys := by
  induction xs with
  | nil => rfl
  | cons v vs ih => simp [stampElems, ih]

@[simp] theorem stampEntries_append (t : UInt64) (xs ys : List (String × ValueWrapper)) :
    stampEntries t (xs ++ ys) = stampEntries t xs ++ stampEntries t ys := by
  induction xs with
  | nil => rfl
  | cons e es ih => simp [stampEntries, ih]

theorem stamp_construct (u : UInt64) (clock : Nat → UInt64) (d : ValueVariant) (t : UInt64) (n : Nat) :
    (construct clock d t n).1.stamp u = .mk (d.stamp u) u false := by
  unfold construct
  split <;> rfl

theorem assign_of_not_mem {map : List (String × ValueWrapper)} {key : String} {value : ValueWrapper}
    (h : key ∉ map.map Prod.fst) : assign map key value = map ++ [(key, value)] := if_neg h

/-! ### Round trip -/

section
variable (clock : Nat → UInt64) (t u : UInt64)

mutual
theorem stamp_fromProto_toProtoVariant : ∀ (d : ValueVariant) (n : Nat), d.DistinctKeys →
    (fromProto clock t (toProtoVariant d) n).1.stamp u = .mk (d.stamp u) u false
  | .string s, n, _ => stamp_construct ..
  | .boolean b, n, _ => stamp_construct ..
  | .int i, n, _ => stamp_construct ..
  | .double bits, n, _ => stamp_construct ..
  | .array elems, n, h => by
    simp only [toProtoVariant, fromProto, stamp_construct, ValueVariant.stamp]
    rw [stamp_fromProtoValues elems [] n h]
    rfl
  | .map entries, n, h => by
    simp only [toProtoVariant, fromProto, stamp_construct, ValueVariant.stamp]
    rw [stamp_fromProtoItems entries [] n h.2 (by simpa using h.1)]
    rfl

/-- Converting there and back gives the same value up to timestamps and deletion marks. -/
theorem stamp_fromProto_toProto : ∀ (v : ValueWrapper) (n : Nat), v.DistinctKeys →
    (fromProto clock t (toProto v) n).1.stamp u = v.stamp u
  | .mk d _ _, n, h => stamp_fromProto_toProtoVariant d n h

theorem stamp_fromProtoValues : ∀ (vs acc : List ValueWrapper) (n : Nat), distinctKeysElems vs →
    stampElems u (fromProtoValues clock t (toProtoElems vs) acc n).1 = stampElems u acc ++ stampElems u vs
  | [], acc, n, _ => by simp [toProtoElems, fromProtoValues, stampElems]
  | v :: vs, acc, n, h => by
    rw [toProtoElems, fromProtoValues, stamp_fromProtoValues vs _ _ h.2]
    simp [stampElems, stamp_fromProto_toProto v n h.1]

/-- The keys are distinct, so each entry is added behind those before it. -/
theorem stamp_fromProtoItems : ∀ (es acc : List (String × ValueWrapper)) (n : Nat), distinctKeysEntries es →
    ((acc ++ es).map Prod.fst).Nodup →
    stampEntries u (fromProtoItems clock t (toProtoEntries es) acc n).1 = stampEntries u acc ++ stampEntries u es
  | [], acc, n, _, _ => by simp [toProtoEntries, fromProtoItems, stampEntries]
  | (k, v) :: es, acc, n, h, hnd => by
    have hk : k ∉ acc.map Prod.fst := fun hk => by
      rw [List.map_append] at hnd
      exact (List.nodup_append.mp hnd).2.2 k hk k (by simp) rfl
    rw [toProtoEntries, fromProtoItems, assign_of_not_mem hk,
      stamp_fromProtoItems es _ _ h.2 (by simpa using hnd)]
    simp [stampEntries, stamp_fromProto_toProto v n h.1]
end

end

/-! ### Messages from anywhere

A message that no `toProto` made may repeat a key or leave the oneof unset. It still gives a value whose
maps have distinct keys, and whose content is the same whenever it is read. -/

theorem stampEntries_keys (u : UInt64) (es : List (String × ValueWrapper)) :
    (stampEntries u es).map Prod.fst = es.map Prod.fst := by
  induction es with
  | nil => rfl
  | cons e es ih => simp [stampEntries, ih]

theorem stampEntries_eq_map (u : UInt64) (es : List (String × ValueWrapper)) :
    stampEntries u es = es.map fun e => (e.1, e.2.stamp u) := by
  induction es with
  | nil => rfl
  | cons e es ih => simp [stampEntries, ih]

theorem stampEntries_assign (u : UInt64) (map : List (String × ValueWrapper)) (key : String) (value : ValueWrapper) :
    stampEntries u (assign map key value) = assign (stampEntries u map) key (value.stamp u) := by
  unfold assign
  rw [stampEntries_keys]
  split
  · rw [stampEntries_eq_map, stampEntries_eq_map, List.map_map, List.map_map]
    refine List.map_congr_left fun e _ => ?_
    by_cases h : e.1 = key <;> simp [h]
  · simp [stampEntries]

theorem distinctKeysElems_append {xs ys : List ValueWrapper} (hx : distinctKeysElems xs) (hy : distinctKeysElems ys) :
    distinctKeysElems (xs ++ ys) := by
  induction xs with
  | nil => exact hy
  | cons v vs ih => exact ⟨hx.1, ih hx.2⟩

theorem distinctKeysEntries_iff {es : List (String × ValueWrapper)} :
    distinctKeysEntries es ↔ ∀ e ∈ es, e.2.DistinctKeys := by
  induction es with
  | nil => simp [distinctKeysEntries]
  | cons e es ih => simp [distinctKeysEntries, ih]

theorem nodup_assign {map : List (String × ValueWrapper)} (h : (map.map Prod.fst).Nodup) (key : String)
    (value : ValueWrapper) : ((assign map key value).map Prod.fst).Nodup := by
  unfold assign
  split
  · have hkeys : (Prod.fst ∘ fun e : String × ValueWrapper => if e.1 = key then (key, value) else e) = Prod.fst := by
      funext e
      by_cases he : e.1 = key <;> simp [he]
    rw [List.map_map, hkeys]
    exact h
  · rename_i hk
    rw [List.map_append]
    exact List.nodup_append.mpr ⟨h, List.nodup_singleton _, fun k hk' l hl he => by
      obtain rfl : l = key := List.mem_singleton.mp hl
      exact hk (he ▸ hk')⟩

theorem distinctKeysEntries_assign {map : List (String × ValueWrapper)} (h : distinctKeysEntries map) {key : String}
    {value : ValueWrapper} (hv : value.DistinctKeys) : distinctKeysEntries (assign map key value) := by
  rw [distinctKeysEntries_iff] at h ⊢
  intro e he
  unfold assign at he
  split at he
  · obtain ⟨e₀, he₀, rfl⟩ := List.mem_map.mp he
    split
    · exact hv
    · exact h e₀ he₀
  · rcases List.mem_append.mp he with he | he
    · exact h e he
    · rw [List.mem_singleton.mp he]
      exact hv

theorem distinctKeys_construct {clock : Nat → UInt64} {d : ValueVariant} {t : UInt64} {n : Nat} (hd : d.DistinctKeys) :
    (construct clock d t n).1.DistinctKeys := by
  unfold construct
  split <;> exact hd

section
variable (clock : Nat → UInt64) (t : UInt64)

mutual
theorem distinctKeys_fromProto : ∀ (m : Proto) (n : Nat), (fromProto clock t m n).1.DistinctKeys
  | .notSet, _ => distinctKeys_construct trivial
  | .strValue _, _ => distinctKeys_construct trivial
  | .boolValue _, _ => distinctKeys_construct trivial
  | .intValue _, _ => distinctKeys_construct trivial
  | .doubleValue _, _ => distinctKeys_construct trivial
  | .arrayValue values, n => distinctKeys_construct (distinctKeys_fromProtoValues values [] n trivial)
  | .mapValue items, n => distinctKeys_construct (distinctKeys_fromProtoItems items [] n trivial List.nodup_nil)

theorem distinctKeys_fromProtoValues : ∀ (ms : List Proto) (acc : List ValueWrapper) (n : Nat),
    distinctKeysElems acc → distinctKeysElems (fromProtoValues clock t ms acc n).1
  | [], _, _, h => h
  | m :: ms, _, n, h => distinctKeys_fromProtoValues ms _ _
      (distinctKeysElems_append h ⟨distinctKeys_fromProto m n, trivial⟩)

theorem distinctKeys_fromProtoItems : ∀ (ms : List (String × Proto)) (acc : List (String × ValueWrapper)) (n : Nat),
    distinctKeysEntries acc → (acc.map Prod.fst).Nodup →
    ((fromProtoItems clock t ms acc n).1.map Prod.fst).Nodup ∧ distinctKeysEntries (fromProtoItems clock t ms acc n).1
  | [], _, _, h, hn => ⟨hn, h⟩
  | (_, m) :: ms, _, n, h, hn => distinctKeys_fromProtoItems ms _ _
      (distinctKeysEntries_assign h (distinctKeys_fromProto m n)) (nodup_assign hn _ _)
end

variable (clock' : Nat → UInt64) (t' u : UInt64)

mutual
/-- The content of a value read from a message does not depend on the clock and the timestamp. -/
theorem stamp_fromProto_congr : ∀ (m : Proto) (n n' : Nat),
    (fromProto clock t m n).1.stamp u = (fromProto clock' t' m n').1.stamp u
  | .notSet, _, _ => by simp only [fromProto, stamp_construct]
  | .strValue _, _, _ => by simp only [fromProto, stamp_construct]
  | .boolValue _, _, _ => by simp only [fromProto, stamp_construct]
  | .intValue _, _, _ => by simp only [fromProto, stamp_construct]
  | .doubleValue _, _, _ => by simp only [fromProto, stamp_construct]
  | .arrayValue values, n, n' => by
    simp only [fromProto, stamp_construct, ValueVariant.stamp]
    rw [stamp_fromProtoValues_congr values [] [] n n' rfl]
  | .mapValue items, n, n' => by
    simp only [fromProto, stamp_construct, ValueVariant.stamp]
    rw [stamp_fromProtoItems_congr items [] [] n n' rfl]

theorem stamp_fromProtoValues_congr : ∀ (ms : List Proto) (acc acc' : List ValueWrapper) (n n' : Nat),
    stampElems u acc = stampElems u acc' →
    stampElems u (fromProtoValues clock t ms acc n).1 = stampElems u (fromProtoValues clock' t' ms acc' n').1
  | [], _, _, _, _, h => h
  | m :: ms, _, _, n, n', h => stamp_fromProtoValues_congr ms _ _ _ _ (by
      rw [stampElems_append, stampElems_append, h]
      simp only [stampElems, stamp_fromProto_congr m n n'])

theorem stamp_fromProtoItems_congr : ∀ (ms : List (String × Proto)) (acc acc' : List (String × ValueWrapper))
    (n n' : Nat), stampEntries u acc = stampEntries u acc' →
    stampEntries u (fromProtoItems clock t ms acc n).1 = stampEntries u (fromProtoItems clock' t' ms acc' n').1
  | [], _, _, _, _, h => h
  | (k, m) :: ms, _, _, n, n', h => stamp_fromProtoItems_congr ms _ _ _ _ (by
      rw [stampEntries_assign, stampEntries_assign, h, stamp_fromProto_congr m n n'])
end

end

/-! ### Timestamps -/

/-- A timestamp as the constructor stores it: the given one, or a reading of the clock for 0. -/
def Stamped (clock : Nat → UInt64) (t x : UInt64) : Prop := if t = 0 then ∃ k, x = clock k else x = t

theorem timestampsElems_append (xs ys : List ValueWrapper) :
    timestampsElems (xs ++ ys) = timestampsElems xs ++ timestampsElems ys := by
  induction xs with
  | nil => rfl
  | cons v vs ih => simp [timestampsElems, ih]

theorem timestampsEntries_append (xs ys : List (String × ValueWrapper)) :
    timestampsEntries (xs ++ ys) = timestampsEntries xs ++ timestampsEntries ys := by
  induction xs with
  | nil => rfl
  | cons e es ih => simp [timestampsEntries, ih]

theorem mem_timestampsEntries {x : UInt64} {es : List (String × ValueWrapper)} :
    x ∈ timestampsEntries es ↔ ∃ e ∈ es, x ∈ e.2.timestamps := by
  induction es with
  | nil => simp [timestampsEntries]
  | cons e es ih => simp [timestampsEntries, ih]

/-- An assignment brings in no timestamp but those of its value. -/
theorem mem_timestampsEntries_assign {x : UInt64} {map : List (String × ValueWrapper)} {key : String}
    {value : ValueWrapper} (h : x ∈ timestampsEntries (assign map key value)) :
    x ∈ timestampsEntries map ∨ x ∈ value.timestamps := by
  unfold assign at h
  split at h
  · obtain ⟨e, he, hx⟩ := mem_timestampsEntries.mp h
    obtain ⟨e₀, he₀, rfl⟩ := List.mem_map.mp he
    split at hx
    · exact Or.inr hx
    · exact Or.inl (mem_timestampsEntries.mpr ⟨e₀, he₀, hx⟩)
  · simpa [timestampsEntries_append, timestampsEntries] using h

theorem stamped_construct {clock : Nat → UInt64} {t : UInt64} {d : ValueVariant} {n : Nat}
    (hd : ∀ x ∈ d.timestamps, Stamped clock t x) : ∀ x ∈ (construct clock d t n).1.timestamps, Stamped clock t x := by
  intro x hx
  unfold construct at hx
  split at hx
  · rcases List.mem_cons.mp hx with rfl | hx
    · rename_i h0
      exact (if_pos h0).mpr ⟨n, rfl⟩
    · exact hd x hx
  · rcases List.mem_cons.mp hx with rfl | hx
    · rename_i h0
      exact (if_neg h0).mpr rfl
    · exact hd x hx

section
variable (clock : Nat → UInt64) (t : UInt64)

mutual
/-- Every timestamp in a value read from a message is the given one, or a reading of the clock. -/
theorem stamped_fromProto : ∀ (m : Proto) (n : Nat), ∀ x ∈ (fromProto clock t m n).1.timestamps, Stamped clock t x
  | .notSet, _ => stamped_construct (fun _ h => absurd h List.not_mem_nil)
  | .strValue _, _ => stamped_construct (fun _ h => absurd h List.not_mem_nil)
  | .boolValue _, _ => stamped_construct (fun _ h => absurd h List.not_mem_nil)
  | .intValue _, _ => stamped_construct (fun _ h => absurd h List.not_mem_nil)
  | .doubleValue _, _ => stamped_construct (fun _ h => absurd h List.not_mem_nil)
  | .arrayValue values, n =>
    stamped_construct (stamped_fromProtoValues values [] n (fun _ h => absurd h List.not_mem_nil))
  | .mapValue items, n =>
    stamped_construct (stamped_fromProtoItems items [] n (fun _ h => absurd h List.not_mem_nil))

theorem stamped_fromProtoValues : ∀ (ms : List Proto) (acc : List ValueWrapper) (n : Nat),
    (∀ x ∈ timestampsElems acc, Stamped clock t x) →
    ∀ x ∈ timestampsElems (fromProtoValues clock t ms acc n).1, Stamped clock t x
  | [], _, _, hacc => hacc
  | m :: ms, acc, n, hacc => stamped_fromProtoValues ms _ _ fun x hx => by
    rw [timestampsElems_append, List.mem_append] at hx
    rcases hx with hx | hx
    · exact hacc x hx
    · exact stamped_fromProto m n x (by simpa [timestampsElems] using hx)

theorem stamped_fromProtoItems : ∀ (ms : List (String × Proto)) (acc : List (String × ValueWrapper)) (n : Nat),
    (∀ x ∈ timestampsEntries acc, Stamped clock t x) →
    ∀ x ∈ timestampsEntries (fromProtoItems clock t ms acc n).1, Stamped clock t x
  | [], _, _, hacc => hacc
  | (_, m) :: ms, acc, n, hacc => stamped_fromProtoItems ms _ _ fun x hx => by
    rcases mem_timestampsEntries_assign hx with hx | hx
    · exact hacc x hx
    · exact stamped_fromProto m n x hx
end

end

/-- A value read back is deeply equal to the value written. Each of its timestamps is the given one; a
    timestamp of 0 asks for the current time, so then each is a reading of the clock. -/
theorem fromProto_toProto (v : ValueWrapper) (hv : v.DistinctKeys) (clock : Nat → UInt64) (t : UInt64) (n : Nat) :
    (fromProto clock t (toProto v) n).1.DeepEq v ∧
      (t ≠ 0 → ∀ x ∈ (fromProto clock t (toProto v) n).1.timestamps, x = t) ∧
      (t = 0 → ∀ x ∈ (fromProto clock t (toProto v) n).1.timestamps, ∃ k, x = clock k) := by
  have hst := stamped_fromProto clock t (toProto v) n
  refine ⟨stamp_fromProto_toProto clock t 0 v n hv, fun ht x hx => ?_, fun ht x hx => ?_⟩
  · have := hst x hx
    rwa [Stamped, if_neg ht] at this
  · have := hst x hx
    rwa [Stamped, if_pos ht] at this

/-- A map that holds an empty array, an empty map and a list of scalars comes back at time 7. -/
theorem fromProto_toProto_nested :
    let v : ValueWrapper := .mk (.map [("a", .mk (.array []) 1 false), ("b", .mk (.map []) 2 false),
      ("c", .mk (.array [.mk (.string "") 3 false, .mk (.boolean false) 4 false, .mk (.int 0) 5 false]) 6 false)]) 9 false
    (fromProto (fun _ => 8) 7 (toProto v) 0).1.DeepEq v ∧
      ∀ x ∈ (fromProto (fun _ => 8) 7 (toProto v) 0).1.timestamps, x = 7 := by
  intro v
  have hv : v.DistinctKeys := by
    simp [v, ValueWrapper.DistinctKeys, ValueVariant.DistinctKeys, distinctKeysEntries, distinctKeysElems]
  have h := fromProto_toProto v hv (fun _ => 8) 7 0
  exact ⟨h.1, h.2.1 (by decide)⟩

/-- A value read back with timestamp 0 carries the time of the clock. -/
theorem fromProto_timestamp_zero :
    ¬∀ (v : ValueWrapper) (clock : Nat → UInt64) (t : UInt64) (n : Nat), v.DistinctKeys →
      (fromProto clock t (toProto v) n).1.DeepEq v ∧ ∀ x ∈ (fromProto clock t (toProto v) n).1.timestamps, x = t := by
  intro h
  have hx := (h (.mk (.int 3) 4 false) (fun _ => 5) 0 0 trivial).2 5 (by decide)
  exact absurd hx (by decide)

end CrystalServer.Kv
