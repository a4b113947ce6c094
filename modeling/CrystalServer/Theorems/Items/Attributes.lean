import CrystalServer.Items.Attributes
import CrystalServer.Lib.Keyed

/-! # What setters write

The value of each attribute after a setter, and what every item that was made and set keeps: each type at most once, with
a value of its kind, and the custom attributes in the order of their keys. -/

namespace CrystalServer
open Lib

/-- A value of the kind of its type: an integer of 64 bits, or a text that is not empty and fits into a stream. -/
def Attribute.Ok (a : Attribute) : Prop :=
  match a.value with
  | .integer n => a.type.isAttributeInteger = true ∧ int64_t.InRange n
  | .string s => a.type.isAttributeString = true ∧ s ≠ [] ∧ s.length ≤ 65535

/-- A text among the custom attributes fits into a stream. -/
def CustomAttribute.Short : CustomAttribute → Prop
  | string s => s.length ≤ 65535
  | _ => True

namespace ItemAttribute

/-- The attributes after one is written. -/
def write (l : List Attribute) (type : AttributeType) (value : AttributeValue) : List Attribute :=
  if l.any (·.type = type) then l.map fun a => if a.type = type then { a with value } else a else l ++ [⟨type, value⟩]

variable {l : List Attribute} {type t : AttributeType} {value : AttributeValue}

theorem setAttribute_vector (as : ItemAttribute) (type : AttributeType) (n : Int) :
    (as.setAttribute type n).attributeVector =
      if type.isAttributeInteger = true then write as.attributeVector type (.integer n) else as.attributeVector := by
  unfold setAttribute write
  cases type.isAttributeInteger
  · rfl
  · simp only [Bool.not_true, Bool.false_eq_true, if_false, if_true]
    split_ifs <;> rfl

theorem setString_vector (as : ItemAttribute) (type : AttributeType) (s : List UInt8) :
    (as.setString type s).attributeVector =
      if type.isAttributeString = true ∧ s ≠ [] then write as.attributeVector type (.string s)
      else as.attributeVector := by
  unfold setString write
  by_cases htype : type.isAttributeString = true
  · by_cases hs : s = []
    · simp [htype, hs]
    · simp only [htype, hs, Bool.not_true, Bool.false_eq_true, if_false, ne_eq, not_false_eq_true, and_self, if_true]
      split_ifs <;> rfl
  · simp [htype]

theorem find_write (l : List Attribute) (type t : AttributeType) (value : AttributeValue) :
    ((write l type value).find? fun a => a.type = t).map (·.value) =
      if t = type then some value else (l.find? fun a => a.type = t).map (·.value) := by
  unfold write
  by_cases hany : l.any (·.type = type) = true
  · rw [if_pos hany, find?_map_key Attribute.type (fun a => { a with value }) (fun _ => rfl)]
    cases hfind : l.find? (fun a => a.type = t) with
    | none =>
      by_cases ht : t = type
      · obtain ⟨a, ha, hat⟩ := List.any_eq_true.mp hany
        exact absurd (ht ▸ hat) (by simpa using List.find?_eq_none.mp hfind a ha)
      · rw [if_neg ht]
        rfl
    | some a =>
      have ha : a.type = t := by simpa using List.find?_some hfind
      subst ha
      simp only [Option.map_some]
      split_ifs <;> rfl
  · have hnone : ∀ a ∈ l, a.type ≠ type := by simpa using hany
    rw [if_neg hany, List.find?_append]
    by_cases ht : t = type
    · subst ht
      rw [List.find?_eq_none.mpr (by simpa using hnone), if_pos rfl]
      simp
    · rw [if_neg ht, List.find?_cons_of_neg (by simpa using fun h => ht h.symm)]
      simp

theorem mem_write {a : Attribute} (h : a ∈ write l type value) : a = ⟨type, value⟩ ∨ a ∈ l := by
  unfold write at h
  split_ifs at h with hany
  · obtain ⟨b, hb, rfl⟩ := List.mem_map.mp h
    by_cases hbt : b.type = type
    · rw [if_pos hbt, ← hbt]
      exact Or.inl rfl
    · rw [if_neg hbt]
      exact Or.inr hb
  · rcases List.mem_append.mp h with h | h
    · exact Or.inr h
    · exact Or.inl (List.mem_singleton.mp h)

theorem nodup_write (h : (l.map Attribute.type).Nodup) (type : AttributeType) (value : AttributeValue) :
    ((write l type value).map Attribute.type).Nodup := by
  unfold write
  split_ifs with hany
  · have hsame : (l.map fun a => if a.type = type then { a with value } else a).map Attribute.type =
        l.map Attribute.type := by
      rw [List.map_map]
      refine List.map_congr_left fun a _ => ?_
      simp only [Function.comp_apply]
      split <;> rfl
    rwa [hsame]
  · have hnone : ∀ a ∈ l, a.type ≠ type := by simpa using hany
    rw [List.map_append, List.nodup_append]
    refine ⟨h, List.nodup_singleton _, fun t ht t' ht' => ?_⟩
    obtain ⟨a, ha, rfl⟩ := List.mem_map.mp ht
    obtain rfl := List.mem_singleton.mp ht'
    exact hnone a ha

/-- Taking out an attribute only changes the order of the others. -/
theorem removeAttribute_perm (as : ItemAttribute) (h : (as.attributeVector.map Attribute.type).Nodup)
    (type : AttributeType) :
    ((as.removeAttribute type).attributeVector).Perm (as.attributeVector.filter fun a => a.type ≠ type) := by
  unfold removeAttribute
  cases hi : as.attributeVector.findIdx? (fun a => a.type = type) with
  | none =>
    have hnone : ∀ a ∈ as.attributeVector, decide (a.type ≠ type) = true := fun a ha => by
      simpa using List.findIdx?_eq_none_iff.mp hi a ha
    dsimp only
    rw [List.filter_eq_self.mpr hnone]
  | some i =>
    obtain ⟨hlt, -⟩ := List.findIdx?_eq_some_iff_getElem.mp hi
    cases hlast : as.attributeVector.getLast? with
    | none =>
      rw [List.getLast?_eq_none_iff.mp hlast] at hlt
      exact absurd hlt (Nat.not_lt_zero i)
    | some last => exact perm_swapRemove h hi hlast

end ItemAttribute

namespace Item
open ItemAttribute

/-- The value of an attribute, if the item has it. -/
def value? (item : Item) (type : AttributeType) : Option AttributeValue :=
  (item.getAttributeVector.find? fun a => a.type = type).map (·.value)

def types (item : Item) : List AttributeType := item.getAttributeVector.map Attribute.type

/-- What every item keeps that was made and set. -/
structure Ok (item : Item) : Prop where
  types : item.types.Nodup
  attributes : ∀ a ∈ item.getAttributeVector, a.Ok
  sorted : SortedMap.Sorted item.getCustomAttributeMap
  custom : ∀ a ∈ item.getCustomAttributeMap, asLowerCaseString a.1 = a.1 ∧ a.1.length ≤ 65535 ∧ a.2.Short

variable {item : Item} {type t : AttributeType}

theorem getD_vector (item : Item) : (item.attributePtr.getD .empty).attributeVector = item.getAttributeVector := by
  unfold getAttributeVector
  cases item.attributePtr <;> rfl

theorem getD_custom (item : Item) : (item.attributePtr.getD .empty).customAttributeMap = item.getCustomAttributeMap := by
  unfold getCustomAttributeMap
  cases item.attributePtr <;> rfl

/-! ### Values -/

theorem hasAttribute_eq (item : Item) (type : AttributeType) : item.hasAttribute type = (item.value? type).isSome := by
  unfold hasAttribute value?
  rw [Option.isSome_map]
  exact Bool.eq_iff_iff.mpr (by simp)

theorem setAttribute_vector (item : Item) (type : AttributeType) (n : Int) :
    (item.setAttribute type n).getAttributeVector =
      if type.isAttributeInteger = true then write item.getAttributeVector type (.integer n)
      else item.getAttributeVector := by
  rw [← getD_vector item, ← ItemAttribute.setAttribute_vector]
  rfl

theorem setString_vector (item : Item) (type : AttributeType) (s : List UInt8) :
    (item.setString type s).getAttributeVector =
      if type.isAttributeString = true ∧ s ≠ [] then write item.getAttributeVector type (.string s)
      else item.getAttributeVector := by
  rw [← getD_vector item, ← ItemAttribute.setString_vector]
  rfl

@[simp] theorem value?_setAttribute (item : Item) (type : AttributeType) (n : Int) (t : AttributeType) :
    (item.setAttribute type n).value? t =
      if t = type ∧ type.isAttributeInteger = true then some (.integer n) else item.value? t := by
  unfold value?
  rw [setAttribute_vector]
  by_cases hi : type.isAttributeInteger = true
  · rw [if_pos hi, find_write]
    simp only [hi, and_true]
  · rw [if_neg hi, if_neg fun h => hi h.2]

@[simp] theorem value?_setString (item : Item) (type : AttributeType) (s : List UInt8) (t : AttributeType) :
    (item.setString type s).value? t =
      if t = type ∧ type.isAttributeString = true ∧ s ≠ [] then some (.string s) else item.value? t := by
  unfold value?
  rw [setString_vector]
  by_cases hs : type.isAttributeString = true ∧ s ≠ []
  · rw [if_pos hs, find_write]
    simp only [hs, and_true, ne_eq, not_false_eq_true]
  · rw [if_neg hs, if_neg fun h => hs h.2]

@[simp] theorem value?_addCustomAttribute (item : Item) (key : List UInt8) (a : CustomAttribute) (t : AttributeType) :
    (item.addCustomAttribute key a).value? t = item.value? t := by
  unfold value?
  rw [← getD_vector item]
  rfl

theorem removeAttribute_perm (h : item.types.Nodup) (type : AttributeType) :
    ((item.removeAttribute type).getAttributeVector).Perm (item.getAttributeVector.filter fun a => a.type ≠ type) := by
  unfold types at h
  unfold getAttributeVector removeAttribute at *
  cases hp : item.attributePtr with
  | none => exact .refl _
  | some as =>
    rw [hp] at h
    exact as.removeAttribute_perm h type

theorem nodup_removeAttribute (h : item.types.Nodup) (type : AttributeType) :
    (item.removeAttribute type).types.Nodup := by
  have hfilter : ((item.getAttributeVector.filter fun a => a.type ≠ type).map Attribute.type).Nodup :=
    (List.filter_sublist.map _).nodup h
  exact ((removeAttribute_perm h type).map _).nodup_iff.mpr hfilter

theorem value?_removeAttribute (h : item.types.Nodup) (type t : AttributeType) :
    (item.removeAttribute type).value? t = if t = type then none else item.value? t := by
  have hperm := removeAttribute_perm h type
  have hiff : ∀ v, (item.removeAttribute type).value? t = some v ↔
      (if t = type then none else item.value? t) = some v := by
    intro v
    unfold value?
    rw [Option.map_eq_some_iff]
    simp only [find?_eq_some_iff_mem Attribute.type (nodup_removeAttribute h type), hperm.mem_iff]
    split_ifs with ht
    · refine iff_of_false (fun ⟨a, ⟨ha, hat⟩, _⟩ => ?_) nofun
      simp [hat, ht] at ha
    · rw [Option.map_eq_some_iff]
      simp only [find?_eq_some_iff_mem Attribute.type h]
      refine exists_congr fun a => and_congr_left fun _ => and_congr_left fun hat => ?_
      simp [hat, ht]
  exact Option.ext hiff

/-! ### What the setters keep -/

theorem Ok.congr (h : item.Ok) {item' : Item} (hv : item'.getAttributeVector = item.getAttributeVector)
    (hc : item'.getCustomAttributeMap = item.getCustomAttributeMap) : item'.Ok := by
  refine ⟨?_, ?_, ?_, ?_⟩
  · unfold Item.types
    rw [hv]
    exact h.types
  · rw [hv]
    exact h.attributes
  · rw [hc]
    exact h.sorted
  · rw [hc]
    exact h.custom

theorem custom_setAttribute (item : Item) (type : AttributeType) (n : Int) :
    (item.setAttribute type n).getCustomAttributeMap = item.getCustomAttributeMap := by
  rw [← getD_custom item]
  unfold setAttribute ItemAttribute.setAttribute
  dsimp only [getCustomAttributeMap, Option.map_some, Option.getD_some]
  split_ifs <;> rfl

theorem custom_setString (item : Item) (type : AttributeType) (s : List UInt8) :
    (item.setString type s).getCustomAttributeMap = item.getCustomAttributeMap := by
  rw [← getD_custom item]
  unfold setString ItemAttribute.setString
  dsimp only [getCustomAttributeMap, Option.map_some, Option.getD_some]
  split_ifs <;> rfl

theorem custom_removeAttribute (item : Item) (type : AttributeType) :
    (item.removeAttribute type).getCustomAttributeMap = item.getCustomAttributeMap := by
  unfold removeAttribute getCustomAttributeMap
  cases item.attributePtr with
  | none => rfl
  | some as =>
    dsimp only [Option.map_some, Option.getD_some]
    unfold ItemAttribute.removeAttribute
    split <;> rfl

@[simp] theorem custom_addCustomAttribute (item : Item) (key : List UInt8) (a : CustomAttribute) :
    (item.addCustomAttribute key a).getCustomAttributeMap =
      SortedMap.insert (asLowerCaseString key) a item.getCustomAttributeMap := by
  rw [← getD_custom item]
  rfl

theorem Ok.setAttribute (h : item.Ok) (type : AttributeType) {n : Int} (hn : int64_t.InRange n) :
    (item.setAttribute type n).Ok := by
  refine ⟨?_, ?_, ?_, ?_⟩
  · unfold Item.types
    rw [setAttribute_vector]
    split_ifs
    · exact nodup_write h.types _ _
    · exact h.types
  · intro a ha
    rw [setAttribute_vector] at ha
    split_ifs at ha with hi
    · rcases mem_write ha with rfl | ha
      · exact ⟨hi, hn⟩
      · exact h.attributes a ha
    · exact h.attributes a ha
  · rw [custom_setAttribute]
    exact h.sorted
  · rw [custom_setAttribute]
    exact h.custom

theorem Ok.setString (h : item.Ok) (type : AttributeType) {s : List UInt8} (hs : s.length ≤ 65535) :
    (item.setString type s).Ok := by
  refine ⟨?_, ?_, ?_, ?_⟩
  · unfold Item.types
    rw [setString_vector]
    split_ifs
    · exact nodup_write h.types _ _
    · exact h.types
  · intro a ha
    rw [setString_vector] at ha
    split_ifs at ha with htype
    · rcases mem_write ha with rfl | ha
      · exact ⟨htype.1, htype.2, hs⟩
      · exact h.attributes a ha
    · exact h.attributes a ha
  · rw [custom_setString]
    exact h.sorted
  · rw [custom_setString]
    exact h.custom

theorem Ok.removeAttribute (h : item.Ok) (type : AttributeType) : (item.removeAttribute type).Ok := by
  refine ⟨nodup_removeAttribute h.types type, fun a ha => ?_, ?_, ?_⟩
  · exact h.attributes a (List.mem_of_mem_filter ((removeAttribute_perm h.types type).mem_iff.mp ha))
  · rw [custom_removeAttribute]
    exact h.sorted
  · rw [custom_removeAttribute]
    exact h.custom

theorem tolower_tolower (c : UInt8) : tolower (tolower c) = tolower c := by
  unfold tolower
  split_ifs with h1 h2
  · exfalso
    have := UInt8.le_iff_toNat_le.mp h1.1
    have := UInt8.le_iff_toNat_le.mp h2.2
    have := UInt8.le_iff_toNat_le.mp h1.2
    simp only [UInt8.toNat_add, UInt8.reduceToNat] at *
    omega
  · rfl
  · rfl

theorem asLowerCaseString_twice (s : List UInt8) : asLowerCaseString (asLowerCaseString s) = asLowerCaseString s := by
  unfold asLowerCaseString
  rw [List.map_map]
  exact List.map_congr_left fun c _ => tolower_tolower c

theorem Ok.addCustomAttribute (h : item.Ok) {key : List UInt8} (hkey : key.length ≤ 65535) {a : CustomAttribute}
    (ha : a.Short) : (item.addCustomAttribute key a).Ok := by
  have hvector : (item.addCustomAttribute key a).getAttributeVector = item.getAttributeVector := by
    rw [← getD_vector item]
    rfl
  refine ⟨?_, ?_, ?_, fun b hb => ?_⟩
  · unfold Item.types
    rw [hvector]
    exact h.types
  · rw [hvector]
    exact h.attributes
  · rw [custom_addCustomAttribute]
    exact h.sorted.insert _ _
  · rw [custom_addCustomAttribute] at hb
    rcases SortedMap.mem_insert hb with rfl | hb
    · refine ⟨asLowerCaseString_twice key, ?_, ha⟩
      rwa [asLowerCaseString, List.length_map]
    · exact h.custom b hb

theorem Ok.setSubType (h : item.Ok) (items : UInt16 → ItemType) (n : UInt16) : (item.setSubType items n).Ok := by
  have hlt := n.toNat_lt
  have hn : int64_t.InRange n.toNat := inRange_int64.mpr (by omega)
  unfold Item.setSubType
  dsimp only
  split_ifs
  · exact h.setAttribute _ hn
  · exact h.congr rfl rfl
  · exact h.setAttribute _ hn
  · exact h.congr rfl rfl

theorem Ok.setDuration (h : item.Ok) {time : Int} (ht : int32_t.InRange time) : (item.setDuration time).Ok := by
  have ht := inRange_int32.mp ht
  exact h.setAttribute _ (inRange_int64.mpr (by omega))

theorem Ok.setDecaying (h : item.Ok) (decayState : UInt8) : (item.setDecaying decayState).Ok := by
  have hlt := decayState.toNat_lt
  have hset := h.setAttribute .decaystate (n := decayState.toNat) (inRange_int64.mpr (by omega))
  unfold Item.setDecaying
  dsimp only
  split_ifs
  · exact hset.removeAttribute _
  · exact hset

/-- An item that has just been made is in order. -/
theorem ok_make (items : UInt16 → ItemType) (itemId itemCount : UInt16) : (make items itemId itemCount).Ok := by
  have hnew : (⟨itemId, 1, none, none, none⟩ : Item).Ok := ⟨List.nodup_nil, nofun, List.Pairwise.nil, nofun⟩
  have hcount := itemCount.toNat_lt
  have hcharges := (items itemId).charges.toUInt16.toNat_lt
  have hstack : ∀ n, ((⟨itemId, 1, none, none, none⟩ : Item).setItemCount n).Ok := fun n => hnew.congr rfl rfl
  have hinner : ∀ item : Item, item.Ok →
      (if (items itemId).decayTime * 1000 ≠ 0 then item.setDuration ((items itemId).decayTime * 1000).toInt32.toInt
        else item).Ok := fun item h => by
    split_ifs
    · have hle := ((items itemId).decayTime * 1000).toInt32.le_toInt
      have hlt := ((items itemId).decayTime * 1000).toInt32.toInt_lt
      exact h.setDuration (inRange_int32.mpr ⟨hle, hlt⟩)
    · exact h
  unfold make
  refine hinner _ ?_
  split_ifs
  · exact hnew.setAttribute _ (inRange_int64.mpr (by omega))
  · exact hstack _
  · exact hstack _
  · exact hnew
  · exact hnew.setAttribute _ (inRange_int64.mpr (by omega))
  · exact hnew.setAttribute _ (inRange_int64.mpr (by omega))
  · exact hnew

/-- The texts of the setter fit into a stream. -/
def Setter.Short : Setter → Prop
  | .setString _ value => value.length ≤ 65535
  | .setCustomAttribute key value => key.length ≤ 65535 ∧ value.Short
  | _ => True

theorem Setter.ok {env : ItemEnv} (h : item.Ok) {op : Setter} (hs : op.Short) : (op.apply env item).Ok := by
  cases op with
  | setSubType n => exact h.setSubType _ n
  | setAttribute type value => exact h.setAttribute _ (inRange_int64.mpr ⟨value.le_toInt, value.toInt_lt⟩)
  | setString type value => exact h.setString _ hs
  | setDuration time => exact h.setDuration (inRange_int32.mpr ⟨time.le_toInt, time.toInt_lt⟩)
  | setDurationTimestamp timestamp =>
    exact h.setAttribute _ (inRange_int64.mpr ⟨timestamp.le_toInt, timestamp.toInt_lt⟩)
  | setDecaying decayState => exact h.setDecaying decayState
  | setOwner owner =>
    have hlt := owner.toNat_lt
    exact h.setAttribute _ (inRange_int64.mpr (by omega))
  | setTier tier =>
    have hlt := tier.toNat_lt
    simp only [Setter.apply, Item.setTier]
    split_ifs
    · exact h
    · exact h.setAttribute _ (inRange_int64.mpr (by omega))
    · exact h
  | setCustomAttribute key value => exact h.addCustomAttribute hs.1 hs.2

theorem id_setSubType (items : UInt16 → ItemType) (item : Item) (n : UInt16) :
    (item.setSubType items n).id = item.id := by
  unfold setSubType
  dsimp only
  split_ifs <;> rfl

theorem id_setDecaying (item : Item) (decayState : UInt8) : (item.setDecaying decayState).id = item.id := by
  unfold setDecaying
  dsimp only
  split_ifs <;> rfl

theorem Setter.id_apply (env : ItemEnv) (item : Item) (op : Setter) : (op.apply env item).id = item.id := by
  cases op with
  | setSubType n => exact id_setSubType _ item n
  | setDecaying decayState => exact id_setDecaying item decayState
  | setTier tier =>
    simp only [Setter.apply, Item.setTier]
    split_ifs <;> rfl
  | _ => rfl

/-- An item that was made and set is in order, and of the type it was made of. -/
theorem ok_set (env : ItemEnv) (itemId itemCount : UInt16) {ops : List Setter} (hs : ∀ op ∈ ops, op.Short) :
    (set env itemId itemCount ops).Ok ∧ (set env itemId itemCount ops).id = itemId := by
  have hgen : ∀ item : Item, item.Ok → item.id = itemId →
      (ops.foldl (Setter.apply env) item).Ok ∧ (ops.foldl (Setter.apply env) item).id = itemId := by
    induction ops with
    | nil => exact fun item h hid => ⟨h, hid⟩
    | cons op ops ih =>
      intro item h hid
      refine ih (fun op hop => hs op (List.mem_cons_of_mem _ hop)) _ (Setter.ok h (hs op List.mem_cons_self)) ?_
      rw [Setter.id_apply, hid]
  refine hgen _ (ok_make ..) ?_
  unfold make
  dsimp only
  split_ifs <;> rfl

end Item
end CrystalServer
