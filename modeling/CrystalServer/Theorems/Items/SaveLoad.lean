import CrystalServer.Theorems.Items.Serialize

/-! # What a loaded item gets back

Each record writes the slot it was made of, unless it is one of charges for a type without charges, and each slot has one
record. So a slot gets back what was written of it, and that is the attribute itself if its type can hold it. -/

namespace CrystalServer
open Lib

/-- What a slot holds. -/
inductive SlotValue
  | count (n : UInt8)
  | attr (value : Option AttributeValue)
  | custom (entries : List (List UInt8 × CustomAttribute))

namespace Item
variable (env : ItemEnv) (item : Item)

def slot : Slot → SlotValue
  | .count => .count item.count
  | .attr type => .attr (item.value? type)
  | .custom => .custom item.getCustomAttributeMap

/-- The duration of the item runs: `getDuration` counts it down. -/
def Running : Prop := item.getDecaying = DECAYING_TRUE ∨ item.getDecaying = DECAYING_STOPPING

instance : Decidable item.Running := by
  unfold Running
  infer_instance

/-- What a slot that was saved is to hold again. -/
def expected : Slot → SlotValue
  | .attr .decaystate => .attr (some (.integer DECAYING_PENDING.toNat))
  | .attr .duration =>
    .attr (some (.integer (if item.Running then item.getDuration env.OTSYS_TIME else item.getInteger .duration)))
  | .attr type =>
    .attr (some (if type.isAttributeString then .string (item.getString type) else .integer (item.getInteger type)))
  | slot => item.slot slot

/-- The bytes of the item are read back to the last one: every slot that was written holds what it held, and every other
one what it holds in a fresh item. -/
def Restores (fresh : Item) : Prop :=
  ∃ loaded, unserializeAttr env fresh (serializeAttr env item []) = some (loaded, []) ∧
    ∀ slot, loaded.slot slot = if written env item slot then expected env item slot else fresh.slot slot

/-- Where `setSubType` writes. -/
def subTypeSlot : Slot :=
  let it := env.items item.id
  if it.group = .fluid ∨ it.group = .splash then .attr .fluidtype
  else if it.stackable then .count
  else if it.charges ≠ 0 then .attr .charges
  else .count

/-- The value of an attribute is one of the type that it is written with. -/
def Fits : AttributeType → Prop
  | .date | .decaystate => True
  | .duration => item.Running ∨ 0 ≤ item.getInteger .duration ∧ item.getInteger .duration < 2 ^ 31
  | .tier => uint8_t.InRange (item.getInteger .tier) ∧
      (item.getInteger .tier ≤ env.FORGE_MAX_ITEM_TIER ∨ item.getInteger .tier = 0)
  | type => type.isAttributeString = true ∨ (width type).InRange (item.getInteger type)

/-- Charges are only on a type with charges, the special text is not on the lamp of a hireling, and the values fit. -/
structure Faithful : Prop where
  charges : written env item (.attr .charges) = true → subTypeSlot env item = .attr .charges
  special : written env item (.attr .special) = true → item.id ≠ HIRELING_LAMP
  fits : ∀ type, written env item (.attr type) = true → Fits env item type

/-- What the record of a slot holds, where it writes the slot itself. -/
def decoded : Slot → SlotValue
  | .attr .decaystate => .attr (some (.integer DECAYING_PENDING.toNat))
  | .attr .duration => .attr (some (.integer (max 0 (int32_t.cast (item.getDuration env.OTSYS_TIME)))))
  | .attr .fluidtype => .attr (some (.integer (uint8_t.cast (item.getSubType env))))
  | .attr .charges => .attr (some (.integer (uint16_t.cast (item.getAttribute uint16_t .charges))))
  | .attr type =>
    .attr (some (if type.isAttributeString then .string (item.getString type)
      else .integer (int64_t.cast ((width type).cast (number env item type)))))
  | slot => item.slot slot

/-- The slot that a record writes. -/
def target : Slot → Slot
  | .count | .attr .fluidtype | .attr .charges => subTypeSlot env item
  | slot => slot

variable {env item}

/-! ### Slots after the setters -/

theorem slot_setAttribute (it : Item) (type : AttributeType) (n : Int) {k : Slot} (hk : k ≠ .attr type) :
    (it.setAttribute type n).slot k = it.slot k := by
  cases k with
  | count => rfl
  | custom => exact congrArg SlotValue.custom (custom_setAttribute it type n)
  | attr t =>
    refine congrArg SlotValue.attr ?_
    rw [value?_setAttribute, if_neg fun h => hk (congrArg Slot.attr h.1)]

theorem slot_setString (it : Item) (type : AttributeType) (s : List UInt8) {k : Slot} (hk : k ≠ .attr type) :
    (it.setString type s).slot k = it.slot k := by
  cases k with
  | count => rfl
  | custom => exact congrArg SlotValue.custom (custom_setString it type s)
  | attr t =>
    refine congrArg SlotValue.attr ?_
    rw [value?_setString, if_neg fun h => hk (congrArg Slot.attr h.1)]

theorem slot_removeAttribute {it : Item} (h : it.types.Nodup) (type : AttributeType) {k : Slot} (hk : k ≠ .attr type) :
    (it.removeAttribute type).slot k = it.slot k := by
  cases k with
  | count => rfl
  | custom => exact congrArg SlotValue.custom (custom_removeAttribute it type)
  | attr t =>
    refine congrArg SlotValue.attr ?_
    rw [value?_removeAttribute h, if_neg fun h => hk (congrArg Slot.attr h)]

theorem slot_addCustomAttribute (it : Item) (key : List UInt8) (a : CustomAttribute) {k : Slot} (hk : k ≠ .custom) :
    (it.addCustomAttribute key a).slot k = it.slot k := by
  cases k with
  | count => rfl
  | custom => exact absurd rfl hk
  | attr t => exact congrArg SlotValue.attr (value?_addCustomAttribute it key a t)

theorem slot_setSubType {it : Item} (hid : it.id = item.id) (n : UInt16) {k : Slot} (hk : k ≠ subTypeSlot env item) :
    (it.setSubType env.items n).slot k = it.slot k := by
  unfold subTypeSlot at hk
  unfold setSubType
  dsimp only at hk ⊢
  rw [hid]
  split_ifs at hk ⊢
  · exact slot_setAttribute it _ _ hk
  · cases k with
    | count => exact absurd rfl hk
    | _ => rfl
  · exact slot_setAttribute it _ _ hk
  · cases k with
    | count => exact absurd rfl hk
    | _ => rfl

theorem types_setAttribute {it : Item} (h : it.types.Nodup) (type : AttributeType) (n : Int) :
    (it.setAttribute type n).types.Nodup := by
  unfold types
  rw [setAttribute_vector]
  split_ifs
  · exact ItemAttribute.nodup_write h _ _
  · exact h

theorem types_setString {it : Item} (h : it.types.Nodup) (type : AttributeType) (s : List UInt8) :
    (it.setString type s).types.Nodup := by
  unfold types
  rw [setString_vector]
  split_ifs
  · exact ItemAttribute.nodup_write h _ _
  · exact h

theorem types_addCustomAttribute (it : Item) (key : List UInt8) (a : CustomAttribute) :
    (it.addCustomAttribute key a).types = it.types := by
  unfold types
  rw [← getD_vector it]
  rfl

/-! ### The updates -/

/-- An item that is being loaded: of the type of the saved one, and with each attribute once. -/
def Loading (item it : Item) : Prop := it.id = item.id ∧ it.types.Nodup

theorem loading_addCustom {it : Item} (h : Loading item it) (entries : List (List UInt8 × CustomAttribute)) :
    Loading item (entries.foldl (fun it a => it.addCustomAttribute a.1 a.2) it) := by
  induction entries generalizing it with
  | nil => exact h
  | cons a entries ih => exact ih ⟨h.1, (types_addCustomAttribute it a.1 a.2).symm ▸ h.2⟩

theorem loading_setSubType {it : Item} (h : Loading item it) (n : UInt16) :
    Loading item (it.setSubType env.items n) := by
  refine ⟨(id_setSubType env.items it n).trans h.1, ?_⟩
  unfold setSubType
  dsimp only
  split_ifs
  · exact types_setAttribute h.2 _ _
  · exact h.2
  · exact types_setAttribute h.2 _ _
  · exact h.2

theorem loading_restore {it : Item} (h : Loading item it) (s : Slot) : Loading item (restore env item it s) := by
  cases s with
  | count => exact loading_setSubType h _
  | custom => exact loading_addCustom h _
  | attr type =>
    cases type with
    | fluidtype | charges => exact loading_setSubType h _
    | special =>
      unfold restore
      dsimp only
      have htypes := types_setString h.2 .special (item.getString .special)
      split_ifs
      · refine ⟨h.1, ?_⟩
        rw [types_addCustomAttribute]
        exact nodup_removeAttribute htypes .special
      · exact ⟨h.1, htypes⟩
    | text | writer | description | name | article | pluralname | store_inbox_category | lootmessage_suffix =>
      exact ⟨h.1, types_setString h.2 _ _⟩
    | _ => exact ⟨h.1, types_setAttribute h.2 _ _⟩

theorem slot_addCustom (it : Item) (entries : List (List UInt8 × CustomAttribute)) {k : Slot} (hk : k ≠ .custom) :
    (entries.foldl (fun it a => it.addCustomAttribute a.1 a.2) it).slot k = it.slot k := by
  induction entries generalizing it with
  | nil => rfl
  | cons a entries ih => exact (ih _).trans (slot_addCustomAttribute it a.1 a.2 hk)

/-- A record writes its target, and that of the special text of a lamp the custom attributes. -/
theorem slot_restore_of_ne {it : Item} (h : Loading item it) {s k : Slot} (hk : k ≠ target env item s)
    (hlamp : s = .attr .special → item.id = HIRELING_LAMP → k ≠ .custom) :
    (restore env item it s).slot k = it.slot k := by
  cases s with
  | count => exact slot_setSubType h.1 _ hk
  | custom => exact slot_addCustom it _ hk
  | attr type =>
    cases type with
    | fluidtype | charges => exact slot_setSubType h.1 _ hk
    | special =>
      unfold restore
      dsimp only
      have hset := slot_setString it .special (item.getString .special) hk
      split_ifs with hid
      · have hcustom := hlamp rfl (h.1 ▸ hid)
        refine (slot_addCustomAttribute _ _ _ hcustom).trans ?_
        exact (slot_removeAttribute (types_setString h.2 _ _) .special hk).trans hset
      · exact hset
    | text | writer | description | name | article | pluralname | store_inbox_category | lootmessage_suffix =>
      exact slot_setString it _ _ hk
    | _ => exact slot_setAttribute it _ _ hk

variable (env item)

/-- Loading the records of a saved item. -/
def loads : Updates Item Slot Slot SlotValue where
  get := slot
  update s it := if written env item s then restore env item it s else it
  writes s k := written env item s = true ∧
    (k = target env item s ∨ s = .attr .special ∧ item.id = HIRELING_LAMP ∧ k = .custom)
  ok := Loading item
  ok_update s it h := by
    split_ifs
    · exact loading_restore h s
    · exact h
  frame s it k h hw := by
    split_ifs with hs
    · refine slot_restore_of_ne h (fun hk => hw ⟨hs, Or.inl hk⟩) fun hsp hid hk => ?_
      exact hw ⟨hs, Or.inr ⟨hsp, hid, hk⟩⟩
    · rfl

variable {env item}

theorem mem_order {s : Slot} (h : written env item s = true) : s ∈ order := by
  cases s with
  | count | custom => decide
  | attr type =>
    cases type with
    | uniqueid | corpseowner | doorid | duration_timestamp | custom | lootmessage_suffix | augments => cases h
    | _ => decide

theorem nodup_order : order.Nodup := by decide

/-- The whole stream is read. -/
theorem unserializeAttr_serializeAttr (h : item.Ok) (hsize : item.getCustomAttributeMap.length < 2 ^ 64)
    (fresh : Item) :
    unserializeAttr env fresh (serializeAttr env item []) = some ((loads env item).all order fresh, []) := by
  rw [serializeAttr_eq, List.nil_append]
  exact unserializeLoop_records h hsize order fresh (Nat.lt_succ_self _)

/-! ### The value of a record -/

theorem subTypeSlot_count (hw : written env item .count = true) : subTypeSlot env item = .count := by
  have hgroup := (env.items item.id).plain hw
  unfold subTypeSlot
  dsimp only
  rw [if_neg (by simp [hgroup])]
  exact if_pos hw

theorem subTypeSlot_fluid (hw : written env item (.attr .fluidtype) = true) :
    subTypeSlot env item = .attr .fluidtype := by
  unfold subTypeSlot
  exact if_pos (by simpa [written] using hw)

/-- Where charges are on a type with charges, each record writes its own slot. -/
theorem target_eq (hcharges : written env item (.attr .charges) = true → subTypeSlot env item = .attr .charges)
    {s : Slot} (hw : written env item s = true) : target env item s = s := by
  cases s with
  | count => exact subTypeSlot_count hw
  | custom => rfl
  | attr type =>
    cases type with
    | fluidtype => exact subTypeSlot_fluid hw
    | charges => exact hcharges hw
    | _ => rfl

theorem toNat_ofInt {n : Int} (h : uint16_t.InRange n) : ((UInt16.ofInt n).toNat : Int) = n := by
  obtain ⟨hpos, hlt⟩ := inRange_uint16.mp h
  rw [UInt16.ofInt, UInt16.toNat_ofNat']
  omega

theorem inRange_widen {n : Int} (h : uint8_t.InRange n) : uint16_t.InRange n := by
  obtain ⟨hpos, hlt⟩ := inRange_uint8.mp h
  exact inRange_uint16.mpr (by omega)

/-- The custom attributes come back in their order. -/
theorem custom_addCustom {entries : List (List UInt8 × CustomAttribute)}
    (hlower : ∀ a ∈ entries, asLowerCaseString a.1 = a.1) (it : Item) :
    (entries.foldl (fun it a => it.addCustomAttribute a.1 a.2) it).getCustomAttributeMap =
      entries.foldl (fun m a => SortedMap.insert a.1 a.2 m) it.getCustomAttributeMap := by
  induction entries generalizing it with
  | nil => rfl
  | cons a entries ih =>
    rw [List.foldl_cons, ih fun b hb => hlower b (List.mem_cons_of_mem _ hb), custom_addCustomAttribute,
      hlower a List.mem_cons_self]
    rfl

theorem value?_setInteger (it : Item) {type : AttributeType} (h : type.isAttributeInteger = true) (n : Int) :
    (it.setAttribute type n).slot (.attr type) = .attr (some (.integer n)) := by
  refine congrArg SlotValue.attr ?_
  rw [value?_setAttribute, if_pos ⟨rfl, h⟩]

theorem value?_setText (it : Item) {type : AttributeType} (h : type.isAttributeString = true) {s : List UInt8}
    (hs : s ≠ []) : (it.setString type s).slot (.attr type) = .attr (some (.string s)) := by
  refine congrArg SlotValue.attr ?_
  rw [value?_setString, if_pos ⟨rfl, h, hs⟩]

/-- A string attribute that an item has is not empty. -/
theorem getString_ne_nil (h : item.Ok) {type : AttributeType} (hs : type.isAttributeString = true)
    (hi : type.isAttributeInteger = false) (hhas : item.hasAttribute type = true) : item.getString type ≠ [] := by
  rw [hasAttribute_eq] at hhas
  unfold value? at hhas
  unfold getString
  rw [if_pos hs]
  cases hfind : item.getAttributeVector.find? (fun a => a.type = type) with
  | none =>
    rw [hfind] at hhas
    cases hhas
  | some a =>
    have hok := h.attributes a (List.mem_of_find?_eq_some hfind)
    have hat : a.type = type := by simpa using List.find?_some hfind
    dsimp only [Option.map_some, Option.getD_some]
    unfold Attribute.Ok at hok
    unfold Attribute.getString
    cases hv : a.value with
    | integer n =>
      rw [hv, hat, hi] at hok
      cases hok.1
    | string s =>
      rw [hv] at hok
      exact hok.2.1

theorem slot_restore {it : Item} (hok : item.Ok) (h : Loading item it) {s : Slot} (hw : written env item s = true)
    (htarget : target env item s = s) (hlamp : s = .attr .special → item.id ≠ HIRELING_LAMP)
    (hcustom : s = .custom → it.getCustomAttributeMap = []) :
    (restore env item it s).slot s = decoded env item s := by
  cases s with
  | count =>
    have hs : (env.items item.id).stackable = true := hw
    have hgroup := (env.items item.id).plain hs
    have hsub : item.getSubType env = item.count.toNat := by
      unfold getSubType
      simp [hs, hgroup]
    have hrange : uint8_t.InRange item.count.toNat := inRange_uint8.mpr ⟨Int.natCast_nonneg _, by
      have := item.count.toNat_lt
      omega⟩
    unfold restore setSubType
    dsimp only
    rw [h.1, if_neg (by simp [hgroup]), if_pos hs, hsub, (uint8_t.cast_eq_iff _).mpr hrange]
    have htoNat := toNat_ofInt (inRange_widen hrange)
    change SlotValue.count (.ofNat _) = SlotValue.count item.count
    rw [Int.ofNat_inj.mp htoNat, UInt8.ofNat_toNat]
  | custom =>
    refine congrArg SlotValue.custom ?_
    refine (custom_addCustom (fun a ha => (hok.custom a ha).1) it).trans ?_
    rw [hcustom rfl]
    exact SortedMap.foldl_insert hok.sorted
  | attr type =>
    cases type with
    | fluidtype =>
      have hf : (env.items item.id).group = .fluid ∨ (env.items item.id).group = .splash := by simpa [written] using hw
      unfold restore setSubType
      dsimp only
      rw [h.1, if_pos hf, toNat_ofInt (inRange_widen (uint8_t.inRange_cast _))]
      exact value?_setInteger it rfl _
    | charges =>
      have hsub : subTypeSlot env item = .attr .charges := htarget
      unfold subTypeSlot at hsub
      dsimp only at hsub
      unfold restore setSubType
      dsimp only
      rw [h.1, toNat_ofInt (uint16_t.inRange_cast _)]
      split_ifs at hsub ⊢
      · cases hsub
      · exact value?_setInteger it rfl _
    | special =>
      have hid : ¬(it.setString .special (item.getString .special)).id = HIRELING_LAMP :=
        fun hid => hlamp rfl (h.1.symm.trans hid)
      unfold restore
      dsimp only
      rw [if_neg hid]
      exact value?_setText it rfl (getString_ne_nil hok rfl rfl hw)
    | text | writer | description =>
      refine value?_setText it rfl ?_
      simpa [written] using hw
    | name | article | pluralname | store_inbox_category =>
      exact value?_setText it rfl (getString_ne_nil hok rfl rfl hw)
    | uniqueid | corpseowner | doorid | duration_timestamp | custom | lootmessage_suffix | augments => cases hw
    | _ => exact value?_setInteger it rfl _

/-! ### Which values come back -/

theorem inRange_getInteger (h : item.Ok) (type : AttributeType) : int64_t.InRange (item.getInteger type) := by
  have hzero : int64_t.InRange 0 := by decide
  unfold getInteger
  split_ifs
  · cases hfind : item.getAttributeVector.find? (fun a => a.type = type) with
    | none => exact hzero
    | some a =>
      have hok := h.attributes a (List.mem_of_find?_eq_some hfind)
      unfold Attribute.Ok at hok
      dsimp only [Option.map_some, Option.getD_some]
      unfold Attribute.getInteger
      cases hv : a.value with
      | integer n =>
        rw [hv] at hok
        exact hok.2
      | string s => exact hzero
  · exact hzero

/-- Whatever is written with less than 64 bits, or with a sign, is an `int64_t`. -/
theorem cast_width {type : AttributeType} (h : type ≠ .date) (n : Int) :
    int64_t.cast ((width type).cast n) = (width type).cast n := by
  refine (int64_t.cast_eq_iff _).mpr ?_
  have hrange := (width type).inRange_cast n
  generalize (width type).cast n = m at hrange ⊢
  have hsmall : ∀ t : IntType, t ∈ [int8_t, uint8_t, uint16_t, int32_t, uint32_t, int64_t] →
      t.InRange m → int64_t.InRange m := by
    intro t ht h
    simp only [List.mem_cons, List.not_mem_nil, or_false] at ht
    rw [inRange_int64]
    rcases ht with rfl | rfl | rfl | rfl | rfl | rfl
    · change -((2 ^ 8 : Nat) : Int) ≤ m * 2 ∧ m * 2 < ((2 ^ 8 : Nat) : Int) at h
      omega
    · change 0 ≤ m ∧ m < ((2 ^ 8 : Nat) : Int) at h
      omega
    · change 0 ≤ m ∧ m < ((2 ^ 16 : Nat) : Int) at h
      omega
    · have := inRange_int32.mp h
      omega
    · change 0 ≤ m ∧ m < ((2 ^ 32 : Nat) : Int) at h
      omega
    · exact inRange_int64.mp h
  refine hsmall (width type) ?_ hrange
  cases type with
  | date => exact absurd rfl h
  | _ => simp [width]

theorem width_eq_iff {type : AttributeType} (h : type ≠ .date) :
    int64_t.cast ((width type).cast (item.getAttribute (width type) type)) = item.getInteger type ↔
      (width type).InRange (item.getInteger type) := by
  rw [cast_width h, getAttribute, IntType.cast_cast]
  exact IntType.cast_eq_iff _ _

theorem date_eq (h : item.Ok) :
    int64_t.cast (uint64_t.cast (item.getAttribute uint64_t .date)) = item.getInteger .date := by
  rw [getAttribute, IntType.cast_cast]
  have hcast : int64_t.cast (uint64_t.cast (item.getInteger .date)) = int64_t.cast (item.getInteger .date) :=
    int64_t.cast_emod _
  rw [hcast]
  exact (int64_t.cast_eq_iff _).mpr (inRange_getInteger h .date)

theorem tier_eq_iff (hhas : item.hasAttribute .tier = true) :
    int64_t.cast (uint8_t.cast (item.getTier env)) = item.getInteger .tier ↔ Fits env item .tier := by
  have hzero : uint8_t.InRange 0 := by decide
  have hrange := uint8_t.inRange_cast (item.getInteger .tier)
  have hcast := uint8_t.cast_eq_iff (item.getInteger .tier)
  have hne : AttributeType.tier ≠ .date := nofun
  have hwidth : width .tier = uint8_t := rfl
  have hwide := cast_width hne (item.getTier env)
  rw [hwidth] at hwide
  rw [hwide]
  unfold getTier Fits getAttribute
  rw [hhas, if_neg (by simp)]
  dsimp only
  split_ifs with hmax
  · rw [(uint8_t.cast_eq_iff 0).mpr hzero]
    constructor
    · intro h
      rw [← h]
      exact ⟨hzero, Or.inr rfl⟩
    · rintro ⟨hr, hle | h0⟩
      · rw [hcast.mpr hr] at hmax
        omega
      · exact h0.symm
  · rw [IntType.cast_cast, hcast]
    refine ⟨fun hr => ⟨hr, Or.inl ?_⟩, fun h => h.1⟩
    rw [hcast.mpr hr] at hmax
    omega

theorem duration_eq_iff : max 0 (int32_t.cast (item.getDuration env.OTSYS_TIME)) =
    (if item.Running then item.getDuration env.OTSYS_TIME else item.getInteger .duration) ↔
      Fits env item .duration := by
  unfold Fits
  by_cases hrun : item.Running
  · have hduration : item.getDuration env.OTSYS_TIME =
        max 0 (Int32.ofInt (item.getInteger .duration_timestamp) - env.OTSYS_TIME.toInt32).toInt := if_pos hrun
    have hlt := (Int32.ofInt (item.getInteger .duration_timestamp) - env.OTSYS_TIME.toInt32).toInt_lt
    rw [if_pos hrun, hduration, (int32_t.cast_eq_iff _).mpr (inRange_int32.mpr (by omega))]
    exact iff_of_true (by omega) (Or.inl hrun)
  · have hduration : item.getDuration env.OTSYS_TIME = int32_t.cast (item.getInteger .duration) := if_neg hrun
    have hcast := int32_t.cast_eq_iff (item.getInteger .duration)
    rw [if_neg hrun, hduration, IntType.cast_cast]
    rw [inRange_int32] at hcast
    constructor
    · intro h
      obtain ⟨hle, hlt⟩ := inRange_int32.mp (int32_t.inRange_cast (item.getInteger .duration))
      exact Or.inr (by omega)
    · rintro (h | ⟨hpos, hlt⟩)
      · exact absurd h hrun
      · rw [hcast.mpr (by omega)]
        omega

theorem integer_eq_iff (m n : Int) : SlotValue.attr (some (.integer m)) = .attr (some (.integer n)) ↔ m = n := by
  constructor
  · intro h
    cases h
    rfl
  · exact fun h => h ▸ rfl

theorem fits_integer {type : AttributeType} (hs : type.isAttributeString = false) (p : Prop) :
    type.isAttributeString = true ∨ p ↔ p := or_iff_right (by simp [hs])

theorem plain_eq_iff {type : AttributeType} (hs : type.isAttributeString = false) (hdate : type ≠ .date) :
    SlotValue.attr (some (.integer (int64_t.cast ((width type).cast (item.getAttribute (width type) type))))) =
        .attr (some (.integer (item.getInteger type))) ↔
      type.isAttributeString = true ∨ (width type).InRange (item.getInteger type) :=
  (integer_eq_iff _ _).trans ((width_eq_iff hdate).trans (fits_integer hs _).symm)

theorem fluidtype_eq_iff (hf : (env.items item.id).group = .fluid ∨ (env.items item.id).group = .splash) :
    uint8_t.cast (item.getSubType env) = item.getInteger .fluidtype ↔ uint8_t.InRange (item.getInteger .fluidtype) := by
  have hsub : item.getSubType env = uint16_t.cast (item.getInteger .fluidtype) := by
    unfold getSubType
    exact if_pos hf
  rw [hsub]
  have hrange := uint8_t.inRange_cast (uint16_t.cast (item.getInteger .fluidtype))
  constructor
  · intro h
    rwa [h] at hrange
  · intro hr
    rw [(uint16_t.cast_eq_iff _).mpr (inRange_widen hr)]
    exact (uint8_t.cast_eq_iff _).mpr hr

/-- A record holds what its slot is to get back if the value fits. -/
theorem decoded_eq_iff (h : item.Ok) {type : AttributeType} (hw : written env item (.attr type) = true) :
    decoded env item (.attr type) = expected env item (.attr type) ↔ Fits env item type := by
  cases type with
  | date => exact iff_of_true ((integer_eq_iff _ _).mpr (date_eq h)) trivial
  | decaystate => exact iff_of_true rfl trivial
  | duration => exact (integer_eq_iff _ _).trans duration_eq_iff
  | tier => exact (integer_eq_iff _ _).trans (tier_eq_iff hw)
  | fluidtype =>
    have hf : (env.items item.id).group = .fluid ∨ (env.items item.id).group = .splash := by simpa [written] using hw
    exact ((integer_eq_iff _ _).trans (fluidtype_eq_iff hf)).trans (fits_integer rfl _).symm
  | charges =>
    refine (integer_eq_iff _ _).trans (Iff.trans ?_ (fits_integer rfl _).symm)
    rw [getAttribute, IntType.cast_cast]
    exact uint16_t.cast_eq_iff _
  | text | writer | description | name | article | pluralname | special | store_inbox_category =>
    exact iff_of_true rfl (Or.inl rfl)
  | uniqueid | corpseowner | doorid | duration_timestamp | custom | lootmessage_suffix | augments => cases hw
  | store | actionid | weight | attack | defense | extradefense | imbuement_slot | opencontainer | armor | hitchance
  | shootrange | quicklootcontainer | amount | owner | obtaincontainer => exact plain_eq_iff rfl (by rintro ⟨⟩)

/-! ### A fresh item -/

theorem value?_setDuration (it : Item) (time : Int) : (it.setDuration time).value? .charges = it.value? .charges := by
  unfold setDuration
  rw [value?_setAttribute, if_neg nofun]

/-- A fresh item has no custom attributes. -/
theorem custom_make (items : UInt16 → ItemType) (itemId m : UInt16) :
    (make items itemId m).getCustomAttributeMap = [] := by
  have hnew : ∀ n, (⟨itemId, n, none, none, none⟩ : Item).getCustomAttributeMap = [] := fun _ => rfl
  unfold make
  dsimp only
  split_ifs <;> simp [setDuration, setItemCount, custom_setAttribute, hnew]

variable (env item) in
theorem loading_make (m : UInt16) : Loading item (make env.items item.id m) := by
  refine ⟨?_, (ok_make env.items item.id m).types⟩
  unfold make
  dsimp only
  split_ifs <;> rfl

/-- Only an item of a type with charges is made with charges. -/
theorem charges_make (hslot : subTypeSlot env item ≠ .attr .charges) (m : UInt16) :
    (make env.items item.id m).value? .charges = none := by
  have hnew : ∀ n, (⟨item.id, n, none, none, none⟩ : Item).value? .charges = none := fun _ => rfl
  unfold subTypeSlot at hslot
  unfold make
  dsimp only at hslot ⊢
  split_ifs at hslot ⊢ <;> simp_all [value?_setDuration, setItemCount]

/-! ### Saving and loading -/

/-- Where no record writes the slot of another one, each slot has its own value in the end. -/
theorem slot_loads (h : item.Ok) (m : UInt16)
    (hcharges : written env item (.attr .charges) = true → subTypeSlot env item = .attr .charges)
    (hspecial : written env item (.attr .special) = true → item.id ≠ HIRELING_LAMP) (k : Slot) :
    ((loads env item).all order (make env.items item.id m)).slot k =
      if written env item k then decoded env item k else (make env.items item.id m).slot k := by
  have hfresh := loading_make env item m
  have howner : ∀ {s : Slot}, (loads env item).writes s k → k = s := by
    rintro s ⟨hs, rfl | ⟨rfl, hid, -⟩⟩
    · exact target_eq hcharges hs
    · exact absurd hid (hspecial hs)
  split_ifs with hw
  · refine (loads env item).get_written hfresh nodup_order (mem_order hw)
      (fun s _ hne hs => hne (howner hs).symm) fun it hit hsame => ?_
    change (if written env item k then restore env item it k else it).slot k = _
    rw [if_pos hw]
    refine slot_restore h hit hw (target_eq hcharges hw) (fun hk => hspecial (hk ▸ hw)) ?_
    rintro rfl
    have hmap : SlotValue.custom it.getCustomAttributeMap = .custom (make env.items item.id m).getCustomAttributeMap :=
      hsame
    rw [custom_make] at hmap
    exact SlotValue.custom.inj hmap
  · refine (loads env item).get_unwritten hfresh fun s _ hs => hw ?_
    rw [howner hs]
    exact hs.1

/-- The charges of an item of a type without charges are lost. -/
theorem slot_charges_loads (hslot : subTypeSlot env item ≠ .attr .charges) (m : UInt16) :
    ((loads env item).all order (make env.items item.id m)).slot (.attr .charges) = .attr none := by
  have hnone : (make env.items item.id m).slot (.attr .charges) = .attr none :=
    congrArg SlotValue.attr (charges_make hslot m)
  refine ((loads env item).get_unwritten (k := .attr .charges) (loading_make env item m) ?_).trans hnone
  rintro s - ⟨-, hs | ⟨-, -, hs⟩⟩
  · unfold target at hs
    split at hs
    · exact hslot hs.symm
    · exact hslot hs.symm
    · exact hslot hs.symm
    · subst hs
      contradiction
  · cases hs

theorem subTypeSlot_ne (type : AttributeType) (hf : type ≠ .fluidtype) (hc : type ≠ .charges) :
    subTypeSlot env item ≠ .attr type := by
  unfold subTypeSlot
  dsimp only
  split_ifs <;> intro h <;> cases h <;> contradiction

/-- The special text of the lamp of a hireling becomes a custom attribute. -/
theorem slot_special_loads (hw : written env item (.attr .special) = true) (hid : item.id = HIRELING_LAMP) (m : UInt16) :
    ((loads env item).all order (make env.items item.id m)).slot (.attr .special) = .attr none := by
  refine (loads env item).get_written (k := .attr .special) (loading_make env item m) nodup_order (mem_order hw) ?_ fun it hit _ => ?_
  · rintro s - hne ⟨-, hs | ⟨-, -, hs⟩⟩
    · unfold target at hs
      split at hs
      · exact subTypeSlot_ne .special nofun nofun hs.symm
      · exact subTypeSlot_ne .special nofun nofun hs.symm
      · exact subTypeSlot_ne .special nofun nofun hs.symm
      · exact hne hs.symm
    · cases hs
  · change (if written env item (.attr .special) then restore env item it (.attr .special) else it).slot
      (.attr .special) = .attr none
    rw [if_pos hw]
    unfold restore
    dsimp only
    have htype : (it.setString .special (item.getString .special)).id = HIRELING_LAMP := hit.1.trans hid
    rw [if_pos htype]
    refine congrArg SlotValue.attr ?_
    rw [value?_addCustomAttribute, value?_removeAttribute (types_setString hit.2 _ _), if_pos rfl]

theorem restores_iff (h : item.Ok) (hsize : item.getCustomAttributeMap.length < 2 ^ 64) (m : UInt16) :
    Restores env item (make env.items item.id m) ↔ Faithful env item := by
  unfold Restores
  rw [unserializeAttr_serializeAttr h hsize]
  constructor
  · rintro ⟨loaded, heq, hslots⟩
    obtain ⟨rfl, -⟩ := Prod.mk.inj (Option.some.inj heq)
    have hcharges : written env item (.attr .charges) = true → subTypeSlot env item = .attr .charges := by
      intro hw
      by_contra hslot
      have hslots := hslots (.attr .charges)
      rw [slot_charges_loads hslot, if_pos hw] at hslots
      cases hslots
    have hspecial : written env item (.attr .special) = true → item.id ≠ HIRELING_LAMP := by
      intro hw hid
      have hslots := hslots (.attr .special)
      rw [slot_special_loads hw hid, if_pos hw] at hslots
      cases hslots
    refine ⟨hcharges, hspecial, fun type hw => (decoded_eq_iff h hw).mp ?_⟩
    have hslots := hslots (.attr type)
    rwa [slot_loads h m hcharges hspecial, if_pos hw, if_pos hw] at hslots
  · intro hf
    refine ⟨_, rfl, fun k => ?_⟩
    rw [slot_loads h m hf.charges hf.special]
    split_ifs with hw
    · cases k with
      | count | custom => rfl
      | attr type => exact (decoded_eq_iff h hw).mpr (hf.fits type hw)
    · rfl

/-- An item comes back from the bytes it was saved as exactly if each of its attributes can be held by its type and by
the bytes that are written of it. -/
theorem restores_set (env : ItemEnv) (itemId n m : UInt16) {ops : List Setter} (hs : ∀ op ∈ ops, op.Short)
    (hsize : (set env itemId n ops).getCustomAttributeMap.length < 2 ^ 64) :
    Restores env (set env itemId n ops) (make env.items itemId m) ↔ Faithful env (set env itemId n ops) := by
  obtain ⟨hok, hid⟩ := ok_set env itemId n hs
  have hiff : Restores env (set env itemId n ops) (make env.items (set env itemId n ops).id m) ↔ _ :=
    restores_iff hok hsize m
  rwa [hid] at hiff

/-- Plain types, of which the arrows alone stack. -/
def plainEnv : ItemEnv where
  items id := ⟨id, .none, id = 3447, 100, 10, 0, 0, 0, false, true, true, false, false, false, .none, 0, fun _ => rfl⟩
  upgradeClassification _ := 0
  FORGE_MAX_ITEM_TIER := 10
  OTSYS_TIME := 1000
  getTimeNow := 1
  addUniqueItem _ := true

/-- A letter that decays, with a custom attribute. -/
def letter : List Setter :=
  [.setString .text [72, 105], .setAttribute .weight 250, .setDuration 5000, .setDecaying DECAYING_TRUE,
    .setCustomAttribute [75, 101, 121] (.boolean true)]

theorem restores_set_letter :
    Restores plainEnv (set plainEnv 2819 1 letter) (make plainEnv.items 2819 1) := by
  refine (restores_set plainEnv 2819 1 1 ?_ (by decide)).mpr ⟨?_, ?_, fun type hw => ?_⟩
  · simp [letter, Setter.Short, CustomAttribute.Short]
  · intro hw
    exact absurd hw (by decide)
  · intro hw
    exact absurd hw (by decide)
  · cases type with
    | duration => exact Or.inl (by decide)
    | decaystate => trivial
    | text => exact Or.inl rfl
    | weight => exact Or.inr (by decide)
    | _ => exact absurd hw (by decide)

/-- Fifty arrows with five charges come back as five arrows without charges. -/
theorem not_restores_charges :
    ¬Restores plainEnv (set plainEnv 3447 50 [.setAttribute .charges 5]) (make plainEnv.items 3447 50) := by
  rintro ⟨loaded, heq, hslots⟩
  have hload : (unserializeAttr plainEnv (make plainEnv.items 3447 50)
      (serializeAttr plainEnv (set plainEnv 3447 50 [.setAttribute .charges 5]) [])).map (fun p => p.1.count) =
        some 5 := by decide
  rw [heq] at hload
  have hfive : loaded.count = 5 := Option.some.inj hload
  have hcount := hslots .count
  rw [if_pos (by decide)] at hcount
  exact absurd (hfive.symm.trans (SlotValue.count.inj hcount)) (by decide)

end Item
end CrystalServer
