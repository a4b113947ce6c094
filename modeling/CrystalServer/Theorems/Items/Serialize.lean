import CrystalServer.Items.Serialize
import CrystalServer.Lib.Updates
import CrystalServer.Theorems.Io.PropStream
import CrystalServer.Theorems.Items.Attributes

/-! # The stream of an item

A saved item is a sequence of records, a tag and a value each, one for every slot that is written. Loading takes them
one after the other, each with its effect on the item. -/

namespace CrystalServer
open Lib PropStream PropWriteStream

/-- What an item can have a record of: its count, each of its attributes, and the custom attributes together. -/
inductive Slot
  | count
  | attr (type : AttributeType)
  | custom
  deriving DecidableEq

/-! ### Bytes -/

/-- The bytes that `writeString` appends. -/
def textBytes (str : List UInt8) : List UInt8 := writeString str []

theorem writeString_eq (str buffer : List UInt8) : writeString str buffer = buffer ++ textBytes str := by
  unfold textBytes writeString write
  split_ifs <;> simp

theorem readString_text {str : List UInt8} (h : str.length ≤ 65535) (rest : PropStream) :
    readString (textBytes str ++ rest) = some (str, rest) := by
  unfold textBytes writeString write
  rw [if_neg (by omega)]
  exact readString_bytes (by omega) rest

namespace CustomAttribute

/-- The bytes that `serialize` appends. -/
def bytes (a : CustomAttribute) : List UInt8 := a.serialize []

theorem serialize_eq (a : CustomAttribute) (buffer : List UInt8) : a.serialize buffer = buffer ++ a.bytes := by
  cases a <;> simp [bytes, serialize, writeString_eq, writeInt, write]

theorem unserialize_bytes {a : CustomAttribute} (h : a.Short) (rest : PropStream) :
    unserialize (a.bytes ++ rest) = some (a, rest) := by
  cases a with
  | string s =>
    simp only [bytes, serialize, writeString_eq, writeInt, List.nil_append, List.append_assoc]
    rw [unserialize, readInt_encode]
    dsimp only
    rw [if_pos (by decide), readString_text h]
    rfl
  | integer n =>
    simp only [bytes, serialize, writeInt, List.nil_append, List.append_assoc]
    rw [unserialize, readInt_encode]
    dsimp only
    rw [if_neg (by decide), if_pos (by decide), readInt_encode,
      (int64_t.cast_eq_iff _).mpr (inRange_int64.mpr ⟨n.le_toInt, n.toInt_lt⟩), Option.map_some, Int64.ofInt_toInt]
  | double bits =>
    simp only [bytes, serialize, writeInt, write, List.nil_append, List.append_assoc]
    rw [unserialize, readInt_encode]
    dsimp only
    rw [if_neg (by decide), if_neg (by decide), if_pos (by decide), readU64_bytes]
    rfl
  | boolean b =>
    simp only [bytes, serialize, writeInt, List.nil_append, List.append_assoc]
    rw [unserialize, readInt_encode]
    dsimp only
    rw [if_neg (by decide), if_neg (by decide), if_neg (by decide), if_pos (by decide), readInt_encode]
    cases b <;> rfl

end CustomAttribute

namespace AttrTypes_t

theorem ofByte_toByte (attr : AttrTypes_t) : ofByte attr.toByte = some attr := by cases attr <;> rfl

theorem toByte_ne_zero (attr : AttrTypes_t) : attr.toByte ≠ 0 := by cases attr <;> decide

end AttrTypes_t

namespace Item
variable (env : ItemEnv) (item : Item)

/-! ### Records -/

/-- The integer type that an attribute is written with. -/
def width : AttributeType → IntType
  | .store => int64_t
  | .date => uint64_t
  | .weight | .quicklootcontainer | .owner | .obtaincontainer => uint32_t
  | .actionid | .charges | .amount => uint16_t
  | .fluidtype | .decaystate | .opencontainer | .shootrange | .tier => uint8_t
  | .hitchance => int8_t
  | _ => int32_t

/-- What `serializeAttr` writes. -/
def written : Slot → Bool
  | .count => (env.items item.id).stackable
  | .custom => item.getCustomAttributeMap ≠ []
  | .attr .fluidtype => (env.items item.id).group = .fluid ∨ (env.items item.id).group = .splash
  | .attr .actionid => (env.items item.id).movable ∧ item.getAttribute uint16_t .actionid ≠ 0
  | .attr .decaystate => item.getDecaying = DECAYING_TRUE ∨ item.getDecaying = DECAYING_PENDING
  | .attr type =>
    match type with
    | .store | .charges | .date => item.getAttribute (width type) type ≠ 0
    | .text | .writer | .description => item.getString type ≠ []
    | .uniqueid | .corpseowner | .doorid | .duration_timestamp | .custom | .lootmessage_suffix | .augments => false
    | type => item.hasAttribute type

/-- The order of the records. -/
def order : List Slot :=
  [.attr .store, .count, .attr .fluidtype, .attr .charges, .attr .actionid, .attr .text,
    .attr .date, .attr .writer, .attr .description, .attr .duration, .attr .decaystate,
    .attr .name, .attr .article, .attr .pluralname, .attr .weight, .attr .attack,
    .attr .defense, .attr .extradefense, .attr .imbuement_slot, .attr .opencontainer,
    .attr .armor, .attr .hitchance, .attr .shootrange, .attr .special,
    .attr .quicklootcontainer, .attr .tier, .attr .amount, .attr .store_inbox_category,
    .attr .owner, .custom, .attr .obtaincontainer]

def tag : Slot → AttrTypes_t
  | .count => .ATTR_COUNT
  | .custom => .ATTR_CUSTOM
  | .attr type =>
    match type with
    | .store => .ATTR_STORE | .fluidtype => .ATTR_COUNT | .charges => .ATTR_CHARGES | .actionid => .ATTR_ACTION_ID
    | .text => .ATTR_TEXT | .date => .ATTR_WRITTENDATE | .writer => .ATTR_WRITTENBY | .description => .ATTR_DESC
    | .duration => .ATTR_DURATION | .decaystate => .ATTR_DECAYING_STATE | .name => .ATTR_NAME
    | .article => .ATTR_ARTICLE | .pluralname => .ATTR_PLURALNAME | .weight => .ATTR_WEIGHT | .attack => .ATTR_ATTACK
    | .defense => .ATTR_DEFENSE | .extradefense => .ATTR_EXTRADEFENSE | .imbuement_slot => .ATTR_IMBUEMENT_SLOT
    | .opencontainer => .ATTR_OPENCONTAINER | .armor => .ATTR_ARMOR | .hitchance => .ATTR_HITCHANCE
    | .shootrange => .ATTR_SHOOTRANGE | .special => .ATTR_SPECIAL | .quicklootcontainer => .ATTR_QUICKLOOTCONTAINER
    | .tier => .ATTR_TIER | .amount => .ATTR_AMOUNT | .store_inbox_category => .ATTR_STORE_INBOX_CATEGORY
    | .owner => .ATTR_OWNER | .obtaincontainer => .ATTR_OBTAINCONTAINER
    | _ => .ATTR_ITEM

/-- The integer that is written for an attribute. -/
def number : AttributeType → Int
  | .fluidtype => item.getSubType env
  | .duration => item.getDuration env.OTSYS_TIME
  | .decaystate => item.getDecaying.toNat
  | .tier => item.getTier env
  | type => item.getAttribute (width type) type

def payload : Slot → List UInt8
  | .count => uint8_t.encode (item.getSubType env)
  | .custom => uint64_t.encode item.getCustomAttributeMap.length ++
      item.getCustomAttributeMap.flatMap fun a => textBytes a.1 ++ a.2.bytes
  | .attr type =>
    if type.isAttributeString then textBytes (item.getString type) else (width type).encode (number env item type)

def record (slot : Slot) : List UInt8 := if written env item slot then (tag slot).toByte :: payload env item slot else []

theorem writeInteger_eq (present : Bool) (attr : AttrTypes_t) (t : IntType) (n : Int) (buffer : List UInt8) :
    writeInteger present attr t n buffer = buffer ++ if present then attr.toByte :: t.encode n else [] := by
  unfold writeInteger writeInt write
  cases present <;> simp [LittleEndian.bytes]

theorem writeText_eq (present : Bool) (attr : AttrTypes_t) (str buffer : List UInt8) :
    writeText present attr str buffer = buffer ++ if present then attr.toByte :: textBytes str else [] := by
  unfold writeText
  rw [writeString_eq, write]
  cases present <;> simp [LittleEndian.bytes]

theorem writeCustom_eq (buffer : List UInt8) :
    writeCustom item.getCustomAttributeMap buffer = buffer ++ record env item .custom := by
  have hentries : ∀ (l : List (List UInt8 × CustomAttribute)) (buffer : List UInt8),
      l.foldl (fun buffer a => a.2.serialize (writeString a.1 buffer)) buffer =
        buffer ++ l.flatMap fun a => textBytes a.1 ++ a.2.bytes := by
    intro l
    induction l with
    | nil => simp
    | cons a l ih =>
      intro buffer
      rw [List.foldl_cons, ih, CustomAttribute.serialize_eq, writeString_eq]
      simp
  unfold writeCustom record
  by_cases hne : item.getCustomAttributeMap = []
  · simp [hne, written]
  · rw [if_pos hne, if_pos (by simpa [written] using hne), hentries, writeInt, write]
    simp [LittleEndian.bytes, payload, tag]

/-- The count and the fluid have one record between them. -/
theorem record_count : (if decide ((env.items item.id).stackable = true ∨ (env.items item.id).group = .fluid ∨
      (env.items item.id).group = .splash) = true then
        AttrTypes_t.ATTR_COUNT.toByte :: uint8_t.encode (item.getSubType env) else []) =
      record env item .count ++ record env item (.attr .fluidtype) := by
  have hplain := (env.items item.id).plain
  unfold record written
  by_cases hs : (env.items item.id).stackable = true
  · have hgroup := hplain hs
    simp [hs, hgroup, tag, payload]
  · by_cases hf : (env.items item.id).group = .fluid ∨ (env.items item.id).group = .splash
    · simp [hs, hf, tag, payload, number, width, AttributeType.isAttributeString]
    · simp [hs, hf]

/-- What is saved is the records in their order. -/
theorem serializeAttr_eq (buffer : List UInt8) :
    serializeAttr env item buffer = buffer ++ order.flatMap (record env item) := by
  unfold serializeAttr
  simp only [writeInteger_eq, writeText_eq, writeCustom_eq env, List.append_assoc]
  rw [record_count]
  simp only [order, List.flatMap_cons, List.flatMap_nil, List.append_nil, List.append_assoc]
  rfl

/-! ### Loading a record -/

/-- What loading the record of a slot does to an item. -/
def restore (it : Item) : Slot → Item
  | .count => it.setSubType env.items (.ofInt (uint8_t.cast (item.getSubType env)))
  | .custom => item.getCustomAttributeMap.foldl (fun it a => it.addCustomAttribute a.1 a.2) it
  | .attr type =>
    match type with
    | .fluidtype => it.setSubType env.items (.ofInt (uint8_t.cast (item.getSubType env)))
    | .charges => it.setSubType env.items (.ofInt (uint16_t.cast (item.getAttribute uint16_t .charges)))
    | .duration => it.setDuration (int32_t.cast (item.getDuration env.OTSYS_TIME))
    | .decaystate => it.setDecaying DECAYING_PENDING
    | .special =>
      let it := it.setString .special (item.getString .special)
      if it.id = HIRELING_LAMP then
        (it.removeAttribute .special).addCustomAttribute "Hireling".toUTF8.toList
          (.integer (.ofInt (atoi (item.getString .special))))
      else it
    | type =>
      if type.isAttributeString then it.setString type (item.getString type)
      else it.setAttribute type (int64_t.cast ((width type).cast (number env item type)))

variable {env item}

theorem getString_short (h : item.Ok) (type : AttributeType) : (item.getString type).length ≤ 65535 := by
  unfold getString
  split_ifs
  · cases hfind : item.getAttributeVector.find? (fun a => a.type = type) with
    | none => exact Nat.zero_le _
    | some a =>
      have hok := h.attributes a (List.mem_of_find?_eq_some hfind)
      unfold Attribute.Ok at hok
      dsimp only [Option.map_some, Option.getD_some]
      unfold Attribute.getString
      cases hv : a.value with
      | integer n => exact Nat.zero_le _
      | string s =>
        rw [hv] at hok
        exact hok.2.2
  · exact Nat.zero_le _

theorem readInteger_encode (it : Item) (t : IntType) (type : AttributeType) (n : Int) (rest : PropStream) :
    it.readInteger t type (t.encode n ++ rest) = some (it.setAttribute type (int64_t.cast (t.cast n)), rest) := by
  rw [readInteger, readInt_encode, Option.map_some]

theorem readText_text (h : item.Ok) (it : Item) (type : AttributeType) (rest : PropStream) :
    it.readText type (textBytes (item.getString type) ++ rest) = some (it.setString type (item.getString type), rest) := by
  rw [readText, readString_text (getString_short h type), Option.map_some]

theorem readCustom_entries {entries : List (List UInt8 × CustomAttribute)}
    (h : ∀ a ∈ entries, a.1.length ≤ 65535 ∧ a.2.Short) (it : Item) (rest : PropStream) :
    readCustom entries.length it ((entries.flatMap fun a => textBytes a.1 ++ a.2.bytes) ++ rest) =
      some (entries.foldl (fun it a => it.addCustomAttribute a.1 a.2) it, rest) := by
  induction entries generalizing it with
  | nil => rfl
  | cons a entries ih =>
    obtain ⟨hkey, ha⟩ := h a List.mem_cons_self
    rw [List.flatMap_cons, List.append_assoc, List.append_assoc, List.length_cons, readCustom, readString_text hkey]
    dsimp only
    rw [CustomAttribute.unserialize_bytes ha]
    exact ih (fun b hb => h b (List.mem_cons_of_mem _ hb)) _

/-- The reader takes a record as the writer left it. -/
theorem readAttr_payload (h : item.Ok) (hsize : item.getCustomAttributeMap.length < 2 ^ 64) {slot : Slot}
    (hw : written env item slot = true) (it : Item) (rest : PropStream) :
    readAttr env (tag slot) it (payload env item slot ++ rest) = some (restore env item it slot, rest) := by
  cases slot with
  | count =>
    unfold readAttr tag payload
    dsimp only
    rw [readInt_encode]
    rfl
  | custom =>
    have hcast : uint64_t.cast item.getCustomAttributeMap.length = item.getCustomAttributeMap.length :=
      (uint64_t.cast_eq_iff _).mpr ⟨Int.natCast_nonneg _, Int.ofNat_lt.mpr hsize⟩
    have hentries : ∀ a ∈ item.getCustomAttributeMap, a.1.length ≤ 65535 ∧ a.2.Short := fun a ha => (h.custom a ha).2
    unfold readAttr tag payload
    dsimp only
    rw [List.append_assoc, readInt_encode, hcast]
    exact readCustom_entries hentries it rest
  | attr type =>
    cases type with
    | store | actionid | date | weight | attack | defense | extradefense | imbuement_slot | opencontainer | armor
    | hitchance | shootrange | quicklootcontainer | tier | amount | owner | obtaincontainer =>
      exact readInteger_encode ..
    | text | writer | description | name | article | pluralname | store_inbox_category => exact readText_text h ..
    | fluidtype | charges | duration =>
      unfold readAttr tag payload
      dsimp only
      rw [if_neg (by decide)]
      unfold width
      dsimp only
      rw [readInt_encode]
      rfl
    | decaystate =>
      have hstate : item.getDecaying = DECAYING_TRUE ∨ item.getDecaying = DECAYING_PENDING := by
        simpa [written] using hw
      have hcast : uint8_t.cast (number env item .decaystate) ≠ (DECAYING_FALSE.toNat : Int) := by
        change uint8_t.cast (item.getDecaying.toNat : Int) ≠ _
        rcases hstate with heq | heq <;> rw [heq] <;> decide
      unfold readAttr tag payload
      dsimp only
      rw [if_neg (by decide)]
      unfold width
      dsimp only
      rw [readInt_encode, Option.map_some, if_pos hcast]
      rfl
    | special =>
      unfold readAttr tag payload
      dsimp only
      rw [if_pos (by decide), readString_text (getString_short h .special), Option.map_some]
      unfold restore
      dsimp only
      split_ifs <;> rfl
    | uniqueid | corpseowner | doorid | duration_timestamp | custom | lootmessage_suffix | augments => cases hw

/-- The loop takes the records one after the other. -/
theorem unserializeLoop_records (h : item.Ok) (hsize : item.getCustomAttributeMap.length < 2 ^ 64) (slots : List Slot)
    (it : Item) {rounds : Nat} (hr : (slots.flatMap (record env item)).length < rounds) :
    unserializeLoop env rounds it (slots.flatMap (record env item)) =
      some (slots.foldl (fun it slot => if written env item slot then restore env item it slot else it) it, []) := by
  induction slots generalizing it rounds with
  | nil =>
    obtain ⟨n, rfl⟩ := Nat.exists_eq_succ_of_ne_zero (Nat.ne_of_gt hr)
    rfl
  | cons slot slots ih =>
    rw [List.flatMap_cons] at hr ⊢
    rw [List.foldl_cons]
    by_cases hw : written env item slot = true
    · rw [if_pos hw]
      rw [record, if_pos hw] at hr ⊢
      obtain ⟨n, rfl⟩ := Nat.exists_eq_succ_of_ne_zero (Nat.ne_of_gt (Nat.zero_lt_of_lt hr))
      have hbyte := readU8_bytes (tag slot).toByte (payload env item slot ++ slots.flatMap (record env item))
      have hone : LittleEndian.bytes 1 (tag slot).toByte.toNat = [(tag slot).toByte] := by simp [LittleEndian.bytes]
      rw [hone, List.singleton_append] at hbyte
      rw [List.cons_append, unserializeLoop, hbyte]
      dsimp only
      rw [if_neg (AttrTypes_t.toByte_ne_zero _), AttrTypes_t.ofByte_toByte]
      dsimp only
      rw [readAttr_payload h hsize hw]
      refine ih _ ?_
      rw [List.cons_append, List.length_cons, List.length_append] at hr
      omega
    · rw [record, if_neg hw, List.nil_append] at hr ⊢
      rw [if_neg hw]
      exact ih it hr

end Item
end CrystalServer
