import CrystalServer.Io.FileLoader
import CrystalServer.Items.Attributes

/-! # Saving and loading items

`Item::serializeAttr`, `Item::unserializeAttr` (`items/item.cpp`), and the two functions of `CustomAttribute`
(`items/functions/item/custom_attribute.cpp`). -/

namespace CrystalServer
open Lib PropWriteStream

/-- `ItemID_t::HIRELING_LAMP`. -/
def HIRELING_LAMP : UInt16 := 29432

/-- `AttrTypes_t`, the tags of the stream. -/
inductive AttrTypes_t
  | ATTR_STORE | ATTR_TILE_FLAGS | ATTR_ACTION_ID | ATTR_UNIQUE_ID | ATTR_TEXT | ATTR_DESC | ATTR_TELE_DEST | ATTR_ITEM
  | ATTR_DEPOT_ID | ATTR_RUNE_CHARGES | ATTR_HOUSEDOORID | ATTR_COUNT | ATTR_DURATION | ATTR_DECAYING_STATE
  | ATTR_WRITTENDATE | ATTR_WRITTENBY | ATTR_SLEEPERGUID | ATTR_SLEEPSTART | ATTR_CHARGES | ATTR_CONTAINER_ITEMS
  | ATTR_NAME | ATTR_ARTICLE | ATTR_PLURALNAME | ATTR_WEIGHT | ATTR_ATTACK | ATTR_DEFENSE | ATTR_EXTRADEFENSE
  | ATTR_ARMOR | ATTR_HITCHANCE | ATTR_SHOOTRANGE | ATTR_SPECIAL | ATTR_IMBUEMENT_SLOT | ATTR_OPENCONTAINER
  | ATTR_CUSTOM_ATTRIBUTES | ATTR_QUICKLOOTCONTAINER | ATTR_AMOUNT | ATTR_TIER | ATTR_CUSTOM
  | ATTR_STORE_INBOX_CATEGORY | ATTR_OWNER | ATTR_OBTAINCONTAINER
  deriving DecidableEq

namespace AttrTypes_t

def toByte : AttrTypes_t → UInt8
  | ATTR_STORE => 1 | ATTR_TILE_FLAGS => 3 | ATTR_ACTION_ID => 4 | ATTR_UNIQUE_ID => 5 | ATTR_TEXT => 6
  | ATTR_DESC => 7 | ATTR_TELE_DEST => 8 | ATTR_ITEM => 9 | ATTR_DEPOT_ID => 10 | ATTR_RUNE_CHARGES => 12
  | ATTR_HOUSEDOORID => 14 | ATTR_COUNT => 15 | ATTR_DURATION => 16 | ATTR_DECAYING_STATE => 17
  | ATTR_WRITTENDATE => 18 | ATTR_WRITTENBY => 19 | ATTR_SLEEPERGUID => 20 | ATTR_SLEEPSTART => 21
  | ATTR_CHARGES => 22 | ATTR_CONTAINER_ITEMS => 23 | ATTR_NAME => 24 | ATTR_ARTICLE => 25 | ATTR_PLURALNAME => 26
  | ATTR_WEIGHT => 27 | ATTR_ATTACK => 28 | ATTR_DEFENSE => 29 | ATTR_EXTRADEFENSE => 30 | ATTR_ARMOR => 31
  | ATTR_HITCHANCE => 32 | ATTR_SHOOTRANGE => 33 | ATTR_SPECIAL => 34 | ATTR_IMBUEMENT_SLOT => 35
  | ATTR_OPENCONTAINER => 36 | ATTR_CUSTOM_ATTRIBUTES => 37 | ATTR_QUICKLOOTCONTAINER => 38 | ATTR_AMOUNT => 39
  | ATTR_TIER => 40 | ATTR_CUSTOM => 41 | ATTR_STORE_INBOX_CATEGORY => 42 | ATTR_OWNER => 43
  | ATTR_OBTAINCONTAINER => 44

/-- The cast of a byte; `none` for a value that is no tag. -/
def ofByte : UInt8 → Option AttrTypes_t
  | 1 => some ATTR_STORE | 3 => some ATTR_TILE_FLAGS | 4 => some ATTR_ACTION_ID | 5 => some ATTR_UNIQUE_ID
  | 6 => some ATTR_TEXT | 7 => some ATTR_DESC | 8 => some ATTR_TELE_DEST | 9 => some ATTR_ITEM
  | 10 => some ATTR_DEPOT_ID | 12 => some ATTR_RUNE_CHARGES | 14 => some ATTR_HOUSEDOORID | 15 => some ATTR_COUNT
  | 16 => some ATTR_DURATION | 17 => some ATTR_DECAYING_STATE | 18 => some ATTR_WRITTENDATE
  | 19 => some ATTR_WRITTENBY | 20 => some ATTR_SLEEPERGUID | 21 => some ATTR_SLEEPSTART | 22 => some ATTR_CHARGES
  | 23 => some ATTR_CONTAINER_ITEMS | 24 => some ATTR_NAME | 25 => some ATTR_ARTICLE | 26 => some ATTR_PLURALNAME
  | 27 => some ATTR_WEIGHT | 28 => some ATTR_ATTACK | 29 => some ATTR_DEFENSE | 30 => some ATTR_EXTRADEFENSE
  | 31 => some ATTR_ARMOR | 32 => some ATTR_HITCHANCE | 33 => some ATTR_SHOOTRANGE | 34 => some ATTR_SPECIAL
  | 35 => some ATTR_IMBUEMENT_SLOT | 36 => some ATTR_OPENCONTAINER | 37 => some ATTR_CUSTOM_ATTRIBUTES
  | 38 => some ATTR_QUICKLOOTCONTAINER | 39 => some ATTR_AMOUNT | 40 => some ATTR_TIER | 41 => some ATTR_CUSTOM
  | 42 => some ATTR_STORE_INBOX_CATEGORY | 43 => some ATTR_OWNER | 44 => some ATTR_OBTAINCONTAINER
  | _ => none

end AttrTypes_t

namespace CustomAttribute

/-- `CustomAttribute::serialize`. -/
def serialize (buffer : List UInt8) : CustomAttribute → List UInt8
  | string s => writeString s (writeInt uint8_t 1 buffer)
  | integer n => writeInt int64_t n.toInt (writeInt uint8_t 2 buffer)
  | double bits => write 8 bits.toNat (writeInt uint8_t 3 buffer)
  | boolean b => writeInt uint8_t b.toNat (writeInt uint8_t 4 buffer)

/-- `CustomAttribute::unserialize`. -/
def unserialize (stream : PropStream) : Option (CustomAttribute × PropStream) :=
  match stream.readInt uint8_t with
  | none => none
  | some (type, stream) =>
    if type = 1 then stream.readString.map fun r => (string r.1, r.2)
    else if type = 2 then (stream.readInt int64_t).map fun r => (integer (.ofInt r.1), r.2)
    else if type = 3 then stream.readU64.map fun r => (double r.1, r.2)
    else if type = 4 then (stream.readInt uint8_t).map fun r => (boolean (r.1 ≠ 0), r.2)
    else none

end CustomAttribute

namespace Item
variable (env : ItemEnv)

/-! ### Loading -/

/-- A value is read and stored as an integer attribute. -/
def readInteger (item : Item) (t : IntType) (type : AttributeType) (stream : PropStream) : Option (Item × PropStream) :=
  (stream.readInt t).map fun r => (item.setAttribute type (int64_t.cast r.1), r.2)

/-- A text is read and stored as a string attribute. -/
def readText (item : Item) (type : AttributeType) (stream : PropStream) : Option (Item × PropStream) :=
  stream.readString.map fun r => (item.setString type r.1, r.2)

/-- Bytes that another class would read. -/
def skip (item : Item) (n : Nat) (stream : PropStream) : Option (Item × PropStream) := (stream.skip n).map (item, ·)

/-- The loop of `ATTR_CUSTOM`. -/
def readCustom : Nat → Item → PropStream → Option (Item × PropStream)
  | 0, item, stream => some (item, stream)
  | size + 1, item, stream =>
    match stream.readString with
    | none => none
    | some (key, stream) =>
      match CustomAttribute.unserialize stream with
      | none => none
      | some (customAttribute, stream) => readCustom size (item.addCustomAttribute key customAttribute) stream

/-- The loop of `ATTR_CUSTOM_ATTRIBUTES`, which moves items that can be wrapped to the store attribute. -/
def readOldCustom : Nat → Item → PropStream → Option (Item × PropStream)
  | 0, item, stream => some (item, stream)
  | size + 1, item, stream =>
    match stream.readString with
    | none => none
    | some (key, stream) =>
      match CustomAttribute.unserialize stream with
      | none => none
      | some (customAttribute, stream) =>
        let item := (item.addCustomAttribute key customAttribute).removeAttribute .custom
        let wrapped := (item.getCustomAttribute "unWrapId".toUTF8.toList).isSome
        readOldCustom size
          (if wrapped ∧ item.getAttribute int64_t .store = 0 then item.setAttribute .store env.getTimeNow.toInt else item)
          stream

/-- `Item::readAttr`; `none` is `ATTR_READ_ERROR`. -/
def readAttr (attr : AttrTypes_t) (item : Item) (stream : PropStream) : Option (Item × PropStream) :=
  match attr with
  | .ATTR_STORE => item.readInteger int64_t .store stream
  | .ATTR_COUNT | .ATTR_RUNE_CHARGES =>
    (stream.readInt uint8_t).map fun r => (item.setSubType env.items (.ofInt r.1), r.2)
  | .ATTR_ACTION_ID => item.readInteger uint16_t .actionid stream
  | .ATTR_UNIQUE_ID => (stream.readInt uint16_t).map fun r => (item.addUniqueId env (.ofInt r.1), r.2)
  | .ATTR_TEXT => item.readText .text stream
  | .ATTR_WRITTENDATE => item.readInteger uint64_t .date stream
  | .ATTR_WRITTENBY => item.readText .writer stream
  | .ATTR_DESC => item.readText .description stream
  | .ATTR_CHARGES => (stream.readInt uint16_t).map fun r => (item.setSubType env.items (.ofInt r.1), r.2)
  | .ATTR_DURATION => (stream.readInt int32_t).map fun r => (item.setDuration r.1, r.2)
  | .ATTR_DECAYING_STATE =>
    (stream.readInt uint8_t).map fun r =>
      (if r.1 ≠ (DECAYING_FALSE.toNat : Int) then item.setDecaying DECAYING_PENDING else item, r.2)
  | .ATTR_NAME => item.readText .name stream
  | .ATTR_ARTICLE => item.readText .article stream
  | .ATTR_PLURALNAME => item.readText .pluralname stream
  | .ATTR_WEIGHT => item.readInteger uint32_t .weight stream
  | .ATTR_ATTACK => item.readInteger int32_t .attack stream
  | .ATTR_DEFENSE => item.readInteger int32_t .defense stream
  | .ATTR_EXTRADEFENSE => item.readInteger int32_t .extradefense stream
  | .ATTR_IMBUEMENT_SLOT => item.readInteger int32_t .imbuement_slot stream
  | .ATTR_OPENCONTAINER => item.readInteger uint8_t .opencontainer stream
  | .ATTR_ARMOR => item.readInteger int32_t .armor stream
  | .ATTR_HITCHANCE => item.readInteger int8_t .hitchance stream
  | .ATTR_SHOOTRANGE => item.readInteger uint8_t .shootrange stream
  | .ATTR_SPECIAL =>
    stream.readString.map fun r =>
      let item := item.setString .special r.1
      if item.id = HIRELING_LAMP then
        ((item.removeAttribute .special).addCustomAttribute "Hireling".toUTF8.toList (.integer (.ofInt (atoi r.1))), r.2)
      else (item, r.2)
  | .ATTR_QUICKLOOTCONTAINER => item.readInteger uint32_t .quicklootcontainer stream
  | .ATTR_DEPOT_ID => item.skip 2 stream
  | .ATTR_HOUSEDOORID => item.skip 1 stream
  | .ATTR_SLEEPERGUID => item.skip 4 stream
  | .ATTR_SLEEPSTART => item.skip 4 stream
  | .ATTR_TELE_DEST => item.skip 5 stream
  | .ATTR_CONTAINER_ITEMS => none
  | .ATTR_CUSTOM_ATTRIBUTES =>
    match stream.readInt uint64_t with
    | none => none
    | some (size, stream) => readOldCustom env size.toNat item stream
  | .ATTR_TIER => item.readInteger uint8_t .tier stream
  | .ATTR_AMOUNT => item.readInteger uint16_t .amount stream
  | .ATTR_CUSTOM =>
    match stream.readInt uint64_t with
    | none => none
    | some (size, stream) => readCustom size.toNat item stream
  | .ATTR_STORE_INBOX_CATEGORY => item.readText .store_inbox_category stream
  | .ATTR_OWNER => item.readInteger uint32_t .owner stream
  | .ATTR_OBTAINCONTAINER => item.readInteger uint32_t .obtaincontainer stream
  | .ATTR_TILE_FLAGS | .ATTR_ITEM => none

/-- The loop of `Item::unserializeAttr`. Each round takes a byte, so the length of the stream bounds the rounds. -/
def unserializeLoop : Nat → Item → PropStream → Option (Item × PropStream)
  | 0, _, _ => none
  | rounds + 1, item, stream =>
    match stream.readU8 with
    | none => some (item, stream)
    | some (attr_type, stream) =>
      if attr_type = 0 then some (item, stream)
      else
        match AttrTypes_t.ofByte attr_type with
        | none => none
        | some attr =>
          match readAttr env attr item stream with
          | none => none
          | some (item, stream) => unserializeLoop rounds item stream

/-- `Item::unserializeAttr`: the item and what is left of the stream, `none` for `false`. -/
def unserializeAttr (item : Item) (stream : PropStream) : Option (Item × PropStream) :=
  unserializeLoop env (stream.length + 1) item stream

/-! ### Saving -/

/-- A tag and an integer, if the attribute is there to be written. -/
def writeInteger (present : Bool) (attr : AttrTypes_t) (t : IntType) (n : Int) (buffer : List UInt8) : List UInt8 :=
  if present then writeInt t n (write 1 attr.toByte.toNat buffer) else buffer

/-- A tag and a text, if the attribute is there to be written. -/
def writeText (present : Bool) (attr : AttrTypes_t) (str : List UInt8) (buffer : List UInt8) : List UInt8 :=
  if present then writeString str (write 1 attr.toByte.toNat buffer) else buffer

/-- The custom attributes, if there are any. -/
def writeCustom (customAttributeMap : List (List UInt8 × CustomAttribute)) (buffer : List UInt8) : List UInt8 :=
  if customAttributeMap ≠ [] then
    customAttributeMap.foldl (fun buffer a => a.2.serialize (writeString a.1 buffer))
      (writeInt uint64_t customAttributeMap.length (write 1 AttrTypes_t.ATTR_CUSTOM.toByte.toNat buffer))
  else buffer

/-- `Item::serializeAttr`. -/
def serializeAttr (item : Item) (buffer : List UInt8) : List UInt8 :=
  let it := env.items item.id
  let decayState := item.getDecaying
  buffer
  |> writeInteger (item.getAttribute int64_t .store ≠ 0) .ATTR_STORE int64_t (item.getAttribute int64_t .store)
  |> writeInteger (it.stackable ∨ it.group = .fluid ∨ it.group = .splash) .ATTR_COUNT uint8_t (item.getSubType env)
  |> writeInteger (item.getAttribute uint16_t .charges ≠ 0) .ATTR_CHARGES uint16_t (item.getAttribute uint16_t .charges)
  |> writeInteger (it.movable ∧ item.getAttribute uint16_t .actionid ≠ 0) .ATTR_ACTION_ID uint16_t
      (item.getAttribute uint16_t .actionid)
  |> writeText (item.getString .text ≠ []) .ATTR_TEXT (item.getString .text)
  |> writeInteger (item.getAttribute uint64_t .date ≠ 0) .ATTR_WRITTENDATE uint64_t (item.getAttribute uint64_t .date)
  |> writeText (item.getString .writer ≠ []) .ATTR_WRITTENBY (item.getString .writer)
  |> writeText (item.getString .description ≠ []) .ATTR_DESC (item.getString .description)
  |> writeInteger (item.hasAttribute .duration) .ATTR_DURATION int32_t (item.getDuration env.OTSYS_TIME)
  |> writeInteger (decayState = DECAYING_TRUE ∨ decayState = DECAYING_PENDING) .ATTR_DECAYING_STATE uint8_t
      decayState.toNat
  |> writeText (item.hasAttribute .name) .ATTR_NAME (item.getString .name)
  |> writeText (item.hasAttribute .article) .ATTR_ARTICLE (item.getString .article)
  |> writeText (item.hasAttribute .pluralname) .ATTR_PLURALNAME (item.getString .pluralname)
  |> writeInteger (item.hasAttribute .weight) .ATTR_WEIGHT uint32_t (item.getAttribute uint32_t .weight)
  |> writeInteger (item.hasAttribute .attack) .ATTR_ATTACK int32_t (item.getAttribute int32_t .attack)
  |> writeInteger (item.hasAttribute .defense) .ATTR_DEFENSE int32_t (item.getAttribute int32_t .defense)
  |> writeInteger (item.hasAttribute .extradefense) .ATTR_EXTRADEFENSE int32_t
      (item.getAttribute int32_t .extradefense)
  |> writeInteger (item.hasAttribute .imbuement_slot) .ATTR_IMBUEMENT_SLOT int32_t
      (item.getAttribute int32_t .imbuement_slot)
  |> writeInteger (item.hasAttribute .opencontainer) .ATTR_OPENCONTAINER uint8_t
      (item.getAttribute uint8_t .opencontainer)
  |> writeInteger (item.hasAttribute .armor) .ATTR_ARMOR int32_t (item.getAttribute int32_t .armor)
  |> writeInteger (item.hasAttribute .hitchance) .ATTR_HITCHANCE int8_t (item.getAttribute int8_t .hitchance)
  |> writeInteger (item.hasAttribute .shootrange) .ATTR_SHOOTRANGE uint8_t (item.getAttribute uint8_t .shootrange)
  |> writeText (item.hasAttribute .special) .ATTR_SPECIAL (item.getString .special)
  |> writeInteger (item.hasAttribute .quicklootcontainer) .ATTR_QUICKLOOTCONTAINER uint32_t
      (item.getAttribute uint32_t .quicklootcontainer)
  |> writeInteger (item.hasAttribute .tier) .ATTR_TIER uint8_t (item.getTier env)
  |> writeInteger (item.hasAttribute .amount) .ATTR_AMOUNT uint16_t (item.getAttribute uint16_t .amount)
  |> writeText (item.hasAttribute .store_inbox_category) .ATTR_STORE_INBOX_CATEGORY
      (item.getString .store_inbox_category)
  |> writeInteger (item.hasAttribute .owner) .ATTR_OWNER uint32_t (item.getAttribute uint32_t .owner)
  |> writeCustom item.getCustomAttributeMap
  |> writeInteger (item.hasAttribute .obtaincontainer) .ATTR_OBTAINCONTAINER uint32_t
      (item.getAttribute uint32_t .obtaincontainer)

end Item
end CrystalServer
