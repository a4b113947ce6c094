import CrystalServer.Creatures.Combat.Condition
import CrystalServer.Io.FileLoader
import CrystalServer.Lib.Records

/-! # Conditions in the database

`serialize` and `unserialize` of all conditions (`creatures/combat/condition.cpp`), and the loops that save and load those of
a player (`io/functions`). A reader that fails keeps the stream as it leaves it. A cast to a type that there is none of is
taken for a failure, and a write behind the end of an array is left out. -/

namespace CrystalServer
open Lib PropWriteStream

/-- `ConditionAttr_t`, without the end. -/
inductive ConditionAttr_t
  | TYPE | ID | TICKS | HEALTHTICKS | HEALTHGAIN | MANATICKS | MANAGAIN | DELAYED | OWNER | INTERVALDATA | SPEEDDELTA
  | FORMULA_MINA | FORMULA_MINB | FORMULA_MAXA | FORMULA_MAXB | LIGHTCOLOR | LIGHTLEVEL | LIGHTTICKS | LIGHTINTERVAL
  | SOULTICKS | SOULGAIN | SKILLS | STATS | BUFFS | OUTFIT | PERIODDAMAGE | ISBUFF | SUBID | MANASHIELD | ADDSOUND
  | TICKSOUND | ABSORBS | INCREASES | CHARM_CHANCE_MODIFIER | PERSISTENT
  deriving DecidableEq

def CONDITIONATTR_END : UInt8 := 254

namespace ConditionAttr_t

/-- The tags in the order of their numbers, the first of which is 1. -/
def values : List ConditionAttr_t :=
  [TYPE, ID, TICKS, HEALTHTICKS, HEALTHGAIN, MANATICKS, MANAGAIN, DELAYED, OWNER, INTERVALDATA, SPEEDDELTA, FORMULA_MINA,
    FORMULA_MINB, FORMULA_MAXA, FORMULA_MAXB, LIGHTCOLOR, LIGHTLEVEL, LIGHTTICKS, LIGHTINTERVAL, SOULTICKS, SOULGAIN, SKILLS,
    STATS, BUFFS, OUTFIT, PERIODDAMAGE, ISBUFF, SUBID, MANASHIELD, ADDSOUND, TICKSOUND, ABSORBS, INCREASES,
    CHARM_CHANCE_MODIFIER, PERSISTENT]

def toByte (attr : ConditionAttr_t) : UInt8 := .ofNat (values.idxOf attr + 1)

def ofByte (b : UInt8) : Option ConditionAttr_t := if b = 0 then none else values[b.toNat - 1]?

end ConditionAttr_t

namespace ConditionType_t

/-- The types in the order of their numbers. -/
def values : List ConditionType_t :=
  [NONE, POISON, FIRE, ENERGY, BLEEDING, HASTE, PARALYZE, OUTFIT, INVISIBLE, LIGHT, MANASHIELD, INFIGHT, DRUNK, EXHAUST,
    REGENERATION, SOUL, DROWN, MUTED, CHANNELMUTEDTICKS, YELLTICKS, ATTRIBUTES, FREEZING, DAZZLED, CURSED, EXHAUST_COMBAT,
    EXHAUST_HEAL, PACIFIED, SPELLCOOLDOWN, SPELLGROUPCOOLDOWN, ROOTED, FEARED, LESSERHEX, INTENSEHEX, GREATERHEX, BAKRAGORE,
    GOSHNARTAINT, POWERLESS, AGONY]

def toByte (type : ConditionType_t) : UInt8 := .ofNat (values.idxOf type)

def ofByte (b : UInt8) : Option ConditionType_t := values[b.toNat]?

end ConditionType_t

/-- What the first reads of `CONDITIONATTR_SKILLS`, `CONDITIONATTR_STATS` and `CONDITIONATTR_BUFFS` have filled. -/
structure Cursors where
  currentSkill : Nat
  currentStat : Nat
  currentBuff : Nat
  deriving DecidableEq

structure ConditionRegeneration extends Condition where
  internalHealthTicks : UInt32
  internalManaTicks : UInt32
  healthTicks : UInt32
  manaTicks : UInt32
  healthGain : UInt32
  manaGain : UInt32
  deriving DecidableEq

structure ConditionManaShield extends Condition where
  manaShield : UInt32
  deriving DecidableEq

structure ConditionSoul extends Condition where
  internalSoulTicks : UInt32
  soulTicks : UInt32
  soulGain : UInt32
  deriving DecidableEq

structure IntervalInfo where
  timeLeft : Int32
  value : Int32
  interval : Int32
  deriving DecidableEq

structure ConditionDamage extends Condition where
  maxDamage : Int32
  minDamage : Int32
  startDamage : Int32
  periodDamage : Int32
  periodDamageTick : Int32
  tickInterval : Int32
  forceUpdate : Bool
  delayed : Bool
  field : Bool
  owner : UInt32
  damageList : List IntervalInfo
  deriving DecidableEq

structure Outfit_t where
  lookType : UInt16
  lookTypeEx : UInt16
  lookMount : UInt16
  lookHead : UInt8
  lookBody : UInt8
  lookLegs : UInt8
  lookFeet : UInt8
  lookAddons : UInt8
  lookMountHead : UInt8
  lookMountBody : UInt8
  lookMountLegs : UInt8
  lookMountFeet : UInt8
  currentMount : UInt16
  lookFamiliarsType : UInt16
  lookWing : UInt16
  lookAura : UInt16
  lookEffect : UInt16
  lookShader : UInt16
  deriving DecidableEq

structure ConditionOutfit extends Condition where
  outfit : Outfit_t
  monsterName : List UInt8
  deriving DecidableEq

structure LightInfo where
  level : UInt8
  color : UInt8
  deriving DecidableEq

structure ConditionLight extends Condition where
  lightInfo : LightInfo
  internalLightTicks : UInt32
  lightChangeInterval : UInt32
  deriving DecidableEq

/-- A condition of any class. Those classes that write nothing of their own are `generic`: what `ConditionFeared` has of its own
is left out. -/
inductive ConditionPtr
  | generic (c : Condition)
  | attributes (c : ConditionAttributes) (cursors : Cursors)
  | regeneration (c : ConditionRegeneration)
  | manaShield (c : ConditionManaShield)
  | soul (c : ConditionSoul)
  | damage (c : ConditionDamage)
  | speed (c : ConditionSpeed)
  | outfit (c : ConditionOutfit)
  | light (c : ConditionLight)

namespace ConditionPtr

def base : ConditionPtr → Condition
  | generic c => c
  | attributes c _ => c.toCondition
  | regeneration c => c.toCondition
  | manaShield c => c.toCondition
  | soul c => c.toCondition
  | damage c => c.toCondition
  | speed c => c.toCondition
  | outfit c => c.toCondition
  | light c => c.toCondition

end ConditionPtr

/-! ### Making a condition -/

namespace Condition

/-- The constructor of `Condition`. -/
def make (initId : Int8) (initType : ConditionType_t) (initTicks : Int32) (initBuff : Bool) (initSubId : UInt32)
    (isPersistent : Bool) : Condition where
  drainBodyStage := 0
  endTime := if initTicks = -1 then Int64.maxValue else 0
  subId := initSubId
  ticks := initTicks
  conditionType := initType
  id := initId
  isBuff := initBuff
  m_isPersistent := isPersistent
  tickSound := 0
  addSound := 0

end Condition

def Outfit_t.make : Outfit_t := ⟨0, 0, 0, 0, 0, 0, 0, 0, 0, 0, 0, 0, 0, 0, 0, 0, 0, 0⟩

/-- `Condition::createCondition` of a type; `none` for `nullptr`. -/
def createCondition (id : Int8) (type : ConditionType_t) (ticks param : Int32) (buff : Bool) (subId : UInt32)
    (isPersistent : Bool) : Option ConditionPtr :=
  let base := Condition.make id type ticks buff subId false
  match type with
  | .POISON | .FIRE | .ENERGY | .DROWN | .FREEZING | .DAZZLED | .CURSED | .BLEEDING | .AGONY =>
    some (.damage ⟨.make id type 0 buff subId false, 0, 0, 0, 0, 0, 2000, false, false, false, 0, []⟩)
  | .HASTE | .PARALYZE => some (.speed ⟨base, param, 0, 0, 0, 0⟩)
  | .OUTFIT => some (.outfit ⟨base, .make, []⟩)
  | .LIGHT =>
    some (.light ⟨base, ⟨(param &&& 0xFF).toUInt32.toUInt8, ((param &&& 0xFF00) >>> 8).toUInt32.toUInt8⟩, 0, 0⟩)
  | .REGENERATION => some (.regeneration ⟨base, 0, 0, 1000, 1000, 0, 0⟩)
  | .SOUL => some (.soul ⟨base, 0, 0, 0⟩)
  | .LESSERHEX | .INTENSEHEX | .GREATERHEX | .ATTRIBUTES =>
    some (.attributes ⟨base, fun _ => 0, fun _ => 0, fun _ => 0, fun _ => 0, fun _ => 0, fun _ => 0, 0, fun _ => 0,
      fun _ => 0, fun _ => 0, fun _ => 0, false⟩ ⟨0, 0, 0⟩)
  | .MANASHIELD => some (.manaShield ⟨base, 0⟩)
  | .INVISIBLE | .SPELLCOOLDOWN | .SPELLGROUPCOOLDOWN | .FEARED | .ROOTED | .INFIGHT | .DRUNK | .EXHAUST | .EXHAUST_COMBAT
  | .EXHAUST_HEAL | .MUTED | .CHANNELMUTEDTICKS | .YELLTICKS | .POWERLESS | .PACIFIED | .GOSHNARTAINT => some (.generic base)
  | .BAKRAGORE => some (.generic (.make id type ticks buff subId isPersistent))
  | .NONE => none

/-! ### Reading -/

namespace PropStream

/-- The tag that has to come next. -/
def expect (attr : ConditionAttr_t) (stream : PropStream) : Option PropStream :=
  stream.readU8.bind fun r => if r.1 = attr.toByte then some r.2 else none

/-- A value is read and given on; without it nothing is taken. -/
def readTo {σ : Type} (t : IntType) (set : Int → σ) (stream : PropStream) : Except PropStream (σ × PropStream) :=
  match stream.readInt t with
  | none => .error stream
  | some (value, stream) => .ok (set value, stream)

end PropStream

open PropStream

/-- `Condition::createCondition` of a stream. -/
def createConditionFrom (stream : PropStream) : Option (ConditionPtr × PropStream) :=
  (stream.expect .TYPE).bind fun stream => (stream.readInt int8_t).bind fun (type, stream) =>
  (stream.expect .ID).bind fun stream => (stream.readInt uint32_t).bind fun (id, stream) =>
  (stream.expect .TICKS).bind fun stream => (stream.readInt uint32_t).bind fun (ticks, stream) =>
  (stream.expect .ISBUFF).bind fun stream => (stream.readInt uint8_t).bind fun (buff, stream) =>
  (stream.expect .SUBID).bind fun stream => (stream.readInt uint32_t).bind fun (subId, stream) =>
  (ConditionType_t.ofByte (.ofInt type)).bind fun type =>
  (createCondition (.ofInt id) type (.ofInt ticks) 0 (buff ≠ 0) (.ofInt subId) false).map (·, stream)

/-- `Condition::unserializeProp`. -/
def Condition.unserializeProp (attr : ConditionAttr_t) (c : Condition) (stream : PropStream) :
    Except PropStream (Condition × PropStream) :=
  match attr with
  | .TYPE =>
    match stream.readInt int32_t with
    | none => .error stream
    | some (value, stream) =>
      match ConditionType_t.ofByte (.ofInt value) with
      | none => .error stream
      | some type => .ok ({ c with conditionType := type }, stream)
  | .ID => stream.readTo int32_t fun value => { c with id := .ofInt value }
  | .TICKS => stream.readTo int32_t fun value => { c with ticks := .ofInt value }
  | .ISBUFF => stream.readTo uint8_t fun value => { c with isBuff := value ≠ 0 }
  | .SUBID => stream.readTo uint32_t fun value => { c with subId := .ofInt value }
  | .TICKSOUND => stream.readTo uint16_t fun value => { c with tickSound := .ofInt value }
  | .ADDSOUND => stream.readTo uint16_t fun value => { c with addSound := .ofInt value }
  | .PERSISTENT => stream.readTo uint8_t fun value => { c with m_isPersistent := value ≠ 0 }
  | _ => .error stream

/-- The call of `Condition::unserializeProp` at the end of an override. -/
def unserializeBase {σ : Type} (c : Condition) (set : Condition → σ) (attr : ConditionAttr_t) (stream : PropStream) :
    Except PropStream (σ × PropStream) :=
  match c.unserializeProp attr stream with
  | .error stream => .error stream
  | .ok (c, stream) => .ok (set c, stream)

namespace ConditionAttributes

def setAt {n : Nat} (values : Fin n → Int32) (index : Nat) (value : Int32) : Fin n → Int32 := fun i =>
  if i.val = index then value else values i

/-- The loop over indices and their values. -/
def readIndexed {n : Nat} : Nat → (Fin n → Int32) → PropStream → Except PropStream ((Fin n → Int32) × PropStream)
  | 0, values, stream => .ok (values, stream)
  | rounds + 1, values, stream =>
    match stream.readInt uint8_t with
    | none => .error stream
    | some (index, stream) =>
      match stream.readInt int32_t with
      | none => .error stream
      | some (value, stream) => readIndexed rounds (setAt values index.toNat (.ofInt value)) stream

def unserializeProp (attr : ConditionAttr_t) (c : ConditionAttributes × Cursors) (stream : PropStream) :
    Except PropStream ((ConditionAttributes × Cursors) × PropStream) :=
  match attr with
  | .SKILLS =>
    stream.readTo int32_t fun value =>
      ({ c.1 with skills := setAt c.1.skills c.2.currentSkill (.ofInt value) },
        { c.2 with currentSkill := c.2.currentSkill + 1 })
  | .STATS =>
    stream.readTo int32_t fun value =>
      ({ c.1 with stats := setAt c.1.stats c.2.currentStat (.ofInt value) }, { c.2 with currentStat := c.2.currentStat + 1 })
  | .BUFFS =>
    stream.readTo int32_t fun value =>
      ({ c.1 with buffs := setAt c.1.buffs c.2.currentBuff (.ofInt value) }, { c.2 with currentBuff := c.2.currentBuff + 1 })
  | .ABSORBS =>
    match readIndexed COMBAT_COUNT c.1.absorbs stream with
    | .error stream => .error stream
    | .ok (absorbs, stream) => .ok (({ c.1 with absorbs := absorbs }, c.2), stream)
  | .INCREASES =>
    match readIndexed COMBAT_COUNT c.1.increases stream with
    | .error stream => .error stream
    | .ok (increases, stream) => .ok (({ c.1 with increases := increases }, c.2), stream)
  | .CHARM_CHANCE_MODIFIER => stream.readTo int8_t fun value => ({ c.1 with charmChanceModifier := .ofInt value }, c.2)
  | attr => unserializeBase c.1.toCondition (fun base => ({ c.1 with toCondition := base }, c.2)) attr stream

end ConditionAttributes

def ConditionRegeneration.unserializeProp (attr : ConditionAttr_t) (c : ConditionRegeneration) (stream : PropStream) :
    Except PropStream (ConditionRegeneration × PropStream) :=
  match attr with
  | .HEALTHTICKS => stream.readTo uint32_t fun value => { c with healthTicks := .ofInt value }
  | .HEALTHGAIN => stream.readTo uint32_t fun value => { c with healthGain := .ofInt value }
  | .MANATICKS => stream.readTo uint32_t fun value => { c with manaTicks := .ofInt value }
  | .MANAGAIN => stream.readTo uint32_t fun value => { c with manaGain := .ofInt value }
  | attr => unserializeBase c.toCondition ({ c with toCondition := · }) attr stream

def ConditionManaShield.unserializeProp (attr : ConditionAttr_t) (c : ConditionManaShield) (stream : PropStream) :
    Except PropStream (ConditionManaShield × PropStream) :=
  match attr with
  | .MANASHIELD => stream.readTo uint32_t fun value => { c with manaShield := .ofInt value }
  | attr => unserializeBase c.toCondition ({ c with toCondition := · }) attr stream

def ConditionSoul.unserializeProp (attr : ConditionAttr_t) (c : ConditionSoul) (stream : PropStream) :
    Except PropStream (ConditionSoul × PropStream) :=
  match attr with
  | .SOULGAIN => stream.readTo uint32_t fun value => { c with soulGain := .ofInt value }
  | .SOULTICKS => stream.readTo uint32_t fun value => { c with soulTicks := .ofInt value }
  | attr => unserializeBase c.toCondition ({ c with toCondition := · }) attr stream

namespace IntervalInfo

/-- The memory of an `IntervalInfo`. -/
def toBytes (info : IntervalInfo) : List UInt8 :=
  int32_t.encode info.timeLeft.toInt ++ int32_t.encode info.value.toInt ++ int32_t.encode info.interval.toInt

def ofBytes (bytes : List UInt8) : IntervalInfo where
  timeLeft := .ofInt (int32_t.decode (bytes.take 4))
  value := .ofInt (int32_t.decode ((bytes.drop 4).take 4))
  interval := .ofInt (int32_t.decode ((bytes.drop 8).take 4))

end IntervalInfo

def ConditionDamage.unserializeProp (OTSYS_TIME : Int64) (attr : ConditionAttr_t) (c : ConditionDamage) (stream : PropStream) :
    Except PropStream (ConditionDamage × PropStream) :=
  match attr with
  | .DELAYED => stream.readTo uint8_t fun value => { c with delayed := value ≠ 0 }
  | .PERIODDAMAGE => stream.readTo int32_t fun value => { c with periodDamage := .ofInt value }
  | .OWNER =>
    match stream.skip 4 with
    | none => .error stream
    | some stream => .ok (c, stream)
  | .INTERVALDATA =>
    match stream.read 12 with
    | none => .error stream
    | some (bytes, stream) =>
      let damageInfo := IntervalInfo.ofBytes bytes
      let c := { c with damageList := c.damageList ++ [damageInfo] }
      if c.ticks ≠ -1 then
        .ok ({ c with toCondition := c.setTicks OTSYS_TIME (c.ticks + damageInfo.interval) }, stream)
      else .ok (c, stream)
  | attr => unserializeBase c.toCondition ({ c with toCondition := · }) attr stream

/-- The variables of the formula are read as their bits. -/
def ConditionSpeed.unserializeProp (attr : ConditionAttr_t) (c : ConditionSpeed) (stream : PropStream) :
    Except PropStream (ConditionSpeed × PropStream) :=
  match attr with
  | .SPEEDDELTA => stream.readTo int32_t fun value => { c with speedDelta := .ofInt value }
  | .FORMULA_MINA => stream.readTo uint32_t fun value => { c with mina := .ofInt value }
  | .FORMULA_MINB => stream.readTo uint32_t fun value => { c with minb := .ofInt value }
  | .FORMULA_MAXA => stream.readTo uint32_t fun value => { c with maxa := .ofInt value }
  | .FORMULA_MAXB => stream.readTo uint32_t fun value => { c with maxb := .ofInt value }
  | attr => unserializeBase c.toCondition ({ c with toCondition := · }) attr stream

namespace Outfit_t

/-- The memory of an `Outfit_t`, in which one byte is there to fill up. -/
def toBytes (o : Outfit_t) : List UInt8 :=
  LittleEndian.bytes 2 o.lookType.toNat ++ LittleEndian.bytes 2 o.lookTypeEx.toNat ++ LittleEndian.bytes 2 o.lookMount.toNat ++
    [o.lookHead, o.lookBody, o.lookLegs, o.lookFeet, o.lookAddons, o.lookMountHead, o.lookMountBody, o.lookMountLegs,
      o.lookMountFeet, 0] ++
    LittleEndian.bytes 2 o.currentMount.toNat ++ LittleEndian.bytes 2 o.lookFamiliarsType.toNat ++
    LittleEndian.bytes 2 o.lookWing.toNat ++ LittleEndian.bytes 2 o.lookAura.toNat ++ LittleEndian.bytes 2 o.lookEffect.toNat ++
    LittleEndian.bytes 2 o.lookShader.toNat

def byteAt (bytes : List UInt8) (i : Nat) : UInt8 := bytes.getD i 0

def wordAt (bytes : List UInt8) (i : Nat) : UInt16 := .ofNat (LittleEndian.value ((bytes.drop i).take 2))

def ofBytes (bytes : List UInt8) : Outfit_t where
  lookType := wordAt bytes 0
  lookTypeEx := wordAt bytes 2
  lookMount := wordAt bytes 4
  lookHead := byteAt bytes 6
  lookBody := byteAt bytes 7
  lookLegs := byteAt bytes 8
  lookFeet := byteAt bytes 9
  lookAddons := byteAt bytes 10
  lookMountHead := byteAt bytes 11
  lookMountBody := byteAt bytes 12
  lookMountLegs := byteAt bytes 13
  lookMountFeet := byteAt bytes 14
  currentMount := wordAt bytes 16
  lookFamiliarsType := wordAt bytes 18
  lookWing := wordAt bytes 20
  lookAura := wordAt bytes 22
  lookEffect := wordAt bytes 24
  lookShader := wordAt bytes 26

end Outfit_t

def ConditionOutfit.unserializeProp (attr : ConditionAttr_t) (c : ConditionOutfit) (stream : PropStream) :
    Except PropStream (ConditionOutfit × PropStream) :=
  match attr with
  | .OUTFIT =>
    match stream.read 28 with
    | none => .error stream
    | some (bytes, stream) => .ok ({ c with outfit := .ofBytes bytes }, stream)
  | attr => unserializeBase c.toCondition ({ c with toCondition := · }) attr stream

def ConditionLight.unserializeProp (attr : ConditionAttr_t) (c : ConditionLight) (stream : PropStream) :
    Except PropStream (ConditionLight × PropStream) :=
  match attr with
  | .LIGHTCOLOR => stream.readTo uint32_t fun value => { c with lightInfo := { c.lightInfo with color := .ofInt value } }
  | .LIGHTLEVEL => stream.readTo uint32_t fun value => { c with lightInfo := { c.lightInfo with level := .ofInt value } }
  | .LIGHTTICKS => stream.readTo uint32_t fun value => { c with internalLightTicks := .ofInt value }
  | .LIGHTINTERVAL => stream.readTo uint32_t fun value => { c with lightChangeInterval := .ofInt value }
  | attr => unserializeBase c.toCondition ({ c with toCondition := · }) attr stream

/-- The loop of `Condition::unserialize` with the override of a class. -/
def propReader {σ : Type} (unserializeProp : ConditionAttr_t → σ → PropStream → Except PropStream (σ × PropStream)) :
    TagReader ConditionAttr_t σ := ⟨ConditionAttr_t.ofByte, CONDITIONATTR_END, unserializeProp⟩

/-- `Condition::unserialize`. -/
def ConditionPtr.unserialize (OTSYS_TIME : Int64) (c : ConditionPtr) (stream : PropStream) :
    Except PropStream (ConditionPtr × PropStream) :=
  match c with
  | generic c => (propReader Condition.unserializeProp |>.readAll c stream).map fun r => (generic r.1, r.2)
  | attributes c cursors =>
    (propReader ConditionAttributes.unserializeProp |>.readAll (c, cursors) stream).map fun r => (attributes r.1.1 r.1.2, r.2)
  | regeneration c => (propReader ConditionRegeneration.unserializeProp |>.readAll c stream).map fun r => (regeneration r.1, r.2)
  | manaShield c => (propReader ConditionManaShield.unserializeProp |>.readAll c stream).map fun r => (manaShield r.1, r.2)
  | soul c => (propReader ConditionSoul.unserializeProp |>.readAll c stream).map fun r => (soul r.1, r.2)
  | damage c => (propReader (ConditionDamage.unserializeProp OTSYS_TIME) |>.readAll c stream).map fun r => (damage r.1, r.2)
  | speed c => (propReader ConditionSpeed.unserializeProp |>.readAll c stream).map fun r => (speed r.1, r.2)
  | outfit c => (propReader ConditionOutfit.unserializeProp |>.readAll c stream).map fun r => (outfit r.1, r.2)
  | light c => (propReader ConditionLight.unserializeProp |>.readAll c stream).map fun r => (light r.1, r.2)

/-- The loop of `IOLoginDataLoad::loadPlayerConditions`, with what it leaves of the stream. A condition takes bytes, so that the
length of the stream bounds the rounds. -/
def loadConditions (OTSYS_TIME : Int64) : Nat → PropStream → List ConditionPtr × PropStream
  | 0, stream => ([], stream)
  | rounds + 1, stream =>
    match createConditionFrom stream with
    | none => ([], stream)
    | some (condition, stream) =>
      match condition.unserialize OTSYS_TIME stream with
      | .error stream => loadConditions OTSYS_TIME rounds stream
      | .ok (condition, stream) =>
        let (storedConditionList, stream) := loadConditions OTSYS_TIME rounds stream
        (condition :: storedConditionList, stream)

/-- `IOLoginDataLoad::loadPlayerConditions`. -/
def loadPlayerConditions (OTSYS_TIME : Int64) (stream : PropStream) : List ConditionPtr × PropStream :=
  loadConditions OTSYS_TIME (stream.length + 1) stream

/-! ### Writing -/

/-- A tag and its value. -/
def writeProp (attr : ConditionAttr_t) (t : IntType) (value : Int) (buffer : List UInt8) : List UInt8 :=
  writeInt t value (write 1 attr.toByte.toNat buffer)

def Condition.serialize (c : Condition) (buffer : List UInt8) : List UInt8 :=
  buffer
  |> writeProp .TYPE int8_t c.conditionType.toByte.toNat
  |> writeProp .ID uint32_t c.id.toInt
  |> writeProp .TICKS uint32_t c.ticks.toInt
  |> writeProp .ISBUFF uint8_t c.isBuff.toNat
  |> writeProp .SUBID uint32_t c.subId.toNat
  |> writeProp .TICKSOUND uint16_t c.tickSound.toNat
  |> writeProp .ADDSOUND uint16_t c.addSound.toNat
  |> writeProp .PERSISTENT uint8_t c.m_isPersistent.toNat

namespace ConditionAttributes

/-- The loop over values with the same tag. -/
def writeEach {n : Nat} (attr : ConditionAttr_t) (values : Fin n → Int32) (buffer : List UInt8) : List UInt8 :=
  (List.finRange n).foldl (fun buffer i => writeProp attr int32_t (values i).toInt buffer) buffer

/-- The loop over indices and their values. -/
def writeIndexed {n : Nat} (attr : ConditionAttr_t) (values : Fin n → Int32) (buffer : List UInt8) : List UInt8 :=
  (List.finRange n).foldl (fun buffer i => writeInt int32_t (values i).toInt (writeInt uint8_t i.val buffer))
    (write 1 attr.toByte.toNat buffer)

def serialize (c : ConditionAttributes) (buffer : List UInt8) : List UInt8 :=
  c.toCondition.serialize buffer
  |> writeEach .SKILLS c.skills
  |> writeEach .STATS c.stats
  |> writeEach .BUFFS c.buffs
  |> writeIndexed .ABSORBS c.absorbs
  |> writeIndexed .INCREASES c.increases
  |> writeProp .CHARM_CHANCE_MODIFIER int8_t c.charmChanceModifier.toInt

end ConditionAttributes

def ConditionRegeneration.serialize (c : ConditionRegeneration) (buffer : List UInt8) : List UInt8 :=
  c.toCondition.serialize buffer
  |> writeProp .HEALTHTICKS uint32_t c.healthTicks.toNat
  |> writeProp .HEALTHGAIN uint32_t c.healthGain.toNat
  |> writeProp .MANATICKS uint32_t c.manaTicks.toNat
  |> writeProp .MANAGAIN uint32_t c.manaGain.toNat

def ConditionManaShield.serialize (c : ConditionManaShield) (buffer : List UInt8) : List UInt8 :=
  c.toCondition.serialize buffer |> writeProp .MANASHIELD uint32_t c.manaShield.toNat

def ConditionSoul.serialize (c : ConditionSoul) (buffer : List UInt8) : List UInt8 :=
  c.toCondition.serialize buffer
  |> writeProp .SOULGAIN uint32_t c.soulGain.toNat
  |> writeProp .SOULTICKS uint32_t c.soulTicks.toNat

def ConditionDamage.serialize (c : ConditionDamage) (buffer : List UInt8) : List UInt8 :=
  c.damageList.foldl (fun buffer intervalInfo => write 1 ConditionAttr_t.INTERVALDATA.toByte.toNat buffer ++ intervalInfo.toBytes)
    (c.toCondition.serialize buffer
      |> writeProp .DELAYED uint8_t c.delayed.toNat
      |> writeProp .PERIODDAMAGE int32_t c.periodDamage.toInt)

def ConditionSpeed.serialize (c : ConditionSpeed) (buffer : List UInt8) : List UInt8 :=
  c.toCondition.serialize buffer
  |> writeProp .SPEEDDELTA int32_t c.speedDelta.toInt
  |> writeProp .FORMULA_MINA uint32_t c.mina.toNat
  |> writeProp .FORMULA_MINB uint32_t c.minb.toNat
  |> writeProp .FORMULA_MAXA uint32_t c.maxa.toNat
  |> writeProp .FORMULA_MAXB uint32_t c.maxb.toNat

def ConditionOutfit.serialize (c : ConditionOutfit) (buffer : List UInt8) : List UInt8 :=
  write 1 ConditionAttr_t.OUTFIT.toByte.toNat (c.toCondition.serialize buffer) ++ c.outfit.toBytes

def ConditionLight.serialize (c : ConditionLight) (buffer : List UInt8) : List UInt8 :=
  c.toCondition.serialize buffer
  |> writeProp .LIGHTCOLOR uint32_t c.lightInfo.color.toNat
  |> writeProp .LIGHTLEVEL uint32_t c.lightInfo.level.toNat
  |> writeProp .LIGHTTICKS uint32_t c.internalLightTicks.toNat
  |> writeProp .LIGHTINTERVAL uint32_t c.lightChangeInterval.toNat

namespace ConditionPtr

def serialize : ConditionPtr → List UInt8 → List UInt8
  | generic c => c.serialize
  | attributes c _ => c.serialize
  | regeneration c => c.serialize
  | manaShield c => c.serialize
  | soul c => c.serialize
  | damage c => c.serialize
  | speed c => c.serialize
  | outfit c => c.serialize
  | light c => c.serialize

/-- `Condition::isPersistent`; the ids are `CONDITIONID_DEFAULT` and `CONDITIONID_COMBAT`. -/
def isPersistent (c : ConditionPtr) : Bool :=
  if c.base.m_isPersistent then true else if c.base.ticks = -1 then false else c.base.id = -1 ∨ c.base.id = 0

end ConditionPtr

/-- The loop of `IOLoginDataSave::savePlayerFirst` over the conditions. -/
def saveConditions (conditions : List ConditionPtr) : List UInt8 :=
  conditions.foldl (fun buffer condition =>
    if condition.isPersistent then write 1 CONDITIONATTR_END.toNat (condition.serialize buffer) else buffer) []

end CrystalServer
