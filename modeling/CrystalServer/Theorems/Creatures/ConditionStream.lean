import CrystalServer.Creatures.Combat.ConditionStream
import CrystalServer.Theorems.Io.PropStream

/-! # Conditions come back

A condition is written as the head that `createCondition` takes and a sequence of tagged records. The condition that loading
makes of it has every field that is written, but for the ticks of damage, which are added up from the intervals. -/

namespace CrystalServer
open Lib PropStream PropWriteStream

namespace ConditionAttr_t

theorem ofByte_toByte (attr : ConditionAttr_t) : ofByte attr.toByte = some attr := by cases attr <;> rfl

theorem toByte_ne_end (attr : ConditionAttr_t) : attr.toByte ≠ CONDITIONATTR_END := by cases attr <;> decide

end ConditionAttr_t

theorem ConditionType_t.ofByte_toByte (type : ConditionType_t) : ofByte type.toByte = some type := by cases type <;> rfl

/-- The bytes of records. -/
def recordBytes {σ : Type} (l : List (Record ConditionAttr_t σ)) : List UInt8 := l.flatMap (Record.bytes ConditionAttr_t.toByte)

section
variable {σ : Type} {p : ConditionAttr_t → σ → PropStream → Except PropStream (σ × PropStream)}

@[simp] theorem recordBytes_nil : recordBytes ([] : List (Record ConditionAttr_t σ)) = [] := rfl

@[simp] theorem recordBytes_cons (x : Record ConditionAttr_t σ) (l : List (Record ConditionAttr_t σ)) :
    recordBytes (x :: l) = x.tag.toByte :: (x.payload ++ recordBytes l) := rfl

@[simp] theorem recordBytes_append (l l' : List (Record ConditionAttr_t σ)) :
    recordBytes (l ++ l') = recordBytes l ++ recordBytes l' := List.flatMap_append

theorem write_tag (attr : ConditionAttr_t) (buffer : List UInt8) :
    write 1 attr.toByte.toNat buffer = buffer ++ [attr.toByte] := by simp [write, LittleEndian.bytes]

theorem writeProp_eq (attr : ConditionAttr_t) (t : IntType) (n : Int) (buffer : List UInt8) :
    writeProp attr t n buffer = buffer ++ attr.toByte :: t.encode n := by
  unfold writeProp writeInt
  rw [write_tag, List.append_assoc, List.singleton_append]

theorem readTo_encode (t : IntType) (set : Int → σ) (n : Int) (rest : PropStream) :
    readTo t set (t.encode n ++ rest) = .ok (set (t.cast n), rest) := by
  unfold readTo
  rw [readInt_encode]

theorem readAll_recordBytes {l : List (Record ConditionAttr_t σ)} (h : ∀ x ∈ l, (propReader p).Takes x) (s : σ)
    (rest : PropStream) :
    (propReader p).readAll s (recordBytes l ++ CONDITIONATTR_END :: rest) = .ok (Record.effects l s, rest) :=
  TagReader.readAll_records ConditionAttr_t.ofByte_toByte ConditionAttr_t.toByte_ne_end h s rest

theorem takes_of_read {x : Record ConditionAttr_t σ} (h : ∀ s rest, p x.tag s (x.payload ++ rest) = .ok (x.effect s, rest)) :
    (propReader p).Takes x := h

/-- A record whose value is read into a field. -/
theorem takes_readTo {attr : ConditionAttr_t} {t : IntType} {n : Int} {set : σ → Int → σ} {effect : σ → σ}
    (hp : ∀ s stream, p attr s stream = readTo t (set s) stream) (heffect : ∀ s, set s (t.cast n) = effect s) :
    (propReader p).Takes ⟨attr, t.encode n, effect⟩ := by
  intro s rest
  change p attr s (t.encode n ++ rest) = _
  rw [hp, readTo_encode, heffect]

end

theorem cast_toNat (b : Bool) : (decide (uint8_t.cast b.toNat ≠ 0)) = b := by cases b <;> rfl

/-! ### What every condition has -/

namespace Condition

/-- What `createCondition` takes of the stream. -/
def header (c : Condition) : List UInt8 :=
  ConditionAttr_t.TYPE.toByte :: (int8_t.encode c.conditionType.toByte.toNat ++
    ConditionAttr_t.ID.toByte :: (uint32_t.encode c.id.toInt ++
      ConditionAttr_t.TICKS.toByte :: (uint32_t.encode c.ticks.toInt ++
        ConditionAttr_t.ISBUFF.toByte :: (uint8_t.encode c.isBuff.toNat ++
          ConditionAttr_t.SUBID.toByte :: uint32_t.encode c.subId.toNat))))

variable {σ : Type}

/-- The records that every condition has behind its head, read into what `get` and `set` find in an object. -/
def records (c : Condition) (get : σ → Condition) (set : σ → Condition → σ) : List (Record ConditionAttr_t σ) :=
  [⟨.TICKSOUND, uint16_t.encode c.tickSound.toNat, fun s => set s { get s with tickSound := c.tickSound }⟩,
    ⟨.ADDSOUND, uint16_t.encode c.addSound.toNat, fun s => set s { get s with addSound := c.addSound }⟩,
    ⟨.PERSISTENT, uint8_t.encode c.m_isPersistent.toNat, fun s => set s { get s with m_isPersistent := c.m_isPersistent }⟩]

theorem serialize_eq (c : Condition) (get : σ → Condition) (set : σ → Condition → σ) (buffer : List UInt8) :
    c.serialize buffer = buffer ++ (c.header ++ recordBytes (c.records get set)) := by
  unfold serialize
  simp only [writeProp_eq, header, records, recordBytes_cons, recordBytes_nil, List.append_assoc, List.cons_append,
    List.append_nil]

theorem takes_records (c : Condition) {p : ConditionAttr_t → σ → PropStream → Except PropStream (σ × PropStream)}
    {get : σ → Condition} {set : σ → Condition → σ}
    (hp : ∀ attr ∈ [ConditionAttr_t.TICKSOUND, .ADDSOUND, .PERSISTENT], ∀ s stream,
      p attr s stream = unserializeBase (get s) (set s) attr stream) :
    ∀ x ∈ c.records get set, (propReader p).Takes x := by
  intro x hx s rest
  unfold records at hx
  simp only [List.mem_cons, List.not_mem_nil, or_false] at hx
  rcases hx with rfl | rfl | rfl
  · change p .TICKSOUND s (uint16_t.encode c.tickSound.toNat ++ rest) = _
    rw [hp _ (by decide)]
    unfold unserializeBase unserializeProp
    dsimp only
    rw [readTo_encode, IntType.ofInt_cast_uint16 (by decide)]
  · change p .ADDSOUND s (uint16_t.encode c.addSound.toNat ++ rest) = _
    rw [hp _ (by decide)]
    unfold unserializeBase unserializeProp
    dsimp only
    rw [readTo_encode, IntType.ofInt_cast_uint16 (by decide)]
  · change p .PERSISTENT s (uint8_t.encode c.m_isPersistent.toNat ++ rest) = _
    rw [hp _ (by decide)]
    unfold unserializeBase unserializeProp
    dsimp only
    rw [readTo_encode, cast_toNat]

/-- What loading has made of the part that every condition has. -/
def restored (c : Condition) (ticks : Int32) : Condition :=
  { make c.id c.conditionType ticks c.isBuff c.subId c.m_isPersistent with tickSound := c.tickSound, addSound := c.addSound }

theorem effects_records (c : Condition) {get : σ → Condition} {set : σ → Condition → σ} (hget : ∀ s b, get (set s b) = b)
    (hset : ∀ s b b', set (set s b) b' = set s b') {s : σ} {ticks : Int32}
    (hs : get s = make c.id c.conditionType ticks c.isBuff c.subId false) :
    Record.effects (c.records get set) s = set s (c.restored ticks) := by
  unfold records
  simp only [Record.effects_cons, Record.effects_nil, hget, hset, hs]
  rfl

end Condition

theorem expect_tag (attr : ConditionAttr_t) (rest : PropStream) : expect attr (attr.toByte :: rest) = some rest := by
  have hbyte := readU8_bytes attr.toByte rest
  have hone : LittleEndian.bytes 1 attr.toByte.toNat = [attr.toByte] := by simp [LittleEndian.bytes]
  rw [hone, List.singleton_append] at hbyte
  unfold expect
  rw [hbyte, Option.bind_some, if_pos rfl]

/-- `createCondition` takes the head and makes a condition of it. -/
theorem createConditionFrom_header (c : Condition) (rest : PropStream) :
    createConditionFrom (c.header ++ rest) =
      (createCondition c.id c.conditionType c.ticks 0 c.isBuff c.subId false).map (·, rest) := by
  unfold createConditionFrom Condition.header
  simp only [List.cons_append, List.append_assoc, expect_tag, Option.bind_some, readInt_encode,
    IntType.ofInt_cast_uint8 (show UInt8.size ∣ int8_t.modulus by decide), ConditionType_t.ofByte_toByte,
    IntType.ofInt_cast_int8 (show Int8.size ∣ uint32_t.modulus by decide),
    IntType.ofInt_cast_int32 (show Int32.size ∣ uint32_t.modulus by decide),
    IntType.ofInt_cast_uint32 (show UInt32.size ∣ uint32_t.modulus by decide), cast_toNat]

/-! ### Attributes -/

namespace ConditionAttributes
variable {n : Nat} {σ : Type}

/-- One record for each value of an array. -/
def eachRecord (attr : ConditionAttr_t) (values : Fin n → Int32) (push : Int32 → σ → σ) : List (Record ConditionAttr_t σ) :=
  (List.finRange n).map fun i => ⟨attr, int32_t.encode (values i).toInt, push (values i)⟩

/-- All values of an array in one record. -/
def indexedPayload (values : Fin n → Int32) : List UInt8 :=
  (List.finRange n).flatMap fun i => uint8_t.encode i.val ++ int32_t.encode (values i).toInt

theorem writeEach_eq (attr : ConditionAttr_t) (values : Fin n → Int32) (push : Int32 → σ → σ) (buffer : List UInt8) :
    writeEach attr values buffer = buffer ++ recordBytes (eachRecord attr values push) := by
  unfold writeEach eachRecord
  induction List.finRange n generalizing buffer with
  | nil => simp
  | cons i l ih =>
    rw [List.foldl_cons, ih, writeProp_eq, List.map_cons, recordBytes_cons]
    simp

theorem writeIndexed_eq (attr : ConditionAttr_t) (values : Fin n → Int32) (buffer : List UInt8) :
    writeIndexed attr values buffer = buffer ++ attr.toByte :: indexedPayload values := by
  have hloop : ∀ (l : List (Fin n)) (buffer : List UInt8),
      l.foldl (fun buffer i => writeInt int32_t (values i).toInt (writeInt uint8_t i.val buffer)) buffer =
        buffer ++ l.flatMap fun i => uint8_t.encode i.val ++ int32_t.encode (values i).toInt := by
    intro l
    induction l with
    | nil => simp
    | cons i l ih =>
      intro buffer
      rw [List.foldl_cons, ih]
      simp [writeInt]
  unfold writeIndexed indexedPayload
  rw [hloop, write_tag, List.append_assoc, List.singleton_append]

/-- The values of the indices that were written are there, the others are as before. -/
theorem foldl_setAt (values : Fin n → Int32) (l : List (Fin n)) (before : Fin n → Int32) (j : Fin n) :
    l.foldl (fun filled i => setAt filled i.val (values i)) before j = if j ∈ l then values j else before j := by
  induction l generalizing before with
  | nil => simp
  | cons i l ih =>
    rw [List.foldl_cons, ih]
    by_cases hj : j = i
    · subst hj
      simp [setAt]
    · simp [setAt, hj, Fin.val_ne_of_ne hj]

theorem foldl_setAt_finRange (values before : Fin n → Int32) :
    (List.finRange n).foldl (fun filled i => setAt filled i.val (values i)) before = values := by
  funext j
  rw [foldl_setAt, if_pos (List.mem_finRange j)]

theorem readIndexed_payload (values : Fin n → Int32) (l : List (Fin n)) (hl : ∀ i ∈ l, i.val < UInt8.size)
    (before : Fin n → Int32) (rest : PropStream) :
    readIndexed l.length before
        ((l.flatMap fun i => uint8_t.encode i.val ++ int32_t.encode (values i).toInt) ++ rest) =
      .ok (l.foldl (fun filled i => setAt filled i.val (values i)) before, rest) := by
  induction l generalizing before with
  | nil => rfl
  | cons i l ih =>
    have hindex : uint8_t.cast i.val = i.val :=
      (uint8_t.cast_eq_iff _).mpr ⟨Int.natCast_nonneg _, Int.ofNat_lt.mpr (hl i List.mem_cons_self)⟩
    rw [List.flatMap_cons, List.append_assoc, List.append_assoc, List.length_cons, readIndexed, readInt_encode]
    dsimp only
    rw [readInt_encode]
    dsimp only
    rw [ih (fun j hj => hl j (List.mem_cons_of_mem _ hj)), hindex, Int.toNat_natCast, IntType.ofInt_cast_int32 (by decide)]
    rfl

/-- Records that each fill the next place fill them all. -/
theorem effects_eachRecord (attr : ConditionAttr_t) (values before : Fin n → Int32) (push : Int32 → σ → σ)
    (set : (Fin n → Int32) → Nat → σ) (hpush : ∀ filled k v, push v (set filled k) = set (setAt filled k v) (k + 1)) :
    Record.effects (eachRecord attr values push) (set before 0) = set values n := by
  have hrun : ∀ (l : List (Fin n)) (k : Nat) (filled : Fin n → Int32), l.map Fin.val = List.range' k l.length →
      Record.effects (l.map fun i => (⟨attr, int32_t.encode (values i).toInt, push (values i)⟩ : Record ConditionAttr_t σ))
        (set filled k) = set (l.foldl (fun filled i => setAt filled i.val (values i)) filled) (k + l.length) := by
    intro l
    induction l with
    | nil => exact fun k filled _ => rfl
    | cons i l ih =>
      intro k filled hrange
      rw [List.map_cons, List.length_cons, List.range'_succ, List.cons.injEq] at hrange
      rw [List.map_cons, Record.effects_cons]
      dsimp only
      rw [hpush, ih _ _ hrange.2, List.foldl_cons, hrange.1, List.length_cons, Nat.add_assoc, Nat.add_comm 1]
  have hrange : (List.finRange n).map Fin.val = List.range' 0 (List.finRange n).length := by
    rw [List.length_finRange, ← List.range_eq_range', List.map_coe_finRange_eq_range]
  unfold eachRecord
  rw [hrun _ 0 before hrange, foldl_setAt_finRange, List.length_finRange, Nat.zero_add]

def pushSkill (v : Int32) (s : ConditionAttributes × Cursors) : ConditionAttributes × Cursors :=
  ({ s.1 with skills := setAt s.1.skills s.2.currentSkill v }, { s.2 with currentSkill := s.2.currentSkill + 1 })

def pushStat (v : Int32) (s : ConditionAttributes × Cursors) : ConditionAttributes × Cursors :=
  ({ s.1 with stats := setAt s.1.stats s.2.currentStat v }, { s.2 with currentStat := s.2.currentStat + 1 })

def pushBuff (v : Int32) (s : ConditionAttributes × Cursors) : ConditionAttributes × Cursors :=
  ({ s.1 with buffs := setAt s.1.buffs s.2.currentBuff v }, { s.2 with currentBuff := s.2.currentBuff + 1 })

variable (c : ConditionAttributes)

theorem effects_skills (d : ConditionAttributes) (k l : Nat) :
    Record.effects (eachRecord .SKILLS c.skills pushSkill) (d, ⟨0, k, l⟩) =
      ({ d with skills := c.skills }, ⟨SKILL_COUNT, k, l⟩) := by
  have hpush : ∀ (filled : Fin SKILL_COUNT → Int32) (i : Nat) (v : Int32),
      pushSkill v ({ d with skills := filled }, (⟨i, k, l⟩ : Cursors)) = ({ d with skills := setAt filled i v }, (⟨i + 1, k, l⟩ : Cursors)) :=
    fun _ _ _ => rfl
  have heach := effects_eachRecord .SKILLS c.skills d.skills pushSkill (fun filled i => ({ d with skills := filled }, (⟨i, k, l⟩ : Cursors))) hpush
  exact heach

theorem effects_stats (d : ConditionAttributes) (k l : Nat) :
    Record.effects (eachRecord .STATS c.stats pushStat) (d, ⟨k, 0, l⟩) =
      ({ d with stats := c.stats }, ⟨k, STAT_COUNT, l⟩) := by
  have hpush : ∀ (filled : Fin STAT_COUNT → Int32) (i : Nat) (v : Int32),
      pushStat v ({ d with stats := filled }, (⟨k, i, l⟩ : Cursors)) = ({ d with stats := setAt filled i v }, (⟨k, i + 1, l⟩ : Cursors)) :=
    fun _ _ _ => rfl
  have heach := effects_eachRecord .STATS c.stats d.stats pushStat (fun filled i => ({ d with stats := filled }, (⟨k, i, l⟩ : Cursors))) hpush
  exact heach

theorem effects_buffs (d : ConditionAttributes) (k l : Nat) :
    Record.effects (eachRecord .BUFFS c.buffs pushBuff) (d, ⟨k, l, 0⟩) =
      ({ d with buffs := c.buffs }, ⟨k, l, BUFF_COUNT⟩) := by
  have hpush : ∀ (filled : Fin BUFF_COUNT → Int32) (i : Nat) (v : Int32),
      pushBuff v ({ d with buffs := filled }, (⟨k, l, i⟩ : Cursors)) = ({ d with buffs := setAt filled i v }, (⟨k, l, i + 1⟩ : Cursors)) :=
    fun _ _ _ => rfl
  have heach := effects_eachRecord .BUFFS c.buffs d.buffs pushBuff (fun filled i => ({ d with buffs := filled }, (⟨k, l, i⟩ : Cursors))) hpush
  exact heach

def setBase (s : ConditionAttributes × Cursors) (base : Condition) : ConditionAttributes × Cursors :=
  ({ s.1 with toCondition := base }, s.2)

def records : List (Record ConditionAttr_t (ConditionAttributes × Cursors)) :=
  c.toCondition.records (·.1.toCondition) setBase ++ (eachRecord .SKILLS c.skills pushSkill ++
    (eachRecord .STATS c.stats pushStat ++ (eachRecord .BUFFS c.buffs pushBuff ++
      [⟨.ABSORBS, indexedPayload c.absorbs, fun s => ({ s.1 with absorbs := c.absorbs }, s.2)⟩,
        ⟨.INCREASES, indexedPayload c.increases, fun s => ({ s.1 with increases := c.increases }, s.2)⟩,
        ⟨.CHARM_CHANCE_MODIFIER, int8_t.encode c.charmChanceModifier.toInt,
          fun s => ({ s.1 with charmChanceModifier := c.charmChanceModifier }, s.2)⟩])))

theorem serialize_eq (buffer : List UInt8) :
    c.serialize buffer = buffer ++ (c.toCondition.header ++ recordBytes c.records) := by
  unfold serialize records
  rw [c.toCondition.serialize_eq (·.1.toCondition) setBase, writeEach_eq .SKILLS _ pushSkill,
    writeEach_eq .STATS _ pushStat, writeEach_eq .BUFFS _ pushBuff, writeIndexed_eq, writeIndexed_eq, writeProp_eq]
  simp only [recordBytes_append, recordBytes_cons, recordBytes_nil, List.append_assoc, List.cons_append, List.append_nil]

theorem takes_eachRecord {attr : ConditionAttr_t} {values : Fin n → Int32} {push : Int32 → σ → σ}
    {p : ConditionAttr_t → σ → PropStream → Except PropStream (σ × PropStream)}
    (hp : ∀ s stream, p attr s stream = readTo int32_t (fun v => push (.ofInt v) s) stream) :
    ∀ x ∈ eachRecord attr values push, (propReader p).Takes x := by
  intro x hx
  obtain ⟨i, -, rfl⟩ := List.mem_map.mp hx
  exact takes_readTo hp fun s => by rw [IntType.ofInt_cast_int32 (by decide)]

theorem takes_records : ∀ x ∈ c.records, (propReader unserializeProp).Takes x := by
  have hindexed : ∀ (values before : Fin COMBAT_COUNT → Int32) (rest : PropStream),
      readIndexed COMBAT_COUNT before (indexedPayload values ++ rest) = .ok (values, rest) := by
    intro values before rest
    have hread := readIndexed_payload values (List.finRange COMBAT_COUNT) (fun i _ => i.isLt.trans (by decide)) before rest
    rwa [foldl_setAt_finRange, List.length_finRange] at hread
  have habsorbs : ∀ s rest, unserializeProp .ABSORBS s (indexedPayload c.absorbs ++ rest) =
      .ok (({ s.1 with absorbs := c.absorbs }, s.2), rest) := by
    intro s rest
    unfold unserializeProp
    dsimp only
    rw [hindexed]
  have hincreases : ∀ s rest, unserializeProp .INCREASES s (indexedPayload c.increases ++ rest) =
      .ok (({ s.1 with increases := c.increases }, s.2), rest) := by
    intro s rest
    unfold unserializeProp
    dsimp only
    rw [hindexed]
  intro x hx
  unfold records at hx
  simp only [List.mem_append, List.mem_cons, List.not_mem_nil, or_false] at hx
  rcases hx with hx | hx | hx | hx | rfl | rfl | rfl
  · refine c.toCondition.takes_records (fun attr hattr s stream => ?_) x hx
    simp only [List.mem_cons, List.not_mem_nil, or_false] at hattr
    rcases hattr with rfl | rfl | rfl <;> rfl
  · exact takes_eachRecord (fun _ _ => rfl) x hx
  · exact takes_eachRecord (fun _ _ => rfl) x hx
  · exact takes_eachRecord (fun _ _ => rfl) x hx
  · exact takes_of_read habsorbs
  · exact takes_of_read hincreases
  · exact takes_readTo (fun _ _ => rfl) fun s => by rw [IntType.ofInt_cast_int8 (by decide)]

/-- The condition before its records are read. -/
def made : ConditionAttributes :=
  ⟨.make c.id c.conditionType c.ticks c.isBuff c.subId false, fun _ => 0, fun _ => 0, fun _ => 0, fun _ => 0, fun _ => 0,
    fun _ => 0, 0, fun _ => 0, fun _ => 0, fun _ => 0, fun _ => 0, false⟩

/-- What loading makes of the condition. -/
def restored : ConditionAttributes :=
  { c with
    toCondition := c.toCondition.restored c.ticks, skillsPercent := fun _ => 0, statsPercent := fun _ => 0
    buffsPercent := fun _ => 0, absorbsPercent := fun _ => 0, increasesPercent := fun _ => 0, disableDefense := false }

theorem effects_records :
    Record.effects c.records (c.made, ⟨0, 0, 0⟩) = (c.restored, ⟨SKILL_COUNT, STAT_COUNT, BUFF_COUNT⟩) := by
  have hbase := @Condition.effects_records _ c.toCondition (·.1.toCondition) setBase (fun _ _ => rfl) (fun _ _ _ => rfl)
    (c.made, ⟨0, 0, 0⟩) c.ticks rfl
  unfold records
  rw [Record.effects_append, hbase, Record.effects_append, setBase, effects_skills, Record.effects_append, effects_stats,
    Record.effects_append, effects_buffs]
  rfl

end ConditionAttributes

/-! ### The other classes -/

/-- The records of a class with what every condition has before them are read, if its own are. -/
theorem takes_append {σ : Type} {p : ConditionAttr_t → σ → PropStream → Except PropStream (σ × PropStream)} {c : Condition}
    {get : σ → Condition} {set : σ → Condition → σ} {own : List (Record ConditionAttr_t σ)}
    (hp : ∀ attr ∈ [ConditionAttr_t.TICKSOUND, .ADDSOUND, .PERSISTENT], ∀ s stream,
      p attr s stream = unserializeBase (get s) (set s) attr stream)
    (hown : ∀ x ∈ own, (propReader p).Takes x) : ∀ x ∈ c.records get set ++ own, (propReader p).Takes x := by
  intro x hx
  rcases List.mem_append.mp hx with hx | hx
  · exact c.takes_records hp x hx
  · exact hown x hx

theorem forall_base {P : ConditionAttr_t → Prop} (h : P .TICKSOUND ∧ P .ADDSOUND ∧ P .PERSISTENT) :
    ∀ attr ∈ [ConditionAttr_t.TICKSOUND, .ADDSOUND, .PERSISTENT], P attr := by
  simpa using h

namespace ConditionRegeneration
variable (c : ConditionRegeneration)

def records : List (Record ConditionAttr_t ConditionRegeneration) :=
  c.toCondition.records toCondition (fun s base => { s with toCondition := base }) ++
    [⟨.HEALTHTICKS, uint32_t.encode c.healthTicks.toNat, fun s => { s with healthTicks := c.healthTicks }⟩,
      ⟨.HEALTHGAIN, uint32_t.encode c.healthGain.toNat, fun s => { s with healthGain := c.healthGain }⟩,
      ⟨.MANATICKS, uint32_t.encode c.manaTicks.toNat, fun s => { s with manaTicks := c.manaTicks }⟩,
      ⟨.MANAGAIN, uint32_t.encode c.manaGain.toNat, fun s => { s with manaGain := c.manaGain }⟩]

theorem serialize_eq (buffer : List UInt8) :
    c.serialize buffer = buffer ++ (c.toCondition.header ++ recordBytes c.records) := by
  unfold serialize records
  rw [c.toCondition.serialize_eq toCondition fun s base => { s with toCondition := base }]
  simp only [writeProp_eq, recordBytes_append, recordBytes_cons, recordBytes_nil, List.append_assoc, List.cons_append,
    List.append_nil]

theorem takes_records : ∀ x ∈ c.records, (propReader unserializeProp).Takes x := by
  refine takes_append (forall_base ⟨fun _ _ => rfl, fun _ _ => rfl, fun _ _ => rfl⟩) fun x hx => ?_
  simp only [List.mem_cons, List.not_mem_nil, or_false] at hx
  rcases hx with rfl | rfl | rfl | rfl <;>
    exact takes_readTo (fun _ _ => rfl) fun s => by rw [IntType.ofInt_cast_uint32 (by decide)]

/-- What loading makes of the condition. -/
def restored : ConditionRegeneration :=
  { c with toCondition := c.toCondition.restored c.ticks, internalHealthTicks := 0, internalManaTicks := 0 }

theorem effects_records : Record.effects c.records
    ⟨.make c.id c.conditionType c.ticks c.isBuff c.subId false, 0, 0, 1000, 1000, 0, 0⟩ = c.restored := rfl

end ConditionRegeneration

namespace ConditionManaShield
variable (c : ConditionManaShield)

def records : List (Record ConditionAttr_t ConditionManaShield) :=
  c.toCondition.records toCondition (fun s base => { s with toCondition := base }) ++
    [⟨.MANASHIELD, uint32_t.encode c.manaShield.toNat, fun s => { s with manaShield := c.manaShield }⟩]

theorem serialize_eq (buffer : List UInt8) :
    c.serialize buffer = buffer ++ (c.toCondition.header ++ recordBytes c.records) := by
  unfold serialize records
  rw [c.toCondition.serialize_eq toCondition fun s base => { s with toCondition := base }]
  simp only [writeProp_eq, recordBytes_append, recordBytes_cons, recordBytes_nil, List.append_assoc, List.append_nil]

theorem takes_records : ∀ x ∈ c.records, (propReader unserializeProp).Takes x := by
  refine takes_append (forall_base ⟨fun _ _ => rfl, fun _ _ => rfl, fun _ _ => rfl⟩) fun x hx => ?_
  rw [List.mem_singleton] at hx
  subst hx
  exact takes_readTo (fun _ _ => rfl) fun s => by rw [IntType.ofInt_cast_uint32 (by decide)]

/-- What loading makes of the condition. -/
def restored : ConditionManaShield := { c with toCondition := c.toCondition.restored c.ticks }

theorem effects_records :
    Record.effects c.records ⟨.make c.id c.conditionType c.ticks c.isBuff c.subId false, 0⟩ = c.restored := rfl

end ConditionManaShield

namespace ConditionSoul
variable (c : ConditionSoul)

def records : List (Record ConditionAttr_t ConditionSoul) :=
  c.toCondition.records toCondition (fun s base => { s with toCondition := base }) ++
    [⟨.SOULGAIN, uint32_t.encode c.soulGain.toNat, fun s => { s with soulGain := c.soulGain }⟩,
      ⟨.SOULTICKS, uint32_t.encode c.soulTicks.toNat, fun s => { s with soulTicks := c.soulTicks }⟩]

theorem serialize_eq (buffer : List UInt8) :
    c.serialize buffer = buffer ++ (c.toCondition.header ++ recordBytes c.records) := by
  unfold serialize records
  rw [c.toCondition.serialize_eq toCondition fun s base => { s with toCondition := base }]
  simp only [writeProp_eq, recordBytes_append, recordBytes_cons, recordBytes_nil, List.append_assoc, List.cons_append,
    List.append_nil]

theorem takes_records : ∀ x ∈ c.records, (propReader unserializeProp).Takes x := by
  refine takes_append (forall_base ⟨fun _ _ => rfl, fun _ _ => rfl, fun _ _ => rfl⟩) fun x hx => ?_
  simp only [List.mem_cons, List.not_mem_nil, or_false] at hx
  rcases hx with rfl | rfl <;> exact takes_readTo (fun _ _ => rfl) fun s => by rw [IntType.ofInt_cast_uint32 (by decide)]

/-- What loading makes of the condition. -/
def restored : ConditionSoul := { c with toCondition := c.toCondition.restored c.ticks, internalSoulTicks := 0 }

theorem effects_records :
    Record.effects c.records ⟨.make c.id c.conditionType c.ticks c.isBuff c.subId false, 0, 0, 0⟩ = c.restored := rfl

end ConditionSoul

namespace ConditionSpeed
variable (c : ConditionSpeed)

def records : List (Record ConditionAttr_t ConditionSpeed) :=
  c.toCondition.records toCondition (fun s base => { s with toCondition := base }) ++
    [⟨.SPEEDDELTA, int32_t.encode c.speedDelta.toInt, fun s => { s with speedDelta := c.speedDelta }⟩,
      ⟨.FORMULA_MINA, uint32_t.encode c.mina.toNat, fun s => { s with mina := c.mina }⟩,
      ⟨.FORMULA_MINB, uint32_t.encode c.minb.toNat, fun s => { s with minb := c.minb }⟩,
      ⟨.FORMULA_MAXA, uint32_t.encode c.maxa.toNat, fun s => { s with maxa := c.maxa }⟩,
      ⟨.FORMULA_MAXB, uint32_t.encode c.maxb.toNat, fun s => { s with maxb := c.maxb }⟩]

theorem serialize_eq (buffer : List UInt8) :
    c.serialize buffer = buffer ++ (c.toCondition.header ++ recordBytes c.records) := by
  unfold serialize records
  rw [c.toCondition.serialize_eq toCondition fun s base => { s with toCondition := base }]
  simp only [writeProp_eq, recordBytes_append, recordBytes_cons, recordBytes_nil, List.append_assoc, List.cons_append,
    List.append_nil]

theorem takes_records : ∀ x ∈ c.records, (propReader unserializeProp).Takes x := by
  refine takes_append (forall_base ⟨fun _ _ => rfl, fun _ _ => rfl, fun _ _ => rfl⟩) fun x hx => ?_
  simp only [List.mem_cons, List.not_mem_nil, or_false] at hx
  rcases hx with rfl | hx
  · exact takes_readTo (fun _ _ => rfl) fun s => by rw [IntType.ofInt_cast_int32 (by decide)]
  · rcases hx with rfl | rfl | rfl | rfl <;>
      exact takes_readTo (fun _ _ => rfl) fun s => by rw [IntType.ofInt_cast_uint32 (by decide)]

/-- What loading makes of the condition. -/
def restored : ConditionSpeed := { c with toCondition := c.toCondition.restored c.ticks }

theorem effects_records : Record.effects c.records
    ⟨.make c.id c.conditionType c.ticks c.isBuff c.subId false, 0, 0, 0, 0, 0⟩ = c.restored := rfl

end ConditionSpeed

namespace ConditionLight
variable (c : ConditionLight)

def records : List (Record ConditionAttr_t ConditionLight) :=
  c.toCondition.records toCondition (fun s base => { s with toCondition := base }) ++
    [⟨.LIGHTCOLOR, uint32_t.encode c.lightInfo.color.toNat,
        fun s => { s with lightInfo := { s.lightInfo with color := c.lightInfo.color } }⟩,
      ⟨.LIGHTLEVEL, uint32_t.encode c.lightInfo.level.toNat,
        fun s => { s with lightInfo := { s.lightInfo with level := c.lightInfo.level } }⟩,
      ⟨.LIGHTTICKS, uint32_t.encode c.internalLightTicks.toNat,
        fun s => { s with internalLightTicks := c.internalLightTicks }⟩,
      ⟨.LIGHTINTERVAL, uint32_t.encode c.lightChangeInterval.toNat,
        fun s => { s with lightChangeInterval := c.lightChangeInterval }⟩]

theorem serialize_eq (buffer : List UInt8) :
    c.serialize buffer = buffer ++ (c.toCondition.header ++ recordBytes c.records) := by
  unfold serialize records
  rw [c.toCondition.serialize_eq toCondition fun s base => { s with toCondition := base }]
  simp only [writeProp_eq, recordBytes_append, recordBytes_cons, recordBytes_nil, List.append_assoc, List.cons_append,
    List.append_nil]

theorem takes_records : ∀ x ∈ c.records, (propReader unserializeProp).Takes x := by
  refine takes_append (forall_base ⟨fun _ _ => rfl, fun _ _ => rfl, fun _ _ => rfl⟩) fun x hx => ?_
  simp only [List.mem_cons, List.not_mem_nil, or_false] at hx
  rcases hx with rfl | rfl | hx
  · exact takes_readTo (fun _ _ => rfl) fun s => by rw [IntType.ofInt_cast_uint8 (by decide)]
  · exact takes_readTo (fun _ _ => rfl) fun s => by rw [IntType.ofInt_cast_uint8 (by decide)]
  · rcases hx with rfl | rfl <;>
      exact takes_readTo (fun _ _ => rfl) fun s => by rw [IntType.ofInt_cast_uint32 (by decide)]

/-- What loading makes of the condition. -/
def restored : ConditionLight := { c with toCondition := c.toCondition.restored c.ticks }

theorem effects_records (lightInfo : LightInfo) : Record.effects c.records
    ⟨.make c.id c.conditionType c.ticks c.isBuff c.subId false, lightInfo, 0, 0⟩ = c.restored := rfl

end ConditionLight

namespace Outfit_t

theorem length_toBytes (o : Outfit_t) : o.toBytes.length = 28 := by simp [toBytes]

theorem word_bytes (n : UInt16) :
    ∃ low high, LittleEndian.bytes 2 n.toNat = [low, high] ∧ .ofNat (LittleEndian.value [low, high]) = n :=
  ⟨_, _, rfl, show UInt16.ofNat (LittleEndian.value (LittleEndian.bytes 2 n.toNat)) = n by simp⟩

theorem ofBytes_toBytes (o : Outfit_t) : ofBytes o.toBytes = o := by
  obtain ⟨lookType, lookTypeEx, lookMount, _, _, _, _, _, _, _, _, _, currentMount, lookFamiliarsType, lookWing, lookAura,
    lookEffect, lookShader⟩ := o
  obtain ⟨_, _, h0, hv0⟩ := word_bytes lookType
  obtain ⟨_, _, h2, hv2⟩ := word_bytes lookTypeEx
  obtain ⟨_, _, h4, hv4⟩ := word_bytes lookMount
  obtain ⟨_, _, h16, hv16⟩ := word_bytes currentMount
  obtain ⟨_, _, h18, hv18⟩ := word_bytes lookFamiliarsType
  obtain ⟨_, _, h20, hv20⟩ := word_bytes lookWing
  obtain ⟨_, _, h22, hv22⟩ := word_bytes lookAura
  obtain ⟨_, _, h24, hv24⟩ := word_bytes lookEffect
  obtain ⟨_, _, h26, hv26⟩ := word_bytes lookShader
  unfold toBytes
  dsimp only
  rw [h0, h2, h4, h16, h18, h20, h22, h24, h26]
  exact (Outfit_t.mk.injEq ..).mpr
    ⟨hv0, hv2, hv4, rfl, rfl, rfl, rfl, rfl, rfl, rfl, rfl, rfl, hv16, hv18, hv20, hv22, hv24, hv26⟩

end Outfit_t

namespace ConditionOutfit
variable (c : ConditionOutfit)

def records : List (Record ConditionAttr_t ConditionOutfit) :=
  c.toCondition.records toCondition (fun s base => { s with toCondition := base }) ++
    [⟨.OUTFIT, c.outfit.toBytes, fun s => { s with outfit := c.outfit }⟩]

theorem serialize_eq (buffer : List UInt8) :
    c.serialize buffer = buffer ++ (c.toCondition.header ++ recordBytes c.records) := by
  unfold serialize records
  rw [c.toCondition.serialize_eq toCondition fun s base => { s with toCondition := base }, write_tag]
  simp only [recordBytes_append, recordBytes_cons, recordBytes_nil, List.append_assoc, List.singleton_append, List.append_nil]

theorem takes_records : ∀ x ∈ c.records, (propReader unserializeProp).Takes x := by
  refine takes_append (forall_base ⟨fun _ _ => rfl, fun _ _ => rfl, fun _ _ => rfl⟩) fun x hx => ?_
  rw [List.mem_singleton] at hx
  subst hx
  refine takes_of_read fun s rest => ?_
  unfold unserializeProp
  dsimp only
  rw [read_append c.outfit.length_toBytes]
  dsimp only
  rw [Outfit_t.ofBytes_toBytes]

/-- What loading makes of the condition. -/
def restored : ConditionOutfit := { c with toCondition := c.toCondition.restored c.ticks, monsterName := [] }

theorem effects_records (outfit : Outfit_t) : Record.effects c.records
    ⟨.make c.id c.conditionType c.ticks c.isBuff c.subId false, outfit, []⟩ = c.restored := rfl

end ConditionOutfit

/-! ### Damage -/

namespace IntervalInfo

theorem length_toBytes (info : IntervalInfo) : info.toBytes.length = 12 := by simp [toBytes, int32_t]

theorem ofBytes_toBytes (info : IntervalInfo) : ofBytes info.toBytes = info := by
  have htimeLeft : (int32_t.encode info.timeLeft.toInt).length = 4 := IntType.length_encode ..
  have hvalue : (int32_t.encode info.value.toInt).length = 4 := IntType.length_encode ..
  have hinterval : (int32_t.encode info.interval.toInt).length = 4 := IntType.length_encode ..
  have hboth : (int32_t.encode info.timeLeft.toInt ++ int32_t.encode info.value.toInt).length = 8 := by
    rw [List.length_append, htimeLeft, hvalue]
  unfold ofBytes toBytes
  rw [List.drop_left' hboth, List.take_of_length_le hinterval.le, List.append_assoc, List.take_left' htimeLeft,
    List.drop_left' htimeLeft, List.take_left' hvalue]
  simp only [IntType.decode_encode, IntType.ofInt_cast_int32 (show Int32.size ∣ int32_t.modulus by decide)]

end IntervalInfo

namespace ConditionDamage
variable (OTSYS_TIME : Int64) (c : ConditionDamage)

/-- The ticks with those of one more interval, which are only counted where they are not -1. -/
def addTicks (ticks : Int32) (damageInfo : IntervalInfo) : Int32 := if ticks ≠ -1 then ticks + damageInfo.interval else ticks

/-- The ticks that loading adds up from the intervals. -/
def loadedTicks : Int32 := c.damageList.foldl addTicks 0

def addInterval (c : ConditionDamage) (damageInfo : IntervalInfo) : ConditionDamage :=
  let c := { c with damageList := c.damageList ++ [damageInfo] }
  if c.ticks ≠ -1 then { c with toCondition := c.setTicks OTSYS_TIME (c.ticks + damageInfo.interval) } else c

theorem foldl_addInterval (l : List IntervalInfo) (d : ConditionDamage) :
    ∃ endTime, l.foldl (addInterval OTSYS_TIME) d =
      { d with ticks := l.foldl addTicks d.ticks, endTime := endTime, damageList := d.damageList ++ l } := by
  induction l generalizing d with
  | nil => exact ⟨d.endTime, by rw [List.append_nil]; rfl⟩
  | cons damageInfo l ih =>
    obtain ⟨endTime, hrest⟩ := ih (d.addInterval OTSYS_TIME damageInfo)
    refine ⟨endTime, ?_⟩
    rw [List.foldl_cons, hrest, List.foldl_cons]
    unfold addInterval addTicks
    dsimp only
    split_ifs with hticks <;> simp [Condition.setTicks]

def records : List (Record ConditionAttr_t ConditionDamage) :=
  c.toCondition.records toCondition (fun s base => { s with toCondition := base }) ++
    (⟨.DELAYED, uint8_t.encode c.delayed.toNat, fun s => { s with delayed := c.delayed }⟩ ::
      ⟨.PERIODDAMAGE, int32_t.encode c.periodDamage.toInt, fun s => { s with periodDamage := c.periodDamage }⟩ ::
      c.damageList.map fun damageInfo =>
        ⟨.INTERVALDATA, damageInfo.toBytes, fun s => s.addInterval OTSYS_TIME damageInfo⟩)

theorem serialize_eq (buffer : List UInt8) :
    c.serialize buffer = buffer ++ (c.toCondition.header ++ recordBytes (c.records OTSYS_TIME)) := by
  have hloop : ∀ (l : List IntervalInfo) (buffer : List UInt8),
      l.foldl (fun buffer info => write 1 ConditionAttr_t.INTERVALDATA.toByte.toNat buffer ++ info.toBytes) buffer =
        buffer ++ recordBytes (l.map fun damageInfo => (⟨.INTERVALDATA, damageInfo.toBytes,
          fun s => s.addInterval OTSYS_TIME damageInfo⟩ : Record ConditionAttr_t ConditionDamage)) := by
    intro l
    induction l with
    | nil => simp
    | cons info l ih =>
      intro buffer
      rw [List.foldl_cons, ih, write_tag, List.map_cons, recordBytes_cons]
      simp
  unfold serialize records
  rw [hloop, c.toCondition.serialize_eq toCondition fun s base => { s with toCondition := base }]
  simp only [writeProp_eq, recordBytes_append, recordBytes_cons, List.append_assoc, List.cons_append]

theorem takes_records : ∀ x ∈ c.records OTSYS_TIME, (propReader (unserializeProp OTSYS_TIME)).Takes x := by
  refine takes_append (forall_base ⟨fun _ _ => rfl, fun _ _ => rfl, fun _ _ => rfl⟩) fun x hx => ?_
  simp only [List.mem_cons] at hx
  rcases hx with rfl | rfl | hx
  · exact takes_readTo (fun _ _ => rfl) fun s => by rw [cast_toNat]
  · exact takes_readTo (fun _ _ => rfl) fun s => by rw [IntType.ofInt_cast_int32 (by decide)]
  · obtain ⟨damageInfo, -, rfl⟩ := List.mem_map.mp hx
    refine takes_of_read fun s rest => ?_
    unfold unserializeProp addInterval
    dsimp only
    rw [read_append damageInfo.length_toBytes]
    dsimp only
    rw [IntervalInfo.ofBytes_toBytes]
    split_ifs <;> rfl

/-- The condition before its intervals are read. -/
def restoredBase : ConditionDamage :=
  ⟨c.toCondition.restored 0, 0, 0, 0, c.periodDamage, 0, 2000, false, c.delayed, false, 0, []⟩

/-- What loading makes of the condition. -/
def restored : ConditionDamage := c.damageList.foldl (addInterval OTSYS_TIME) c.restoredBase

theorem effects_records : Record.effects (c.records OTSYS_TIME)
      ⟨.make c.id c.conditionType 0 c.isBuff c.subId false, 0, 0, 0, 0, 0, 2000, false, false, false, 0, []⟩ =
    c.restored OTSYS_TIME := by
  have hloop : ∀ (l : List IntervalInfo) (d : ConditionDamage),
      Record.effects (l.map fun damageInfo => (⟨.INTERVALDATA, damageInfo.toBytes,
        fun s => s.addInterval OTSYS_TIME damageInfo⟩ : Record ConditionAttr_t ConditionDamage)) d =
      l.foldl (addInterval OTSYS_TIME) d := fun l d => List.foldl_map
  unfold records
  rw [Record.effects_append, Record.effects_cons, Record.effects_cons, hloop]
  rfl

end ConditionDamage

/-! ### All conditions -/

/-- The condition without its end by the clock and without how far it drains the body. -/
def Condition.lasting (c : Condition) : Condition := { c with drainBodyStage := 0, endTime := 0 }

def genericTypes : List ConditionType_t :=
  [.INVISIBLE, .SPELLCOOLDOWN, .SPELLGROUPCOOLDOWN, .FEARED, .ROOTED, .INFIGHT, .DRUNK, .EXHAUST, .EXHAUST_COMBAT,
    .EXHAUST_HEAL, .MUTED, .CHANNELMUTEDTICKS, .YELLTICKS, .POWERLESS, .PACIFIED, .GOSHNARTAINT, .BAKRAGORE]

def attributesTypes : List ConditionType_t := [.LESSERHEX, .INTENSEHEX, .GREATERHEX, .ATTRIBUTES]

def damageTypes : List ConditionType_t :=
  [.POISON, .FIRE, .ENERGY, .DROWN, .FREEZING, .DAZZLED, .CURSED, .BLEEDING, .AGONY]

def speedTypes : List ConditionType_t := [.HASTE, .PARALYZE]

section
variable {id : Int8} {type : ConditionType_t} {ticks param : Int32} {buff : Bool} {subId : UInt32}

theorem createCondition_generic (h : type ∈ genericTypes) :
    createCondition id type ticks param buff subId false = some (.generic (.make id type ticks buff subId false)) := by
  cases type <;> first | rfl | exact absurd h (by decide)

theorem createCondition_attributes (h : type ∈ attributesTypes) : createCondition id type ticks param buff subId false =
    some (.attributes ⟨.make id type ticks buff subId false, fun _ => 0, fun _ => 0, fun _ => 0, fun _ => 0, fun _ => 0,
      fun _ => 0, 0, fun _ => 0, fun _ => 0, fun _ => 0, fun _ => 0, false⟩ ⟨0, 0, 0⟩) := by
  cases type <;> first | rfl | exact absurd h (by decide)

theorem createCondition_damage (h : type ∈ damageTypes) : createCondition id type ticks param buff subId false =
    some (.damage ⟨.make id type 0 buff subId false, 0, 0, 0, 0, 0, 2000, false, false, false, 0, []⟩) := by
  cases type <;> first | rfl | exact absurd h (by decide)

theorem createCondition_speed (h : type ∈ speedTypes) : createCondition id type ticks param buff subId false =
    some (.speed ⟨.make id type ticks buff subId false, param, 0, 0, 0, 0⟩) := by
  cases type <;> first | rfl | exact absurd h (by decide)

theorem createCondition_regeneration (h : type = .REGENERATION) : createCondition id type ticks param buff subId false =
    some (.regeneration ⟨.make id type ticks buff subId false, 0, 0, 1000, 1000, 0, 0⟩) := by
  subst h
  rfl

theorem createCondition_manaShield (h : type = .MANASHIELD) : createCondition id type ticks param buff subId false =
    some (.manaShield ⟨.make id type ticks buff subId false, 0⟩) := by
  subst h
  rfl

theorem createCondition_soul (h : type = .SOUL) : createCondition id type ticks param buff subId false =
    some (.soul ⟨.make id type ticks buff subId false, 0, 0, 0⟩) := by
  subst h
  rfl

theorem createCondition_outfit (h : type = .OUTFIT) : createCondition id type ticks param buff subId false =
    some (.outfit ⟨.make id type ticks buff subId false, .make, []⟩) := by
  subst h
  rfl

theorem createCondition_light (h : type = .LIGHT) : ∃ lightInfo, createCondition id type ticks param buff subId false =
    some (.light ⟨.make id type ticks buff subId false, lightInfo, 0, 0⟩) := by
  subst h
  exact ⟨_, rfl⟩

end

namespace ConditionPtr

/-- The class is the one that `createCondition` has for the type. -/
def OfType : ConditionPtr → Prop
  | generic c => c.conditionType ∈ genericTypes
  | attributes c _ => c.conditionType ∈ attributesTypes
  | regeneration c => c.conditionType = .REGENERATION
  | manaShield c => c.conditionType = .MANASHIELD
  | soul c => c.conditionType = .SOUL
  | damage c => c.conditionType ∈ damageTypes
  | speed c => c.conditionType ∈ speedTypes
  | outfit c => c.conditionType = .OUTFIT
  | light c => c.conditionType = .LIGHT

/-- The condition with all that it is meant to keep: without its end by the clock, how far it drains the body and what reading
has filled. -/
def lasting : ConditionPtr → ConditionPtr
  | generic c => generic c.lasting
  | attributes c _ => attributes { c with toCondition := c.toCondition.lasting } ⟨0, 0, 0⟩
  | regeneration c => regeneration { c with toCondition := c.toCondition.lasting }
  | manaShield c => manaShield { c with toCondition := c.toCondition.lasting }
  | soul c => soul { c with toCondition := c.toCondition.lasting }
  | damage c => damage { c with toCondition := c.toCondition.lasting }
  | speed c => speed { c with toCondition := c.toCondition.lasting }
  | outfit c => outfit { c with toCondition := c.toCondition.lasting }
  | light c => light { c with toCondition := c.toCondition.lasting }

/-- Of these the fields that `serialize` writes; the others are as in a new condition. -/
def written : ConditionPtr → ConditionPtr
  | attributes c _ => attributes
      { c with
        toCondition := c.toCondition.lasting, skillsPercent := fun _ => 0, statsPercent := fun _ => 0
        buffsPercent := fun _ => 0, absorbsPercent := fun _ => 0, increasesPercent := fun _ => 0, disableDefense := false }
      ⟨0, 0, 0⟩
  | regeneration c =>
    regeneration { c with toCondition := c.toCondition.lasting, internalHealthTicks := 0, internalManaTicks := 0 }
  | soul c => soul { c with toCondition := c.toCondition.lasting, internalSoulTicks := 0 }
  | damage c =>
    damage
      { c with
        toCondition := c.toCondition.lasting, maxDamage := 0, minDamage := 0, startDamage := 0, periodDamageTick := 0
        tickInterval := 2000, forceUpdate := false, field := false, owner := 0 }
  | outfit c => outfit { c with toCondition := c.toCondition.lasting, monsterName := [] }
  | c => c.lasting

/-- The ticks of damage are those of its intervals. -/
def TicksOfIntervals : ConditionPtr → Prop
  | damage c => c.ticks = c.loadedTicks
  | _ => True

variable (OTSYS_TIME : Int64)

/-- What loading makes of a condition. -/
def restored : ConditionPtr → ConditionPtr
  | generic c => generic (c.restored c.ticks)
  | attributes c _ => attributes c.restored ⟨SKILL_COUNT, STAT_COUNT, BUFF_COUNT⟩
  | regeneration c => regeneration c.restored
  | manaShield c => manaShield c.restored
  | soul c => soul c.restored
  | damage c => damage (c.restored OTSYS_TIME)
  | speed c => speed c.restored
  | outfit c => outfit c.restored
  | light c => light c.restored

/-- The records behind the head of a condition. -/
def recordsBytes : ConditionPtr → List UInt8
  | generic c => recordBytes (c.records id fun _ base => base)
  | attributes c _ => recordBytes c.records
  | regeneration c => recordBytes c.records
  | manaShield c => recordBytes c.records
  | soul c => recordBytes c.records
  | damage c => recordBytes (c.records 0)
  | speed c => recordBytes c.records
  | outfit c => recordBytes c.records
  | light c => recordBytes c.records

theorem serialize_eq (c : ConditionPtr) (buffer : List UInt8) :
    c.serialize buffer = buffer ++ (c.base.header ++ c.recordsBytes) := by
  cases c with
  | generic c => exact c.serialize_eq ..
  | attributes c _ => exact c.serialize_eq buffer
  | regeneration c => exact c.serialize_eq buffer
  | manaShield c => exact c.serialize_eq buffer
  | soul c => exact c.serialize_eq buffer
  | damage c => exact c.serialize_eq 0 buffer
  | speed c => exact c.serialize_eq buffer
  | outfit c => exact c.serialize_eq buffer
  | light c => exact c.serialize_eq buffer

theorem recordBytes_damage (c : ConditionDamage) : recordBytes (c.records 0) = recordBytes (c.records OTSYS_TIME) := by
  have hsame := (c.serialize_eq 0 []).symm.trans (c.serialize_eq OTSYS_TIME [])
  simpa using hsame

/-- The records of a condition are read into what has been made of its head. -/
theorem load_serialize {c : ConditionPtr} (h : c.OfType) (rest : PropStream) :
    ∃ made, createCondition c.base.id c.base.conditionType c.base.ticks 0 c.base.isBuff c.base.subId false = some made ∧
      made.unserialize OTSYS_TIME (c.recordsBytes ++ CONDITIONATTR_END :: rest) = .ok (c.restored OTSYS_TIME, rest) := by
  cases c with
  | generic c =>
    have hbase : ∀ attr ∈ [ConditionAttr_t.TICKSOUND, .ADDSOUND, .PERSISTENT], ∀ (s : Condition) (stream : PropStream),
        Condition.unserializeProp attr s stream = unserializeBase (id s) (fun base => base) attr stream := by
      intro attr _ s stream
      unfold unserializeBase id
      cases s.unserializeProp attr stream <;> rfl
    refine ⟨_, createCondition_generic h, ?_⟩
    unfold unserialize recordsBytes
    dsimp only
    rw [readAll_recordBytes (c.takes_records hbase)]
    rfl
  | attributes c cursors =>
    refine ⟨_, createCondition_attributes h, ?_⟩
    have heffects := c.effects_records
    unfold ConditionAttributes.made at heffects
    unfold unserialize recordsBytes
    dsimp only [base]
    rw [readAll_recordBytes c.takes_records, heffects]
    rfl
  | regeneration c =>
    refine ⟨_, createCondition_regeneration h, ?_⟩
    unfold unserialize recordsBytes
    dsimp only [base]
    rw [readAll_recordBytes c.takes_records, c.effects_records]
    rfl
  | manaShield c =>
    refine ⟨_, createCondition_manaShield h, ?_⟩
    unfold unserialize recordsBytes
    dsimp only [base]
    rw [readAll_recordBytes c.takes_records, c.effects_records]
    rfl
  | soul c =>
    refine ⟨_, createCondition_soul h, ?_⟩
    unfold unserialize recordsBytes
    dsimp only [base]
    rw [readAll_recordBytes c.takes_records, c.effects_records]
    rfl
  | damage c =>
    refine ⟨_, createCondition_damage h, ?_⟩
    unfold unserialize recordsBytes
    dsimp only [base]
    rw [recordBytes_damage OTSYS_TIME, readAll_recordBytes (c.takes_records OTSYS_TIME), c.effects_records]
    rfl
  | speed c =>
    refine ⟨_, createCondition_speed h, ?_⟩
    unfold unserialize recordsBytes
    dsimp only [base]
    rw [readAll_recordBytes c.takes_records, c.effects_records]
    rfl
  | outfit c =>
    refine ⟨_, createCondition_outfit h, ?_⟩
    unfold unserialize recordsBytes
    dsimp only [base]
    rw [readAll_recordBytes c.takes_records, c.effects_records]
    rfl
  | light c =>
    obtain ⟨lightInfo, hmade⟩ := createCondition_light h
    refine ⟨_, hmade, ?_⟩
    unfold unserialize recordsBytes
    dsimp only [base]
    rw [readAll_recordBytes c.takes_records, c.effects_records]
    rfl

theorem written_restored_iff (c : ConditionPtr) : (c.restored OTSYS_TIME).written = c.written ↔ c.TicksOfIntervals := by
  cases c with
  | generic | attributes | regeneration | manaShield | soul | speed | outfit | light => exact iff_of_true rfl trivial
  | damage c =>
    obtain ⟨endTime, hloaded⟩ := c.restoredBase.foldl_addInterval OTSYS_TIME c.damageList
    have hrestored : c.restored OTSYS_TIME =
        { c.restoredBase with ticks := c.loadedTicks, endTime := endTime, damageList := c.damageList } := hloaded
    change damage _ = damage _ ↔ c.ticks = c.loadedTicks
    rw [hrestored]
    refine ⟨fun h => ?_, fun h => ?_⟩
    · exact (congrArg (fun c => c.base.ticks) h).symm
    · rw [← h]
      rfl

/-- What is not written is as in a new condition. -/
theorem lasting_restored (c : ConditionPtr) : (c.restored OTSYS_TIME).lasting = (c.restored OTSYS_TIME).written := by
  cases c with
  | generic | attributes | regeneration | manaShield | soul | speed | outfit | light => rfl
  | damage c =>
    obtain ⟨endTime, hloaded⟩ := c.restoredBase.foldl_addInterval OTSYS_TIME c.damageList
    have hrestored : c.restored OTSYS_TIME =
        { c.restoredBase with ticks := c.loadedTicks, endTime := endTime, damageList := c.damageList } := hloaded
    change damage _ = damage _
    rw [hrestored]
    rfl

theorem written_lasting (c : ConditionPtr) : c.lasting.written = c.written := by cases c <;> rfl

theorem written_written (c : ConditionPtr) : c.written.written = c.written := by cases c <;> rfl

theorem lasting_restored_iff (c : ConditionPtr) :
    (c.restored OTSYS_TIME).lasting = c.lasting ↔ c.TicksOfIntervals ∧ c.lasting = c.written := by
  rw [lasting_restored, ← written_restored_iff OTSYS_TIME]
  refine ⟨fun h => ?_, fun h => h.1.trans h.2.symm⟩
  have hwritten := congrArg written h
  rw [written_written, written_lasting] at hwritten
  exact ⟨hwritten, h.symm.trans hwritten⟩

end ConditionPtr

theorem saveConditions_eq {conditions : List ConditionPtr} (h : ∀ c ∈ conditions, c.isPersistent = true) :
    saveConditions conditions = conditions.flatMap fun c => c.base.header ++ (c.recordsBytes ++ [CONDITIONATTR_END]) := by
  have hloop : ∀ buffer, conditions.foldl (fun buffer condition =>
      if condition.isPersistent then write 1 CONDITIONATTR_END.toNat (condition.serialize buffer) else buffer) buffer =
        buffer ++ conditions.flatMap fun c => c.base.header ++ (c.recordsBytes ++ [CONDITIONATTR_END]) := by
    induction conditions with
    | nil => simp
    | cons c conditions ih =>
      intro buffer
      have hend : LittleEndian.bytes 1 CONDITIONATTR_END.toNat = [CONDITIONATTR_END] := by simp [LittleEndian.bytes]
      rw [List.foldl_cons, if_pos (h c List.mem_cons_self), ih fun d hd => h d (List.mem_cons_of_mem _ hd), c.serialize_eq,
        write, hend, List.flatMap_cons]
      simp only [List.append_assoc]
  exact (hloop []).trans (List.nil_append _)

theorem loadConditions_saved (OTSYS_TIME : Int64) {conditions : List ConditionPtr} (h : ∀ c ∈ conditions, c.OfType)
    {rounds : Nat} (hr : (conditions.flatMap fun c =>
      c.base.header ++ (c.recordsBytes ++ [CONDITIONATTR_END])).length < rounds) :
    loadConditions OTSYS_TIME rounds
        (conditions.flatMap fun c => c.base.header ++ (c.recordsBytes ++ [CONDITIONATTR_END])) =
      (conditions.map (·.restored OTSYS_TIME), []) := by
  induction conditions generalizing rounds with
  | nil =>
    obtain ⟨n, rfl⟩ := Nat.exists_eq_succ_of_ne_zero (Nat.ne_of_gt hr)
    rfl
  | cons c conditions ih =>
    obtain ⟨n, rfl⟩ := Nat.exists_eq_succ_of_ne_zero (Nat.ne_of_gt (Nat.zero_lt_of_lt hr))
    obtain ⟨made, hmade, hread⟩ := c.load_serialize OTSYS_TIME (h c List.mem_cons_self)
      (conditions.flatMap fun c => c.base.header ++ (c.recordsBytes ++ [CONDITIONATTR_END]))
    rw [List.flatMap_cons, List.length_append, List.length_append, List.length_append, List.length_singleton] at hr
    rw [List.flatMap_cons, List.append_assoc, List.append_assoc, List.singleton_append, loadConditions,
      createConditionFrom_header, hmade, Option.map_some]
    dsimp only
    rw [hread]
    dsimp only
    rw [ih (fun d hd => h d (List.mem_cons_of_mem _ hd)) (by omega)]
    rfl

/-- Conditions that are saved are loaded again to the end of the stream. -/
theorem load_save (OTSYS_TIME : Int64) {conditions : List ConditionPtr} (hpersistent : ∀ c ∈ conditions, c.isPersistent = true)
    (htype : ∀ c ∈ conditions, c.OfType) :
    loadPlayerConditions OTSYS_TIME (saveConditions conditions) = (conditions.map (·.restored OTSYS_TIME), []) := by
  rw [saveConditions_eq hpersistent]
  exact loadConditions_saved OTSYS_TIME htype (Nat.lt_succ_self _)

/-- Conditions that are saved are loaded again, as many as they were and to the end of the stream. They have what was written of
them if and only if the ticks of each damage are those of its intervals, and all else if it was as in a new condition. -/
theorem loadPlayerConditions_saveConditions (OTSYS_TIME : Int64) (conditions : List ConditionPtr)
    (hpersistent : ∀ c ∈ conditions, c.isPersistent = true) (htype : ∀ c ∈ conditions, c.OfType) :
    ∃ storedConditionList, loadPlayerConditions OTSYS_TIME (saveConditions conditions) = (storedConditionList, []) ∧
      storedConditionList.length = conditions.length ∧
      (storedConditionList.map (·.written) = conditions.map (·.written) ↔ ∀ c ∈ conditions, c.TicksOfIntervals) ∧
      (storedConditionList.map (·.lasting) = conditions.map (·.lasting) ↔
        ∀ c ∈ conditions, c.TicksOfIntervals ∧ c.lasting = c.written) := by
  refine ⟨conditions.map (·.restored OTSYS_TIME), load_save OTSYS_TIME hpersistent htype, List.length_map .., ?_, ?_⟩
  · rw [List.map_map, List.map_inj_left]
    exact forall₂_congr fun c _ => c.written_restored_iff OTSYS_TIME
  · rw [List.map_map, List.map_inj_left]
    exact forall₂_congr fun c _ => c.lasting_restored_iff OTSYS_TIME

/-- Haste, and a fire whose two intervals have not begun. -/
theorem loadPlayerConditions_saveConditions_fire :
    let conditions : List ConditionPtr := [.speed ⟨.make 0 .HASTE 33000 false 0 false, 80, 0, 0, 0, 0⟩,
      .damage ⟨.make 0 .FIRE 18000 true 7 false, 0, 0, 0, 0, 0, 2000, false, true, false, 0,
        [⟨9000, -10, 9000⟩, ⟨9000, -10, 9000⟩]⟩]
    ∃ storedConditionList, loadPlayerConditions 0 (saveConditions conditions) = (storedConditionList, []) ∧
      storedConditionList.length = conditions.length ∧
      (storedConditionList.map (·.written) = conditions.map (·.written) ↔ ∀ c ∈ conditions, c.TicksOfIntervals) ∧
      (storedConditionList.map (·.lasting) = conditions.map (·.lasting) ↔
        ∀ c ∈ conditions, c.TicksOfIntervals ∧ c.lasting = c.written) := by
  intro conditions
  refine loadPlayerConditions_saveConditions 0 conditions (by decide) ?_
  simp [conditions, ConditionPtr.OfType, Condition.make, damageTypes, speedTypes]

/-- The fire of a fire field hurts in every period and has no intervals: it comes back without its ticks. -/
theorem periodDamage_loses_ticks :
    let conditions : List ConditionPtr :=
      [.damage ⟨.make 0 .FIRE 7000 false 0 false, 0, 0, 0, -20, 0, 2000, false, true, false, 0, []⟩]
    (∀ c ∈ conditions, c.isPersistent = true ∧ c.OfType) ∧
      ∃ storedConditionList, loadPlayerConditions 0 (saveConditions conditions) = (storedConditionList, []) ∧
        storedConditionList.map (·.base.ticks) = [0] ∧ conditions.map (·.base.ticks) = [7000] := by
  intro conditions
  have htype : ∀ c ∈ conditions, c.isPersistent = true ∧ c.OfType := by
    simp [conditions, ConditionPtr.OfType, Condition.make, damageTypes, ConditionPtr.isPersistent, ConditionPtr.base]
  exact ⟨htype, _, load_save 0 (fun c hc => (htype c hc).1) fun c hc => (htype c hc).2, rfl, rfl⟩

end CrystalServer
