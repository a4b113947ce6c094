import Mathlib.Data.List.Induction
import CrystalServer.Lib.Run
import CrystalServer.Network.NetworkMessage

/-! # Writing and reading a network message

A write appends its bytes to what the message holds or is refused. Read from the start on the message gives back
the values that were written. A position is three writes with a check each, so that near the end of the message a
part of it is written when the whole has no room. -/

namespace CrystalServer.NetworkMessage
open Lib

/-! ### Appended bytes -/

/-- The bytes written since the message was made. -/
structure Written (m : NetworkMessage) (bs : List UInt8) : Prop where
  position : m.position.toNat = INITIAL_BUFFER_POSITION + bs.length
  length : m.length.toNat = bs.length
  room : INITIAL_BUFFER_POSITION + bs.length < MAX_BODY_LENGTH
  data : ∃ header rest, m.buffer = (header ++ bs) ++ rest ∧ header.length = INITIAL_BUFFER_POSITION

section
variable {m : NetworkMessage} {bs : List UInt8}

theorem written_new : Written new [] where
  position := rfl
  length := rfl
  room := by decide
  data := ⟨.replicate INITIAL_BUFFER_POSITION 0, .replicate (NETWORKMESSAGE_MAXSIZE - INITIAL_BUFFER_POSITION) 0, by
    rw [List.append_nil, List.replicate_append_replicate]
    rfl, List.length_replicate⟩

theorem Written.canAdd_iff (h : Written m bs) {n : Nat} :
    m.canAdd n = true ↔ n + (INITIAL_BUFFER_POSITION + bs.length) < MAX_BODY_LENGTH := by
  rw [canAdd, h.position, decide_eq_true_eq]

theorem Written.put (h : Written m bs) (cs : List UInt8) (hadd : m.canAdd cs.length = true) :
    Written (m.put cs) (bs ++ cs) := by
  have hp := h.position
  have hl := h.length
  have hs := m.size
  obtain ⟨header, rest, hd, hh⟩ := h.data
  rw [h.canAdd_iff] at hadd
  have hlen := congrArg List.length hd
  simp only [List.length_append] at hlen
  simp only [INITIAL_BUFFER_POSITION, MAX_BODY_LENGTH, NETWORKMESSAGE_MAXSIZE, HEADER_LENGTH, CHECKSUM_LENGTH,
    XTEA_MULTIPLE] at hp hadd hs hh
  refine ⟨?_, ?_, ?_, header, rest.drop cs.length, ?_, hh⟩
  · simp only [NetworkMessage.put, UInt16.toNat_add, UInt16.toNat_ofNat', List.length_append,
      INITIAL_BUFFER_POSITION]
    omega
  · simp only [NetworkMessage.put, UInt16.toNat_add, UInt16.toNat_ofNat', List.length_append]
    omega
  · simp only [List.length_append, INITIAL_BUFFER_POSITION, MAX_BODY_LENGTH, NETWORKMESSAGE_MAXSIZE, HEADER_LENGTH,
      CHECKSUM_LENGTH, XTEA_MULTIPLE]
    omega
  · have hpos : m.position.toNat = (header ++ bs).length := by
      rw [List.length_append]
      omega
    simp only [NetworkMessage.put, store, hd, hpos]
    rw [overwrite_append (by omega), List.append_assoc, List.append_assoc, List.append_assoc]

theorem Written.add_eq (h : Written m bs) {n v : Nat} (hadd : m.canAdd n = true) :
    m.add n v = m.put (LittleEndian.bytes n v) := by
  have hp := h.position
  have hs := m.size
  have hroom := h.canAdd_iff.mp hadd
  simp only [MAX_BODY_LENGTH, NETWORKMESSAGE_MAXSIZE, HEADER_LENGTH, CHECKSUM_LENGTH, XTEA_MULTIPLE] at hs hroom
  rw [NetworkMessage.add, if_neg (not_not.mpr hadd), if_neg (by omega)]

theorem Written.addByte_eq (h : Written m bs) {v : UInt8} (hadd : m.canAdd 1 = true) : m.addByte v = m.put [v] := by
  have hp := h.position
  have hs := m.size
  have hroom := h.canAdd_iff.mp hadd
  simp only [MAX_BODY_LENGTH, NETWORKMESSAGE_MAXSIZE, HEADER_LENGTH, CHECKSUM_LENGTH, XTEA_MULTIPLE] at hs hroom
  rw [addByte, if_neg (not_not.mpr hadd), if_pos (by omega)]

theorem Written.add (h : Written m bs) {n v : Nat} (hadd : m.canAdd n = true) :
    Written (m.add n v) (bs ++ LittleEndian.bytes n v) := by
  rw [h.add_eq hadd]
  exact h.put _ (by rwa [LittleEndian.length_bytes])

theorem Written.addByte (h : Written m bs) {v : UInt8} (hadd : m.canAdd 1 = true) :
    Written (m.addByte v) (bs ++ [v]) := by
  rw [h.addByte_eq hadd]
  exact h.put [v] hadd

theorem add_refused {n v : Nat} (h : ¬m.canAdd n = true) : m.add n v = m := by
  rw [NetworkMessage.add, if_pos h]

theorem addByte_refused {v : UInt8} (h : ¬m.canAdd 1 = true) : m.addByte v = m := by
  rw [addByte, if_pos h]

end

/-! ### Writes -/

/-- A value with the function that writes it. A text is the ISO-8859-1 text that its UTF-8 form stands for. -/
inductive Write where
  | byte (v : UInt8)
  | u16 (v : UInt16)
  | u32 (v : UInt32)
  | u64 (v : UInt64)
  | position (pos : Position)
  | string (latin1 : List UInt8)

namespace Write

/-- The call that writes the value. -/
def apply (charset : Charset) (m : NetworkMessage) : Write → NetworkMessage
  | byte v => m.addByte v
  | u16 v => m.add 2 v.toNat
  | u32 v => m.add 4 v.toNat
  | u64 v => m.add 8 v.toNat
  | position pos => m.addPosition pos
  | string latin1 => m.addString charset (charset.toUtf latin1)

/-- The bytes of the value. -/
def bytes : Write → List UInt8
  | byte v => [v]
  | u16 v => LittleEndian.bytes 2 v.toNat
  | u32 v => LittleEndian.bytes 4 v.toNat
  | u64 v => LittleEndian.bytes 8 v.toNat
  | position pos => LittleEndian.bytes 2 pos.x.toNat ++ (LittleEndian.bytes 2 pos.y.toNat ++ [pos.z])
  | string latin1 => LittleEndian.bytes 2 latin1.length ++ latin1

def allBytes (ws : List Write) : List UInt8 := ws.flatMap bytes

/-- The message has room for the whole value. -/
def Accepted (m : NetworkMessage) (w : Write) : Prop := m.canAdd w.bytes.length = true

end Write

section
variable {charset : Charset} {m : NetworkMessage} {bs : List UInt8}

theorem toUtf_eq_nil_iff {latin1 : List UInt8} : charset.toUtf latin1 = [] ↔ latin1 = [] := by
  constructor
  · intro h
    have hfrom := charset.from_toUtf latin1
    rw [h, ← charset.toUtf_nil, charset.from_toUtf] at hfrom
    exact hfrom.symm
  · rintro rfl
    exact charset.toUtf_nil

theorem Written.canAdd_of_le (h : Written m bs) {n k : Nat} (hn : m.canAdd n = true) (hk : k ≤ n) :
    m.canAdd k = true := by
  rw [h.canAdd_iff] at hn ⊢
  omega

/-- Behind bytes that were written the room is less by their number. -/
theorem Written.canAdd_append {m' : NetworkMessage} {cs : List UInt8} (h : Written m bs) (h' : Written m' (bs ++ cs))
    {k : Nat} (hadd : m.canAdd (cs.length + k) = true) : m'.canAdd k = true := by
  rw [h.canAdd_iff] at hadd
  rw [h'.canAdd_iff, List.length_append]
  omega

theorem Written.addPosition (h : Written m bs) {pos : Position} (hadd : m.canAdd 5 = true) :
    Written (m.addPosition pos) (bs ++ (Write.position pos).bytes) := by
  have hx : Written (m.add 2 pos.x.toNat) _ := h.add (h.canAdd_of_le hadd (by omega))
  have hx' : (m.add 2 pos.x.toNat).canAdd 3 = true :=
    h.canAdd_append hx (by rwa [LittleEndian.length_bytes])
  have hy : Written ((m.add 2 pos.x.toNat).add 2 pos.y.toNat) _ := hx.add (hx.canAdd_of_le hx' (by omega))
  have hy' : ((m.add 2 pos.x.toNat).add 2 pos.y.toNat).canAdd 1 = true :=
    hx.canAdd_append hy (by rwa [LittleEndian.length_bytes])
  have hz := hy.addByte (v := pos.z) hy'
  rwa [List.append_assoc, List.append_assoc] at hz

theorem Written.addString (h : Written m bs) {latin1 : List UInt8} (hadd : m.canAdd (latin1.length + 2) = true) :
    Written (m.addString charset (charset.toUtf latin1)) (bs ++ (Write.string latin1).bytes) := by
  have hroom := h.canAdd_iff.mp hadd
  simp only [MAX_BODY_LENGTH, NETWORKMESSAGE_MAXSIZE, HEADER_LENGTH, CHECKSUM_LENGTH, XTEA_MULTIPLE] at hroom
  have hlen : (UInt16.ofNat latin1.length).toNat = latin1.length := UInt16.toNat_ofNat_of_lt' (by
    change latin1.length < 65536
    omega)
  have h2 : Written (m.add 2 latin1.length) _ := h.add (h.canAdd_of_le hadd (by omega))
  by_cases hnil : latin1 = []
  · subst hnil
    rw [NetworkMessage.addString, charset.toUtf_nil]
    exact h2
  · have hne : (charset.toUtf latin1).isEmpty = false := by
      rw [List.isEmpty_eq_false_iff]
      exact fun he => hnil (toUtf_eq_nil_iff.mp he)
    have hmax : ¬latin1.length > NETWORKMESSAGE_MAXSIZE := by
      simp only [NETWORKMESSAGE_MAXSIZE]
      omega
    have hput := h2.put latin1 (h.canAdd_append h2 (by rwa [LittleEndian.length_bytes, Nat.add_comm]))
    simp only [NetworkMessage.addString, hne, Bool.false_eq_true, if_false, charset.from_toUtf, hadd,
      not_true_eq_false, hmax, hlen]
    rwa [List.append_assoc] at hput

/-- A write that the message has room for appends its bytes. -/
theorem written_apply (charset : Charset) (h : Written m bs) {w : Write} (hadd : w.Accepted m) :
    Written (w.apply charset m) (bs ++ w.bytes) := by
  cases w with
  | byte v => exact h.addByte hadd
  | u16 v => exact h.add hadd
  | u32 v => exact h.add hadd
  | u64 v => exact h.add hadd
  | position pos => exact h.addPosition hadd
  | string latin1 =>
    refine h.addString ?_
    rwa [Write.Accepted, Write.bytes, List.length_append, LittleEndian.length_bytes, Nat.add_comm] at hadd

/-! ### Refused writes -/

/-- A write that the message has no room for leaves it as it is, unless it is a position. -/
theorem apply_refused {w : Write} (hw : ∀ pos, w ≠ .position pos) (h : ¬w.Accepted m) :
    w.apply charset m = m := by
  cases w with
  | byte v => exact addByte_refused h
  | u16 v => exact add_refused h
  | u32 v => exact add_refused h
  | u64 v => exact add_refused h
  | position pos => exact absurd rfl (hw pos)
  | string latin1 =>
    rw [Write.Accepted, Write.bytes, List.length_append, LittleEndian.length_bytes] at h
    rw [Write.apply, addString]
    by_cases hnil : latin1 = []
    · subst hnil
      rw [charset.toUtf_nil]
      exact add_refused h
    · have hne : (charset.toUtf latin1).isEmpty = false := by
        rw [List.isEmpty_eq_false_iff]
        exact fun he => hnil (toUtf_eq_nil_iff.mp he)
      rw [Nat.add_comm] at h
      simp only [hne, Bool.false_eq_true, if_false, charset.from_toUtf, h, not_false_eq_true, if_true]

theorem Written.exists_add (h : Written m bs) (n v : Nat) : ∃ cs, Written (m.add n v) (bs ++ cs) := by
  by_cases hadd : m.canAdd n = true
  · exact ⟨_, h.add hadd⟩
  · exact ⟨[], by rwa [add_refused hadd, List.append_nil]⟩

theorem Written.exists_addByte (h : Written m bs) (v : UInt8) : ∃ cs, Written (m.addByte v) (bs ++ cs) := by
  by_cases hadd : m.canAdd 1 = true
  · exact ⟨_, h.addByte hadd⟩
  · exact ⟨[], by rwa [addByte_refused hadd, List.append_nil]⟩

/-- Where there is room for one byte, some part of a position is written. -/
theorem Written.exists_addPosition (h : Written m bs) (pos : Position) (hadd : m.canAdd 1 = true) :
    ∃ c cs, Written (m.addPosition pos) (bs ++ c :: cs) := by
  by_cases h2 : m.canAdd 2 = true
  · obtain ⟨ys, hy⟩ := (h.add (v := pos.x.toNat) h2).exists_add 2 pos.y.toNat
    obtain ⟨zs, hz⟩ := hy.exists_addByte pos.z
    rw [List.append_assoc, List.append_assoc] at hz
    exact ⟨_, _, hz⟩
  · have hz := h.addByte (v := pos.z) hadd
    refine ⟨pos.z, [], ?_⟩
    rwa [NetworkMessage.addPosition, add_refused h2, add_refused h2]

/-- A refused position leaves the message as it is exactly where there is not even room for one byte. -/
theorem addPosition_refused (h : Written m bs) (pos : Position) :
    m.addPosition pos = m ↔ ¬m.canAdd 1 = true := by
  constructor
  · intro heq hadd
    obtain ⟨c, cs, hw⟩ := h.exists_addPosition pos hadd
    have hlen := hw.length
    rw [heq, h.length, List.length_append, List.length_cons] at hlen
    omega
  · intro h1
    have h2 : ¬m.canAdd 2 = true := fun h2 => h1 (h.canAdd_of_le h2 (by omega))
    rw [NetworkMessage.addPosition, add_refused h2, add_refused h2, addByte_refused h1]

theorem exists_written_apply (h : Written m bs) (w : Write) : ∃ cs, Written (w.apply charset m) (bs ++ cs) := by
  by_cases hadd : w.Accepted m
  · exact ⟨_, written_apply charset h hadd⟩
  · by_cases hw : ∃ pos, w = .position pos
    · obtain ⟨pos, rfl⟩ := hw
      obtain ⟨xs, hx⟩ := h.exists_add 2 pos.x.toNat
      obtain ⟨ys, hy⟩ := hx.exists_add 2 pos.y.toNat
      obtain ⟨zs, hz⟩ := hy.exists_addByte pos.z
      rw [List.append_assoc, List.append_assoc] at hz
      exact ⟨_, hz⟩
    · rw [apply_refused (fun pos he => hw ⟨pos, he⟩) hadd]
      exact ⟨[], by rwa [List.append_nil]⟩

/-- Where a refused write must leave the message as it is, it does so exactly if no part of it has room. -/
def Whole (m : NetworkMessage) (w : Write) : Prop :=
  ∀ pos, w = .position pos → m.canAdd 5 = true ∨ ¬m.canAdd 1 = true

theorem refused_iff_whole (charset : Charset) (h : Written m bs) (w : Write) :
    (¬w.Accepted m → w.apply charset m = m) ↔ Whole m w := by
  by_cases hw : ∃ pos, w = .position pos
  · obtain ⟨pos, rfl⟩ := hw
    have h5 : (Write.position pos).Accepted m ↔ m.canAdd 5 = true := by
      rw [Write.Accepted, Write.bytes, List.length_append, List.length_append, LittleEndian.length_bytes,
        LittleEndian.length_bytes, List.length_singleton]
    rw [h5]
    change (_ → m.addPosition pos = m) ↔ _
    rw [addPosition_refused h pos]
    constructor
    · intro hr _ _
      by_cases hadd : m.canAdd 5 = true
      · exact Or.inl hadd
      · exact Or.inr (hr hadd)
    · intro hwhole hadd
      exact (hwhole pos rfl).resolve_left hadd
  · exact ⟨fun _ pos he => absurd ⟨pos, he⟩ hw, fun _ hr => apply_refused (fun pos he => hw ⟨pos, he⟩) hr⟩

end

/-! ### Reading -/

/-- The bytes between the position and the end of what the message holds. -/
structure Unread (m : NetworkMessage) (bs : List UInt8) : Prop where
  position : 0 < m.position.toNat
  length : m.position.toNat + bs.length = INITIAL_BUFFER_POSITION + m.length.toNat
  data : ∃ done rest, m.buffer = done ++ (bs ++ rest) ∧ done.length = m.position.toNat

section
variable {charset : Charset} {m : NetworkMessage} {bs : List UInt8}

theorem Written.unread (h : Written m bs) :
    Unread (m.setBufferPosition (.ofNat INITIAL_BUFFER_POSITION)) bs := by
  obtain ⟨header, rest, hd, hh⟩ := h.data
  exact ⟨Nat.zero_lt_succ 6, by rw [setBufferPosition, h.length]; rfl, header, rest,
    by rw [← List.append_assoc]; exact hd, hh⟩

theorem Unread.canRead_iff (h : Unread m bs) {n : Nat} : m.canRead n = true ↔ n ≤ bs.length := by
  have hp := h.position
  have hl := h.length
  rw [canRead, decide_eq_true_eq]
  omega

theorem Unread.room {cs : List UInt8} (h : Unread m (cs ++ bs)) :
    m.position.toNat + cs.length ≤ m.buffer.length := by
  obtain ⟨done, rest, hd, hdone⟩ := h.data
  have hlen := congrArg List.length hd
  simp only [List.length_append] at hlen
  omega

/-- The position moved behind bytes that are read. -/
theorem Unread.skip (cs : List UInt8) (h : Unread m (cs ++ bs)) {n : UInt16} (hn : n.toNat = cs.length) :
    Unread { m with position := m.position + n } bs := by
  have hp := h.position
  have hl := h.length
  have hroom := h.room
  have hs := m.size
  obtain ⟨done, rest, hd, hdone⟩ := h.data
  simp only [NETWORKMESSAGE_MAXSIZE] at hs
  have hpos : (m.position + n).toNat = m.position.toNat + cs.length := by
    rw [UInt16.toNat_add, hn]
    omega
  rw [List.length_append] at hl
  refine ⟨?_, ?_, done ++ cs, rest, ?_, ?_⟩
  · rw [hpos]
    omega
  · simp only [hpos]
    omega
  · simp only [hd, List.append_assoc]
  · rw [hpos, List.length_append, hdone]

theorem Unread.take {cs : List UInt8} (h : Unread m (cs ++ bs)) :
    (m.buffer.drop m.position.toNat).take cs.length = cs := by
  obtain ⟨done, rest, hd, hdone⟩ := h.data
  rw [hd, ← hdone, List.drop_left, List.append_assoc, List.take_left]

theorem Unread.get_eq {cs : List UInt8} {n : Nat} (h : Unread m (cs ++ bs)) (hn : cs.length = n) :
    m.get n = some (LittleEndian.value cs, { m with position := m.position + .ofNat n }) := by
  subst hn
  have hread : m.canRead cs.length = true := h.canRead_iff.mpr (by rw [List.length_append]; omega)
  have hroom := h.room
  rw [NetworkMessage.get, if_neg (not_not.mpr hread), if_neg (by omega), h.take]

theorem Unread.get {cs : List UInt8} {n : Nat} (h : Unread m (cs ++ bs)) (hn : cs.length = n) (h16 : n < 65536) :
    ∃ m', m.get n = some (LittleEndian.value cs, m') ∧ Unread m' bs :=
  ⟨_, h.get_eq hn, h.skip cs ((UInt16.toNat_ofNat_of_lt' h16).trans hn.symm)⟩

theorem getByte_of_buffer {before after : List UInt8} {b : UInt8} (hread : m.canRead 1 = true)
    (hbuffer : m.buffer = before ++ b :: after) (hbefore : before.length = m.position.toNat) (h0 : m.position ≠ 0) :
    m.getByte = some (b, { m with position := m.position + 1 }) := by
  rw [NetworkMessage.getByte, if_neg (not_not.mpr hread), if_neg h0]
  simp [hbuffer, ← hbefore]

theorem Unread.getByte_eq {b : UInt8} (h : Unread m (b :: bs)) :
    m.getByte = some (b, { m with position := m.position + 1 }) := by
  have hread : m.canRead 1 = true := (h.canRead_iff (n := 1)).mpr (by rw [List.length_cons]; omega)
  have hp := h.position
  obtain ⟨done, rest, hd, hdone⟩ := h.data
  refine getByte_of_buffer hread hd hdone fun h0 => ?_
  rw [h0] at hp
  exact absurd hp (by decide)

theorem Unread.getByte {b : UInt8} (h : Unread m (b :: bs)) : ∃ m', m.getByte = some (b, m') ∧ Unread m' bs :=
  ⟨_, h.getByte_eq, h.skip [b] (n := 1) rfl⟩

theorem Unread.getU16 {v : UInt16} (h : Unread m (LittleEndian.bytes 2 v.toNat ++ bs)) :
    ∃ m', m.getU16 = some (v, m') ∧ Unread m' bs := by
  obtain ⟨m', hr, hu⟩ := h.get (LittleEndian.length_bytes ..) (by omega)
  exact ⟨m', by simp [NetworkMessage.getU16, hr], hu⟩

theorem Unread.getString {latin1 : List UInt8}
    (h : Unread m (LittleEndian.bytes 2 latin1.length ++ (latin1 ++ bs)))
    (h16 : latin1.length < 65536) :
    ∃ m', m.getString charset 0 = some (charset.toUtf latin1, m') ∧ Unread m' bs := by
  have hlen : (UInt16.ofNat latin1.length).toNat = latin1.length := UInt16.toNat_ofNat_of_lt' h16
  obtain ⟨m₁, hr, hu⟩ := Unread.getU16 (v := .ofNat latin1.length) (by rwa [hlen])
  have hread : m₁.canRead latin1.length = true := hu.canRead_iff.mpr (by rw [List.length_append]; omega)
  have hroom := hu.room
  have hs := m₁.size
  refine ⟨_, ?_, hu.skip latin1 hlen⟩
  simp only [NetworkMessage.getString, if_true, hr, hlen, hread, not_true_eq_false, if_false, hu.take]
  rw [if_neg (by omega), if_neg (by omega)]

theorem Unread.getPosition {pos : Position} (h : Unread m ((Write.position pos).bytes ++ bs)) :
    ∃ m', m.getPosition = some (pos, m') ∧ Unread m' bs := by
  rw [Write.bytes, List.append_assoc, List.append_assoc] at h
  obtain ⟨m₁, hx, h₁⟩ := h.getU16
  obtain ⟨m₂, hy, h₂⟩ := h₁.getU16
  obtain ⟨m₃, hz, h₃⟩ := h₂.getByte
  exact ⟨m₃, by simp only [NetworkMessage.getPosition, hx, hy, hz], h₃⟩

end

/-- The accessor that matches the write gives its value and leaves the message as `m'`. -/
def ReadsWrite (charset : Charset) (m m' : NetworkMessage) : Write → Prop
  | .byte v => m.getByte = some (v, m')
  | .u16 v => m.getU16 = some (v, m')
  | .u32 v => m.getU32 = some (v, m')
  | .u64 v => m.getU64 = some (v, m')
  | .position pos => m.getPosition = some (pos, m')
  | .string latin1 => m.getString charset 0 = some (charset.toUtf latin1, m')

/-- The accessors give the values of the writes one after the other. -/
def Reads (charset : Charset) : List Write → NetworkMessage → NetworkMessage → Prop
  | [], m, m' => m' = m
  | w :: ws, m, m' => ∃ m₁, ReadsWrite charset m m₁ w ∧ Reads charset ws m₁ m'

section
variable {charset : Charset} {m : NetworkMessage} {bs : List UInt8}

theorem readsWrite {w : Write} (h : Unread m (w.bytes ++ bs)) (h16 : w.bytes.length < 65536) :
    ∃ m', ReadsWrite charset m m' w ∧ Unread m' bs := by
  cases w with
  | byte v => exact h.getByte
  | u16 v => exact h.getU16
  | u32 v =>
    obtain ⟨m', hr, hu⟩ := h.get (LittleEndian.length_bytes ..) (by omega)
    exact ⟨m', by simp [ReadsWrite, NetworkMessage.getU32, hr, Write.bytes], hu⟩
  | u64 v =>
    obtain ⟨m', hr, hu⟩ := h.get (LittleEndian.length_bytes ..) (by omega)
    exact ⟨m', by simp [ReadsWrite, NetworkMessage.getU64, hr, Write.bytes], hu⟩
  | position pos => exact h.getPosition
  | string latin1 =>
    rw [Write.bytes, List.length_append] at h16
    rw [Write.bytes, List.append_assoc] at h
    exact h.getString (by omega)

/-- What was written is read back in order, and then nothing is left. -/
theorem reads_of_unread {ws : List Write} (h : Unread m (Write.allBytes ws))
    (h16 : (Write.allBytes ws).length < 65536) : ∃ m', Reads charset ws m m' ∧ m'.canRead 1 = false := by
  induction ws generalizing m with
  | nil =>
    refine ⟨m, rfl, ?_⟩
    rw [← Bool.not_eq_true]
    intro hread
    have h1 := (h.canRead_iff (n := 1)).mp hread
    exact absurd h1 (by simp [Write.allBytes])
  | cons w ws ih =>
    have hb : Write.allBytes (w :: ws) = w.bytes ++ Write.allBytes ws := rfl
    rw [hb] at h h16
    rw [List.length_append] at h16
    obtain ⟨m₁, hr, hu⟩ := readsWrite h (by omega)
    obtain ⟨m', hrs, hc⟩ := ih hu (by omega)
    exact ⟨m', ⟨m₁, hr, hrs⟩, hc⟩

end

/-! ### A run of writes -/

/-- What a sequence of writes to a new message keeps to: if all of them have room, each position on the way is that
    of the bytes written, below the limit, and reading gives the values back; and a write that has no room
    changes nothing. -/
structure Faithful (charset : Charset) (ws : List Write) : Prop where
  position : Meets (Write.apply charset) (fun m w => w.Accepted m) new ws → ∀ xs, xs <+: ws →
    (run (Write.apply charset) new xs).position.toNat = INITIAL_BUFFER_POSITION + (Write.allBytes xs).length ∧
      (run (Write.apply charset) new xs).position.toNat < MAX_BODY_LENGTH
  reads : Meets (Write.apply charset) (fun m w => w.Accepted m) new ws →
    ∃ m', Reads charset ws
        ((run (Write.apply charset) new ws).setBufferPosition (.ofNat INITIAL_BUFFER_POSITION)) m' ∧
      m'.canRead 1 = false
  refused : ∀ xs w ys, ws = xs ++ w :: ys → ¬w.Accepted (run (Write.apply charset) new xs) →
    run (Write.apply charset) new (xs ++ [w]) = run (Write.apply charset) new xs

section
variable {charset : Charset}

theorem written_run {ws : List Write}
    (h : Meets (Write.apply charset) (fun m w => w.Accepted m) new ws) :
    Written (run (Write.apply charset) new ws) (Write.allBytes ws) := by
  induction ws using List.reverseRecOn with
  | nil => exact written_new
  | append_singleton ws w ih =>
    have hw := written_apply charset (ih h.of_append) h.at
    rw [run_concat]
    rwa [Write.allBytes, List.flatMap_append, List.flatMap_singleton]

theorem exists_written_run (charset : Charset) (ws : List Write) : ∃ bs, Written (run (Write.apply charset) new ws) bs := by
  refine run_induction (fun m => ∃ bs, Written m bs) (fun m w => ?_) ws ⟨[], written_new⟩
  rintro ⟨bs, h⟩
  obtain ⟨cs, hw⟩ := exists_written_apply h w
  exact ⟨_, hw⟩

/-- Writing and reading are faithful exactly in the runs in which each position finds room for its five bytes or
    not even for one. -/
theorem faithful_iff (charset : Charset) (ws : List Write) :
    Faithful charset ws ↔ Meets (Write.apply charset) Whole new ws := by
  constructor
  · intro h
    refine meets_of_forall_split fun xs w ys hs => ?_
    obtain ⟨bs, hw⟩ := exists_written_run charset xs
    refine (refused_iff_whole charset hw w).mp fun hr => ?_
    have hrun := h.refused xs w ys hs hr
    rwa [run_concat] at hrun
  · intro h
    refine ⟨?_, ?_, ?_⟩
    · rintro hm xs ⟨ys, rfl⟩
      have hw := written_run hm.of_append
      rw [hw.position]
      exact ⟨rfl, hw.room⟩
    · intro hm
      have hw := written_run hm
      have hroom := hw.room
      simp only [MAX_BODY_LENGTH, NETWORKMESSAGE_MAXSIZE, HEADER_LENGTH, CHECKSUM_LENGTH, XTEA_MULTIPLE] at hroom
      exact reads_of_unread hw.unread (by omega)
    · rintro xs w ys rfl hr
      obtain ⟨bs, hw⟩ := exists_written_run charset xs
      rw [run_concat]
      exact (refused_iff_whole charset hw w).mpr h.at hr

end

/-! ### A position at the end of the message -/

/-- `boost::locale::conv::to_utf` from ISO-8859-1. -/
def latin1ToUtf : List UInt8 → List UInt8
  | [] => []
  | b :: bs =>
    if b.toNat < 128 then b :: latin1ToUtf bs
    else .ofNat (192 + b.toNat / 64) :: .ofNat (128 + b.toNat % 64) :: latin1ToUtf bs

/-- `boost::locale::conv::from_utf` to ISO-8859-1, which skips what has no place there. -/
def utfToLatin1 : List UInt8 → List UInt8
  | [] => []
  | [b] => if b.toNat < 128 then [b] else []
  | b :: c :: bs =>
    if b.toNat < 128 then b :: utfToLatin1 (c :: bs)
    else if (b = 194 ∨ b = 195) ∧ 128 ≤ c.toNat ∧ c.toNat < 192 then
      .ofNat ((b.toNat - 192) * 64 + (c.toNat - 128)) :: utfToLatin1 bs
    else utfToLatin1 (c :: bs)

theorem utfToLatin1_ascii {b : UInt8} (h : b.toNat < 128) (bs : List UInt8) :
    utfToLatin1 (b :: bs) = b :: utfToLatin1 bs := by
  cases bs with
  | nil => simp [utfToLatin1, h]
  | cons c bs => simp [utfToLatin1, h]

theorem utfToLatin1_latin1ToUtf (bs : List UInt8) : utfToLatin1 (latin1ToUtf bs) = bs := by
  induction bs with
  | nil => rfl
  | cons b bs ih =>
    have hb : b.toNat < 256 := b.toNat_lt
    rw [latin1ToUtf]
    split
    · rename_i hlt
      rw [utfToLatin1_ascii hlt, ih]
    · rename_i hge
      have h1 : (UInt8.ofNat (192 + b.toNat / 64)).toNat = 192 + b.toNat / 64 :=
        UInt8.toNat_ofNat_of_lt' (by change _ < 256; omega)
      have h2 : (UInt8.ofNat (128 + b.toNat % 64)).toNat = 128 + b.toNat % 64 :=
        UInt8.toNat_ofNat_of_lt' (by change _ < 256; omega)
      have hlead : UInt8.ofNat (192 + b.toNat / 64) = 194 ∨ UInt8.ofNat (192 + b.toNat / 64) = 195 := by
        rcases (show b.toNat / 64 = 2 ∨ b.toNat / 64 = 3 by omega) with hq | hq <;> rw [hq]
        · exact Or.inl rfl
        · exact Or.inr rfl
      have hvalue : (192 + b.toNat / 64 - 192) * 64 + (128 + b.toNat % 64 - 128) = b.toNat := by omega
      rw [utfToLatin1, if_neg (by omega), if_pos ⟨hlead, by omega, by omega⟩, h1, h2, hvalue, UInt8.ofNat_toNat, ih]

def latin1 : Charset where
  toUtf := latin1ToUtf
  fromUtf := utfToLatin1
  from_toUtf := utfToLatin1_latin1ToUtf
  toUtf_nil := rfl

/-- Behind a text that leaves room for one byte a position is refused and its last byte written all the same. -/
theorem not_faithful_of_length {charset : Charset} {text : List UInt8} (htext : text.length = 65475)
    (pos : Position) : ¬Faithful charset [.string text, .position pos] := by
  intro h
  have hs : (Write.string text).bytes.length = 65477 := by
    rw [Write.bytes, List.length_append, LittleEndian.length_bytes, htext]
  have hw : Written (Write.apply charset new (.string text)) ([] ++ (Write.string text).bytes) :=
    written_apply charset written_new (by rw [Write.Accepted, hs, written_new.canAdd_iff]; decide)
  have hwhole : Whole (Write.apply charset new (.string text)) (.position pos) := by
    refine (refused_iff_whole charset hw _).mp fun hr => ?_
    have hrefused := h.refused [.string text] (.position pos) [] rfl
    rw [run_concat, run_cons, run_nil] at hrefused
    exact hrefused hr
  rcases hwhole pos rfl with h5 | h1
  · rw [hw.canAdd_iff, List.nil_append, hs] at h5
    exact absurd h5 (by decide)
  · rw [hw.canAdd_iff, List.nil_append, hs] at h1
    exact h1 (by decide)

theorem not_faithful_nearlyFull :
    ¬Faithful latin1 [.string (.replicate 65475 97), .position { x := 1, y := 2, z := 3 }] :=
  not_faithful_of_length List.length_replicate _

end CrystalServer.NetworkMessage
