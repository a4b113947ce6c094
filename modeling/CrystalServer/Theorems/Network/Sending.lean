import CrystalServer.Theorems.Network.Connection
import CrystalServer.Theorems.Network.Protocol

/-! # What a peer reads

The bytes of a message behind its headers, step by step on the way through `onSendMessage`, and a reader of packets that undoes
the whole way. -/

namespace CrystalServer
open Lib NetworkMessage

namespace OutputMessage

/-- The message holds `bs`, from `start` on in its buffer. -/
structure Framed (m : OutputMessage) (start : Nat) (bs : List UInt8) : Prop where
  outputBufferStart : m.outputBufferStart.toNat = start
  length : m.length.toNat = bs.length
  position : m.position.toNat = start + bs.length
  data : ∃ before after, m.buffer = before ++ (bs ++ after) ∧ before.length = start

variable {m : OutputMessage} {start : Nat} {bs : List UInt8}

theorem framed_getOutputMessage : Framed getOutputMessage INITIAL_BUFFER_POSITION [] where
  outputBufferStart := rfl
  length := rfl
  position := rfl
  data := ⟨.replicate INITIAL_BUFFER_POSITION 0, .replicate (NETWORKMESSAGE_MAXSIZE - INITIAL_BUFFER_POSITION) 0, by
    rw [List.nil_append, List.replicate_append_replicate]
    rfl, List.length_replicate⟩

theorem Framed.room (h : Framed m start bs) : start + bs.length ≤ NETWORKMESSAGE_MAXSIZE := by
  obtain ⟨before, after, hd, hb⟩ := h.data
  have hsize := m.size
  rw [hd, List.length_append, List.length_append] at hsize
  omega

theorem Framed.output (h : Framed m start bs) : m.output = bs := by
  obtain ⟨before, after, hd, hb⟩ := h.data
  rw [OutputMessage.output, h.outputBufferStart, h.length, hd, List.drop_left' hb, List.take_left]

/-- Bytes behind the others. -/
theorem Framed.put (h : Framed m start bs) (cs : List UInt8) (hroom : start + bs.length + cs.length ≤ NETWORKMESSAGE_MAXSIZE) :
    Framed { m.put cs with outputBufferStart := m.outputBufferStart } start (bs ++ cs) := by
  have hp := h.position
  have hl := h.length
  obtain ⟨before, after, hd, hb⟩ := h.data
  have hsize := m.size
  have hlen := congrArg List.length hd
  simp only [List.length_append] at hlen
  rw [NETWORKMESSAGE_MAXSIZE] at hsize hroom
  refine ⟨h.outputBufferStart, ?_, ?_, before, after.drop cs.length, ?_, hb⟩
  · simp only [NetworkMessage.put, UInt16.toNat_add, UInt16.toNat_ofNat', List.length_append]
    omega
  · simp only [NetworkMessage.put, UInt16.toNat_add, UInt16.toNat_ofNat', List.length_append]
    omega
  · have hpos : m.position.toNat = (before ++ bs).length := by
      rw [List.length_append]
      omega
    simp only [NetworkMessage.put, store, hd, hpos]
    rw [← List.append_assoc, overwrite_append (by omega), List.append_assoc, List.append_assoc]

/-- A header in front of the others. -/
theorem Framed.add_header (h : Framed m start bs) (cs : List UInt8) (hstart : cs.length ≤ start) :
    Framed (m.add_header cs) (start - cs.length) (cs ++ bs) := by
  have hs := h.outputBufferStart
  have hp := h.position
  have hl := h.length
  have hroom := h.room
  obtain ⟨before, after, hd, hb⟩ := h.data
  rw [NETWORKMESSAGE_MAXSIZE] at hroom
  have hcs : (UInt16.ofNat cs.length).toNat = cs.length := UInt16.toNat_ofNat_of_lt' (by
    change cs.length < 65536
    omega)
  have hsub : (m.outputBufferStart - .ofNat cs.length).toNat = start - cs.length := by
    rw [UInt16.toNat_sub_of_le _ _ (UInt16.le_iff_toNat_le.mpr (by omega)), hcs, hs]
  obtain ⟨first, last, rfl, hfirst⟩ : ∃ first last, before = first ++ last ∧ first.length = start - cs.length :=
    ⟨before.take (start - cs.length), before.drop (start - cs.length), (List.take_append_drop ..).symm, by
      rw [List.length_take]
      omega⟩
  have hlast : last.length = cs.length := by
    rw [List.length_append] at hb
    omega
  rw [OutputMessage.add_header, if_neg (by omega)]
  refine ⟨hsub, ?_, ?_, first, after, ?_, hfirst⟩
  · simp only [UInt16.toNat_add, hcs, List.length_append]
    omega
  · simp only [store, hp, List.length_append]
    omega
  · simp only [store, hsub, hd, List.append_assoc]
    rw [← hfirst, overwrite_append (by rw [List.length_append]; omega), ← hlast, List.drop_left]

theorem Framed.addPaddingBytes (h : Framed m start bs) {n : Nat} (hroom : n + (start + bs.length) < MAX_BODY_LENGTH) :
    Framed (m.addPaddingBytes n) start (bs ++ List.replicate n 0x33) := by
  have hadd : m.canAdd n = true := by rwa [canAdd, h.position, decide_eq_true_eq]
  have hput := h.put (List.replicate n 0x33) (by
    rw [List.length_replicate, NETWORKMESSAGE_MAXSIZE]
    simp only [MAX_BODY_LENGTH, NETWORKMESSAGE_MAXSIZE, HEADER_LENGTH, CHECKSUM_LENGTH, XTEA_MULTIPLE] at hroom
    omega)
  rwa [OutputMessage.addPaddingBytes, if_neg (not_not.mpr hadd)]

/-- The message starts anew with other bytes. -/
theorem Framed.replace (h : Framed m INITIAL_BUFFER_POSITION bs) (cs : List UInt8)
    (hroom : INITIAL_BUFFER_POSITION + cs.length < MAX_BODY_LENGTH) :
    Framed (m.reset.addBytes cs) INITIAL_BUFFER_POSITION cs := by
  have hempty : Framed m.reset INITIAL_BUFFER_POSITION [] := by
    obtain ⟨before, after, hd, hb⟩ := h.data
    exact ⟨h.outputBufferStart, rfl, rfl, before, bs ++ after, hd, hb⟩
  have hadd : m.reset.canAdd cs.length = true := by
    rw [canAdd, hempty.position, decide_eq_true_eq]
    exact (Nat.add_comm ..).trans_lt hroom
  simp only [MAX_BODY_LENGTH, NETWORKMESSAGE_MAXSIZE, HEADER_LENGTH, CHECKSUM_LENGTH, XTEA_MULTIPLE] at hroom
  have hput := hempty.put cs (by
    rw [List.length_nil, NETWORKMESSAGE_MAXSIZE]
    omega)
  rw [OutputMessage.addBytes, if_neg (not_not.mpr hadd), if_neg (by rw [NETWORKMESSAGE_MAXSIZE]; omega)]
  rwa [List.nil_append] at hput

/-- The bytes stand with their number of filler bytes before and the filler behind them, in whole blocks. -/
theorem Framed.writePaddingAmount (h : Framed m INITIAL_BUFFER_POSITION bs)
    (hroom : INITIAL_BUFFER_POSITION + 8 * (bs.length / 8 + 1) < MAX_BODY_LENGTH) :
    ∃ (k : UInt8) (filler : List UInt8), filler.length = k.toNat ∧
      (k :: (bs ++ filler)).length = 8 * (bs.length / 8 + 1) ∧
      Framed m.writePaddingAmount (INITIAL_BUFFER_POSITION - 1) (k :: (bs ++ filler)) := by
  have hamount : 8 - m.length.toNat % 8 - 1 = 7 - bs.length % 8 := by
    rw [h.length]
    omega
  have hk : (UInt8.ofNat (7 - bs.length % 8)).toNat = 7 - bs.length % 8 := UInt8.toNat_ofNat_of_lt' (by
    change 7 - bs.length % 8 < 256
    omega)
  refine ⟨.ofNat (7 - bs.length % 8), .replicate (7 - bs.length % 8) 0x33, by rw [List.length_replicate, hk], ?_, ?_⟩
  · simp only [List.length_cons, List.length_append, List.length_replicate]
    omega
  · rw [OutputMessage.writePaddingAmount, hamount]
    exact (h.addPaddingBytes (n := 7 - bs.length % 8) (by omega)).add_header [_] (Nat.le_add_left 1 6)

end OutputMessage

namespace Protocol

theorem transformBlocks_append (key : Vector UInt32 4) (encrypt : Bool) (n : Nat) {content : List UInt8}
    (h : content.length = 8 * n) (rest : List UInt8) :
    transformBlocks key encrypt n (content ++ rest) = transformBlocks key encrypt n content := by
  induction n generalizing content with
  | zero => rfl
  | succ n ih =>
    have h₂ : (content.drop 8).length = 8 * n := by rw [List.length_drop]; omega
    rw [transformBlocks, transformBlocks, List.take_append_of_le_length (by omega), List.drop_append_of_le_length (by omega),
      ih h₂]

end Protocol

namespace OutputMessage
variable {m : OutputMessage} {start : Nat} {bs : List UInt8}

/-- Whole blocks are encrypted in place. -/
theorem Framed.XTEA_encrypt (h : Framed m start bs) (p : SendingProtocol) {n : Nat} (hn : bs.length = 8 * n) :
    Framed (p.XTEA_encrypt m) start (Protocol.transformBlocks p.key true n bs) := by
  have hlen := h.length
  obtain ⟨before, after, hd, hb⟩ := h.data
  have hmod : ¬(m.length.toNat % 8 ≠ 0) := by omega
  have hcipher : (Protocol.transformBlocks p.key true n bs).length = bs.length := by
    rw [Protocol.length_transformBlocks, hn]
  have hdrop : m.buffer.drop m.outputBufferStart.toNat = bs ++ after := by
    rw [h.outputBufferStart, hd, List.drop_left' hb]
  simp only [SendingProtocol.XTEA_encrypt, if_neg hmod]
  simp only [hdrop, hlen, hn, Protocol.XTEA_transform_of_blocks, Protocol.transformBlocks_append p.key true n hn]
  refine ⟨h.outputBufferStart, hlen.trans hcipher.symm, by rw [hcipher]; exact h.position, before, after, ?_, hb⟩
  simp only [store, h.outputBufferStart, hd]
  rw [← hb, overwrite_append (by rw [List.length_append]; omega), hcipher, List.drop_left]

end OutputMessage

/-! ### Packets -/

/-- A packet that was read off the stream. -/
structure Packet where
  number : Nat
  compressed : Bool
  body : List UInt8

namespace Packet

/-- What the packet brings, where `inflate` undoes the compression. -/
def content (inflate : List UInt8 → List UInt8) (packet : Packet) : List UInt8 :=
  if packet.compressed then inflate packet.body else packet.body

/-- The packet at the head of the stream, and what stands behind it. -/
def read (key : Vector UInt32 4) (stream : List UInt8) : Option (Packet × List UInt8) :=
  let blocks := LittleEndian.value (stream.take 2)
  if stream.length < 6 + 8 * blocks then none
  else
    let number := LittleEndian.value ((stream.drop 2).take 4)
    match Protocol.transformBlocks key false blocks (stream.drop 6) with
    | [] => none
    | k :: text =>
      some ({ number := number % 2 ^ 31, compressed := 2 ^ 31 ≤ number, body := text.take (text.length - k.toNat) },
        stream.drop (6 + 8 * blocks))

/-- A packet is read back from its bytes, whatever stands behind them. -/
theorem read_packet (key : Vector UInt32 4) {n : Nat} (hn : n < 8192) (number : UInt32) {k : UInt8} {body filler : List UInt8}
    (hfiller : filler.length = k.toNat) (htotal : (k :: (body ++ filler)).length = 8 * n) (rest : List UInt8) :
    read key ((LittleEndian.bytes 2 n ++ (LittleEndian.bytes 4 number.toNat ++
        Protocol.transformBlocks key true n (k :: (body ++ filler)))) ++ rest) =
      some ({ number := number.toNat % 2 ^ 31, compressed := 2 ^ 31 ≤ number.toNat, body }, rest) := by
  have hcipher := Protocol.length_transformBlocks key true n (k :: (body ++ filler))
  have hundo := Protocol.transformBlocks_transformBlocks key true n htotal rest
  generalize Protocol.transformBlocks key true n (k :: (body ++ filler)) = cipher at hcipher hundo ⊢
  have hheader := LittleEndian.length_bytes 2 n
  have hnumber := LittleEndian.length_bytes 4 number.toNat
  have hblocks : LittleEndian.value (LittleEndian.bytes 2 n) = n := LittleEndian.value_bytes (by omega)
  have hvalue : LittleEndian.value (LittleEndian.bytes 4 number.toNat) = number.toNat :=
    LittleEndian.value_bytes number.toNat_lt
  generalize LittleEndian.bytes 2 n = header at hheader hblocks ⊢
  generalize LittleEndian.bytes 4 number.toNat = bytes at hnumber hvalue ⊢
  have hsix : (header ++ (bytes ++ (cipher ++ rest))).drop 6 = cipher ++ rest := by
    rw [← List.append_assoc, List.drop_left' (by rw [List.length_append]; omega)]
  have hbody : (body ++ filler).take ((body ++ filler).length - k.toNat) = body := by
    rw [List.length_append, hfiller, Nat.add_sub_cancel, List.take_left]
  have hrest : (header ++ (bytes ++ (cipher ++ rest))).drop (6 + 8 * n) = rest := by
    rw [← List.drop_drop, hsix, List.drop_left' hcipher]
  simp only [List.append_assoc, read, List.take_left' hheader, hblocks, hsix, hrest, List.drop_left' hheader,
    List.take_left' hnumber, hvalue]
  rw [Bool.not_true] at hundo
  rw [if_neg (by simp only [List.length_append]; omega), hundo]
  simp only [hbody]

/-- The packets at the head of the stream, at most `n` of them. -/
def readAll (key : Vector UInt32 4) : Nat → List UInt8 → List Packet
  | 0, _ => []
  | n + 1, stream =>
    match read key stream with
    | none => []
    | some (packet, rest) => packet :: readAll key n rest

end Packet

namespace SendingProtocol
variable {p : SendingProtocol} {deflate : List UInt8 → Option (List UInt8)} {m : OutputMessage} {bs : List UInt8}

/-- What is sent for a body, and whether it is compressed. -/
def sentBody (deflate : List UInt8 → Option (List UInt8)) (bs : List UInt8) : Bool × List UInt8 :=
  if bs.length < 128 then (false, bs)
  else
    match deflate bs with
    | none => (false, bs)
    | some cs => if cs = [] then (false, bs) else (true, cs)

/-- The body of the message, which has room for its filler also when it is compressed. -/
structure Ready (deflate : List UInt8 → Option (List UInt8)) (m : OutputMessage) (bs : List UInt8) : Prop where
  framed : m.Framed INITIAL_BUFFER_POSITION bs
  room : bs.length < 65472
  deflated : ∀ cs, deflate bs = some cs → cs.length < 65472

theorem inflate_sentBody {inflate : List UInt8 → List UInt8} (hinflate : ∀ bs cs, deflate bs = some cs → inflate cs = bs)
    (bs : List UInt8) : (if (sentBody deflate bs).1 then inflate (sentBody deflate bs).2 else (sentBody deflate bs).2) = bs := by
  unfold sentBody
  split
  · rfl
  · cases hd : deflate bs with
    | none => rfl
    | some cs =>
      dsimp only
      split
      · rfl
      · exact hinflate bs cs hd

/-- A protocol after the login. -/
structure Encrypts (p : SendingProtocol) : Prop where
  rawMessages : p.rawMessages = false
  encryptionEnabled : p.encryptionEnabled = true
  checksumMethod : p.checksumMethod = .sequence
  serverSequenceNumber : p.serverSequenceNumber.toNat < 0x7FFFFFFF

theorem Ready.compression (h : Ready deflate m bs) (hp : p.Encrypts) :
    ∃ m', (if m.length.toNat ≥ 128 then p.compression deflate m else (false, m)) = ((sentBody deflate bs).1, m') ∧
      m'.Framed INITIAL_BUFFER_POSITION (sentBody deflate bs).2 ∧ (sentBody deflate bs).2.length < 65472 := by
  have hlen := h.framed.length
  have hroom := h.room
  by_cases hshort : bs.length < 128
  · rw [sentBody, if_pos hshort, if_neg (by omega)]
    exact ⟨m, rfl, h.framed, hroom⟩
  · rw [sentBody, if_neg hshort, if_pos (by omega), SendingProtocol.compression, if_neg (not_not.mpr hp.checksumMethod),
      if_neg (by rw [hlen, NETWORKMESSAGE_MAXSIZE]; omega), h.framed.output]
    cases hd : deflate bs with
    | none => exact ⟨m, rfl, h.framed, hroom⟩
    | some cs =>
      have hcs := h.deflated cs hd
      cases cs with
      | nil => exact ⟨m, rfl, h.framed, hroom⟩
      | cons c cs =>
        refine ⟨m.reset.addBytes (c :: cs), rfl, h.framed.replace (c :: cs) ?_, hcs⟩
        simp only [INITIAL_BUFFER_POSITION, MAX_BODY_LENGTH, NETWORKMESSAGE_MAXSIZE, HEADER_LENGTH, CHECKSUM_LENGTH,
          XTEA_MULTIPLE]
        exact (Nat.add_lt_add_left hcs 7).trans (by decide)

/-- The number that a packet gets. -/
def packetNumber (p : SendingProtocol) (compressed : Bool) : UInt32 :=
  (if compressed then 0x80000000 else 0) ||| (p.serverSequenceNumber + 1)

theorem toNat_packetNumber (h : p.serverSequenceNumber.toNat < 0x7FFFFFFF) (compressed : Bool) :
    (p.packetNumber compressed).toNat =
      (if compressed then 2 ^ 31 else 0) + (p.serverSequenceNumber.toNat + 1) := by
  have hnext : (p.serverSequenceNumber + 1).toNat = p.serverSequenceNumber.toNat + 1 := by
    rw [UInt32.toNat_add]
    simp only [UInt32.reduceToNat]
    omega
  rw [packetNumber, UInt32.toNat_or, hnext]
  cases compressed with
  | false => simp
  | true => exact (Nat.two_pow_add_eq_or_of_lt (i := 31) (by omega) 1).symm

/-- A message becomes a packet: the number of its blocks, its own number, and the blocks. -/
theorem Ready.onSendMessage (h : Ready deflate m bs) (hp : p.Encrypts) :
    ∃ (k : UInt8) (filler : List UInt8) (n : Nat), n < 8192 ∧ filler.length = k.toNat ∧
      (k :: ((sentBody deflate bs).2 ++ filler)).length = 8 * n ∧
      (p.onSendMessage deflate m).1 = p.nextSequence ∧
      (p.onSendMessage deflate m).2.output = LittleEndian.bytes 2 n ++
        (LittleEndian.bytes 4 (p.packetNumber (sentBody deflate bs).1).toNat ++
          Protocol.transformBlocks p.key true n (k :: ((sentBody deflate bs).2 ++ filler))) := by
  obtain ⟨m₁, hm₁, hf₁, hroom⟩ := h.compression hp
  obtain ⟨k, filler, hfiller, htotal, hf₂⟩ := hf₁.writePaddingAmount (by
    simp only [INITIAL_BUFFER_POSITION, MAX_BODY_LENGTH, NETWORKMESSAGE_MAXSIZE, HEADER_LENGTH, CHECKSUM_LENGTH, XTEA_MULTIPLE]
    omega)
  have hf₃ := hf₂.XTEA_encrypt p htotal
  generalize hn : (sentBody deflate bs).2.length / 8 + 1 = n at htotal hf₃
  have hf₄ := hf₃.add_header (LittleEndian.bytes 4 (p.packetNumber (sentBody deflate bs).1).toNat) (by
    rw [LittleEndian.length_bytes]
    decide)
  have hblocks : ((m₁.writePaddingAmount |> p.XTEA_encrypt).add_header
      (LittleEndian.bytes 4 (p.packetNumber (sentBody deflate bs).1).toNat)).length.toNat - 4 = 8 * n := by
    rw [hf₄.length, List.length_append, LittleEndian.length_bytes, Protocol.length_transformBlocks, Nat.add_sub_cancel_left]
  have hf₅ := hf₄.add_header (LittleEndian.bytes 2 n) (by
    rw [LittleEndian.length_bytes, LittleEndian.length_bytes]
    decide)
  refine ⟨k, filler, n, by omega, hfiller, htotal, ?_⟩
  rw [SendingProtocol.onSendMessage, hp.rawMessages, hp.encryptionEnabled, hp.checksumMethod]
  simp only [Bool.false_eq_true, if_false, hm₁, not_true_eq_false]
  refine ⟨trivial, ?_⟩
  rw [OutputMessage.addCryptoHeader, OutputMessage.writeMessageLength, show (if (sentBody deflate bs).1 = true then
    (0x80000000 : UInt32) else 0) ||| (p.serverSequenceNumber + 1) = p.packetNumber (sentBody deflate bs).1 from rfl, hblocks,
    Nat.mul_div_cancel_left n (by decide)]
  exact hf₅.output

/-- The packets of messages that are prepared one after the other. -/
def packets (deflate : List UInt8 → Option (List UInt8)) : SendingProtocol → List OutputMessage → List (List UInt8)
  | _, [] => []
  | p, m :: ms => (p.onSendMessage deflate m).2.output :: packets deflate (p.onSendMessage deflate m).1 ms

theorem nextSequence_encrypts (hp : p.Encrypts) : p.nextSequence.Encrypts ∧
    p.nextSequence.serverSequenceNumber.toNat = (p.serverSequenceNumber.toNat + 1) % 0x7FFFFFFF := by
  have hs := hp.serverSequenceNumber
  have hnext : (p.serverSequenceNumber + 1).toNat = p.serverSequenceNumber.toNat + 1 := by
    rw [UInt32.toNat_add]
    simp only [UInt32.reduceToNat]
    omega
  have hnumber : p.nextSequence.serverSequenceNumber.toNat = (p.serverSequenceNumber.toNat + 1) % 0x7FFFFFFF := by
    simp only [nextSequence]
    split
    · rename_i hge
      have hge' := UInt32.le_iff_toNat_le.mp hge
      simp only [UInt32.reduceToNat] at hge' ⊢
      omega
    · rename_i hlt
      have hlt' := UInt32.lt_iff_toNat_lt.mp (UInt32.not_le.mp hlt)
      simp only [UInt32.reduceToNat] at hlt'
      omega
  exact ⟨⟨hp.rawMessages, hp.encryptionEnabled, hp.checksumMethod, by omega⟩, hnumber⟩

/-- No packet is empty. -/
theorem length_le_packets (hp : p.Encrypts) {ms : List OutputMessage} (h : ∀ m ∈ ms, ∃ bs, Ready deflate m bs) :
    ms.length ≤ (packets deflate p ms).flatten.length := by
  induction ms generalizing p with
  | nil => exact Nat.zero_le _
  | cons m ms ih =>
    obtain ⟨bs, hm⟩ := h m List.mem_cons_self
    obtain ⟨k, filler, blocks, -, -, -, hnext, houtput⟩ := hm.onSendMessage hp
    have hrest := ih (nextSequence_encrypts hp).1 fun m' hm' => h m' (List.mem_cons_of_mem _ hm')
    rw [packets, List.flatten_cons, houtput, hnext]
    simp only [List.length_cons, List.length_append, LittleEndian.length_bytes]
    omega

/-- What the packets of the bodies are read as, from the sequence number `s` on. -/
def numbered (s : Nat) (bodies : List (List UInt8)) : List (Nat × List UInt8) :=
  bodies.mapIdx fun i bs => ((s + i) % 0x7FFFFFFF + 1, bs)

theorem numbered_cons (s : Nat) (bs : List UInt8) (bodies : List (List UInt8)) :
    numbered s (bs :: bodies) = (s % 0x7FFFFFFF + 1, bs) :: numbered ((s + 1) % 0x7FFFFFFF) bodies := by
  simp only [numbered, List.mapIdx_cons, Nat.add_zero, List.cons.injEq, true_and]
  congr 1
  funext i bs
  rw [Nat.mod_add_mod, Nat.add_assoc s 1 i, Nat.add_comm 1 i]

/-- The stream of the packets is read as the bodies, numbered from one to `0x7FFFFFFF` and again from one. -/
theorem readAll_packets {inflate : List UInt8 → List UInt8} (hinflate : ∀ bs cs, deflate bs = some cs → inflate cs = bs)
    (hp : p.Encrypts) {ms : List OutputMessage} (h : ∀ m ∈ ms, ∃ bs, Ready deflate m bs) {n : Nat} (hn : ms.length ≤ n) :
    (Packet.readAll p.key n (packets deflate p ms).flatten).map (fun packet => (packet.number, packet.content inflate)) =
      numbered p.serverSequenceNumber.toNat (ms.map OutputMessage.output) := by
  induction ms generalizing p n with
  | nil =>
    cases n with
    | zero => rfl
    | succ n => rfl
  | cons m ms ih =>
    obtain ⟨n, rfl⟩ := Nat.exists_eq_add_of_le' (Nat.le_trans (Nat.succ_le_succ (Nat.zero_le _)) hn)
    obtain ⟨bs, hm⟩ := h m List.mem_cons_self
    obtain ⟨k, filler, blocks, hblocks, hfiller, htotal, hnext, houtput⟩ := hm.onSendMessage hp
    obtain ⟨hp', hs'⟩ := nextSequence_encrypts hp
    have hs := hp.serverSequenceNumber
    have hnumber := toNat_packetNumber hs (sentBody deflate bs).1
    have hrest := ih hp' (fun m' hm' => h m' (List.mem_cons_of_mem _ hm')) (Nat.le_of_succ_le_succ hn)
    have hmod : (p.packetNumber (sentBody deflate bs).1).toNat % 2 ^ 31 = p.serverSequenceNumber.toNat % 0x7FFFFFFF + 1 := by
      rw [hnumber]
      split <;> omega
    have hflag : decide (2 ^ 31 ≤ (p.packetNumber (sentBody deflate bs).1).toNat) = (sentBody deflate bs).1 := by
      rw [hnumber]
      cases (sentBody deflate bs).1 with
      | false => exact decide_eq_false (by simp only [Bool.false_eq_true, if_false]; omega)
      | true => exact decide_eq_true (by simp only [if_true]; omega)
    rw [packets, List.flatten_cons, houtput, hnext, Packet.readAll, Packet.read_packet p.key hblocks _ hfiller htotal]
    simp only [List.map_cons, hmod, hflag, Packet.content, inflate_sentBody hinflate, numbered_cons, hm.framed.output]
    rw [← hs']
    exact congrArg _ hrest

end SendingProtocol

namespace SendQueue

/-- The bytes on the wire, where the messages go through `onSendMessage` as they are prepared. -/
def wire (p : SendingProtocol) (deflate : List UInt8 → Option (List UInt8)) (c : SendQueue OutputMessage) : List UInt8 :=
  ((p.packets deflate c.prepared).take c.written.length).flatten

theorem packets_append (p : SendingProtocol) (deflate : List UInt8 → Option (List UInt8)) (ms ms' : List OutputMessage) :
    (p.packets deflate (ms ++ ms')).take ms.length = p.packets deflate ms := by
  induction ms generalizing p with
  | nil => rfl
  | cons m ms ih => rw [List.cons_append, SendingProtocol.packets, List.length_cons, List.take_succ_cons, ih, SendingProtocol.packets]

/-- A message of one byte. -/
def ping : OutputMessage :=
  { OutputMessage.getOutputMessage.put [0x1D] with outputBufferStart := OutputMessage.getOutputMessage.outputBufferStart }

theorem framed_ping : ping.Framed INITIAL_BUFFER_POSITION [0x1D] :=
  OutputMessage.framed_getOutputMessage.put [0x1D] (by decide)

end SendQueue

end CrystalServer
