import CrystalServer.Network.Protocol
import CrystalServer.Theorems.Network.NetworkMessage

/-! # Decrypted packets

Decrypting undoes encrypting. The length that a decrypted packet gets counts the byte that holds the number of
filler bytes, while its position is already behind that byte: one byte more than the payload can be read. -/

namespace CrystalServer.Protocol
open Lib NetworkMessage Connection

/-! ### XTEA -/

section Xtea
variable (key : Vector UInt32 4)

/-- The control sum of the round before. -/
def sumBefore (sum : UInt32) : UInt32 := sum + delta

/-- The control sum of the round after. -/
def sumAfter (sum : UInt32) : UInt32 := sum - delta

theorem sumBefore_sumAfter (sum : UInt32) : sumBefore (sumAfter sum) = sum := UInt32.sub_add_cancel sum delta

theorem decryptSums_concat (n : Nat) (sum : UInt32) :
    decryptSums key (n + 1) sum = decryptSums key n sum ++ decryptSums key 1 (sumBefore^[n] sum) := by
  induction n generalizing sum with
  | zero => rfl
  | succ n ih =>
    have hcons (k : Nat) : decryptSums key (k + 1) sum =
        (sum + keyAt key (sum >>> 11), sumBefore sum + keyAt key (sumBefore sum)) ::
          decryptSums key k (sumBefore sum) :=
      decryptSums.eq_2 ..
    rw [hcons (n + 1), ih, hcons n, List.cons_append, Function.iterate_succ_apply]

/-- The control sums to decrypt are those to encrypt, in reverse. -/
theorem decryptSums_eq (n : Nat) (sum : UInt32) :
    decryptSums key n (sumAfter^[n] sum) = (encryptSums key n sum).reverse.map Prod.swap := by
  induction n generalizing sum with
  | zero => rfl
  | succ n ih =>
    have hsum : sumBefore^[n] (sumAfter^[n] (sumAfter sum)) = sumAfter sum :=
      Function.LeftInverse.iterate sumBefore_sumAfter n _
    have hlast : decryptSums key 1 (sumAfter sum) =
        [(sum + keyAt key sum, sumAfter sum + keyAt key (sumAfter sum >>> 11))].map Prod.swap := by
      have hback : sumAfter sum + delta = sum := sumBefore_sumAfter sum
      simp only [decryptSums, hback, List.map_cons, List.map_nil, Prod.swap_prod_mk]
    rw [Function.iterate_succ_apply, decryptSums_concat, ih, hsum, hlast, ← List.map_append, ← List.reverse_cons]
    rfl

theorem decryptRound_encryptRound (v c : UInt32 × UInt32) : decryptRound (encryptRound v c) c.swap = v := by
  simp [decryptRound, encryptRound]

theorem encryptRound_decryptRound (v c : UInt32 × UInt32) : encryptRound (decryptRound v c) c.swap = v := by
  simp [decryptRound, encryptRound]

/-- The control sums of either direction are those of the other, in reverse. -/
theorem sums_mirror : decryptSums key 32 0xC6EF3720 = (encryptSums key 32 0).reverse.map Prod.swap ∧
    encryptSums key 32 0 = (decryptSums key 32 0xC6EF3720).reverse.map Prod.swap := by
  have hstart : sumAfter^[32] 0 = 0xC6EF3720 := by decide
  have hsums := decryptSums_eq key 32 0
  rw [hstart] at hsums
  refine ⟨hsums, ?_⟩
  rw [hsums, ← List.map_reverse, List.map_map, Prod.swap_swap_eq, List.map_id, List.reverse_reverse]

/-- The rounds of one direction are undone by those of the other. -/
theorem rounds_rounds (encrypt : Bool) (v : UInt32 × UInt32) : rounds key (!encrypt) (rounds key encrypt v) = v := by
  obtain ⟨hdecrypt, hencrypt⟩ := sums_mirror key
  cases encrypt with
  | true =>
    simp only [rounds, Bool.not_true, Bool.false_eq_true, if_false, if_true]
    rw [hdecrypt]
    exact foldl_undo decryptRound_encryptRound _ v
  | false =>
    simp only [rounds, Bool.not_false, Bool.false_eq_true, if_false, if_true]
    rw [hencrypt]
    exact foldl_undo encryptRound_decryptRound _ v

@[simp] theorem length_transformBlock (encrypt : Bool) (block : List UInt8) :
    (transformBlock key encrypt block).length = 8 := by
  simp [transformBlock]

theorem transformBlock_transformBlock (encrypt : Bool) {block : List UInt8} (h : block.length = 8) :
    transformBlock key (!encrypt) (transformBlock key encrypt block) = block := by
  have h₁ : (block.take 4).length = 4 := by rw [List.length_take]; omega
  have h₂ : (block.drop 4).length = 4 := by rw [List.length_drop]; omega
  have hword (w : UInt32) : UInt32.ofNat (LittleEndian.value (LittleEndian.bytes 4 w.toNat)) = w :=
    LittleEndian.value_bytes_uint32 w
  have hbytes (bs : List UInt8) (hb : bs.length = 4) :
      LittleEndian.bytes 4 (UInt32.ofNat (LittleEndian.value bs)).toNat = bs := by
    have hlt := LittleEndian.value_lt bs
    have hbv := LittleEndian.bytes_value bs
    rw [hb] at hlt hbv
    rwa [UInt32.toNat_ofNat_of_lt' hlt]
  have hsplit (v : UInt32 × UInt32) :
      ((LittleEndian.bytes 4 v.1.toNat ++ LittleEndian.bytes 4 v.2.toNat).take 4 = LittleEndian.bytes 4 v.1.toNat) ∧
        (LittleEndian.bytes 4 v.1.toNat ++ LittleEndian.bytes 4 v.2.toNat).drop 4 = LittleEndian.bytes 4 v.2.toNat :=
    ⟨List.take_left' (LittleEndian.length_bytes ..), List.drop_left' (LittleEndian.length_bytes ..)⟩
  simp only [transformBlock, hsplit, hword, Prod.mk.eta, rounds_rounds, hbytes _ h₁, hbytes _ h₂,
    List.take_append_drop]

/-- Blocks transformed one way and then the other, whatever stands behind them. -/
theorem transformBlocks_transformBlocks (encrypt : Bool) (n : Nat) {content : List UInt8}
    (h : content.length = 8 * n) (rest : List UInt8) :
    transformBlocks key (!encrypt) n (transformBlocks key encrypt n content ++ rest) = content := by
  induction n generalizing content with
  | zero => rw [transformBlocks, List.length_eq_zero_iff.mp h]
  | succ n ih =>
    have h₁ : (content.take 8).length = 8 := by rw [List.length_take]; omega
    have h₂ : (content.drop 8).length = 8 * n := by rw [List.length_drop]; omega
    have hlen := length_transformBlock key encrypt (content.take 8)
    rw [transformBlocks, transformBlocks, List.append_assoc, List.take_left' hlen, List.drop_left' hlen,
      transformBlock_transformBlock key encrypt h₁, ih h₂, List.take_append_drop]

@[simp] theorem length_transformBlocks (encrypt : Bool) (n : Nat) (buffer : List UInt8) :
    (transformBlocks key encrypt n buffer).length = 8 * n := by
  induction n generalizing buffer with
  | zero => rfl
  | succ n ih =>
    rw [transformBlocks, List.length_append, ih, length_transformBlock]
    omega

theorem XTEA_transform_of_blocks (encrypt : Bool) (n : Nat) (buffer : List UInt8) :
    XTEA_transform key (8 * n) encrypt buffer = transformBlocks key encrypt n buffer := by
  rw [XTEA_transform, show (8 * n + 7) / 8 = n by omega]

theorem XTEA_transform_transform (encrypt : Bool) {buffer : List UInt8} (h : 8 ∣ buffer.length) :
    XTEA_transform key buffer.length (!encrypt) (XTEA_transform key buffer.length encrypt buffer) = buffer := by
  obtain ⟨n, hn⟩ := h
  rw [hn, XTEA_transform_of_blocks, XTEA_transform_of_blocks]
  have hundo := transformBlocks_transformBlocks key encrypt n hn []
  rwa [List.append_nil] at hundo

/-- On whole blocks, decrypting undoes encrypting and encrypting undoes decrypting, under every key. -/
theorem XTEA_transform_inverse (key : Vector UInt32 4) (buffer : List UInt8) (h : 8 ∣ buffer.length) :
    XTEA_transform key buffer.length false (XTEA_transform key buffer.length true buffer) = buffer ∧
      XTEA_transform key buffer.length true (XTEA_transform key buffer.length false buffer) = buffer :=
  ⟨XTEA_transform_transform key true h, XTEA_transform_transform key false h⟩

/-- One block under the key of ones. -/
theorem XTEA_transform_inverse_block :
    XTEA_transform (.replicate 4 1) 8 false (XTEA_transform (.replicate 4 1) 8 true [1, 2, 3, 4, 5, 6, 7, 8]) =
        [1, 2, 3, 4, 5, 6, 7, 8] ∧
      XTEA_transform (.replicate 4 1) 8 true (XTEA_transform (.replicate 4 1) 8 false [1, 2, 3, 4, 5, 6, 7, 8]) =
        [1, 2, 3, 4, 5, 6, 7, 8] :=
  XTEA_transform_inverse (.replicate 4 1) [1, 2, 3, 4, 5, 6, 7, 8] (by decide)

end Xtea

/-! ### Decrypting a message -/

section Decrypt
variable {p : Protocol} {m : NetworkMessage}

/-- A message whose whole blocks decrypt to a byte `k` and a text gets the length of the blocks less `k`, and stands
    behind that byte. -/
theorem XTEA_decrypt_blocks {n : Nat} (before content rest text : List UInt8) {k : UInt8}
    (hmethod : p.checksumMethod ≠ .none) (hbuffer : m.buffer = before ++ (content ++ rest))
    (hbefore : before.length = m.position.toNat) (hpos : m.position = 6) (hlen : m.length.toNat = 8 * n + 6)
    (hcontent : content.length = 8 * n)
    (htext : transformBlocks p.key false n (content ++ rest) = k :: text) (hk : k.toNat ≤ 8 * n) :
    ∃ m', XTEA_decrypt p m = some (true, m') ∧ m'.length.toNat = 8 * n - k.toNat ∧ m'.position = 7 ∧
      m'.buffer = before ++ (k :: text ++ rest) := by
  have hsize := congrArg List.length hbuffer
  simp only [List.length_append] at hsize
  have hlt := m.length.toNat_lt
  have hmsg : (m.length - 6).toNat = 8 * n := by
    rw [UInt16.toNat_sub_of_le _ _ (UInt16.le_iff_toNat_le.mpr (by rw [hlen]; exact Nat.le_add_left ..)), hlen]
    rfl
  have hmod : (m.length - 6) % 8 = 0 := by
    apply UInt16.toNat_inj.mp
    rw [UInt16.toNat_mod, hmsg]
    exact Nat.mul_mod_right 8 n
  have hplain : (k :: text).length = 8 * n := by rw [← htext, length_transformBlocks]
  have hdrop : m.buffer.drop m.position.toNat = content ++ rest := by
    rw [hbuffer, ← hbefore, List.drop_left]
  have hover : overwrite m.buffer m.position.toNat (k :: text) = before ++ (k :: text ++ rest) := by
    rw [hbuffer, ← hbefore, overwrite_append (by rw [List.length_append]; omega), hplain,
      List.drop_left' hcontent]
  have hinner : ((m.length - 6) - k.toUInt16).toNat = 8 * n - k.toNat := by
    rw [UInt16.toNat_sub_of_le _ _ (UInt16.le_iff_toNat_le.mpr (by rw [hmsg, UInt8.toNat_toUInt16]; exact hk)), hmsg,
      UInt8.toNat_toUInt16]
  let t := m.store m.position.toNat (k :: text)
  have hread : t.canRead 1 = true := by
    rw [canRead, decide_eq_true_eq]
    change (1 : Int) ≤ m.length.toNat - ((m.position.toNat : Int) - INITIAL_BUFFER_POSITION)
    rw [hlen, hpos]
    simp only [INITIAL_BUFFER_POSITION, UInt16.reduceToNat]
    omega
  have h0 : t.position ≠ 0 := by
    change m.position ≠ 0
    rw [hpos]
    decide
  have hget : t.getByte = some (k, { t with position := t.position + 1 }) :=
    getByte_of_buffer hread hover hbefore h0
  refine ⟨{ t with position := t.position + 1, length := m.length - 6 - k.toUInt16 }, ?_, hinner, ?_, hover⟩
  · have hroom : ¬m.position.toNat + 8 * n > m.buffer.length := by
      rw [hsize]
      omega
    have hblocks : XTEA_transform p.key (8 * n) false (m.buffer.drop m.position.toNat) = k :: text := by
      rw [XTEA_transform_of_blocks, hdrop, htext]
    have hsum : ¬8 * n - k.toNat + k.toNat > 8 * n := by omega
    rw [XTEA_decrypt]
    simp only [if_neg hmethod, hmod, ne_eq, not_true_eq_false, if_false, hroom, hmsg, hblocks]
    rw [show (m.store m.position.toNat (k :: text)).getByte = _ from hget]
    simp only [hinner, hsum, if_false]
    rfl
  · change m.position + 1 = 7
    rw [hpos]
    rfl

theorem getByte_ne_none (m : NetworkMessage) : m.getByte ≠ none := by
  unfold getByte
  split
  · rintro ⟨⟩
  · split <;> rintro ⟨⟩

/-- What is accepted is no longer than the blocks. -/
theorem length_of_XTEA_decrypt {m' : NetworkMessage} (h : XTEA_decrypt p m = some (true, m')) :
    m'.length.toNat ≤ (m.length - if p.checksumMethod = .none then 2 else 6).toNat := by
  rw [XTEA_decrypt] at h
  generalize (m.length - if p.checksumMethod = .none then 2 else 6) = msgLength at h ⊢
  by_cases hmod : msgLength % 8 = 0
  · by_cases hroom : m.position.toNat + msgLength.toNat > m.buffer.length
    · simp only [hmod, ne_eq, not_true_eq_false, if_false, hroom, if_true] at h
      cases h
    · simp only [hmod, ne_eq, not_true_eq_false, if_false, hroom] at h
      split at h
      · cases h
      · rename_i paddingSize msg _
        split at h
        · cases h
        · rename_i hinner
          have hm := (Prod.mk.inj (Option.some.inj h)).2
          have hl : m'.length = msgLength - paddingSize.toUInt16 := by rw [← hm]; rfl
          rw [hl]
          omega
  · simp only [hmod, ne_eq, not_false_eq_true, if_true] at h
    cases h

/-- On a message whose blocks lie in the buffer decrypting reads nothing outside of it. -/
theorem XTEA_decrypt_ne_none
    (h : m.position.toNat + (m.length - if p.checksumMethod = .none then 2 else 6).toNat ≤ m.buffer.length) :
    XTEA_decrypt p m ≠ none := by
  rw [XTEA_decrypt]
  generalize (m.length - if p.checksumMethod = .none then 2 else 6) = msgLength at h ⊢
  by_cases hmod : msgLength % 8 = 0
  · simp only [hmod, ne_eq, not_true_eq_false, if_false, Nat.not_lt.mpr h]
    split
    · rename_i hget
      exact absurd hget (getByte_ne_none _)
    · split <;> nofun
  · simp only [hmod, ne_eq, not_false_eq_true, if_true]
    nofun

end Decrypt

/-! ### A packet from the connection -/

/-- `n` calls of `getByte`. -/
def readBytes : Nat → NetworkMessage → Option (List UInt8 × NetworkMessage)
  | 0, m => some ([], m)
  | n + 1, m =>
    match m.getByte with
    | none => none
    | some (b, m) => (readBytes n m).map fun r => (b :: r.1, r.2)

/-- A reader gets the bytes of the payload in order, and behind them nothing is left to read. -/
def Exposes (m : NetworkMessage) (payload : List UInt8) : Prop :=
  ∃ m', readBytes payload.length m = some (payload, m') ∧ m'.canRead 1 = false

theorem readBytes_of_unread {m : NetworkMessage} {bs : List UInt8} (cs : List UInt8) (h : Unread m (cs ++ bs)) :
    ∃ m', readBytes cs.length m = some (cs, m') ∧ Unread m' bs := by
  induction cs generalizing m with
  | nil => exact ⟨m, rfl, h⟩
  | cons c cs ih =>
    obtain ⟨m₁, hb, h₁⟩ := h.getByte
    obtain ⟨m₂, hbs, h₂⟩ := ih h₁
    exact ⟨m₂, by simp only [List.length_cons, readBytes, hb, hbs, Option.map_some], h₂⟩

section Packet
variable {m : NetworkMessage}

theorem buffer_asyncRead (m : NetworkMessage) {before old bytes rest : List UInt8}
    (hb : m.buffer = before ++ (old ++ rest)) (hlen : old.length = bytes.length) :
    (asyncRead m before.length bytes).buffer = before ++ (bytes ++ rest) := by
  change overwrite m.buffer before.length bytes = _
  rw [hb, overwrite_append (by rw [List.length_append]; omega), ← hlen, List.drop_left]

theorem getLengthHeader_asyncRead (m : NetworkMessage) {header : List UInt8} (h : header.length = 2) :
    getLengthHeader (asyncRead m 0 header) = .ofNat (LittleEndian.value header) := by
  have hs := m.size
  have hsplit : m.buffer = [] ++ (m.buffer.take 2 ++ m.buffer.drop 2) := by simp
  have hold : (m.buffer.take 2).length = header.length := by
    rw [List.length_take, hs, h]
    rfl
  have hb := buffer_asyncRead m hsplit hold
  rw [getLengthHeader]
  rw [List.length_nil] at hb
  rw [hb, List.nil_append, List.take_left' h]

/-- The header of a packet of `n` blocks sets the message up for them and the sequence number. -/
theorem parseHeader_packet (m : NetworkMessage) {n : Nat} (hfits : 8 * n + 4 ≤ INPUTMESSAGE_MAXSIZE) :
    ∃ size m', parseHeader true (asyncRead m 0 (LittleEndian.bytes 2 n)) = some (size, m') ∧
      m'.length.toNat = 8 * n + 6 ∧ m'.position = 2 := by
  rw [INPUTMESSAGE_MAXSIZE] at hfits
  have hheader : getLengthHeader (asyncRead m 0 (LittleEndian.bytes 2 n)) = .ofNat n := by
    rw [getLengthHeader_asyncRead m (LittleEndian.length_bytes ..), LittleEndian.value_bytes (by omega)]
  have hsize : (UInt16.ofNat n * 8 + 4).toNat = 8 * n + 4 := by
    rw [UInt16.toNat_add, UInt16.toNat_mul, UInt16.toNat_ofNat']
    simp only [UInt16.reduceToNat]
    omega
  have h0 : ¬(UInt16.ofNat n * 8 + 4 = 0 ∨ (UInt16.ofNat n * 8 + 4).toNat > INPUTMESSAGE_MAXSIZE) := by
    rw [hsize, INPUTMESSAGE_MAXSIZE]
    rintro (h | h)
    · rw [h] at hsize
      simp at hsize
    · omega
  refine ⟨_, _, by simp only [parseHeader, hheader, if_true, if_neg h0]; rfl, ?_, rfl⟩
  simp only [HEADER_LENGTH]
  rw [UInt16.toNat_add, hsize]
  simp only [UInt16.reduceOfNat, UInt16.reduceToNat]
  omega

theorem parseHeader_cases {size : UInt16} {m' : NetworkMessage} (h : parseHeader true m = some (size, m')) :
    4 ≤ size.toNat ∧ size.toNat ≤ INPUTMESSAGE_MAXSIZE ∧ m'.length = size + 2 ∧ m'.position = 2 := by
  have hsize : 4 ≤ (getLengthHeader m * 8 + 4).toNat := by
    rw [UInt16.toNat_add, UInt16.toNat_mul]
    simp only [UInt16.reduceToNat]
    omega
  simp only [parseHeader, if_true] at h
  by_cases hclose : getLengthHeader m * 8 + 4 = 0 ∨ (getLengthHeader m * 8 + 4).toNat > INPUTMESSAGE_MAXSIZE
  · rw [if_pos hclose] at h
    cases h
  · rw [if_neg hclose] at h
    obtain ⟨rfl, rfl⟩ := Prod.mk.inj (Option.some.inj h)
    exact ⟨hsize, Nat.not_lt.mp fun hlt => hclose (Or.inr hlt), rfl, rfl⟩

theorem get_cases {n : Nat} (h : m.position.toNat + n ≤ m.buffer.length) :
    ∃ v pos, m.get n = some (v, { m with position := pos }) ∧ (pos = m.position ∨ pos = m.position + .ofNat n) := by
  by_cases hread : m.canRead n = true
  · exact ⟨_, _, by rw [NetworkMessage.get, if_neg (not_not.mpr hread), if_neg (by omega)], Or.inr rfl⟩
  · exact ⟨0, m.position, by rw [NetworkMessage.get, if_pos hread], Or.inl rfl⟩

end Packet

section Receive
variable {p : Protocol}

theorem nextSequence_same (p : Protocol) : p.nextSequence.key = p.key ∧
    p.nextSequence.checksumMethod = p.checksumMethod ∧ p.nextSequence.encryptionEnabled = p.encryptionEnabled := by
  unfold nextSequence
  split <;> exact ⟨rfl, rfl, rfl⟩

/-- Every body is taken without a read outside of the buffer, and where it is accepted the message is not longer
    than the body. -/
theorem onRecvMessage_bounded (hmethod : p.checksumMethod = .sequence) (henc : p.encryptionEnabled = true)
    {m : NetworkMessage} {size : UInt16} (h4 : 4 ≤ size.toNat) (hsize : size.toNat ≤ INPUTMESSAGE_MAXSIZE)
    (hlen : m.length = size + 2) (hpos : m.position = 2) :
    ∃ ok p' m', onRecvMessage p m = some (ok, p', m') ∧ (ok = true → m'.length.toNat ≤ size.toNat) := by
  obtain ⟨hkey, hm', henc'⟩ := nextSequence_same p
  have hs := m.size
  simp only [INPUTMESSAGE_MAXSIZE, NETWORKMESSAGE_MAXSIZE] at hs hsize
  have hblocks : (m.length - 6).toNat = size.toNat - 4 := by
    have hadd : (size + 2).toNat = size.toNat + 2 := by
      rw [UInt16.toNat_add]
      simp only [UInt16.reduceToNat]
      omega
    rw [hlen, UInt16.toNat_sub_of_le _ _ (UInt16.le_iff_toNat_le.mpr (by rw [hadd]; exact Nat.add_le_add_right h4 2)),
      hadd]
    rfl
  obtain ⟨v, pos, hget, hposition⟩ := get_cases (m := m) (n := 4) (by
    rw [hpos, hs]
    decide)
  have hpos' : pos.toNat ≤ 6 := by
    rcases hposition with rfl | rfl <;> rw [hpos] <;> decide
  have hnone : p.checksumMethod ≠ .none := by rw [hmethod]; rintro ⟨⟩
  rw [onRecvMessage, if_neg hnone, getU32, hget]
  simp only [Option.map_some, if_pos hmethod]
  split
  · exact ⟨false, _, _, rfl, (by rintro ⟨⟩)⟩
  · split
    · exact ⟨false, _, _, rfl, (by rintro ⟨⟩)⟩
    · have hnone' : p.nextSequence.checksumMethod ≠ .none := by rwa [hm']
      have hsome := XTEA_decrypt_ne_none (p := p.nextSequence) (m := { m with position := pos }) (by
        rw [if_neg hnone', hblocks, hs]
        simp only
        omega)
      obtain ⟨⟨ok, m'⟩, hdec⟩ := Option.ne_none_iff_exists'.mp hsome
      refine ⟨ok, p.nextSequence, m', ?_, ?_⟩
      · rw [sendRecvMessageCallback, if_pos (henc'.trans henc), hdec]
        rfl
      · rintro rfl
        have hle := length_of_XTEA_decrypt hdec
        rw [if_neg hnone', hblocks] at hle
        omega

theorem clientSequenceNumber_ne_zero (p : Protocol) : p.clientSequenceNumber + 1 ≠ 0 := by
  have h := UInt32.lt_iff_toNat_lt.mp p.sequence
  intro h0
  have hnat := congrArg UInt32.toNat h0
  rw [UInt32.toNat_add] at hnat
  simp only [UInt32.reduceToNat] at h hnat
  omega

/-- A packet is decrypted to its payload and filler, and the message made one byte longer than the payload. -/
theorem onRecvMessage_packet (hmethod : p.checksumMethod = .sequence) (henc : p.encryptionEnabled = true)
    {m : NetworkMessage} {n : Nat} (hlen : m.length.toNat = 8 * n + 6) (hpos : m.position = 2)
    (hfits : 8 * n + 4 ≤ INPUTMESSAGE_MAXSIZE) (k : UInt8) (payload filler : List UInt8)
    (hfiller : filler.length = k.toNat) (htotal : (k :: (payload ++ filler)).length = 8 * n) :
    ∃ p' m' x, onRecvMessage p (asyncRead m HEADER_LENGTH
        (LittleEndian.bytes 4 (p.clientSequenceNumber + 1).toNat ++
          XTEA_transform p.key (8 * n) true (k :: (payload ++ filler)))) = some (true, p', m') ∧
      Unread m' (payload ++ [x]) := by
  obtain ⟨hkey, hm', henc'⟩ := nextSequence_same p
  have hs := m.size
  have htotal' := htotal
  simp only [List.length_cons, List.length_append] at htotal'
  simp only [INPUTMESSAGE_MAXSIZE, NETWORKMESSAGE_MAXSIZE] at hs hfits
  have hcipher : (XTEA_transform p.key (8 * n) true (k :: (payload ++ filler))).length = 8 * n := by
    rw [XTEA_transform_of_blocks, length_transformBlocks]
  generalize hc : XTEA_transform p.key (8 * n) true (k :: (payload ++ filler)) = cipher at hcipher
  generalize hq : LittleEndian.bytes 4 (p.clientSequenceNumber + 1).toNat = number
  have hnumber : number.length = 4 := by rw [← hq, LittleEndian.length_bytes]
  -- the header, what the body replaces, seven bytes that may be read behind it, and the rest
  obtain ⟨before, old, stale, rest, hbuffer, hbefore, hold, hstale⟩ : ∃ before old stale rest,
      m.buffer = before ++ (old ++ (stale ++ rest)) ∧ before.length = 2 ∧ old.length = (number ++ cipher).length ∧
        stale.length = 7 := by
    refine ⟨m.buffer.take 2, (m.buffer.drop 2).take (8 * n + 4), ((m.buffer.drop 2).drop (8 * n + 4)).take 7,
      ((m.buffer.drop 2).drop (8 * n + 4)).drop 7, by simp only [List.take_append_drop], ?_, ?_, ?_⟩
    · rw [List.length_take]
      omega
    · simp only [List.length_take, List.length_drop, List.length_append]
      omega
    · simp only [List.length_take, List.length_drop]
      omega
  have hbuf := buffer_asyncRead m hbuffer hold
  rw [hbefore] at hbuf
  have hunread : Unread (asyncRead m HEADER_LENGTH (number ++ cipher)) (number ++ (cipher ++ stale)) := by
    refine ⟨?_, ?_, before, rest, ?_, ?_⟩
    · change 0 < m.position.toNat
      rw [hpos]
      decide
    · change m.position.toNat + _ = _ + m.length.toNat
      rw [hpos, hlen]
      simp only [List.length_append, hnumber, hcipher, hstale, INITIAL_BUFFER_POSITION, UInt16.reduceToNat]
      omega
    · rw [HEADER_LENGTH, hbuf]
      simp only [List.append_assoc]
    · change before.length = m.position.toNat
      rw [hpos, hbefore]
      rfl
  have hvalue : UInt32.ofNat (LittleEndian.value number) = p.clientSequenceNumber + 1 := by
    rw [← hq, LittleEndian.value_bytes_uint32]
  -- the blocks stand behind the number
  obtain ⟨m', hdec, hlen', hpos', hbuf'⟩ := XTEA_decrypt_blocks (p := p.nextSequence) (n := n)
    (m := { asyncRead m HEADER_LENGTH (number ++ cipher) with position := m.position + 4 })
    (before ++ number) cipher (stale ++ rest) (payload ++ filler) (k := k)
    (by rw [hm', hmethod]; rintro ⟨⟩) (by rw [HEADER_LENGTH, hbuf]; simp only [List.append_assoc])
    (by rw [List.length_append, hbefore, hnumber, hpos]; rfl) (by rw [hpos]; rfl) hlen hcipher
    (by rw [hkey, ← hc, XTEA_transform_of_blocks]; exact transformBlocks_transformBlocks p.key true n htotal _)
    (by omega)
  obtain ⟨x, tail, hx⟩ : ∃ x tail, filler ++ (stale ++ rest) = x :: tail := by
    cases hcons : filler ++ (stale ++ rest) with
    | nil =>
      have hnil := congrArg List.length hcons
      simp only [List.length_append, hstale, List.length_nil] at hnil
      omega
    | cons x tail => exact ⟨x, tail, rfl⟩
  refine ⟨p.nextSequence, m', x, ?_, ?_, ?_, before ++ (number ++ [k]), tail, ?_, ?_⟩
  · have hnone : p.checksumMethod ≠ .none := by rw [hmethod]; rintro ⟨⟩
    rw [onRecvMessage, if_neg hnone, getU32, hunread.get_eq hnumber]
    simp only [Option.map_some, hmethod, if_true, hvalue, clientSequenceNumber_ne_zero, if_false, ne_eq,
      not_true_eq_false]
    rw [sendRecvMessageCallback, if_pos (henc'.trans henc)]
    exact congrArg (Option.map _) hdec
  · rw [hpos']
    decide
  · rw [hpos', hlen']
    simp only [List.length_append, List.length_singleton, INITIAL_BUFFER_POSITION, UInt16.reduceToNat]
    omega
  · rw [hbuf']
    simp only [List.append_assoc, List.cons_append, List.nil_append, hx]
  · rw [hpos']
    simp only [List.length_append, List.length_singleton, hbefore, hnumber, UInt16.reduceToNat]

/-- One byte more than the payload can be read. -/
theorem not_exposes {m : NetworkMessage} {payload : List UInt8} {x : UInt8} (h : Unread m (payload ++ [x])) :
    ¬Exposes m payload := by
  rintro ⟨m₁, hr, hread⟩
  obtain ⟨m₂, hr₂, hu⟩ := readBytes_of_unread payload h
  have heq := (Prod.mk.inj (Option.some.inj (hr.symm.trans hr₂))).2
  subst heq
  have hone : m₁.canRead 1 = true := (hu.canRead_iff (n := 1)).mpr le_rfl
  rw [hone] at hread
  cases hread

end Receive

/-- Of no packet exactly the payload can be read: it is accepted and its payload is read in order, but then there is
    one byte left. Every content of a body, if it is accepted, is not longer than the body. -/
theorem packet_never_exposed (key : Vector UInt32 4) (number : UInt32) (hnumber : number < 0x7FFFFFFF)
    (m : NetworkMessage) :
    (∀ (k : UInt8) (payload filler : List UInt8) (n : Nat), filler.length = k.toNat →
      (k :: (payload ++ filler)).length = 8 * n → 8 * n + 4 ≤ INPUTMESSAGE_MAXSIZE →
      ∃ size m₁ p' m₂, parseHeader true (asyncRead m 0 (LittleEndian.bytes 2 n)) = some (size, m₁) ∧
        onRecvMessage ⟨key, number, .sequence, true, hnumber⟩ (asyncRead m₁ HEADER_LENGTH
          (LittleEndian.bytes 4 (number + 1).toNat ++ XTEA_transform key (8 * n) true (k :: (payload ++ filler)))) =
            some (true, p', m₂) ∧
        (∃ m₃, readBytes payload.length m₂ = some (payload, m₃) ∧ m₃.canRead 1 = true) ∧ ¬Exposes m₂ payload) ∧
    ∀ (header body : List UInt8) (size : UInt16) (m₁ : NetworkMessage),
      parseHeader true (asyncRead m 0 header) = some (size, m₁) → body.length = size.toNat →
      ∃ ok p' m₂, onRecvMessage ⟨key, number, .sequence, true, hnumber⟩ (asyncRead m₁ HEADER_LENGTH body) =
          some (ok, p', m₂) ∧ (ok = true → m₂.length.toNat ≤ body.length) := by
  constructor
  · intro k payload filler n hfiller htotal hfits
    obtain ⟨size, m₁, hparse, hlen, hpos⟩ := parseHeader_packet m hfits
    obtain ⟨p', m₂, x, hrecv, hu⟩ := onRecvMessage_packet (p := ⟨key, number, .sequence, true, hnumber⟩) rfl rfl hlen
      hpos hfits k payload filler hfiller htotal
    obtain ⟨m₃, hr, hu₃⟩ := readBytes_of_unread payload hu
    exact ⟨size, m₁, p', m₂, hparse, hrecv, ⟨m₃, hr, (hu₃.canRead_iff (n := 1)).mpr le_rfl⟩, not_exposes hu⟩
  · intro header body size m₁ hparse hbody
    obtain ⟨h4, hsize, hlen, hpos⟩ := parseHeader_cases hparse
    rw [hbody]
    exact onRecvMessage_bounded rfl rfl h4 hsize hlen hpos

/-- A packet of one byte with six filler bytes, under the key 0. -/
theorem packet_never_exposed_ping : ∃ size m₁ p' m₂,
    parseHeader true (asyncRead new 0 (LittleEndian.bytes 2 1)) = some (size, m₁) ∧
      onRecvMessage ⟨.replicate 4 0, 0, .sequence, true, by decide⟩ (asyncRead m₁ HEADER_LENGTH
        (LittleEndian.bytes 4 1 ++ XTEA_transform (.replicate 4 0) 8 true
          (6 :: ([0x1D] ++ [0x33, 0x33, 0x33, 0x33, 0x33, 0x33])))) = some (true, p', m₂) ∧
      (∃ m₃, readBytes 1 m₂ = some ([0x1D], m₃) ∧ m₃.canRead 1 = true) ∧ ¬Exposes m₂ [0x1D] :=
  (packet_never_exposed (.replicate 4 0) 0 (by decide) new).1 6 [0x1D] [0x33, 0x33, 0x33, 0x33, 0x33, 0x33] 1 rfl rfl
    (by decide)

/-- Its first filler byte can be read as payload. -/
theorem ping_not_exposed : ¬∀ size m₁ p' m₂,
    parseHeader true (asyncRead new 0 (LittleEndian.bytes 2 1)) = some (size, m₁) →
      onRecvMessage ⟨.replicate 4 0, 0, .sequence, true, by decide⟩ (asyncRead m₁ HEADER_LENGTH
        (LittleEndian.bytes 4 1 ++ XTEA_transform (.replicate 4 0) 8 true
          (6 :: ([0x1D] ++ [0x33, 0x33, 0x33, 0x33, 0x33, 0x33])))) = some (true, p', m₂) → Exposes m₂ [0x1D] := by
  intro h
  have hfits : 8 * 1 + 4 ≤ INPUTMESSAGE_MAXSIZE := by decide
  obtain ⟨size, m₁, hparse, hlen, hpos⟩ := parseHeader_packet new hfits
  obtain ⟨p', m₂, x, hrecv, hu⟩ := onRecvMessage_packet (p := ⟨.replicate 4 0, 0, .sequence, true, by decide⟩) rfl rfl
    hlen hpos hfits 6 [0x1D] [0x33, 0x33, 0x33, 0x33, 0x33, 0x33] rfl rfl
  exact not_exposes hu (h size m₁ p' m₂ hparse hrecv)

end CrystalServer.Protocol
