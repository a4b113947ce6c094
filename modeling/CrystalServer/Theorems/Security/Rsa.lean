import CrystalServer.Lib.Der
import CrystalServer.Security.Rsa

/-! # Key files

What `base64Decrypt` and `loadPEM` make of text and keys that are written as they should be, and that no key is taken whose
first length is not that of what follows. -/

namespace CrystalServer.RSA
open Lib AccessList
variable {beyond : List UInt8 → Nat → UInt8} {key rest bs : List UInt8} {pos n : Nat}

/-! ### Base64 -/

theorem posOfCharacter_base64Char : ∀ n < 64, posOfCharacter (base64Char n) = n := by decide

theorem isPad_base64Char : ∀ n < 64, isPad (base64Char n) = false := by decide

/-- The masks and shifts of `base64Decrypt` take six bits apart. -/
theorem bits_of_six : ∀ n < 64, (n &&& 0x30) >>> 4 = n / 16 ∧ (n &&& 0x0f) <<< 4 = n % 16 * 16 ∧
    (n &&& 0x3c) >>> 2 = n / 4 ∧ (n &&& 0x03) <<< 6 = n % 4 * 64 ∧ n <<< 2 = n * 4 := by decide

theorem base64Round_eq {x₀ x₁ : Nat} {c₂ c₃ : UInt8} (h₀ : x₀ < 64) (h₁ : x₁ < 64) (rest : List UInt8) :
    base64Round beyond (base64Char x₀ :: base64Char x₁ :: c₂ :: c₃ :: rest) =
      UInt8.ofNat (x₀ * 4 + x₁ / 16) :: if isPad c₂ then [] else
        UInt8.ofNat (x₁ % 16 * 16 + (posOfCharacter c₂ &&& 0x3c) >>> 2) :: if isPad c₃ then [] else
          [UInt8.ofNat ((posOfCharacter c₂ &&& 0x03) <<< 6 + posOfCharacter c₃)] := by
  have hread₀ : read beyond (base64Char x₀ :: base64Char x₁ :: c₂ :: c₃ :: rest) 0 = base64Char x₀ := by simp [read]
  have hread₁ : read beyond (base64Char x₀ :: base64Char x₁ :: c₂ :: c₃ :: rest) 1 = base64Char x₁ := by simp [read]
  have hread₂ : read beyond (base64Char x₀ :: base64Char x₁ :: c₂ :: c₃ :: rest) 2 = c₂ := by simp [read]
  have hread₃ : read beyond (base64Char x₀ :: base64Char x₁ :: c₂ :: c₃ :: rest) 3 = c₃ := by simp [read]
  obtain ⟨-, -, -, -, hshift⟩ := bits_of_six x₀ h₀
  obtain ⟨hhigh, hlow, -, -, -⟩ := bits_of_six x₁ h₁
  unfold base64Round
  dsimp only
  rw [hread₀, hread₁, hread₂, hread₃, posOfCharacter_base64Char x₀ h₀, posOfCharacter_base64Char x₁ h₁, hshift, hhigh, hlow]
  split_ifs <;> rfl

theorem ofNat_eq {a : UInt8} {n : Nat} (h : n % 256 = a.toNat) : UInt8.ofNat n = a := by
  apply UInt8.toNat_inj.mp
  rw [UInt8.toNat_ofNat', ← h]

theorem base64Decrypt_nil : base64Decrypt beyond [] = [] := by
  unfold base64Decrypt
  exact if_pos rfl

theorem base64Decrypt_cons (c₀ c₁ c₂ c₃ : UInt8) (rest : List UInt8) : base64Decrypt beyond (c₀ :: c₁ :: c₂ :: c₃ :: rest) =
    base64Round beyond (c₀ :: c₁ :: c₂ :: c₃ :: rest) ++ base64Decrypt beyond rest := by
  rw [base64Decrypt, if_neg (List.cons_ne_nil _ _)]
  rfl

/-- Text is read back to the bytes that it was made of. -/
theorem base64Decrypt_base64_eq (beyond : List UInt8 → Nat → UInt8) (bs : List UInt8) :
    base64Decrypt beyond (base64 bs) = bs := by
  have hlt (a : UInt8) : a.toNat < 256 := a.toNat_lt
  have hpad : isPad '='.toUInt8 = true := by decide
  induction bs using base64.induct with
  | case1 => exact base64Decrypt_nil
  | case2 a =>
    have ha := hlt a
    rw [base64, base64Decrypt_cons, base64Decrypt_nil, List.append_nil, base64Round_eq (by omega) (by omega), if_pos hpad,
      ofNat_eq (a := a) (by omega)]
  | case3 a b =>
    have ha := hlt a
    have hb := hlt b
    have hsix : b.toNat % 16 * 4 < 64 := by omega
    obtain ⟨-, -, hmid, -, -⟩ := bits_of_six _ hsix
    rw [base64, base64Decrypt_cons, base64Decrypt_nil, List.append_nil, base64Round_eq (by omega) (by omega),
      isPad_base64Char _ hsix, if_neg Bool.false_ne_true, if_pos hpad, posOfCharacter_base64Char _ hsix, hmid,
      ofNat_eq (a := a) (by omega), ofNat_eq (a := b) (by omega)]
  | case4 a b c rest ih =>
    have ha := hlt a
    have hb := hlt b
    have hc := hlt c
    have hsix : b.toNat % 16 * 4 + c.toNat / 64 < 64 := by omega
    have hlast : c.toNat % 64 < 64 := by omega
    obtain ⟨-, -, hmid, hlow, -⟩ := bits_of_six _ hsix
    rw [base64, List.cons_append, List.cons_append, List.cons_append, List.cons_append, List.nil_append, base64Decrypt_cons,
      ih, base64Round_eq (by omega) (by omega), isPad_base64Char _ hsix, if_neg Bool.false_ne_true, isPad_base64Char _ hlast,
      if_neg Bool.false_ne_true, posOfCharacter_base64Char _ hsix, posOfCharacter_base64Char _ hlast, hmid, hlow,
      ofNat_eq (a := a) (by omega), ofNat_eq (a := b) (by omega), ofNat_eq (a := c) (by omega)]
    rfl

/-! ### Pointers -/

/-- At a position of a key, so much of it is left. -/
def At (key : List UInt8) (pos : Nat) (rest : List UInt8) : Prop := ∃ before, key = before ++ rest ∧ pos = before.length

theorem At.start (key : List UInt8) : At key 0 key := ⟨[], rfl, rfl⟩

theorem At.of_eq {rest' : List UInt8} (h : At key pos rest) (heq : rest = rest') : At key pos rest' := heq ▸ h

theorem At.skip (h : At key pos (bs ++ rest)) : At key (pos + bs.length) rest := by
  obtain ⟨before, rfl, rfl⟩ := h
  exact ⟨before ++ bs, (List.append_assoc ..).symm, List.length_append.symm⟩

theorem At.next {b : UInt8} (h : At key pos (b :: rest)) : At key (pos + 1) rest := by
  change At key pos ([b] ++ rest) at h
  exact h.skip

theorem At.read {b : UInt8} (h : At key pos (b :: rest)) : read beyond key pos = b := by
  obtain ⟨before, rfl, rfl⟩ := h
  simp [RSA.read]

theorem At.read_add (h : At key pos (bs ++ rest)) {i : Nat} (hi : i < bs.length) :
    RSA.read beyond key (pos + i) = bs[i] := by
  have hsplit : At key pos (bs.take i ++ (bs[i] :: (bs.drop (i + 1) ++ rest))) := by
    rwa [← List.cons_append, List.cons_getElem_drop_succ, ← List.append_assoc, List.take_append_drop]
  have hlen : (bs.take i).length = i := List.length_take_of_le hi.le
  have hskip := hsplit.skip
  rw [hlen] at hskip
  exact hskip.read

theorem At.isRest_iff (h : At key pos rest) (n : Nat) : isRest key n pos = true ↔ n = rest.length := by
  obtain ⟨before, rfl, rfl⟩ := h
  unfold isRest
  rw [decide_eq_true_eq, List.length_append]
  omega

theorem map_read (beyond : List UInt8 → Nat → UInt8) (h : At key pos (bs ++ rest)) :
    (List.range bs.length).map (fun i => read beyond key (pos + i)) = bs := by
  refine List.ext_getElem (by simp) fun i _ hi => ?_
  rw [List.getElem_map, List.getElem_range, h.read_add hi]

/-! ### DER -/

theorem short_byte : ∀ n < 128, UInt8.ofNat n &&& 0x80 = 0 ∧ (UInt8.ofNat n).toNat = n := by decide

theorem long_byte : ∀ k < 128, UInt8.ofNat (128 + k) &&& 0x80 ≠ 0 ∧ (UInt8.ofNat (128 + k) &&& 0x7F).toNat = k := by decide

theorem foldl_shift (bs : List UInt8) :
    bs.foldl (fun (tempLength : Nat) (b : UInt8) => tempLength <<< 8 ||| b.toNat) 0 = Der.value bs := by
  refine Der.foldl_eq_value (fun n b => ?_) bs
  rw [← Nat.shiftLeft_add_eq_or_of_lt (i := 8) b.toNat_lt, Nat.shiftLeft_eq]

/-- A length is read as it is written. -/
theorem decodeLength_at (h : At key pos (Der.length n ++ rest)) (hn : n < 65536) :
    decodeLength beyond key pos = (n, pos + (Der.length n).length) := by
  unfold decodeLength
  unfold Der.length at h ⊢
  split_ifs at h ⊢ with hshort
  · obtain ⟨hbit, hnat⟩ := short_byte n hshort
    rw [h.read]
    dsimp only
    rw [hbit, hnat, if_neg (by simp)]
    rfl
  · have hk := Der.size_lengths hn
    obtain ⟨hbit, hnat⟩ := long_byte ((n.size + 7) / 8) (by omega)
    have hmap : (List.range ((n.size + 7) / 8)).map (fun i => read beyond key (pos + 1 + i)) =
        Der.bigEndian ((n.size + 7) / 8) n := by
      have hread := map_read beyond h.next
      rwa [Der.length_bigEndian] at hread
    rw [h.read]
    dsimp only
    rw [if_pos hbit, hnat, if_neg (by omega), hmap, foldl_shift, Der.value_length, if_neg (by omega), List.length_cons,
      Der.length_bigEndian, Nat.add_assoc, Nat.add_comm 1]

/-- The bytes in hexadecimal. -/
def hex (bs : List UInt8) : List UInt8 := bs.flatMap fun b => [hexDigit (b.toNat / 16), hexDigit (b.toNat % 16)]

theorem nibbles (n : Nat) (h : n < 256) : n >>> 4 &&& 15 = n / 16 ∧ n &&& 15 = n % 16 := by
  have hmask (m : Nat) : m &&& 15 = m % 16 := Nat.and_two_pow_sub_one_eq_mod m 4
  rw [hmask, hmask, Nat.shiftRight_eq_div_pow]
  omega

theorem readHexString_at (h : At key pos (bs ++ rest)) :
    readHexString beyond key pos bs.length = (hex bs, pos + bs.length) := by
  unfold readHexString hex
  refine Prod.ext ?_ rfl
  dsimp only
  conv_rhs => rw [← map_read beyond h, List.flatMap_map]
  refine List.flatMap_congr fun i _ => ?_
  obtain ⟨hhigh, hlow⟩ := nibbles _ (read beyond key (pos + i)).toNat_lt
  rw [hhigh, hlow]

theorem skip_at (beyond : List UInt8 → Nat → UInt8) {t : UInt8} (h : At key pos (Der.length bs.length ++ (bs ++ t :: rest))) (hn : bs.length < 65536) :
    At key (skip beyond key pos) rest := by
  unfold skip
  rw [decodeLength_at h hn]
  dsimp only
  rw [← Nat.add_assoc]
  exact h.skip.skip.next

/-- What a digit stands for. -/
def digitValue (c : UInt8) : Option Nat :=
  if '0'.toUInt8 ≤ c ∧ c ≤ '9'.toUInt8 then some (c.toNat - '0'.toNat)
  else if 'A'.toUInt8 ≤ c ∧ c ≤ 'F'.toUInt8 then some (c.toNat - 'A'.toNat + 10)
  else if 'a'.toUInt8 ≤ c ∧ c ≤ 'f'.toUInt8 then some (c.toNat - 'a'.toNat + 10)
  else none

/-- The number that a text is in hexadecimal, if it is one. -/
def hexValue (text : List UInt8) : Option Nat :=
  text.foldl (fun value c => value.bind fun n => (digitValue c).map fun d => 16 * n + d) (some 0)

theorem digitValue_hexDigit : ∀ n < 16, digitValue (hexDigit n) = some n := by decide

theorem hexValue_hex (bs : List UInt8) : hexValue (hex bs) = some (Der.value bs) := by
  induction bs using List.reverseRecOn with
  | nil => rfl
  | append_singleton bs b ih =>
    have hb : b.toNat < 256 := b.toNat_lt
    have hsplit : hex (bs ++ [b]) = hex bs ++ [hexDigit (b.toNat / 16), hexDigit (b.toNat % 16)] := by simp [hex]
    unfold hexValue at ih ⊢
    rw [hsplit, List.foldl_append, ih]
    simp only [List.foldl_cons, List.foldl_nil, Option.bind_some]
    rw [digitValue_hexDigit _ (by omega), digitValue_hexDigit _ (by omega), Der.value_concat]
    simp only [Option.map_some, Option.bind_some, Option.some.injEq]
    omega

/-! ### Keys -/

/-- `RSAPrivateKey` with two primes. -/
structure PrivateKey where
  modulus : Nat
  publicExponent : Nat
  privateExponent : Nat
  prime1 : Nat
  prime2 : Nat
  exponent1 : Nat
  exponent2 : Nat
  coefficient : Nat

/-- The version and the numbers. -/
def PrivateKey.content (k : PrivateKey) : List UInt8 :=
  [0, k.modulus, k.publicExponent, k.privateExponent, k.prime1, k.prime2, k.exponent1, k.exponent2, k.coefficient].flatMap
    Der.integer

/-- How a key is packed: as it is, or as `PrivateKeyInfo` with the content of its algorithm. -/
inductive Container where
  | pkcs1
  | pkcs8 (algorithm : List UInt8)

/-- `PrivateKeyInfo`, with what stands in it after the key. -/
def privateKeyInfo (algorithm attributes : List UInt8) (k : PrivateKey) : List UInt8 :=
  Der.integer 0 ++ (Der.sequence algorithm ++ (Der.element 4 (Der.sequence k.content) ++ attributes))

namespace Container

def content (k : PrivateKey) : Container → List UInt8
  | .pkcs1 => k.content
  | .pkcs8 algorithm => privateKeyInfo algorithm [] k

def header : Container → List UInt8
  | .pkcs1 => header_old
  | .pkcs8 _ => header_new

def footer : Container → List UInt8
  | .pkcs1 => footer_old
  | .pkcs8 _ => footer_new

/-- The text of the key on one line. -/
def text (k : PrivateKey) (c : Container) : List UInt8 :=
  c.header ++ (base64 (Der.sequence (c.content k)) ++ c.footer)

end Container

theorem length_number_lt {l : List Nat} {v : Nat} (hv : v ∈ l) (hl : (l.flatMap Der.integer).length < 65536) :
    (Der.number v).length < 65536 := by
  have hsub : (Der.integer v).Sublist (l.flatMap Der.integer) := List.sublist_flatten_of_mem (List.mem_map_of_mem hv)
  have hlen : (Der.number v).length ≤ (Der.integer v).length := by
    unfold Der.integer Der.element
    simp only [List.length_cons, List.length_append]
    omega
  exact (hlen.trans hsub.length_le).trans_lt hl

theorem integer_eq (v : Nat) : Der.integer v = 2 :: (Der.length (Der.number v).length ++ Der.number v) := rfl

/-- The two primes are read, whatever stands after the key. -/
theorem loadIntegers_at (beyond : List UInt8 → Nat → UInt8) {k : PrivateKey} (hk : k.content.length < 65536) (h : At key pos (k.content ++ rest)) :
    loadIntegers beyond key (read beyond key pos) (pos + 1) =
      .setKey (hex (Der.number k.prime1)) (hex (Der.number k.prime2)) 16 := by
  have hlt {v : Nat} (hv : v ∈ [0, k.modulus, k.publicExponent, k.privateExponent, k.prime1, k.prime2, k.exponent1,
      k.exponent2, k.coefficient]) : (Der.number v).length < 65536 := length_number_lt hv hk
  unfold PrivateKey.content at h
  simp only [List.flatMap_cons, integer_eq, List.cons_append, List.append_assoc] at h
  have hzero : (Der.number 0).length = 1 := by simp [Der.number]
  have hmodulus := h.next.skip.skip
  have hpublic := skip_at beyond hmodulus.next (hlt (by simp))
  have hprivate := skip_at beyond hpublic (hlt (by simp))
  have hprime1 := skip_at beyond hprivate (hlt (by simp))
  have hprime2 := hprime1.skip.skip.next
  unfold loadIntegers
  rw [h.read, if_neg (by decide), decodeLength_at h.next (hlt (by simp))]
  dsimp only
  rw [hmodulus.read, if_neg (by rw [hzero]; decide), if_neg (by decide)]
  rw [decodeLength_at hprime1 (hlt (by simp))]
  dsimp only
  rw [readHexString_at hprime1.skip]
  dsimp only
  rw [decodeLength_at hprime2 (hlt (by simp))]
  dsimp only
  rw [readHexString_at hprime2.skip]

/-- A wrapped key is read just if nothing stands after it. -/
theorem loadWrapped_at {k : PrivateKey} {algorithm attributes : List UInt8}
    (hlen : (Der.element 4 (Der.sequence k.content)).length < 65536) (halg : algorithm.length < 65536)
    (h : At key pos (Der.length algorithm.length ++ (algorithm ++ (Der.element 4 (Der.sequence k.content) ++ attributes)))) :
    loadWrapped beyond key pos =
      if attributes = [] then .setKey (hex (Der.number k.prime1)) (hex (Der.number k.prime2)) 16 else .failed := by
  have hsequence : (Der.sequence k.content).length < 65536 := by
    unfold Der.element at hlen
    rw [List.length_cons, List.length_append] at hlen
    omega
  have hcontent : k.content.length < 65536 := by
    unfold Der.sequence Der.element at hsequence
    rw [List.length_cons, List.length_append] at hsequence
    omega
  have hoctets := h.skip.skip
  unfold Der.element at hoctets
  rw [List.cons_append, List.append_assoc] at hoctets
  have hkey := hoctets.next.skip
  have hinner : Der.sequence k.content ++ attributes = 48 :: (Der.length k.content.length ++ (k.content ++ attributes)) := by
    unfold Der.sequence Der.element
    rw [List.cons_append, List.append_assoc]
  rw [hinner] at hkey
  have hbit : ¬(4 : UInt8) = BITSTRING := by decide
  unfold loadWrapped
  rw [decodeLength_at h halg]
  dsimp only
  rw [hoctets.read, decodeLength_at hoctets.next hsequence]
  dsimp only
  rw [if_neg hbit, hkey.read, if_neg (by decide), decodeLength_at hkey.next hcontent]
  dsimp only
  have hrest := hkey.next.skip.isRest_iff k.content.length
  rw [List.length_append] at hrest
  by_cases hnone : attributes = []
  · rw [if_pos hnone, hrest.mpr (by simp [hnone]), Bool.not_true, if_neg Bool.false_ne_true]
    exact loadIntegers_at beyond hcontent hkey.next.skip
  · have hpos := List.length_pos_of_ne_nil hnone
    rw [if_neg hnone, Bool.eq_false_iff.mpr (mt hrest.mp (by omega)), Bool.not_false, if_pos rfl]

theorem integer_zero : Der.integer 0 = [2, 1, 0] := by
  simp [Der.integer, Der.element, Der.number, Der.length, Der.bigEndian, LittleEndian.bytes]

theorem loadKey_sequence (beyond : List UInt8 → Nat → UInt8) {content : List UInt8} (hlen : content.length < 65536) {t : UInt8} {rest : List UInt8}
    (hcontent : content = t :: rest) : ∃ pos, At (Der.sequence content) pos (t :: rest) ∧
      loadKey beyond (Der.sequence content) =
        if t = INTEGER ∧ read beyond (Der.sequence content) (pos + 1) = 0x01 ∧
            read beyond (Der.sequence content) (pos + 1 + 1) = 0x00 ∧
            read beyond (Der.sequence content) (pos + 1 + 2) = 0x30 then
          loadWrapped beyond (Der.sequence content) (pos + 1 + 3)
        else if t = SEQUENCE then loadWrapped beyond (Der.sequence content) (pos + 1)
        else loadIntegers beyond (Der.sequence content) t (pos + 1) := by
  have hstart : At (Der.sequence content) 0 (48 :: (Der.length content.length ++ content)) := At.start _
  have hend : At (Der.sequence content) (0 + 1 + (Der.length content.length).length) content := hstart.next.skip
  refine ⟨_, hend.of_eq hcontent, ?_⟩
  have hnext : At (Der.sequence content) 1 (Der.length content.length ++ content) := hstart.next
  have htag : read beyond (Der.sequence content) (1 + (Der.length content.length).length) = t :=
    (hnext.skip.of_eq hcontent).read
  have hrest : isRest (Der.sequence content) content.length (1 + (Der.length content.length).length) = true :=
    (hend.isRest_iff _).mpr rfl
  unfold loadKey
  rw [hstart.read, if_neg (by decide), decodeLength_at hnext hlen]
  dsimp only
  rw [hrest, htag, Bool.not_true, if_neg Bool.false_ne_true]

/-- A key begins with the version and the tag of a number. -/
theorem content_cons (k : PrivateKey) : ∃ rest, k.content = 2 :: 1 :: 0 :: 2 :: rest := by
  unfold PrivateKey.content
  rw [List.flatMap_cons, List.flatMap_cons, integer_zero, integer_eq k.modulus]
  exact ⟨_, rfl⟩

theorem loadKey_pkcs1 {k : PrivateKey} (hlen : k.content.length < 65536) : loadKey beyond (Der.sequence k.content) =
    .setKey (hex (Der.number k.prime1)) (hex (Der.number k.prime2)) 16 := by
  obtain ⟨rest, hrest⟩ := content_cons k
  obtain ⟨pos, hpos, hload⟩ := loadKey_sequence beyond hlen hrest
  have hthird : read beyond (Der.sequence k.content) (pos + 1 + 2) = 2 := hpos.next.next.next.read
  rw [hload, hthird, if_neg (by simp), if_neg (by decide)]
  have htag : read beyond (Der.sequence k.content) pos = 2 := hpos.read
  have hall : At (Der.sequence k.content) pos (k.content ++ []) := hpos.of_eq (by rw [hrest, List.append_nil])
  have hintegers := loadIntegers_at beyond hlen hall
  rwa [htag] at hintegers

theorem loadKey_pkcs8 {k : PrivateKey} {algorithm attributes : List UInt8}
    (hlen : (privateKeyInfo algorithm attributes k).length < 65536) :
    loadKey beyond (Der.sequence (privateKeyInfo algorithm attributes k)) =
      if attributes = [] then .setKey (hex (Der.number k.prime1)) (hex (Der.number k.prime2)) 16 else .failed := by
  have hinfo : privateKeyInfo algorithm attributes k = 2 :: 1 :: 0 :: 48 :: (Der.length algorithm.length ++
      (algorithm ++ (Der.element 4 (Der.sequence k.content) ++ attributes))) := by
    unfold privateKeyInfo
    rw [integer_zero]
    have hsequence : Der.sequence algorithm = 48 :: (Der.length algorithm.length ++ algorithm) := rfl
    rw [hsequence]
    simp only [List.cons_append, List.nil_append, List.append_assoc]
  obtain ⟨pos, hpos, hload⟩ := loadKey_sequence beyond hlen hinfo
  rw [hinfo] at hlen
  simp only [List.length_cons, List.length_append] at hlen
  have hone := hpos.next
  have hzero := hone.next
  have htag := hzero.next
  have hpeek : read beyond (Der.sequence (privateKeyInfo algorithm attributes k)) (pos + 1 + 2) = 48 := htag.read
  have hpeek₁ : read beyond (Der.sequence (privateKeyInfo algorithm attributes k)) (pos + 1 + 1) = 0 := hzero.read
  rw [hload, hone.read, hpeek₁, hpeek, if_pos ⟨rfl, rfl, rfl, rfl⟩]
  exact loadWrapped_at (by omega) (by omega) htag.next

/-! ### What is never taken -/

theorem loadIntegers_tag {tag : UInt8} {p q : List UInt8} {base : Nat}
    (h : loadIntegers beyond key tag pos = .setKey p q base) : tag = INTEGER := by
  unfold loadIntegers at h
  split_ifs at h with htag
  exact not_not.mp htag

/-- The first bit of a byte, and the others. -/
theorem byte_bits (b : UInt8) : (b &&& 0x80 ≠ 0 ↔ 128 ≤ b.toNat) ∧ (128 ≤ b.toNat → (b &&& 0x7F).toNat = b.toNat - 128) := by
  have hb : b.toNat < 256 := b.toNat_lt
  rcases Nat.lt_or_ge b.toNat 128 with hlt | hge
  · obtain ⟨hbit, -⟩ := short_byte b.toNat hlt
    rw [UInt8.ofNat_toNat] at hbit
    exact ⟨iff_of_false (not_not.mpr hbit) (by omega), fun hge => absurd hge (by omega)⟩
  · obtain ⟨hbit, hlow⟩ := long_byte (b.toNat - 128) (by omega)
    rw [Nat.add_sub_of_le hge, UInt8.ofNat_toNat] at hbit hlow
    exact ⟨iff_of_true hbit hge, fun _ => hlow⟩

/-- A length that is not zero is what the bytes before it state. -/
theorem states_of_decodeLength (h : At key pos rest) {pos' : Nat} (hlen : decodeLength beyond key pos = (n, pos'))
    (hn : n ≠ 0) (hpos : pos' < key.length) :
    ∃ bs content, rest = bs ++ content ∧ pos' = pos + bs.length ∧ Der.States bs n := by
  have hleft : key.length = pos + rest.length := by
    obtain ⟨before, rfl, rfl⟩ := h
    exact List.length_append
  unfold decodeLength at hlen
  cases rest with
  | nil =>
    have hend : pos < pos' := by
      dsimp only at hlen
      split_ifs at hlen <;> (obtain ⟨-, rfl⟩ := Prod.mk.inj hlen; omega)
    rw [List.length_nil] at hleft
    omega
  | cons b rest =>
    obtain ⟨hbit, hlow⟩ := byte_bits b
    rw [h.read] at hlen
    dsimp only at hlen
    split_ifs at hlen with hlong hmany hlarge
    · exact absurd (Prod.mk.inj hlen).1.symm hn
    · exact absurd (Prod.mk.inj hlen).1.symm hn
    · obtain ⟨hvalue, rfl⟩ := Prod.mk.inj hlen
      have hk := hlow (hbit.mp hlong)
      rw [hk] at hvalue hpos ⊢
      rw [List.length_cons] at hleft
      have htake : (rest.take (b.toNat - 128)).length = b.toNat - 128 := List.length_take_of_le (by omega)
      have hnumber : At key (pos + 1) (rest.take (b.toNat - 128) ++ rest.drop (b.toNat - 128)) :=
        h.next.of_eq (List.take_append_drop ..).symm
      have hread := map_read beyond hnumber
      rw [htake] at hread
      rw [hread, foldl_shift] at hvalue
      refine ⟨b :: rest.take (b.toNat - 128), rest.drop (b.toNat - 128), ?_, ?_, ?_⟩
      · rw [List.cons_append, List.take_append_drop]
      · rw [List.length_cons, htake]
        omega
      · exact .inr ⟨b, _, UInt8.le_iff_toNat_le.mpr (hbit.mp hlong), rfl, htake, hvalue.symm⟩
    · obtain ⟨hvalue, rfl⟩ := Prod.mk.inj hlen
      have hshort : b.toNat < 128 := Nat.lt_of_not_le (mt hbit.mpr hlong)
      exact ⟨[b], rest, rfl, rfl, .inl ⟨b, UInt8.lt_iff_toNat_lt.mpr hshort, rfl, hvalue.symm⟩⟩

/-- The first length of a key that is taken is that of what follows. -/
theorem states_of_loadKey {p q : List UInt8} {base : Nat} (h : loadKey beyond key = .setKey p q base) :
    ∃ bs content, key = SEQUENCE :: (bs ++ content) ∧ Der.States bs content.length := by
  unfold loadKey at h
  by_cases hfirst : read beyond key 0 = SEQUENCE
  · obtain ⟨rest, rfl⟩ : ∃ rest, key = SEQUENCE :: rest := by
      cases key with
      | nil => exact absurd hfirst (by simp [read, SEQUENCE])
      | cons b rest => exact ⟨rest, by rw [← hfirst]; simp [read]⟩
    rw [if_neg (not_not.mpr hfirst)] at h
    have hrest : At (SEQUENCE :: rest) 1 rest := (At.start (SEQUENCE :: rest)).next
    cases hlen : decodeLength beyond (SEQUENCE :: rest) 1 with
    | mk n pos =>
      rw [hlen] at h
      dsimp only at h
      cases hisRest : isRest (SEQUENCE :: rest) n pos with
      | false =>
        rw [hisRest] at h
        exact absurd h (by simp)
      | true =>
        have hcount : (n : Int) = (SEQUENCE :: rest).length - pos := of_decide_eq_true hisRest
        rw [hisRest, Bool.not_true, if_neg Bool.false_ne_true] at h
        have htag : read beyond (SEQUENCE :: rest) pos ≠ 0 := by
          intro hzero
          rw [hzero, if_neg (fun hand => absurd hand.1 (by decide)), if_neg (by decide)] at h
          exact absurd (loadIntegers_tag h) (by decide)
        have hpos : pos < (SEQUENCE :: rest).length := by
          by_contra hge
          have hend : pos = (SEQUENCE :: rest).length := by omega
          exact htag (by rw [read, if_neg hge, if_pos hend])
        obtain ⟨bs, content, hsplit, hpos', hstates⟩ := states_of_decodeLength hrest hlen (by omega) hpos
        refine ⟨bs, content, by rw [hsplit], ?_⟩
        have hn : n = content.length := by
          rw [List.length_cons, hsplit, List.length_append] at hcount
          omega
        exact hn ▸ hstates
  · rw [if_pos hfirst] at h
    exact absurd h (by simp)

/-! ### Files -/

theorem flatten_getlines (text : List UInt8) : (getlines text).flatten = text.filter fun c => c ≠ '\n'.toUInt8 := by
  induction text with
  | nil => rfl
  | cons c text ih =>
    unfold getlines
    split_ifs with hc
    · rw [List.flatten_cons, ih, List.nil_append, List.filter_cons_of_neg (by simpa using hc)]
    · rw [List.filter_cons_of_pos (by simpa using hc), ← ih]
      cases getlines text <;> rfl

theorem between_eq (header b footer : List UInt8) : between (header ++ (b ++ footer)) header footer = some b := by
  have hdrop : (header ++ (b ++ footer)).drop ((header ++ (b ++ footer)).length - footer.length) = footer := by
    rw [← List.append_assoc, List.length_append, Nat.add_sub_cancel]
    exact List.drop_left
  have hcount : ((header ++ (b ++ footer)).length : Int) - header.length - footer.length = b.length := by
    simp only [List.length_append]
    omega
  unfold between
  rw [hdrop, if_neg (not_not.mpr rfl)]
  dsimp only
  rw [hcount, if_neg (by omega), Int.toNat_natCast, List.drop_left, List.take_left]

/-- The text between the lines of a key file. -/
theorem body_eq (c : Container) (b : List UInt8) : body (c.header ++ (b ++ c.footer)) = some b := by
  cases c with
  | pkcs1 =>
    change body (header_old ++ (b ++ footer_old)) = some b
    rw [body, if_pos List.take_left, between_eq]
  | pkcs8 algorithm =>
    change body (header_new ++ (b ++ footer_new)) = some b
    have hnot : (header_new ++ (b ++ footer_new)).take header_old.length ≠ header_old := by
      intro heq
      have htake := congrArg (List.take header_new.length) heq
      rw [List.take_take, Nat.min_eq_left (by decide), List.take_left] at htake
      exact absurd htake (by decide)
    rw [body, if_neg hnot, if_pos List.take_left, between_eq]

/-- With line breaks of one character, `base64Decrypt` reads back what was written, `loadPEM` finds the primes of a key that is
    packed either way, and no key is taken whose first length is not that of what follows. -/
theorem loadPEM_reads (beyond : List UInt8 → Nat → UInt8) :
    (∀ bs, base64Decrypt beyond (base64 bs) = bs) ∧
    (∀ (k : PrivateKey) (c : Container) (text : List UInt8), (c.content k).length ≤ 65535 →
      (text.filter fun chr => chr ≠ '\n'.toUInt8) = c.text k →
      ∃ pString qString, loadPEM beyond (some text) = .setKey pString qString 16 ∧
        hexValue pString = some k.prime1 ∧ hexValue qString = some k.prime2) ∧
    ∀ file pString qString base, loadPEM beyond file = .setKey pString qString base →
      ∃ text b bs content, file = some text ∧ body (text.filter fun chr => chr ≠ '\n'.toUInt8) = some b ∧
        base64Decrypt beyond b = SEQUENCE :: (bs ++ content) ∧ Der.States bs content.length := by
  refine ⟨base64Decrypt_base64_eq beyond, fun k c text hlen htext => ?_, fun file pString qString base h => ?_⟩
  · refine ⟨hex (Der.number k.prime1), hex (Der.number k.prime2), ?_, ?_, ?_⟩
    · unfold loadPEM
      dsimp only
      rw [flatten_getlines, htext, Container.text, body_eq]
      dsimp only
      rw [base64Decrypt_base64_eq]
      cases c with
      | pkcs1 => exact loadKey_pkcs1 (Nat.lt_succ_of_le hlen)
      | pkcs8 algorithm => exact (loadKey_pkcs8 (Nat.lt_succ_of_le hlen)).trans (if_pos rfl)
    · rw [hexValue_hex, Der.value_number]
    · rw [hexValue_hex, Der.value_number]
  · unfold loadPEM at h
    cases file with
    | none => exact absurd h (by simp)
    | some text =>
      dsimp only at h
      rw [flatten_getlines] at h
      cases hbody : body (text.filter fun chr => chr ≠ '\n'.toUInt8) with
      | none =>
        rw [hbody] at h
        exact absurd h (by simp)
      | some b =>
        rw [hbody] at h
        obtain ⟨bs, content, hkey, hstates⟩ := states_of_loadKey h
        exact ⟨text, b, bs, content, rfl, hbody, hkey, hstates⟩

/-! ### A small key -/

def smallKey : PrivateKey where
  modulus := 3233
  publicExponent := 17
  privateExponent := 413
  prime1 := 61
  prime2 := 53
  exponent1 := 53
  exponent2 := 49
  coefficient := 38

/-- The object identifier of the algorithm and no parameters. -/
def rsaEncryption : List UInt8 := [6, 9, 42, 134, 72, 134, 247, 13, 1, 1, 1, 5, 0]

/-- An attribute for the use of the key. -/
def keyUsage : List UInt8 := [160, 13, 48, 11, 6, 3, 85, 29, 15, 49, 4, 3, 2, 0, 16]

/-- A header, a line of text and a footer. -/
def lines (eol header b footer : List UInt8) : List UInt8 :=
  header ++ (eol ++ (base64 b ++ (eol ++ (footer ++ eol))))

theorem newline_notMem_base64 (b : List UInt8) : ∀ c ∈ base64 b, c ≠ '\n'.toUInt8 :=
  mem_base64 (fun c => c ≠ '\n'.toUInt8) (by decide) (by decide)

theorem filter_lines (header b footer : List UInt8) (hheader : '\n'.toUInt8 ∉ header) (hfooter : '\n'.toUInt8 ∉ footer) :
    (lines ['\n'.toUInt8] header b footer).filter (fun chr => chr ≠ '\n'.toUInt8) = header ++ (base64 b ++ footer) := by
  have hkeep {l : List UInt8} (hl : ∀ c ∈ l, c ≠ '\n'.toUInt8) : l.filter (fun chr => chr ≠ '\n'.toUInt8) = l :=
    List.filter_eq_self.mpr fun c hc => decide_eq_true (hl c hc)
  unfold lines
  simp only [List.filter_append]
  rw [hkeep fun c hc heq => hheader (heq ▸ hc), hkeep fun c hc heq => hfooter (heq ▸ hc), hkeep (newline_notMem_base64 b)]
  simp

/-- A small key, packed either way. -/
theorem loadPEM_reads_smallKey :
    (∃ pString qString, loadPEM (fun _ _ => 0) (some (lines ['\n'.toUInt8] header_old (Der.sequence smallKey.content) footer_old)) =
      .setKey pString qString 16 ∧ hexValue pString = some 61 ∧ hexValue qString = some 53) ∧
    ∃ pString qString, loadPEM (fun _ _ => 0) (some (lines ['\n'.toUInt8] header_new
      (Der.sequence (privateKeyInfo rsaEncryption [] smallKey)) footer_new)) =
      .setKey pString qString 16 ∧ hexValue pString = some 61 ∧ hexValue qString = some 53 := by
  constructor
  · exact (loadPEM_reads fun _ _ => 0).2.1 smallKey .pkcs1 _ (by decide)
      (filter_lines header_old _ footer_old (by decide) (by decide))
  · exact (loadPEM_reads fun _ _ => 0).2.1 smallKey (.pkcs8 rsaEncryption) _ (by decide)
      (filter_lines header_new _ footer_new (by decide) (by decide))

theorem between_cr {footer : List UInt8} (hfooter : footer.getLast? = some '-'.toUInt8) (s header : List UInt8) :
    between (s ++ ['\r'.toUInt8]) header footer = none := by
  unfold between
  refine if_pos fun heq => ?_
  have hlast := congrArg List.getLast? heq
  rw [hfooter, List.getLast?_drop] at hlast
  split_ifs at hlast
  rw [List.getLast?_concat] at hlast
  exact absurd hlast (by decide)

/-- A footer is not found before a carriage return. -/
theorem body_cr (s : List UInt8) : body (s ++ ['\r'.toUInt8]) = none := by
  unfold body
  rw [between_cr (by decide), between_cr (by decide), ite_self, ite_self]

/-- With an attribute after it, the small key is not read; nor is it where lines end in two characters. -/
theorem failed_smallKey :
    loadPEM (fun _ _ => 0) (some (lines ['\n'.toUInt8] header_new
      (Der.sequence (privateKeyInfo rsaEncryption keyUsage smallKey)) footer_new)) = .failed ∧
    loadPEM (fun _ _ => 0) (some (lines ['\r'.toUInt8, '\n'.toUInt8] header_old
      (Der.sequence smallKey.content) footer_old)) = .failed := by
  constructor
  · have hbody (b : List UInt8) : body (header_new ++ (b ++ footer_new)) = some b := body_eq (.pkcs8 rsaEncryption) b
    unfold loadPEM
    dsimp only
    rw [flatten_getlines, filter_lines _ _ _ (by decide) (by decide), hbody]
    dsimp only
    rw [base64Decrypt_base64_eq, loadKey_pkcs8 (by decide)]
    exact if_neg (by decide)
  · obtain ⟨s, hs⟩ : ∃ s, (lines ['\r'.toUInt8, '\n'.toUInt8] header_old (Der.sequence smallKey.content) footer_old).filter
        (fun chr => chr ≠ '\n'.toUInt8) = s ++ ['\r'.toUInt8] := by
      unfold lines
      simp only [List.filter_append, ← List.append_assoc]
      exact ⟨_, rfl⟩
    unfold loadPEM
    dsimp only
    rw [flatten_getlines, hs, body_cr]

end CrystalServer.RSA
