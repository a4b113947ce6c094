import CrystalServer.Lib.LittleEndian
import Mathlib.Data.Nat.Size
import Mathlib.Data.UInt

/-! # Base64 and DER

How bytes are written as text, and how numbers and sequences are written as bytes, each in the one shortest way. -/

namespace Lib

/-! ### Base64 -/

/-- The character for six bits. -/
def base64Char (n : Nat) : UInt8 :=
  if n < 26 then UInt8.ofNat ('A'.toNat + n)
  else if n < 52 then UInt8.ofNat ('a'.toNat + (n - 26))
  else if n < 62 then UInt8.ofNat ('0'.toNat + (n - 52))
  else if n = 62 then '+'.toUInt8
  else '/'.toUInt8

/-- Three bytes as four characters; where the last group is shorter, it is padded. -/
def base64 : List UInt8 → List UInt8
  | [] => []
  | [a] => [base64Char (a.toNat / 4), base64Char (a.toNat % 4 * 16), '='.toUInt8, '='.toUInt8]
  | [a, b] =>
    [base64Char (a.toNat / 4), base64Char (a.toNat % 4 * 16 + b.toNat / 16), base64Char (b.toNat % 16 * 4), '='.toUInt8]
  | a :: b :: c :: rest =>
    [base64Char (a.toNat / 4), base64Char (a.toNat % 4 * 16 + b.toNat / 16), base64Char (b.toNat % 16 * 4 + c.toNat / 64),
      base64Char (c.toNat % 64)] ++ base64 rest

/-- The text of bytes is letters, digits and the signs `+`, `/` and `=`. -/
theorem mem_base64 (P : UInt8 → Prop) (hchar : ∀ n < 64, P (base64Char n)) (hpad : P '='.toUInt8) {bs : List UInt8} :
    ∀ c ∈ base64 bs, P c := by
  have hlt (a : UInt8) : a.toNat < 256 := a.toNat_lt
  induction bs using base64.induct with
  | case1 => simp [base64]
  | case2 a =>
    have ha := hlt a
    simp only [base64, List.forall_mem_cons]
    exact ⟨hchar _ (by omega), hchar _ (by omega), hpad, hpad, by simp⟩
  | case3 a b =>
    have ha := hlt a
    have hb := hlt b
    simp only [base64, List.forall_mem_cons]
    exact ⟨hchar _ (by omega), hchar _ (by omega), hchar _ (by omega), hpad, by simp⟩
  | case4 a b c rest ih =>
    have ha := hlt a
    have hb := hlt b
    have hc := hlt c
    simp only [base64, List.forall_mem_cons, List.cons_append, List.nil_append]
    exact ⟨hchar _ (by omega), hchar _ (by omega), hchar _ (by omega), hchar _ (by omega), ih⟩

/-! ### DER -/

namespace Der

/-- A number in so many bytes, the most significant first. -/
def bigEndian (k n : Nat) : List UInt8 := (LittleEndian.bytes k n).reverse

/-- The number that the bytes stand for, the most significant first. -/
def value (bs : List UInt8) : Nat := LittleEndian.value bs.reverse

/-- The bytes of a length: the number itself, or how many bytes the number has and the number. -/
def length (n : Nat) : List UInt8 :=
  if n < 128 then [UInt8.ofNat n] else UInt8.ofNat (128 + (n.size + 7) / 8) :: bigEndian ((n.size + 7) / 8) n

def element (tag : UInt8) (content : List UInt8) : List UInt8 := tag :: (length content.length ++ content)

/-- The content of a number that is not negative: so many bytes that the first bit is clear. -/
def number (n : Nat) : List UInt8 := bigEndian (n.size / 8 + 1) n

def integer (n : Nat) : List UInt8 := element 2 (number n)

def sequence (content : List UInt8) : List UInt8 := element 48 content

/-- The bytes state the length: the number itself, or how many bytes the number has and the number. -/
def States (bs : List UInt8) (n : Nat) : Prop :=
  (∃ b : UInt8, b < 128 ∧ bs = [b] ∧ n = b.toNat) ∨
    ∃ b : UInt8, ∃ number, 128 ≤ b ∧ bs = b :: number ∧ number.length = b.toNat - 128 ∧ n = value number

@[simp] theorem length_bigEndian (k n : Nat) : (bigEndian k n).length = k := by
  rw [bigEndian, List.length_reverse, LittleEndian.length_bytes]

theorem value_bigEndian {k n : Nat} (h : n < 256 ^ k) : value (bigEndian k n) = n := by
  rw [value, bigEndian, List.reverse_reverse, LittleEndian.value_bytes h]

theorem value_concat (bs : List UInt8) (b : UInt8) : value (bs ++ [b]) = value bs * 256 + b.toNat := by
  rw [value, value, List.reverse_append, List.reverse_singleton, List.singleton_append, LittleEndian.value_cons]
  ring

/-- A number is built up from its first byte on. -/
theorem foldl_eq_value {f : Nat → UInt8 → Nat} (hf : ∀ n b, f n b = n * 256 + b.toNat) (bs : List UInt8) :
    bs.foldl f 0 = value bs := by
  induction bs using List.reverseRecOn with
  | nil => rfl
  | append_singleton bs b ih => rw [List.foldl_append, List.foldl_cons, List.foldl_nil, ih, hf, value_concat]

theorem lt_pow_of_size_le {n k : Nat} (h : n.size ≤ 8 * k) : n < 256 ^ k := by
  have hsize : n < 2 ^ (8 * k) := Nat.size_le.mp h
  rwa [pow_mul] at hsize

theorem value_number (n : Nat) : value (number n) = n :=
  value_bigEndian (lt_pow_of_size_le (by omega))

/-- Lengths below `2 ^ 16` have two more bytes at most. -/
theorem size_lengths {n : Nat} (h : n < 65536) : (n.size + 7) / 8 ≤ 2 := by
  have hsize : n.size ≤ 16 := Nat.size_le.mpr h
  omega

theorem value_length (n : Nat) : value (bigEndian ((n.size + 7) / 8) n) = n :=
  value_bigEndian (lt_pow_of_size_le (by omega))

end Der
end Lib
