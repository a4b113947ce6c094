import Mathlib.Data.Nat.Digits.Defs

/-! # Little-endian bytes

The bytes of a natural number of a given width, least significant byte first, and the number that a list
of bytes stands for. The two undo one another at each width. -/

namespace Lib.LittleEndian

/-- The `k` lowest bytes of `n`. -/
def bytes : Nat → Nat → List UInt8
  | 0, _ => []
  | k + 1, n => UInt8.ofNat n :: bytes k (n / 256)

/-- The number that the bytes stand for. -/
def value : List UInt8 → Nat
  | [] => 0
  | b :: bs => b.toNat + 256 * value bs

@[simp] theorem bytes_zero (n : Nat) : bytes 0 n = [] := rfl

@[simp] theorem value_nil : value [] = 0 := rfl

theorem value_cons (b : UInt8) (bs : List UInt8) : value (b :: bs) = b.toNat + 256 * value bs := rfl

@[simp] theorem length_bytes (k n : Nat) : (bytes k n).length = k := by
  induction k generalizing n with
  | zero => rfl
  | succ k ih => simp [bytes, ih]

theorem value_lt (bs : List UInt8) : value bs < 256 ^ bs.length := by
  induction bs with
  | nil => simp
  | cons b bs ih =>
    have hb : b.toNat < 256 := b.toNat_lt
    rw [value_cons, List.length_cons, pow_succ]
    omega

theorem value_bytes {k n : Nat} (h : n < 256 ^ k) : value (bytes k n) = n := by
  induction k generalizing n with
  | zero =>
    rw [pow_zero] at h
    simp only [bytes_zero, value_nil]
    omega
  | succ k ih =>
    have hd : n / 256 < 256 ^ k := Nat.div_lt_of_lt_mul (by rwa [pow_succ, mul_comm] at h)
    rw [bytes, value_cons, ih hd, UInt8.toNat_ofNat']
    omega

theorem bytes_value (bs : List UInt8) : bytes bs.length (value bs) = bs := by
  induction bs with
  | nil => rfl
  | cons b bs ih =>
    have hb : b.toNat < 256 := b.toNat_lt
    have hdiv : (b.toNat + 256 * value bs) / 256 = value bs := by omega
    have hmod : UInt8.ofNat (b.toNat + 256 * value bs) = b := by
      apply UInt8.toNat_inj.mp
      rw [UInt8.toNat_ofNat']
      omega
    rw [List.length_cons, value_cons, bytes, hdiv, hmod, ih]

/-! ### Fixed widths -/

@[simp] theorem value_bytes_uint8 (v : UInt8) : UInt8.ofNat (value (bytes 1 v.toNat)) = v := by
  rw [value_bytes v.toNat_lt, UInt8.ofNat_toNat]

@[simp] theorem value_bytes_uint16 (v : UInt16) : UInt16.ofNat (value (bytes 2 v.toNat)) = v := by
  rw [value_bytes v.toNat_lt, UInt16.ofNat_toNat]

@[simp] theorem value_bytes_uint32 (v : UInt32) : UInt32.ofNat (value (bytes 4 v.toNat)) = v := by
  rw [value_bytes v.toNat_lt, UInt32.ofNat_toNat]

@[simp] theorem value_bytes_uint64 (v : UInt64) : UInt64.ofNat (value (bytes 8 v.toNat)) = v := by
  rw [value_bytes v.toNat_lt, UInt64.ofNat_toNat]

end Lib.LittleEndian

/-! ## Fixed-width integers

The integer types of a language with machine integers: casts between them, their ranges and their bytes. -/

namespace Lib

/-- An integer type of so many bytes. -/
structure IntType where
  size : Nat
  signed : Bool

namespace IntType

def modulus (t : IntType) : Nat := 256 ^ t.size

/-- The value of the type that the integer is cast to. -/
def cast (t : IntType) (n : Int) : Int := if t.signed then n.bmod t.modulus else n % t.modulus

def InRange (t : IntType) (n : Int) : Prop :=
  if t.signed then -(t.modulus : Int) ≤ n * 2 ∧ n * 2 < t.modulus else 0 ≤ n ∧ n < t.modulus

instance (t : IntType) (n : Int) : Decidable (t.InRange n) := by
  unfold InRange
  infer_instance

def encode (t : IntType) (n : Int) : List UInt8 := LittleEndian.bytes t.size (n % t.modulus).toNat

def decode (t : IntType) (bs : List UInt8) : Int := t.cast (LittleEndian.value bs)

variable {t : IntType} {n : Int}

theorem modulus_pos (t : IntType) : 0 < t.modulus := Nat.pow_pos (by decide)

@[simp] theorem length_encode (t : IntType) (n : Int) : (t.encode n).length = t.size := LittleEndian.length_bytes ..

theorem cast_emod (t : IntType) (n : Int) : t.cast (n % t.modulus) = t.cast n := by
  unfold cast
  split
  · exact Int.emod_bmod ..
  · exact Int.emod_emod_of_dvd n (dvd_refl _)

/-- A cast comes through the bytes. -/
@[simp] theorem decode_encode (t : IntType) (n : Int) : t.decode (t.encode n) = t.cast n := by
  have hpos : (0 : Int) < t.modulus := Int.natCast_pos.mpr t.modulus_pos
  have hnonneg := Int.emod_nonneg n hpos.ne'
  have hlt := Int.emod_lt_of_pos n hpos
  have hvalue : LittleEndian.value (t.encode n) = (n % t.modulus).toNat :=
    LittleEndian.value_bytes (show (n % t.modulus).toNat < t.modulus by omega)
  rw [decode, hvalue, Int.toNat_of_nonneg hnonneg, cast_emod]

theorem inRange_cast (t : IntType) (n : Int) : t.InRange (t.cast n) := by
  have hpos := t.modulus_pos
  have hpos' : (0 : Int) < t.modulus := Int.natCast_pos.mpr hpos
  unfold InRange cast
  split
  · have hle := Int.le_bmod (x := n) hpos
    have hlt := Int.bmod_lt (x := n) hpos
    omega
  · exact ⟨Int.emod_nonneg n hpos'.ne', Int.emod_lt_of_pos n hpos'⟩

/-- A cast keeps exactly the values of the type. -/
theorem cast_eq_iff (t : IntType) (n : Int) : t.cast n = n ↔ t.InRange n := by
  refine ⟨fun h => h ▸ t.inRange_cast n, fun h => ?_⟩
  unfold InRange at h
  unfold cast
  split
  · rename_i hs
    rw [if_pos hs] at h
    exact Int.bmod_eq_of_le_mul_two h.1 h.2
  · rename_i hs
    rw [if_neg hs] at h
    exact Int.emod_eq_of_lt h.1 h.2

/-- A cast keeps what is left by a width that it covers. -/
theorem emod_cast {m : Nat} (h : m ∣ t.modulus) (n : Int) : t.cast n % m = n % m := by
  have hdvd : (m : Int) ∣ (t.modulus : Int) := Int.natCast_dvd_natCast.mpr h
  unfold cast
  split
  · rw [← Int.emod_emod_of_dvd _ hdvd, Int.bmod_emod, Int.emod_emod_of_dvd _ hdvd]
  · exact Int.emod_emod_of_dvd _ hdvd

theorem cast_cast (t : IntType) (n : Int) : t.cast (t.cast n) = t.cast n := (t.cast_eq_iff _).mpr (t.inRange_cast n)

/-! ### The types of Lean -/

theorem ofInt_cast_uint8 (h : UInt8.size ∣ t.modulus) (n : UInt8) : UInt8.ofInt (t.cast n.toNat) = n := by
  have hmod : t.cast n.toNat % 2 ^ 8 = n.toNat :=
    (emod_cast h n.toNat).trans (Int.emod_eq_of_lt (Int.natCast_nonneg _) (Int.ofNat_lt.mpr n.toNat_lt))
  rw [UInt8.ofInt, hmod, Int.toNat_natCast, UInt8.ofNat_toNat]

theorem ofInt_cast_uint16 (h : UInt16.size ∣ t.modulus) (n : UInt16) : UInt16.ofInt (t.cast n.toNat) = n := by
  have hmod : t.cast n.toNat % 2 ^ 16 = n.toNat :=
    (emod_cast h n.toNat).trans (Int.emod_eq_of_lt (Int.natCast_nonneg _) (Int.ofNat_lt.mpr n.toNat_lt))
  rw [UInt16.ofInt, hmod, Int.toNat_natCast, UInt16.ofNat_toNat]

theorem ofInt_cast_uint32 (h : UInt32.size ∣ t.modulus) (n : UInt32) : UInt32.ofInt (t.cast n.toNat) = n := by
  have hmod : t.cast n.toNat % 2 ^ 32 = n.toNat :=
    (emod_cast h n.toNat).trans (Int.emod_eq_of_lt (Int.natCast_nonneg _) (Int.ofNat_lt.mpr n.toNat_lt))
  rw [UInt32.ofInt, hmod, Int.toNat_natCast, UInt32.ofNat_toNat]

theorem ofInt_cast_int8 (h : Int8.size ∣ t.modulus) (n : Int8) : Int8.ofInt (t.cast n.toInt) = n := by
  rw [← Int8.toInt_inj, Int8.toInt_ofInt, ← Int.emod_bmod, emod_cast h, Int.emod_bmod, ← Int8.toInt_ofInt, Int8.ofInt_toInt]

theorem ofInt_cast_int32 (h : Int32.size ∣ t.modulus) (n : Int32) : Int32.ofInt (t.cast n.toInt) = n := by
  rw [← Int32.toInt_inj, Int32.toInt_ofInt, ← Int.emod_bmod, emod_cast h, Int.emod_bmod, ← Int32.toInt_ofInt,
    Int32.ofInt_toInt]

end IntType

def int8_t : IntType := ⟨1, true⟩
def uint8_t : IntType := ⟨1, false⟩
def uint16_t : IntType := ⟨2, false⟩
def int32_t : IntType := ⟨4, true⟩
def uint32_t : IntType := ⟨4, false⟩
def int64_t : IntType := ⟨8, true⟩
def uint64_t : IntType := ⟨8, false⟩

theorem inRange_int32 {n : Int} : int32_t.InRange n ↔ -2 ^ 31 ≤ n ∧ n < 2 ^ 31 := by
  change -((2 ^ 32 : Nat) : Int) ≤ n * 2 ∧ n * 2 < ((2 ^ 32 : Nat) : Int) ↔ _
  omega

theorem inRange_uint8 {n : Int} : uint8_t.InRange n ↔ 0 ≤ n ∧ n < 2 ^ 8 := Iff.rfl

theorem inRange_uint16 {n : Int} : uint16_t.InRange n ↔ 0 ≤ n ∧ n < 2 ^ 16 := Iff.rfl

theorem inRange_int64 {n : Int} : int64_t.InRange n ↔ -2 ^ 63 ≤ n ∧ n < 2 ^ 63 := by
  change -((2 ^ 64 : Nat) : Int) ≤ n * 2 ∧ n * 2 < ((2 ^ 64 : Nat) : Int) ↔ _
  omega

end Lib
