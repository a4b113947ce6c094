import CrystalServer.Io.FileLoader

/-! # Typed fields of a byte stream

Fields as they are written to a stream of bytes, and what it means that a reader's accessors give them back.
A property stream gives back every sequence of fields. -/

namespace CrystalServer
open Lib

/-- A text with a length prefix of two bytes. -/
structure Str where
  bytes : List UInt8
  fits : bytes.length < 2 ^ 16

/-- A value with the accessor it is read by. -/
inductive Field where
  | u8 (v : UInt8)
  | u16 (v : UInt16)
  | u32 (v : UInt32)
  | u64 (v : UInt64)
  | string (str : Str)

namespace Field

/-- The bytes of an integer, or of a text with its length before it. -/
def bytes : Field → List UInt8
  | u8 v => LittleEndian.bytes 1 v.toNat
  | u16 v => LittleEndian.bytes 2 v.toNat
  | u32 v => LittleEndian.bytes 4 v.toNat
  | u64 v => LittleEndian.bytes 8 v.toNat
  | string str => LittleEndian.bytes 2 str.bytes.length ++ str.bytes

def allBytes (fields : List Field) : List UInt8 := fields.flatMap bytes

@[simp] theorem allBytes_nil : allBytes [] = [] := rfl

@[simp] theorem allBytes_cons (f : Field) (fs : List Field) : allBytes (f :: fs) = f.bytes ++ allBytes fs := rfl

end Field

/-- The accessors of a stream. -/
structure Reader (σ : Type) where
  getU8 : σ → Option (UInt8 × σ)
  getU16 : σ → Option (UInt16 × σ)
  getU32 : σ → Option (UInt32 × σ)
  getU64 : σ → Option (UInt64 × σ)
  getString : σ → Option (List UInt8 × σ)

namespace Reader
variable {σ : Type}

/-- The accessor of the field's type gives the field's value and leaves the stream as `s'`. -/
def ReadsField (r : Reader σ) (s s' : σ) : Field → Prop
  | .u8 v => r.getU8 s = some (v, s')
  | .u16 v => r.getU16 s = some (v, s')
  | .u32 v => r.getU32 s = some (v, s')
  | .u64 v => r.getU64 s = some (v, s')
  | .string str => r.getString s = some (str.bytes, s')

/-- The accessors give the values of the fields one after the other. -/
def Reads (r : Reader σ) : List Field → σ → σ → Prop
  | [], s, s' => s' = s
  | f :: fs, s, s' => ∃ m, r.ReadsField s m f ∧ r.Reads fs m s'

end Reader

namespace PropStream

def reader : Reader PropStream where
  getU8 := readU8
  getU16 := readU16
  getU32 := readU32
  getU64 := readU64
  getString := readString

theorem read_append {size : Nat} {bs rest : List UInt8} (h : bs.length = size) :
    read size (bs ++ rest) = some (bs, rest) := by
  have hn : ¬(bs ++ rest).length < size := by
    rw [List.length_append]
    omega
  rw [read, if_neg hn, List.take_left' h, List.drop_left' h]

theorem readInt_encode (t : IntType) (n : Int) (rest : PropStream) :
    readInt t (t.encode n ++ rest) = some (t.cast n, rest) := by
  rw [readInt, read_append (t.length_encode n), Option.map_some, t.decode_encode]

theorem readU8_bytes (v : UInt8) (rest : PropStream) :
    readU8 (LittleEndian.bytes 1 v.toNat ++ rest) = some (v, rest) := by
  simp [readU8, read_append]

theorem readU16_bytes (v : UInt16) (rest : PropStream) :
    readU16 (LittleEndian.bytes 2 v.toNat ++ rest) = some (v, rest) := by
  simp [readU16, read_append]

theorem readU32_bytes (v : UInt32) (rest : PropStream) :
    readU32 (LittleEndian.bytes 4 v.toNat ++ rest) = some (v, rest) := by
  simp [readU32, read_append]

theorem readU64_bytes (v : UInt64) (rest : PropStream) :
    readU64 (LittleEndian.bytes 8 v.toNat ++ rest) = some (v, rest) := by
  simp [readU64, read_append]

theorem readString_bytes {str : List UInt8} (h : str.length < 2 ^ 16) (rest : PropStream) :
    readString (LittleEndian.bytes 2 str.length ++ str ++ rest) = some (str, rest) := by
  have hlen : (UInt16.ofNat str.length).toNat = str.length := UInt16.toNat_ofNat_of_lt' h
  have hread := readU16_bytes (.ofNat str.length) (str ++ rest)
  rw [hlen] at hread
  rw [readString, List.append_assoc, hread]
  simp [hlen]

theorem readsField (f : Field) (rest : PropStream) : reader.ReadsField (f.bytes ++ rest) rest f := by
  cases f with
  | u8 v => exact readU8_bytes v rest
  | u16 v => exact readU16_bytes v rest
  | u32 v => exact readU32_bytes v rest
  | u64 v => exact readU64_bytes v rest
  | string str => exact readString_bytes str.fits rest

/-- A property stream gives back what was written and leaves what follows. -/
theorem reads (fields : List Field) (rest : PropStream) :
    reader.Reads fields (Field.allBytes fields ++ rest) rest := by
  induction fields with
  | nil => rfl
  | cons f fs ih =>
    rw [Field.allBytes_cons, List.append_assoc]
    exact ⟨_, readsField f _, ih⟩

end PropStream
end CrystalServer
