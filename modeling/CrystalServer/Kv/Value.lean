/-! # Values of the key-value store

`ValueWrapper` (`kv/value_wrapper.hpp`) holds a variant of text, boolean, int, double, array and map,
the time at which it was made and a deletion mark. A double is its bit pattern. A map is the list of
its entries in the order in which the hash map iterates over them. -/

namespace CrystalServer.Kv

mutual
/-- `ValueVariant` of `kv/kv_definitions.hpp`. -/
inductive ValueVariant where
  | string (s : String)
  | boolean (b : Bool)
  | int (i : Int32)
  | double (bits : UInt64)
  | array (elems : List ValueWrapper)
  | map (entries : List (String × ValueWrapper))

/-- The fields `data_`, `timestamp_` and `deleted_`. -/
inductive ValueWrapper where
  | mk (data : ValueVariant) (timestamp : UInt64) (deleted : Bool)
end

instance : Inhabited ValueVariant := ⟨.string ""⟩

namespace ValueWrapper

def data : ValueWrapper → ValueVariant
  | mk d _ _ => d

def getTimestamp : ValueWrapper → UInt64
  | mk _ t _ => t

def isDeleted : ValueWrapper → Bool
  | mk _ _ d => d

def setDeleted : ValueWrapper → Bool → ValueWrapper
  | mk data t _, d => mk data t d

@[simp] theorem data_mk (d : ValueVariant) (t : UInt64) (b : Bool) : (mk d t b).data = d := rfl
@[simp] theorem getTimestamp_mk (d : ValueVariant) (t : UInt64) (b : Bool) : (mk d t b).getTimestamp = t := rfl
@[simp] theorem isDeleted_mk (d : ValueVariant) (t : UInt64) (b : Bool) : (mk d t b).isDeleted = b := rfl

end ValueWrapper

/-! ### Content -/

mutual
/-- The variant with every timestamp inside it set to `t` and no deletion mark. -/
def ValueVariant.stamp (t : UInt64) : ValueVariant → ValueVariant
  | .string s => .string s
  | .boolean b => .boolean b
  | .int i => .int i
  | .double bits => .double bits
  | .array elems => .array (stampElems t elems)
  | .map entries => .map (stampEntries t entries)

/-- The same value as it would be if it had been made at time `t`: every constructor, key and element
    is kept, every timestamp is `t`. -/
def ValueWrapper.stamp (t : UInt64) : ValueWrapper → ValueWrapper
  | .mk data _ _ => .mk (data.stamp t) t false

def stampElems (t : UInt64) : List ValueWrapper → List ValueWrapper
  | [] => []
  | v :: vs => v.stamp t :: stampElems t vs

def stampEntries (t : UInt64) : List (String × ValueWrapper) → List (String × ValueWrapper)
  | [] => []
  | (k, v) :: es => (k, v.stamp t) :: stampEntries t es
end

mutual
/-- No map inside the variant lists a key twice, as in every hash map. -/
def ValueVariant.DistinctKeys : ValueVariant → Prop
  | .array elems => distinctKeysElems elems
  | .map entries => (entries.map Prod.fst).Nodup ∧ distinctKeysEntries entries
  | _ => True

def ValueWrapper.DistinctKeys : ValueWrapper → Prop
  | .mk data _ _ => data.DistinctKeys

def distinctKeysElems : List ValueWrapper → Prop
  | [] => True
  | v :: vs => v.DistinctKeys ∧ distinctKeysElems vs

def distinctKeysEntries : List (String × ValueWrapper) → Prop
  | [] => True
  | (_, v) :: es => v.DistinctKeys ∧ distinctKeysEntries es
end

mutual
/-- Every timestamp that the variant holds. -/
def ValueVariant.timestamps : ValueVariant → List UInt64
  | .array elems => timestampsElems elems
  | .map entries => timestampsEntries entries
  | _ => []

def ValueWrapper.timestamps : ValueWrapper → List UInt64
  | .mk data t _ => t :: data.timestamps

def timestampsElems : List ValueWrapper → List UInt64
  | [] => []
  | v :: vs => v.timestamps ++ timestampsElems vs

def timestampsEntries : List (String × ValueWrapper) → List UInt64
  | [] => []
  | (_, v) :: es => v.timestamps ++ timestampsEntries es
end

/-- Two values are deeply equal: they agree in every constructor, key and element. -/
def ValueWrapper.DeepEq (v w : ValueWrapper) : Prop := v.stamp 0 = w.stamp 0

end CrystalServer.Kv

/-! ## Values as protobuf messages

The messages of `kv.proto` and their conversion in `kv/value_wrapper_proto.cpp`. A message is the tree
of its fields; its wire form belongs to the protobuf library. -/

namespace CrystalServer.Kv

/-- The message `ValueWrapper`: the case of the oneof `value`, or none. A `KeyValuePair` is its key and
    its value, an unset value being the default message. -/
inductive Proto where
  | notSet
  | strValue (s : String)
  | intValue (i : Int32)
  | doubleValue (bits : UInt64)
  | arrayValue (values : List Proto)
  | mapValue (items : List (String × Proto))
  | boolValue (b : Bool)

namespace ProtoSerializable

mutual
/-- `ProtoSerializable::toProto`, the part of `std::visit`. -/
def toProtoVariant : ValueVariant → Proto
  | .string s => .strValue s
  | .boolean b => .boolValue b
  | .int i => .intValue i
  | .double bits => .doubleValue bits
  | .array elems => .arrayValue (toProtoElems elems)
  | .map entries => .mapValue (toProtoEntries entries)

/-- `ProtoSerializable::toProto`. -/
def toProto : ValueWrapper → Proto
  | .mk data _ _ => toProtoVariant data

/-- The loop of `setProtoArrayValue`. -/
def toProtoElems : List ValueWrapper → List Proto
  | [] => []
  | v :: vs => toProto v :: toProtoElems vs

/-- The loop of `setProtoMapValue`. -/
def toProtoEntries : List (String × ValueWrapper) → List (String × Proto)
  | [] => []
  | (k, v) :: es => (k, toProto v) :: toProtoEntries es
end

/-- `map[key] = value`: replaces the value of a key that is there, else adds an entry. -/
def assign (map : List (String × ValueWrapper)) (key : String) (value : ValueWrapper) :
    List (String × ValueWrapper) :=
  if key ∈ map.map Prod.fst then map.map fun e => if e.1 = key then (key, value) else e
  else map ++ [(key, value)]

/-- `ValueWrapper(data, timestamp)`: a timestamp of 0 is replaced by the time now. `clock n` is what the
    `n`-th reading of `getTimeMsNow` gives; the result carries the number of readings so far. -/
def construct (clock : Nat → UInt64) (data : ValueVariant) (timestamp : UInt64) (n : Nat) : ValueWrapper × Nat :=
  if timestamp = 0 then (.mk data (clock n) false, n + 1) else (.mk data timestamp false, n)

mutual
/-- `ProtoSerializable::fromProto`; `n` counts the readings of the clock. -/
def fromProto (clock : Nat → UInt64) (timestamp : UInt64) : Proto → Nat → ValueWrapper × Nat
  | .notSet, n => construct clock default timestamp n
  | .strValue s, n => construct clock (.string s) timestamp n
  | .boolValue b, n => construct clock (.boolean b) timestamp n
  | .intValue i, n => construct clock (.int i) timestamp n
  | .doubleValue bits, n => construct clock (.double bits) timestamp n
  | .arrayValue values, n =>
    let array := fromProtoValues clock timestamp values [] n
    construct clock (.array array.1) timestamp array.2
  | .mapValue items, n =>
    let map := fromProtoItems clock timestamp items [] n
    construct clock (.map map.1) timestamp map.2

/-- The loop over `array_value().values()`, `array` being what it has built. -/
def fromProtoValues (clock : Nat → UInt64) (timestamp : UInt64) :
    List Proto → List ValueWrapper → Nat → List ValueWrapper × Nat
  | [], array, n => (array, n)
  | m :: ms, array, n =>
    let elem := fromProto clock timestamp m n
    fromProtoValues clock timestamp ms (array ++ [elem.1]) elem.2

/-- The loop over `map_value().items()`, `map` being what it has built. -/
def fromProtoItems (clock : Nat → UInt64) (timestamp : UInt64) :
    List (String × Proto) → List (String × ValueWrapper) → Nat → List (String × ValueWrapper) × Nat
  | [], map, n => (map, n)
  | (k, m) :: ms, map, n =>
    let elem := fromProto clock timestamp m n
    fromProtoItems clock timestamp ms (assign map k elem.1) elem.2
end

end ProtoSerializable
end CrystalServer.Kv
