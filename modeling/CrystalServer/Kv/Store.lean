import Mathlib.Data.List.AList
import CrystalServer.Lib.NodeList
import CrystalServer.Kv.Value
import CrystalServer.Utils.Tools

/-! # The key-value store

`KVStore` (`kv/kv.hpp`, `kv/kv.cpp`) keeps the values used last in a hash map of at most `MAX_SIZE`
entries and writes the one used longest ago to its backend when the map is full. Its mutexes are left
out. `KVSQL` (`kv/kv_sql.cpp`) is the backend that keeps each value as a row of the table `kv_store`. Every
statement succeeds. -/

namespace CrystalServer.Kv
open Lib

/-- The virtual functions of `KVStore`, over the state `D` of what a subclass keeps its values in.
    A `loadPrefix` that does not return gives `none`. -/
structure Backend (D : Type) where
  load : D → String → Option ValueWrapper × D
  save : D → String → ValueWrapper → Bool × D
  loadPrefix : D → String → Option (List String)
  saveAll : D → List (String × ValueWrapper) → Bool × D
  getTimeMsNow : D → UInt64

/-- The fields of `KVStore`: each entry of `store_` holds its value and an iterator into `lruQueue_`. -/
structure KVStore where
  store_ : AList fun _ : String => ValueWrapper × Nat
  lruQueue_ : NodeList String

/-- A store and the state of its backend. -/
structure World (D : Type) where
  kv : KVStore
  db : D

/-- A new store. -/
def World.init {D : Type} (db : D) : World D := ⟨⟨∅, NodeList.empty⟩, db⟩

/-- `ValueWrapper::deleted`; its timestamp is never read. -/
def ValueWrapper.deleted : ValueWrapper := .mk default 0 true

namespace KVStore
variable {D : Type} (b : Backend D) (MAX_SIZE : Nat)

/-- `store_[key].first`: a key that is not there gets a value made now. -/
def valueAt (w : World D) (key : String) : ValueWrapper :=
  match w.kv.store_.lookup key with
  | some e => e.1
  | none => .mk default (b.getTimeMsNow w.db) false

/-- The branch of `setLocked` for a full store: saves the last key of the queue and drops it. -/
def evict (w : World D) : World D :=
  match w.kv.lruQueue_.back? with
  | none => w
  | some last => ⟨⟨w.kv.store_.erase last, w.kv.lruQueue_.popBack⟩, (b.save w.db last (valueAt b w last)).2⟩

/-- The end of `setLocked` for a new key. -/
def emplace (w : World D) (key : String) (value : ValueWrapper) : World D :=
  { w with kv := ⟨w.kv.store_.insert key (value, w.kv.lruQueue_.fresh), w.kv.lruQueue_.pushFront key⟩ }

/-- `KVStore::setLocked`. -/
def setLocked (w : World D) (key : String) (value : ValueWrapper) : World D :=
  match w.kv.store_.lookup key with
  | some e => { w with kv := ⟨w.kv.store_.insert key (value, e.2), w.kv.lruQueue_.moveFront e.2⟩ }
  | none => emplace (if MAX_SIZE ≤ w.kv.store_.keys.length then evict b w else w) key value

/-- `KVStore::get`. -/
def get (w : World D) (key : String) (forceLoad : Bool) : Option ValueWrapper × World D :=
  if forceLoad ∨ key ∉ w.kv.store_ then
    let value := b.load w.db key
    let w := { w with db := value.2 }
    match value.1 with
    | some v => (some v, setLocked b MAX_SIZE w key v)
    | none => (none, w)
  else match w.kv.store_.lookup key with
    | some (value, lruIt) =>
      if value.isDeleted then (none, { w with kv.lruQueue_ := w.kv.lruQueue_.moveBack lruIt })
      else (some value, { w with kv.lruQueue_ := w.kv.lruQueue_.moveFront lruIt })
    | none => (none, w)

/-- `KV::remove`. -/
def remove (w : World D) (key : String) : World D := setLocked b MAX_SIZE w key .deleted

/-- The part of `KVStore::keys` that reads `store_`: the suffix of every key that starts with `prefix`. -/
def cachedKeys (w : World D) (pre : String) : List String :=
  (w.kv.store_.keys.filter fun key => pre.toList <+: key.toList).map fun key =>
    String.ofList (key.toList.drop pre.toList.length)

/-- `KVStore::keys`, the set as a list. -/
def keys (w : World D) (pre : String) : Option (List String) :=
  (b.loadPrefix w.db pre).map fun loaded => cachedKeys w pre ++ loaded

/-- `saveAll`: the subclass saves a copy of the store. -/
def saveAll (w : World D) : World D :=
  { w with db := (b.saveAll w.db (w.kv.store_.entries.map fun e => (e.1, e.2.1))).2 }

/-- `KVStore::flush`. -/
def flush (w : World D) : World D :=
  let w := saveAll b w
  { w with kv.store_ := ∅ }

end KVStore

/-- `KVMemory` of the tests: a backend that keeps nothing. -/
def KVMemory.backend (now : UInt64) : Backend Unit where
  load _ _ := (none, ())
  save _ _ _ := (false, ())
  loadPrefix _ _ := some []
  saveAll _ _ := (true, ())
  getTimeMsNow _ := now

/-! ### Runs -/

/-- A call on the store. -/
inductive Op where
  | set (key : String) (value : ValueWrapper) (distinct : value.DistinctKeys)
  | get (key : String) (forceLoad : Bool)
  | remove (key : String)
  | saveAll
  | flush

/-- The state after a call. -/
def step {D : Type} (b : Backend D) (MAX_SIZE : Nat) (w : World D) : Op → World D
  | .set key value _ => KVStore.setLocked b MAX_SIZE w key value
  | .get key forceLoad => (KVStore.get b MAX_SIZE w key forceLoad).2
  | .remove key => KVStore.remove b MAX_SIZE w key
  | .saveAll => KVStore.saveAll b w
  | .flush => KVStore.flush b w

/-! ### The SQL backend -/

/-- The wire form of messages in the protobuf library: a message that is written can be read back. -/
structure ProtoCodec (W : Type) where
  SerializeToString : Proto → W
  ParseFromArray : W → Option Proto
  lossless : ∀ m, ParseFromArray (SerializeToString m) = some m

/-- The columns `timestamp` and `value` of a row. -/
structure Row (W : Type) where
  timestamp : UInt64
  value : W

/-- The table `kv_store` by its primary key `key_name`, and the clock: what its `n`-th reading gives and
    the number of readings so far. -/
structure Database (W : Type) where
  kv_store : AList fun _ : String => Row W
  clock : Nat → UInt64
  reads : Nat

/-- The pattern of `LIKE` matches the text: `%` stands for any text and `_` for any character. -/
def like : List Char → List Char → Bool
  | [], str => str.isEmpty
  | '%' :: pat, [] => like pat []
  | '%' :: pat, c :: str => like pat (c :: str) || like ('%' :: pat) str
  | _ :: _, [] => false
  | p :: pat, c :: str => (p == '_' || p == c) && like pat str
termination_by pat str => (pat.length, str.length)

namespace KVSQL
variable {W : Type} (C : ProtoCodec W)

/-- `KVSQL::load`. -/
def load (db : Database W) (key : String) : Option ValueWrapper × Database W :=
  match db.kv_store.lookup key with
  | none => (none, db)
  | some row =>
    match C.ParseFromArray row.value with
    | some protoValue =>
      let value := ProtoSerializable.fromProto db.clock row.timestamp protoValue db.reads
      (some value.1, { db with reads := value.2 })
    | none => (none, db)

/-- `KVSQL::prepareSave` and the execution of what it prepares: a deleted value deletes the row, any
    other one inserts or updates it. -/
def prepareSave (db : Database W) (key : String) (value : ValueWrapper) : Database W :=
  let data := C.SerializeToString (ProtoSerializable.toProto value)
  if value.isDeleted then { db with kv_store := db.kv_store.erase key }
  else { db with kv_store := db.kv_store.insert key ⟨value.getTimestamp, data⟩ }

/-- `KVSQL::save`. -/
def save (db : Database W) (key : String) (value : ValueWrapper) : Bool × Database W :=
  (true, prepareSave C db key value)

/-- The names of the rows that the query of `KVSQL::loadPrefix` selects. -/
def matching (db : Database W) (pre : String) : List String :=
  db.kv_store.keys.filter fun key => like (pre.toList ++ ['%']) key.toList

/-- `KVSQL::loadPrefix`: cuts the prefix out of each selected name. -/
def loadPrefix (db : Database W) (pre : String) : Option (List String) :=
  (matching db pre).mapM fun key => replaceString key pre ""

/-- `KVSQL::saveAll` on the copy of the store. -/
def saveAll (db : Database W) (store : List (String × ValueWrapper)) : Bool × Database W :=
  (true, store.foldl (fun db kv => prepareSave C db kv.1 kv.2) db)

/-- `KVSQL` as a subclass of `KVStore`. -/
def backend : Backend (Database W) where
  load := load C
  save := save C
  loadPrefix := loadPrefix
  saveAll := saveAll C
  getTimeMsNow := fun db => db.clock db.reads

end KVSQL
end CrystalServer.Kv
