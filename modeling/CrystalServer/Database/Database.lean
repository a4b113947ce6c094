import Mathlib.Data.UInt

/-! # The database and its transactions

`Database` and `DBTransaction` (`database/database.cpp`, `database/database.hpp`) over a MySQL server: a statement outside of
a transaction is in effect at once, one inside of it with `COMMIT` or never. The handle is there. -/

namespace CrystalServer.Database

/-- What the server answers to a request: it is done, or refused for a reason that `isRecoverableError` counts or not. -/
inductive Answer
  | done | recoverable | refused
  deriving DecidableEq

/-- A request: a statement on the data, or `BEGIN`. -/
inductive Query (σ : Type*)
  | begin
  | statement (q : σ)

/-- The server: the statements in effect, those of the open transaction, its answers, and the requests so far. -/
structure Connection (σ : Type*) where
  committed : List σ
  transaction : Option (List σ)
  answers : Nat → Answer
  requests : Nat
  maxPacketSize : UInt64

variable {σ : Type*}

/-- `BEGIN` commits what is open. -/
def Connection.take (db : Connection σ) : Query σ → Connection σ
  | .begin => { db with committed := db.committed ++ db.transaction.getD [], transaction := some [] }
  | .statement q =>
    match db.transaction with
    | none => { db with committed := db.committed ++ [q] }
    | some qs => { db with transaction := some (qs ++ [q]) }

/-- `mysql_query`. -/
def mysql_query (db : Connection σ) (query : Query σ) : Answer × Connection σ :=
  let answer := db.answers db.requests
  let db := { db with requests := db.requests + 1 }
  (answer, if answer = .done then db.take query else db)

/-- `Database::retryQuery`. -/
def retryQuery (db : Connection σ) (query : Query σ) : Nat → Bool × Connection σ
  | 0 => (false, db)
  | retries + 1 =>
    match mysql_query db query with
    | (.done, db) => (true, db)
    | (.refused, db) => (false, db)
    | (.recoverable, db) => retryQuery db query retries

/-- `Database::executeQuery`. -/
def executeQuery (db : Connection σ) (query : Query σ) : Bool × Connection σ := retryQuery db query 10

/-- `Database::beginTransaction`. -/
def beginTransaction (db : Connection σ) : Bool × Connection σ := executeQuery db .begin

/-- `Database::commit`, with `mysql_commit`. -/
def commit (db : Connection σ) : Bool × Connection σ :=
  let answer := db.answers db.requests
  let db := { db with requests := db.requests + 1 }
  if answer = .done then (true, { db with committed := db.committed ++ db.transaction.getD [], transaction := none })
  else (false, db)

/-! ### Callables -/

/-- What a callable does: it executes statements, goes on by what `executeQuery` returns, and returns or throws. -/
inductive Callable (σ : Type*)
  | return (b : Bool)
  | throw (message : String)
  | executeQuery (q : σ) (next : Bool → Callable σ)

namespace Callable

/-- A call: what it returns (or the message of its `DatabaseException`), the statements that it executed, each with what
`executeQuery` returned, and the server after it. -/
def call : Callable σ → Connection σ → Except String Bool × List (σ × Bool) × Connection σ
  | .return b, db => (.ok b, [], db)
  | .throw message, db => (.error message, [], db)
  | .executeQuery q next, db =>
    match Database.executeQuery db (.statement q) with
    | (success, db) =>
      match (next success).call db with
      | (result, executed, db) => (result, (q, success) :: executed, db)

/-- The callable, and with what it returns the next one. -/
def bind : Callable σ → (Bool → Callable σ) → Callable σ
  | .return b, f => f b
  | .throw message, _ => .throw message
  | .executeQuery q next, f => .executeQuery q fun success => (next success).bind f

end Callable

/-! ### Transactions -/

/-- `TransactionStates_t`. -/
inductive TransactionStates_t
  | STATE_NO_START | STATE_START | STATE_COMMIT
  deriving DecidableEq

/-- `DBTransaction`, on its connection. -/
structure DBTransaction (σ : Type*) where
  state : TransactionStates_t
  db : Connection σ

namespace DBTransaction

def begin (t : DBTransaction σ) : Bool × DBTransaction σ :=
  if t.state ≠ .STATE_NO_START then (false, t)
  else
    match beginTransaction t.db with
    | (started, db) => (started, ⟨.STATE_START, db⟩)

def commit (t : DBTransaction σ) : DBTransaction σ :=
  if t.state ≠ .STATE_START then t else ⟨.STATE_COMMIT, (Database.commit t.db).2⟩

/-- `DBTransaction::executeWithinTransaction`. The callable is called before the transaction begins; what follows it catches
its own exceptions, so its handler (with `rollback`) is never reached. -/
def executeWithinTransaction (toBeExecuted : Callable σ) (db : Connection σ) :
    Except String Bool × List (σ × Bool) × Connection σ :=
  match toBeExecuted.call db with
  | (.error message, executed, db) => (.error message, executed, db)
  | (.ok changesExpected, executed, db) =>
    if changesExpected then (.ok changesExpected, executed, (begin ⟨.STATE_NO_START, db⟩).2.commit.db)
    else (.ok true, executed, db)

end DBTransaction

/-! ### Saving a player -/

namespace IOLoginData

/-- The phases of `IOLoginDataSave`: rows are deleted, then written anew, and the first failure returns `false`. -/
def savePhase : List σ → Callable σ
  | [] => .return true
  | q :: qs => .executeQuery q fun success => if success then savePhase qs else .return false

/-- `IOLoginData::savePlayerGuard`: its phases one after the other, each with the message for its failure. -/
def savePlayerGuard : List (Callable σ × String) → Callable σ
  | [] => .return true
  | (phase, message) :: phases => phase.bind fun saved => if saved then savePlayerGuard phases else .throw message

/-- `IOLoginData::savePlayer`. -/
def savePlayer (phases : List (Callable σ × String)) (db : Connection σ) : Bool × Connection σ :=
  match DBTransaction.executeWithinTransaction (savePlayerGuard phases) db with
  | (.ok success, _, db) => (success, db)
  | (.error _, _, db) => (false, db)

end IOLoginData
end CrystalServer.Database

/-! ## Insert statements

`DBInsert` (`database/database.cpp`) gathers rows as text and sends them in statements of a limited size. -/

namespace CrystalServer.Database

/-- `Database::MAX_QUERY_SIZE`. -/
def MAX_QUERY_SIZE : Nat := 8 * 1024 * 1024

/-- `std::string::rfind` from a position on. -/
def rfind (str needle : List UInt8) : Nat → Option Nat
  | 0 => if needle <+: str then some 0 else none
  | pos + 1 => if needle <+: str.drop (pos + 1) then some (pos + 1) else rfind str needle pos

/-- The texts `(`, `)`, `,` and `),(`. -/
def opening : UInt8 := 40
def closing : UInt8 := 41
def comma : UInt8 := 44
def separator : List UInt8 := [closing, comma, opening]

structure DBInsert where
  upsertColumns : List (List UInt8)
  query : List UInt8
  values : List UInt8
  length : UInt64

namespace DBInsert

/-- The constructor. -/
def make (insertQuery : List UInt8) : DBInsert := ⟨[], insertQuery, [], .ofNat insertQuery.length⟩

def upsert (insert : DBInsert) (columns : List (List UInt8)) : DBInsert := { insert with upsertColumns := columns }

/-- The text behind the rows. -/
def upsertQuery (insert : DBInsert) : List UInt8 :=
  if insert.upsertColumns = [] then []
  else " ON DUPLICATE KEY UPDATE ".toUTF8.toList ++
    List.intercalate ", ".toUTF8.toList (insert.upsertColumns.map fun column =>
      "`".toUTF8.toList ++ column ++ "` = VALUES(`".toUTF8.toList ++ column ++ "`)".toUTF8.toList)

/-- The size that is left for the rows of a statement, as a difference of `size_t`. -/
def cutPos (insert : DBInsert) : Nat :=
  (MAX_QUERY_SIZE + (2 ^ 64 - insert.query.length % 2 ^ 64) + (2 ^ 64 - insert.upsertQuery.length % 2 ^ 64)) % 2 ^ 64

/-- Where `execute` cuts a batch: behind the comma of the last separator that fits, or at the end. -/
def cut (insert : DBInsert) (currentBatch : List UInt8) : Option Nat :=
  if insert.cutPos < currentBatch.length then (rfind currentBatch separator insert.cutPos).map (· + 2)
  else some currentBatch.length

/-- The statement for a batch. -/
def statement (insert : DBInsert) (batchValues : List UInt8) : List UInt8 :=
  insert.query ++ [32] ++ batchValues ++ insert.upsertQuery

/-- The loop of `execute`; each round takes at least one character. -/
def sendBatches (insert : DBInsert) : Nat → List UInt8 → Connection (List UInt8) → Bool × Connection (List UInt8)
  | 0, _, db => (true, db)
  | rounds + 1, currentBatch, db =>
    if currentBatch = [] then (true, db)
    else
      match insert.cut currentBatch with
      | none => (false, db)
      | some cutPos =>
        let batchValues := currentBatch.take cutPos
        let batchValues := if batchValues.getLast? = some comma then batchValues.dropLast else batchValues
        match executeQuery db (.statement (insert.statement batchValues)) with
        | (false, db) => (false, db)
        | (true, db) => sendBatches insert rounds (currentBatch.drop cutPos) db

/-- `DBInsert::execute`. -/
def execute (insert : DBInsert) (db : Connection (List UInt8)) : Bool × Connection (List UInt8) :=
  if insert.values = [] then (true, db) else insert.sendBatches insert.values.length insert.values db

/-- The rows with one more. -/
def append (values row : List UInt8) : List UInt8 :=
  if values = [] then opening :: row ++ [closing] else values ++ comma :: opening :: row ++ [closing]

/-- `addRow` once the row is counted in `length`. -/
def addCounted (insert : DBInsert) (row : List UInt8) (db : Connection (List UInt8)) :
    Bool × DBInsert × Connection (List UInt8) :=
  if insert.length > db.maxPacketSize then
    match insert.execute db with
    | (false, db) => (false, insert, db)
    | (true, db) => (true, { insert with values := append insert.values row }, db)
  else (true, { insert with values := append insert.values row }, db)

/-- `DBInsert::addRow`. -/
def addRow (insert : DBInsert) (row : List UInt8) (db : Connection (List UInt8)) :
    Bool × DBInsert × Connection (List UInt8) :=
  addCounted { insert with length := insert.length + .ofNat row.length } row db

/-- One `addRow` after the other. -/
def addRows (insert : DBInsert) (rows : List (List UInt8)) (db : Connection (List UInt8)) :
    DBInsert × Connection (List UInt8) :=
  rows.foldl (fun s row => (s.1.addRow row s.2).2) (insert, db)

end DBInsert
end CrystalServer.Database
