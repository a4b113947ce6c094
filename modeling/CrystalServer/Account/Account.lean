import CrystalServer.Lib.Run
import Mathlib.Algebra.Ring.Nat

/-! # Coins of an account

`AccountRepositoryDB` (`account/account_repository_db.cpp`) keeps the coins of each account in the columns of its
row, `Account` (`account/account.cpp`) adds to them and takes from them. -/

namespace CrystalServer

/-- What `Account` reads of itself: `m_account.id` and `m_accLoaded`. -/
structure Account where
  id : UInt32
  m_accLoaded : Bool

namespace Account

inductive AccountErrors_t
  | Ok | Storage | RemoveCoins | InvalidLastDay | LoadingAccount | NotInitialized
  deriving DecidableEq

/-- `CoinTransactionType`, with the numbers that the source gives them. -/
inductive CoinTransactionType
  | Add | Remove
  deriving DecidableEq

def CoinTransactionType.enumToValue : CoinTransactionType → UInt8
  | .Add => 1
  | .Remove => 2

/-- A row of the table `coins_transactions`. -/
structure CoinsTransaction where
  account_id : UInt32
  type : UInt8
  coin_type : UInt8
  amount : UInt32
  description : String

/-- The tables `accounts` by `id` (the coin columns of each row) and `coins_transactions`. -/
structure Database where
  accounts : UInt32 → Option (String → UInt32)
  coins_transactions : List CoinsTransaction

/-- The queries of one call that the database fails, without effect. -/
structure Faults where
  getCoins : Bool
  setCoins : Bool
  registerCoinsTransaction : Bool

namespace AccountRepositoryDB

/-- `coinTypeToColumn`, with the values of `CoinType`: `Normal`, `Tournament` and `Transferable`. -/
def coinTypeToColumn : UInt8 → Option String
  | 1 => some "coins"
  | 2 => some "tournament_coins"
  | 3 => some "coins_transferable"
  | _ => none

/-- `AccountRepositoryDB::getCoins`; `none` where it returns `false`. -/
def getCoins (db : Database) (fails : Bool) (id : UInt32) (type : UInt8) : Option UInt32 :=
  match coinTypeToColumn type with
  | none => none
  | some column => if fails then none else (db.accounts id).map fun row => row column

/-- `AccountRepositoryDB::setCoins`. The update of a row that does not exist succeeds. -/
def setCoins (db : Database) (fails : Bool) (id : UInt32) (type : UInt8) (amount : UInt32) : Bool × Database :=
  match coinTypeToColumn type with
  | none => (false, db)
  | some column =>
    if fails then (false, db)
    else
      let row := (db.accounts id).map fun row => Function.update row column amount
      (true, { db with accounts := Function.update db.accounts id row })

/-- `AccountRepositoryDB::registerCoinsTransaction`. -/
def registerCoinsTransaction (db : Database) (fails : Bool) (id : UInt32) (type : UInt8) (coins : UInt32)
    (coinType : UInt8) (description : String) : Bool × Database :=
  if fails then (false, db)
  else (true, { db with coins_transactions := db.coins_transactions ++ [⟨id, type, coinType, coins, description⟩] })

end AccountRepositoryDB

open AccountRepositoryDB

section
variable (a : Account) (f : Faults)

/-- `Account::getCoins`. -/
def getCoins (db : Database) (type : UInt8) : UInt32 × AccountErrors_t :=
  if !a.m_accLoaded then (0, .NotInitialized)
  else
    match AccountRepositoryDB.getCoins db f.getCoins a.id type with
    | none => (0, .Storage)
    | some coins => (coins, .Ok)

/-- `Account::registerCoinTransaction`. -/
def registerCoinTransaction (db : Database) (transactionType : CoinTransactionType) (type : UInt8) (amount : UInt32)
    (detail : String) : Database :=
  if !a.m_accLoaded then db
  else if detail.isEmpty then db
  else (registerCoinsTransaction db f.registerCoinsTransaction a.id transactionType.enumToValue amount type detail).2

/-- `Account::addCoins`. -/
def addCoins (db : Database) (type : UInt8) (amount : UInt32) (detail : String) : AccountErrors_t × Database :=
  if !a.m_accLoaded then (.NotInitialized, db)
  else if amount == 0 then (.Ok, db)
  else
    let (coins, result) := a.getCoins f db type
    if result ≠ .Ok then (result, db)
    else
      match setCoins db f.setCoins a.id type (coins + amount) with
      | (false, db) => (.Storage, db)
      | (true, db) => (.Ok, a.registerCoinTransaction f db .Add type amount detail)

/-- `Account::removeCoins`. -/
def removeCoins (db : Database) (type : UInt8) (amount : UInt32) (detail : String) : AccountErrors_t × Database :=
  if !a.m_accLoaded then (.NotInitialized, db)
  else if amount == 0 then (.Ok, db)
  else
    let (coins, result) := a.getCoins f db type
    if result ≠ .Ok then (result, db)
    else if coins < amount then (.RemoveCoins, db)
    else
      match setCoins db f.setCoins a.id type (coins - amount) with
      | (false, db) => (.Storage, db)
      | (true, db) => (.Ok, a.registerCoinTransaction f db .Remove type amount detail)

end

/-- A call of `addCoins` (`Add`) or `removeCoins` (`Remove`), and what the database fails of it. -/
structure Call where
  account : Account
  kind : CoinTransactionType
  type : UInt8
  amount : UInt32
  detail : String
  faults : Faults

/-- What the call returns and the database after it. -/
def Call.execute (c : Call) (db : Database) : AccountErrors_t × Database :=
  match c.kind with
  | .Add => c.account.addCoins c.faults db c.type c.amount c.detail
  | .Remove => c.account.removeCoins c.faults db c.type c.amount c.detail

/-- The database, and the calls so far with what they returned, the last one first. -/
structure State where
  db : Database
  returned : List (Call × AccountErrors_t)

def State.step (s : State) (c : Call) : State :=
  ⟨(c.execute s.db).2, (c, (c.execute s.db).1) :: s.returned⟩

end Account
end CrystalServer

/-! ## Premium days of an account

The premium of an account (`account/account.cpp`): the second at which it ends, and the number of days left that was counted
when the account was loaded. Times are what `getTimeNow` answers, and a saved account is the one in memory. -/

namespace CrystalServer.Account

/-- The part of `AccountInfo` that the premium is kept in. -/
structure AccountInfo where
  premiumRemainingDays : UInt32
  premiumLastDay : Int
  premiumDaysPurchased : UInt32
  deriving DecidableEq

namespace AccountInfo
variable (a : AccountInfo)

/-- `Account::setPremiumDays`. -/
def setPremiumDays (now : Int) (days : Int32) : AccountInfo :=
  let a := { a with premiumRemainingDays := days.toUInt32, premiumLastDay := now + (days * 86400).toInt }
  if days ≤ 0 then { a with premiumLastDay := 0, premiumRemainingDays := 0 } else a

/-- `Account::addPremiumDays`, with the two times that it asks for. -/
def addPremiumDays (now₁ now₂ : Int) (days : Int32) : AccountInfo :=
  let timeLeft := max 0 ((a.premiumLastDay - now₁).tmod 86400)
  let a := a.setPremiumDays now₂ (a.premiumRemainingDays + days.toUInt32).toInt32
  let a := { a with premiumDaysPurchased := a.premiumDaysPurchased + days.toUInt32 }
  if timeLeft > 0 then { a with premiumLastDay := a.premiumLastDay + timeLeft } else a

/-- `Account::getPremiumRemainingDays`. -/
def getPremiumRemainingDays (now : Int) : UInt32 :=
  let remainingDays := UInt32.ofInt ((a.premiumLastDay - now).tdiv 86400)
  if remainingDays = 0 ∧ a.premiumLastDay > now then 1
  else if a.premiumLastDay > now then remainingDays
  else 0

/-- `Account::updatePremiumTime`. -/
def updatePremiumTime (currentTime : Int) : AccountInfo :=
  let lastDay := a.premiumLastDay
  let daysLeft := Int32.ofInt ((lastDay - currentTime).tdiv 86400)
  let timeLeft := (lastDay - currentTime).tmod 86400
  let a := { a with premiumRemainingDays := if daysLeft > 0 then daysLeft.toUInt32 else 0 }
  let a := if daysLeft = 0 ∧ timeLeft = 0 then a.setPremiumDays currentTime 0 else a
  if lastDay < currentTime ∨ lastDay = 0 then a.setPremiumDays currentTime 0 else a

end AccountInfo
end CrystalServer.Account
