import CrystalServer.Account.Account
import CrystalServer.Lib.SumBy
import Mathlib.Tactic.Linarith

/-! # Exact coins, and what bought days add

What the database holds of each account and coin type against the amounts of the calls that returned `Ok`, and the end of
the premium against the days that were bought. -/

/-! ## Coins

A call adds its amount, takes it, or returns an error and does nothing; an addition past `2 ^ 32` loses coins. -/

namespace CrystalServer.Account
open AccountRepositoryDB Lib

/-- The coins of the type that the database holds for the account. -/
def stored (db : Database) (id : UInt32) (type : UInt8) : Nat :=
  ((AccountRepositoryDB.getCoins db false id type).map UInt32.toNat).getD 0

/-- What one call counts among those of the kind for the account and the type that returned `Ok`. -/
def counted (kind : CoinTransactionType) (id : UInt32) (type : UInt8) (r : Call × AccountErrors_t) : Nat :=
  if r.1.kind = kind ∧ r.1.account.id = id ∧ r.1.type = type ∧ r.2 = .Ok then r.1.amount.toNat else 0

/-- The sum of the amounts of the calls of the kind for the account and the type that returned `Ok`. -/
def total (kind : CoinTransactionType) (id : UInt32) (type : UInt8)
    (returned : List (Call × AccountErrors_t)) : Nat :=
  (returned.map (counted kind id type)).sum

/-- Every account holds what it held in `db`, with what was added and without what was removed. -/
def Exact (db : Database) (s : State) : Prop :=
  ∀ id type, stored s.db id type + total .Remove id type s.returned =
    stored db id type + total .Add id type s.returned

/-- No account holds more than that. -/
def Bounded (db : Database) (s : State) : Prop :=
  ∀ id type, stored s.db id type + total .Remove id type s.returned ≤
    stored db id type + total .Add id type s.returned

/-- The call leaves the database as it was if it returns an error. -/
def Inert (s : State) (c : Call) : Prop := (c.execute s.db).1 ≠ .Ok → (c.execute s.db).2 = s.db

/-- The call adds to coins that it can read and write. -/
def Adds (c : Call) (db : Database) (coins : UInt32) : Prop :=
  c.kind = .Add ∧ c.account.m_accLoaded = true ∧ c.faults.getCoins = false ∧ c.faults.setCoins = false ∧
    AccountRepositoryDB.getCoins db false c.account.id c.type = some coins

/-- An addition finds room for its amount. -/
def Fits (s : State) (c : Call) : Prop := ∀ coins, Adds c s.db coins → coins.toNat + c.amount.toNat < 2 ^ 32

/-! ### The repository -/

theorem coinTypeToColumn_inj {type type' : UInt8} {column : String} (h : coinTypeToColumn type = some column)
    (h' : coinTypeToColumn type' = some column) : type = type' := by
  have heq : coinTypeToColumn type = coinTypeToColumn type' := h.trans h'.symm
  have hne : coinTypeToColumn type ≠ none := by simp [h]
  unfold coinTypeToColumn at heq hne
  split at heq <;> split at heq <;> simp_all

theorem getCoins_eq_some_iff {db : Database} {fails : Bool} {id : UInt32} {type : UInt8} {coins : UInt32} :
    AccountRepositoryDB.getCoins db fails id type = some coins ↔
      fails = false ∧ AccountRepositoryDB.getCoins db false id type = some coins := by
  unfold AccountRepositoryDB.getCoins
  cases coinTypeToColumn type <;> cases fails <;> simp

theorem stored_congr {db db' : Database} (h : db.accounts = db'.accounts) (id : UInt32) (type : UInt8) :
    stored db id type = stored db' id type := by
  simp only [stored, AccountRepositoryDB.getCoins, h]

theorem stored_eq {db : Database} {id : UInt32} {type : UInt8} {coins : UInt32}
    (h : AccountRepositoryDB.getCoins db false id type = some coins) : stored db id type = coins.toNat := by
  simp [stored, h]

theorem setCoins_fails (db : Database) (id : UInt32) (type : UInt8) (amount : UInt32) :
    setCoins db true id type amount = (false, db) := by
  unfold setCoins
  cases coinTypeToColumn type <;> simp

theorem setCoins_succeeds {db : Database} {id : UInt32} {type : UInt8} {coins : UInt32}
    (hc : AccountRepositoryDB.getCoins db false id type = some coins) (amount : UInt32) :
    ∃ db', setCoins db false id type amount = (true, db') := by
  unfold AccountRepositoryDB.getCoins at hc
  unfold setCoins
  cases hcol : coinTypeToColumn type with
  | none => simp [hcol] at hc
  | some column => exact ⟨_, rfl⟩

/-- Writing the coins of a row that can be read changes these coins and no others. -/
theorem stored_setCoins {db db' : Database} {fails : Bool} {id : UInt32} {type : UInt8} {coins amount : UInt32}
    (hc : AccountRepositoryDB.getCoins db false id type = some coins)
    (hs : setCoins db fails id type amount = (true, db')) (id' : UInt32) (type' : UInt8) :
    stored db' id' type' = if id = id' ∧ type = type' then amount.toNat else stored db id' type' := by
  unfold AccountRepositoryDB.getCoins at hc
  unfold setCoins at hs
  cases hcol : coinTypeToColumn type with
  | none => simp [hcol] at hc
  | some column =>
    simp only [hcol, Bool.false_eq_true, if_false, Option.map_eq_some_iff] at hc
    obtain ⟨row, hrow, -⟩ := hc
    cases fails
    · simp only [hcol, Bool.false_eq_true, if_false, hrow, Option.map_some, Prod.mk.injEq, true_and] at hs
      subst hs
      by_cases hid : id = id'
      · subst hid
        by_cases ht : type = type'
        · subst ht
          simp [stored, AccountRepositoryDB.getCoins, hcol]
        · cases hcol' : coinTypeToColumn type' with
          | none => simp [stored, AccountRepositoryDB.getCoins, hcol', ht]
          | some column' =>
            have hne : column' ≠ column := by
              rintro rfl
              exact ht (coinTypeToColumn_inj hcol hcol')
            simp [stored, AccountRepositoryDB.getCoins, hcol', ht, hrow, hne]
      · have hid' : id' ≠ id := fun h => hid h.symm
        simp [stored, AccountRepositoryDB.getCoins, hid, hid']
    · simp [hcol] at hs

@[simp] theorem registerCoinTransaction_accounts (a : Account) (f : Faults) (db : Database)
    (transactionType : CoinTransactionType) (type : UInt8) (amount : UInt32) (detail : String) :
    (a.registerCoinTransaction f db transactionType type amount detail).accounts = db.accounts := by
  unfold registerCoinTransaction AccountRepositoryDB.registerCoinsTransaction
  split
  · rfl
  · split
    · rfl
    · split <;> rfl

/-! ### What a call does -/

/-- A call returns an error and does nothing, returns `Ok` on amount zero and does nothing, or reads the coins of an
account and writes them with the amount added or taken. -/
theorem execute_cases (c : Call) (db : Database) :
    ((c.execute db).1 ≠ .Ok ∧ (c.execute db).2 = db ∧ ∀ coins, ¬Adds c db coins) ∨
    (c.execute db = (.Ok, db) ∧ c.amount = 0) ∨
    (∃ coins db', Adds c db coins ∧ (c.execute db).1 = .Ok ∧ (c.execute db).2.accounts = db'.accounts ∧
      setCoins db false c.account.id c.type (coins + c.amount) = (true, db')) ∨
    (∃ coins db', c.kind = .Remove ∧ AccountRepositoryDB.getCoins db false c.account.id c.type = some coins ∧
      (c.execute db).1 = .Ok ∧ (c.execute db).2.accounts = db'.accounts ∧ c.amount ≤ coins ∧
      setCoins db false c.account.id c.type (coins - c.amount) = (true, db')) := by
  by_cases hl : c.account.m_accLoaded = true
  · by_cases ha : c.amount = 0
    · refine Or.inr (Or.inl ⟨?_, ha⟩)
      cases hk : c.kind <;> simp [Call.execute, addCoins, removeCoins, hk, hl, ha]
    · cases hc : AccountRepositoryDB.getCoins db c.faults.getCoins c.account.id c.type with
      | none =>
        refine Or.inl ⟨?_, ?_, ?_⟩
        · cases hk : c.kind <;> simp [Call.execute, addCoins, removeCoins, Account.getCoins, hk, hl, ha, hc]
        · cases hk : c.kind <;> simp [Call.execute, addCoins, removeCoins, Account.getCoins, hk, hl, ha, hc]
        · rintro coins ⟨-, -, hf, -, hc'⟩
          rw [hf, hc'] at hc
          exact absurd hc (by simp)
      | some coins =>
        obtain ⟨hf, hc'⟩ := getCoins_eq_some_iff.mp hc
        cases hk : c.kind with
        | Add =>
          cases hs : c.faults.setCoins with
          | true =>
            refine Or.inl ⟨?_, ?_, fun _ h => by simp [Adds, hs] at h⟩ <;>
              simp [Call.execute, addCoins, Account.getCoins, hk, hl, ha, hc, hs, setCoins_fails]
          | false =>
            obtain ⟨db', hdb'⟩ := setCoins_succeeds hc' (coins + c.amount)
            refine Or.inr (Or.inr (Or.inl ⟨coins, db', ⟨hk, hl, hf, hs, hc'⟩, ?_, ?_, hdb'⟩)) <;>
              simp [Call.execute, addCoins, Account.getCoins, hk, hl, ha, hc, hs, hdb']
        | Remove =>
          have hadds : ∀ coins, ¬Adds c db coins := fun _ h => by simp [Adds, hk] at h
          by_cases hlt : coins < c.amount
          · refine Or.inl ⟨?_, ?_, hadds⟩ <;>
              simp [Call.execute, removeCoins, Account.getCoins, hk, hl, ha, hc, hlt]
          · cases hs : c.faults.setCoins with
            | true =>
              refine Or.inl ⟨?_, ?_, hadds⟩ <;>
                simp [Call.execute, removeCoins, Account.getCoins, hk, hl, ha, hc, hs, setCoins_fails, hlt]
            | false =>
              obtain ⟨db', hdb'⟩ := setCoins_succeeds hc' (coins - c.amount)
              refine Or.inr (Or.inr (Or.inr ⟨coins, db', rfl, hc', ?_, ?_, UInt32.not_lt.mp hlt, hdb'⟩)) <;>
                simp [Call.execute, removeCoins, Account.getCoins, hk, hl, ha, hc, hs, hdb', hlt]
  · refine Or.inl ⟨?_, ?_, fun _ h => hl h.2.1⟩ <;>
      cases hk : c.kind <;> simp [Call.execute, addCoins, removeCoins, hk, hl]

theorem inert (s : State) (c : Call) : Inert s c := by
  intro he
  rcases execute_cases c s.db with ⟨-, hdb, -⟩ | ⟨h, -⟩ | ⟨_, _, -, h, -⟩ | ⟨_, _, -, -, h, -⟩
  · exact hdb
  · rw [h]
  · exact absurd h he
  · exact absurd h he

/-- A call leaves of the coins of every account what it counts if it fits, and less if it does not. -/
theorem stored_step (s : State) (c : Call) :
    (∀ id type, stored (s.step c).db id type + counted .Remove id type (c, (c.execute s.db).1) ≤
      stored s.db id type + counted .Add id type (c, (c.execute s.db).1)) ∧
    ((∀ id type, stored (s.step c).db id type + counted .Remove id type (c, (c.execute s.db).1) =
      stored s.db id type + counted .Add id type (c, (c.execute s.db).1)) ↔ Fits s c) := by
  rcases execute_cases c s.db with ⟨he, hdb, hadds⟩ | ⟨h, ha⟩ | ⟨coins, db', hadds, hok, hacc, hset⟩ |
    ⟨coins, db', hk, hc, hok, hacc, hle, hset⟩
  · have heq : ∀ id type, stored (s.step c).db id type + counted .Remove id type (c, (c.execute s.db).1) =
        stored s.db id type + counted .Add id type (c, (c.execute s.db).1) := by
      simp [State.step, counted, he, hdb]
    refine ⟨fun id type => Nat.le_of_eq (heq id type), iff_of_true heq fun coins h => ?_⟩
    exact absurd h (hadds coins)
  · have heq : ∀ id type, stored (s.step c).db id type + counted .Remove id type (c, (c.execute s.db).1) =
        stored s.db id type + counted .Add id type (c, (c.execute s.db).1) := by
      simp [State.step, counted, h, ha]
    refine ⟨fun id type => Nat.le_of_eq (heq id type), iff_of_true heq fun coins _ => ?_⟩
    rw [ha]
    exact coins.toNat_lt
  · have ⟨hk, _, _, _, hc⟩ := hadds
    have hst : ∀ id type, stored (s.step c).db id type = _ := fun id type =>
      (stored_congr hacc id type).trans (stored_setCoins hc hset id type)
    have hwrap := UInt32.toNat_add coins c.amount
    refine ⟨fun id type => ?_, fun heq => ?_, fun hfits id type => ?_⟩
    · rw [hst]
      by_cases hkey : c.account.id = id ∧ c.type = type
      · obtain ⟨rfl, rfl⟩ := hkey
        simp only [counted, hk, hok, stored_eq hc, reduceCtorEq, and_self, if_true, false_and, if_false]
        omega
      · simp [counted, hk, hok, hkey]
    · rintro coins' ⟨-, -, -, -, hc'⟩
      obtain rfl : coins' = coins := Option.some.inj (hc'.symm.trans hc)
      have hkey := heq c.account.id c.type
      simp only [hst, counted, hk, hok, stored_eq hc, reduceCtorEq, and_self, if_true, false_and, if_false] at hkey
      omega
    · have hlt := hfits coins hadds
      rw [hst]
      by_cases hkey : c.account.id = id ∧ c.type = type
      · obtain ⟨rfl, rfl⟩ := hkey
        simp only [counted, hk, hok, stored_eq hc, reduceCtorEq, and_self, if_true, false_and, if_false]
        omega
      · simp [counted, hk, hok, hkey]
  · have hsub := UInt32.toNat_sub_of_le coins c.amount hle
    have hle' := UInt32.le_iff_toNat_le.mp hle
    have heq : ∀ id type, stored (s.step c).db id type + counted .Remove id type (c, (c.execute s.db).1) =
        stored s.db id type + counted .Add id type (c, (c.execute s.db).1) := by
      intro id type
      rw [show stored (s.step c).db id type = _ from
        (stored_congr hacc id type).trans (stored_setCoins hc hset id type)]
      by_cases hkey : c.account.id = id ∧ c.type = type
      · obtain ⟨rfl, rfl⟩ := hkey
        simp only [counted, hk, hok, stored_eq hc, reduceCtorEq, and_self, if_true, false_and, if_false]
        omega
      · simp [counted, hk, hok, hkey]
    exact ⟨fun id type => Nat.le_of_eq (heq id type), iff_of_true heq fun _ hadd => by simp [Adds, hk] at hadd⟩

/-- The account is loaded and its row is there: coins of the type can be read and written. -/
def Open (a : Account) (db : Database) (type : UInt8) : Prop :=
  a.m_accLoaded = true ∧ (AccountRepositoryDB.getCoins db false a.id type).isSome = true

theorem isSome_setCoins {db db' : Database} {fails : Bool} {id : UInt32} {type : UInt8} {amount : UInt32} {b : Bool}
    (h : setCoins db fails id type amount = (b, db')) (id' : UInt32) (type' : UInt8) :
    (AccountRepositoryDB.getCoins db' false id' type').isSome = (AccountRepositoryDB.getCoins db false id' type').isSome := by
  unfold setCoins at h
  split at h
  · cases h
    rfl
  · split at h
    · cases h
      rfl
    · cases h
      unfold AccountRepositoryDB.getCoins
      cases coinTypeToColumn type' with
      | none => rfl
      | some column =>
        by_cases hid : id' = id
        · subst hid
          simp
        · simp [hid]

theorem getCoins_accounts {db db' : Database} (h : db.accounts = db'.accounts) (id : UInt32) (type : UInt8) :
    AccountRepositoryDB.getCoins db false id type = AccountRepositoryDB.getCoins db' false id type := by
  simp only [AccountRepositoryDB.getCoins, h]

/-- No call closes an account. -/
theorem Open.execute {a : Account} {db : Database} {type : UInt8} (h : Open a db type) (c : Call) :
    Open a (c.execute db).2 type := by
  refine ⟨h.1, ?_⟩
  rcases execute_cases c db with ⟨-, hdb, -⟩ | ⟨hdb, -⟩ | ⟨_, db', -, -, hacc, hset⟩ | ⟨_, db', -, -, -, hacc, -, hset⟩
  · rw [hdb]
    exact h.2
  · rw [hdb]
    exact h.2
  · rw [getCoins_accounts hacc, isSome_setCoins hset]
    exact h.2
  · rw [getCoins_accounts hacc, isSome_setCoins hset]
    exact h.2

theorem getCoins_of_open {a : Account} {db : Database} {type : UInt8} (h : Open a db type) :
    (a.getCoins ⟨false, false, false⟩ db type).1.toNat = stored db a.id type := by
  obtain ⟨hl, hc⟩ := h
  obtain ⟨coins, hc⟩ := Option.isSome_iff_exists.mp hc
  simp [Account.getCoins, hl, hc, stored]

section
variable {a : Account} {db : Database} {type : UInt8} {amount : UInt32} (h : Open a db type)
include h

/-- Where no query fails, coins that fit are added, to one account. -/
theorem stored_addCoins (hfits : stored db a.id type + amount.toNat < 2 ^ 32) (detail : String) (id : UInt32)
    (type' : UInt8) : stored (a.addCoins ⟨false, false, false⟩ db type amount detail).2 id type' =
      stored db id type' + if a.id = id ∧ type = type' then amount.toNat else 0 := by
  obtain ⟨hl, hc⟩ := h
  obtain ⟨coins, hc⟩ := Option.isSome_iff_exists.mp hc
  by_cases hz : amount = 0
  · simp [addCoins, hl, hz]
  · obtain ⟨db', hset⟩ := setCoins_succeeds hc (coins + amount)
    have hacc : (a.addCoins ⟨false, false, false⟩ db type amount detail).2.accounts = db'.accounts := by
      simp [addCoins, Account.getCoins, hl, hz, hc, hset]
    rw [stored_congr hacc, stored_setCoins hc hset]
    rw [stored_eq hc] at hfits
    split_ifs with hkey
    · obtain ⟨rfl, rfl⟩ := hkey
      rw [UInt32.toNat_add, Nat.mod_eq_of_lt hfits, stored_eq hc]
    · rfl

/-- Where no query fails, coins that are there are removed, from one account. -/
theorem stored_removeCoins (hle : amount.toNat ≤ stored db a.id type) (detail : String) (id : UInt32)
    (type' : UInt8) : stored (a.removeCoins ⟨false, false, false⟩ db type amount detail).2 id type' +
      (if a.id = id ∧ type = type' then amount.toNat else 0) = stored db id type' := by
  obtain ⟨hl, hc⟩ := h
  obtain ⟨coins, hc⟩ := Option.isSome_iff_exists.mp hc
  by_cases hz : amount = 0
  · simp [removeCoins, hl, hz]
  · rw [stored_eq hc] at hle
    have hle' : amount ≤ coins := UInt32.le_iff_toNat_le.mpr hle
    have hlt : ¬coins < amount := UInt32.not_lt.mpr hle'
    obtain ⟨db', hset⟩ := setCoins_succeeds hc (coins - amount)
    have hacc : (a.removeCoins ⟨false, false, false⟩ db type amount detail).2.accounts = db'.accounts := by
      simp [removeCoins, Account.getCoins, hl, hz, hc, hset, hlt]
    rw [stored_congr hacc, stored_setCoins hc hset]
    split_ifs with hkey
    · obtain ⟨rfl, rfl⟩ := hkey
      rw [UInt32.toNat_sub_of_le _ _ hle', stored_eq hc]
      omega
    · rfl

end

/-! ### Runs -/

@[simp] theorem total_cons (kind : CoinTransactionType) (id : UInt32) (type : UInt8) (r : Call × AccountErrors_t)
    (returned : List (Call × AccountErrors_t)) :
    total kind id type (r :: returned) = counted kind id type r + total kind id type returned := rfl

theorem Bounded.step {db : Database} {s : State} (h : Bounded db s) (c : Call) : Bounded db (s.step c) := by
  intro id type
  have hb := h id type
  have hs := (stored_step s c).1 id type
  simp only [State.step, total_cons] at hs ⊢
  omega

theorem Exact.step_iff {db : Database} {s : State} (h : Exact db s) (c : Call) : Exact db (s.step c) ↔ Fits s c := by
  rw [← (stored_step s c).2]
  refine forall₂_congr fun id type => ?_
  have he := h id type
  simp only [State.step, total_cons]
  omega

/-- Coins that were lost are not found again. -/
theorem Exact.of_step {db : Database} {s : State} (hb : Bounded db s) {c : Call} (h : Exact db (s.step c)) :
    Exact db s := by
  intro id type
  have he := h id type
  have hle := hb id type
  have hs := (stored_step s c).1 id type
  simp only [State.step, total_cons] at he hs
  omega

/-- In a run of calls every account holds what it held before, with the amounts that were added and without those
that were removed, and a call that returns an error does nothing; both hold exactly where each addition fits. -/
theorem coins_exact_iff (db : Database) (ops : List Call) :
    (Exact db (run State.step ⟨db, []⟩ ops) ∧
      ∀ xs c ys, ops = xs ++ c :: ys → Inert (run State.step ⟨db, []⟩ xs) c) ↔
    Meets State.step Fits ⟨db, []⟩ ops := by
  have hiff : Meets State.step Fits ⟨db, []⟩ ops ↔ Exact db (run State.step ⟨db, []⟩ ops) :=
    meets_iff_run (Bounded db) (Exact db) (fun _ c h => h.step c) (fun _ c _ h => h.step_iff c)
      (fun _ _ hb h => Exact.of_step hb h) (fun _ _ => Nat.le_refl _) fun _ _ => rfl
  rw [hiff]
  exact and_iff_left fun xs c _ _ => inert _ c

/-- A row with the largest number of coins, and one coin added to it. -/
def full : Database := ⟨fun _ => some fun _ => 4294967295, []⟩

def oneMore : Call := ⟨⟨1, true⟩, .Add, 3, 1, "", ⟨false, false, false⟩⟩

/-- The coin is reported as added and all coins of the account are gone. -/
theorem coins_not_exact_full :
    ¬(Exact full (run State.step ⟨full, []⟩ [oneMore]) ∧
      ∀ xs c ys, [oneMore] = xs ++ c :: ys → Inert (run State.step ⟨full, []⟩ xs) c) := by
  rintro ⟨h, -⟩
  have h13 := h 1 3
  revert h13
  decide

end CrystalServer.Account

/-! ## Premium

The days are added to the count of the last `updatePremiumTime`. While this is still the number of whole days left, the end of
the premium moves by exactly the days bought. -/

namespace CrystalServer.Account.AccountInfo

variable {a : AccountInfo} {now : Int} {days : Int32}

/-- The whole days from a time to the end of a premium. -/
def wholeDays (lastDay now : Int) : Nat := ((lastDay - now) / 86400).toNat

theorem setPremiumDays_of_pos (h : 0 < days) : a.setPremiumDays now days =
    { a with premiumRemainingDays := days.toUInt32, premiumLastDay := now + (days * 86400).toInt } := by
  unfold setPremiumDays
  dsimp only
  rw [if_neg (Int32.not_le.mpr h)]

theorem setPremiumDays_zero : a.setPremiumDays now 0 = { a with premiumRemainingDays := 0, premiumLastDay := 0 } := rfl

theorem premiumLastDay_updatePremiumTime :
    (a.updatePremiumTime now).premiumLastDay = a.premiumLastDay ∨ (a.updatePremiumTime now).premiumLastDay = 0 := by
  unfold updatePremiumTime
  dsimp only
  by_cases hend : a.premiumLastDay < now ∨ a.premiumLastDay = 0
  · rw [if_pos hend]
    exact .inr rfl
  · rw [if_neg hend]
    by_cases hboth : Int32.ofInt ((a.premiumLastDay - now).tdiv 86400) = 0 ∧ (a.premiumLastDay - now).tmod 86400 = 0
    · rw [if_pos hboth]
      exact .inr rfl
    · rw [if_neg hboth]
      exact .inl rfl

theorem wholeDays_of_le {lastDay : Int} (h : lastDay ≤ now) : wholeDays lastDay now = 0 :=
  Int.toNat_eq_zero.mpr (Int.ediv_nonpos_of_nonpos_of_neg (by omega) (by decide))

/-- The count that `updatePremiumTime` leaves is that of the whole days left. -/
theorem remainingDays_updatePremiumTime (hnow : 0 ≤ now) (h : (a.premiumLastDay - now) / 86400 < 2 ^ 31) :
    (a.updatePremiumTime now).premiumRemainingDays.toNat = wholeDays (a.updatePremiumTime now).premiumLastDay now := by
  have hzero : ∀ a : AccountInfo, (a.setPremiumDays now 0).premiumRemainingDays.toNat =
      wholeDays (a.setPremiumDays now 0).premiumLastDay now := fun a => (wholeDays_of_le hnow).symm
  unfold updatePremiumTime
  dsimp only
  by_cases hend : a.premiumLastDay < now ∨ a.premiumLastDay = 0
  · rw [if_pos hend]
    exact hzero _
  · rw [if_neg hend]
    obtain ⟨hlast, -⟩ := not_or.mp hend
    have hq : 0 ≤ (a.premiumLastDay - now) / 86400 := Int.ediv_nonneg (by omega) (by decide)
    rw [Int.tdiv_eq_ediv_of_nonneg (by omega)]
    have hint : (Int32.ofInt ((a.premiumLastDay - now) / 86400)).toInt = (a.premiumLastDay - now) / 86400 :=
      Int32.toInt_ofInt_of_le (by omega) (by omega)
    by_cases hboth : Int32.ofInt ((a.premiumLastDay - now) / 86400) = 0 ∧ (a.premiumLastDay - now).tmod 86400 = 0
    · rw [if_pos hboth]
      exact hzero _
    · rw [if_neg hboth]
      show _ = ((a.premiumLastDay - now) / 86400).toNat
      generalize (a.premiumLastDay - now) / 86400 = q at hint hq
      by_cases hpos : 0 < Int32.ofInt q
      · rw [if_pos hpos, Int32.toNat_toUInt32_of_le (Int32.le_of_lt hpos), Int32.toNatClampNeg, hint]
      · rw [if_neg hpos, UInt32.toNat_zero]
        have := mt Int32.lt_iff_toInt_lt.mpr hpos
        rw [Int32.toInt_zero, hint] at this
        omega

/-- What `addPremiumDays` makes of the end of a premium: it counts from now on, with the days of the record. -/
theorem premiumLastDay_addPremiumDays (now : Int) (hdays : 0 < days)
    (hfits : (a.premiumRemainingDays.toNat + days.toInt) * 86400 < 2 ^ 31) :
    (a.addPremiumDays now now days).premiumLastDay =
      now + (a.premiumRemainingDays.toNat + days.toInt) * 86400 + max 0 ((a.premiumLastDay - now).tmod 86400) := by
  have hpos : 0 < days.toInt := Int32.lt_iff_toInt_lt.mp hdays
  have hsum : (a.premiumRemainingDays + days.toUInt32).toInt32.toInt = a.premiumRemainingDays.toNat + days.toInt := by
    rw [UInt32.toInt32_add, Int32.toInt_add, Lib.toInt_toInt32_of_lt (by omega), Int32.toInt32_toUInt32]
    exact Int.bmod_eq_of_le (by omega) (by omega)
  have hmul : ((a.premiumRemainingDays + days.toUInt32).toInt32 * 86400).toInt =
      (a.premiumRemainingDays.toNat + days.toInt) * 86400 := by
    rw [Int32.toInt_mul, hsum]
    exact Int.bmod_eq_of_le (show _ ≤ (a.premiumRemainingDays.toNat + days.toInt) * 86400 by omega)
      (show (a.premiumRemainingDays.toNat + days.toInt) * 86400 < _ by omega)
  have hset : 0 < (a.premiumRemainingDays + days.toUInt32).toInt32 := by
    rw [Int32.lt_iff_toInt_lt, hsum, Int32.toInt_zero]
    omega
  unfold addPremiumDays
  dsimp only
  rw [setPremiumDays_of_pos hset, hmul]
  by_cases hleft : max 0 ((a.premiumLastDay - now).tmod 86400) > 0
  · rw [if_pos hleft]
  · rw [if_neg hleft]
    dsimp only
    omega

theorem getPremiumRemainingDays_of_le (h : a.premiumLastDay ≤ now) : a.getPremiumRemainingDays now = 0 := by
  have hnot : ¬a.premiumLastDay > now := by omega
  unfold getPremiumRemainingDays
  dsimp only
  rw [if_neg fun hand => hnot hand.2, if_neg hnot]

/-- The last day counts as one. -/
theorem getPremiumRemainingDays_of_lt (h : now < a.premiumLastDay) (hfits : (a.premiumLastDay - now) / 86400 < 2 ^ 32) :
    (a.getPremiumRemainingDays now).toNat = max 1 (wholeDays a.premiumLastDay now) := by
  have hq : 0 ≤ (a.premiumLastDay - now) / 86400 := Int.ediv_nonneg (by omega) (by decide)
  unfold getPremiumRemainingDays wholeDays
  dsimp only
  rw [Int.tdiv_eq_ediv_of_nonneg (by omega)]
  generalize (a.premiumLastDay - now) / 86400 = q at hq hfits
  obtain ⟨n, rfl⟩ := Int.eq_ofNat_of_zero_le hq
  have hn : (UInt32.ofInt n).toNat = n := Lib.toNat_ofInt_natCast_of_lt (by exact_mod_cast hfits)
  by_cases hz : UInt32.ofInt n = 0
  · rw [if_pos ⟨hz, h⟩]
    rw [hz, UInt32.toNat_zero] at hn
    simp [← hn]
  · rw [if_neg fun hand => hz hand.1, if_pos h, hn]
    have : n ≠ 0 := by
      rintro rfl
      exact hz rfl
    simp
    omega

/-- Whole days and a part of one more. -/
theorem getPremiumRemainingDays_of_eq {d r : Int} (h : a.premiumLastDay = now + d * 86400 + r) (hd : 0 < d)
    (hfits : d * 86400 < 2 ^ 31) (hr : 0 ≤ r) (hr' : r < 86400) : (a.getPremiumRemainingDays now).toNat = d := by
  have hdiv : (a.premiumLastDay - now) / 86400 = d := by omega
  rw [getPremiumRemainingDays_of_lt (by omega) (by omega), wholeDays, hdiv]
  omega

/-- While the count of the last update is that of the whole days left, bought days extend the premium by exactly
    themselves. What is left of a day shows as one day, but does not add to those bought. -/
theorem addPremiumDays_exact (a : AccountInfo) (t₀ t₁ : Int) (days : Int32) (ht₀ : 0 ≤ t₀)
    (hdays : 0 < days) (hfits : (wholeDays a.premiumLastDay t₀ + days.toInt) * 86400 < 2 ^ 31)
    (hcount : wholeDays (a.updatePremiumTime t₀).premiumLastDay t₁ = wholeDays (a.updatePremiumTime t₀).premiumLastDay t₀) :
    let a := a.updatePremiumTime t₀
    let after := a.addPremiumDays t₁ t₁ days
    let lastDay := t₁ < a.premiumLastDay ∧ a.premiumLastDay < t₁ + 86400
    (t₁ < a.premiumLastDay → after.premiumLastDay = a.premiumLastDay + days.toInt * 86400) ∧
      (a.premiumLastDay ≤ t₁ → after.premiumLastDay = t₁ + days.toInt * 86400) ∧
      (¬lastDay → (after.getPremiumRemainingDays t₁).toNat = (a.getPremiumRemainingDays t₁).toNat + days.toInt) ∧
      (lastDay → (after.getPremiumRemainingDays t₁).toNat = days.toInt) := by
  have hq : (a.premiumLastDay - t₀) / 86400 < 2 ^ 31 := by
    have hpos := Int32.lt_iff_toInt_lt.mp hdays
    rw [Int32.toInt_zero] at hpos
    unfold wholeDays at hfits
    omega
  have hupdated := remainingDays_updatePremiumTime ht₀ hq
  have hfits' : ((a.updatePremiumTime t₀).premiumRemainingDays.toNat + days.toInt) * 86400 < 2 ^ 31 := by
    rw [hupdated]
    rcases @premiumLastDay_updatePremiumTime a t₀ with h | h
    · rwa [h]
    · rw [h, wholeDays_of_le ht₀]
      omega
  rw [← hcount] at hupdated
  dsimp only
  generalize a.updatePremiumTime t₀ = u at hcount hupdated hfits'
  have hpos : 0 < days.toInt := Int32.lt_iff_toInt_lt.mp hdays
  have hafter := premiumLastDay_addPremiumDays t₁ hdays hfits'
  rw [hupdated] at hafter hfits'
  rcases Int.lt_or_le t₁ u.premiumLastDay with hrun | hend
  · obtain ⟨r, hr, hr', heq⟩ : ∃ r, 0 ≤ r ∧ r < 86400 ∧
        u.premiumLastDay = t₁ + (wholeDays u.premiumLastDay t₁ : Int) * 86400 + r := by
      refine ⟨(u.premiumLastDay - t₁) % 86400, Int.emod_nonneg _ (by decide), Int.emod_lt_of_pos _ (by decide), ?_⟩
      unfold wholeDays
      omega
    have hmod : (u.premiumLastDay - t₁).tmod 86400 = r := by
      rw [Int.tmod_eq_emod_of_nonneg (by omega)]
      omega
    rw [hmod, max_eq_right hr] at hafter
    have hdays' := getPremiumRemainingDays_of_eq hafter (by omega) hfits' hr hr'
    have hbefore := getPremiumRemainingDays_of_lt hrun (by omega)
    refine ⟨fun _ => by omega, fun hle => absurd hle (Int.not_le.mpr hrun), fun hnot => ?_, fun hlast => ?_⟩
    · omega
    · omega
  · have hw := wholeDays_of_le hend
    have hmod : max 0 ((u.premiumLastDay - t₁).tmod 86400) = 0 := by
      have hneg : (u.premiumLastDay - t₁).tmod 86400 = -(t₁ - u.premiumLastDay).tmod 86400 := by
        rw [← Int.neg_tmod, Int.neg_sub]
      have := Int.tmod_nonneg 86400 (show 0 ≤ t₁ - u.premiumLastDay by omega)
      omega
    rw [hmod, hw] at hafter
    have hdays' := getPremiumRemainingDays_of_eq hafter (by omega) (by omega) le_rfl (by decide)
    have hbefore := getPremiumRemainingDays_of_le hend
    rw [hbefore, UInt32.toNat_zero]
    refine ⟨fun hlt => absurd hlt (Int.not_lt.mpr hend), fun _ => by omega, fun _ => by omega, fun hlast => by omega⟩

/-- Thirty days for a premium with ten and a half days left, some hours after the update. -/
theorem addPremiumDays_exact_thirty :
    let a := AccountInfo.updatePremiumTime ⟨10, 2000000, 10⟩ 1092800
    let after := a.addPremiumDays 1100000 1100000 30
    after.premiumLastDay = a.premiumLastDay + 30 * 86400 ∧
      (after.getPremiumRemainingDays 1100000).toNat = (a.getPremiumRemainingDays 1100000).toNat + (30 : Int) := by
  have h := addPremiumDays_exact ⟨10, 2000000, 10⟩ 1092800 1100000 30 (by decide) (by decide) (by decide) (by decide)
  exact ⟨h.1 (by decide), h.2.2.1 (by decide)⟩

/-- With less than a day left, thirty more days show as thirty, not as one more. -/
theorem not_addPremiumDays_exact : ¬∀ (a : AccountInfo) (t₀ t₁ : Int) (days : Int32), 0 ≤ t₀ → t₀ ≤ t₁ → 0 < days →
    (wholeDays a.premiumLastDay t₀ + days.toInt) * 86400 < 2 ^ 31 →
    let a := a.updatePremiumTime t₀
    let after := a.addPremiumDays t₁ t₁ days
    (t₁ < a.premiumLastDay → after.premiumLastDay = a.premiumLastDay + days.toInt * 86400) ∧
      (a.premiumLastDay ≤ t₁ → after.premiumLastDay = t₁ + days.toInt * 86400) ∧
      (after.getPremiumRemainingDays t₁).toNat = (a.getPremiumRemainingDays t₁).toNat + days.toInt := by
  intro h
  obtain ⟨-, -, hshown⟩ := h ⟨0, 1000100, 0⟩ 1000000 1000000 30 (by decide) (by decide) (by decide) (by decide)
  exact absurd hshown (by decide)

end CrystalServer.Account.AccountInfo
