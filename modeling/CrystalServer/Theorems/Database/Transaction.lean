import CrystalServer.Database.Database

/-! # Statements in effect

What a transaction undoes, and what `DBInsert` sends. -/

/-! ## When a transaction is atomic

The statements of a callable are executed before its transaction begins, so each of them that succeeds is in effect at once,
whatever comes of the callable. -/

namespace CrystalServer.Database
variable {σ : Type*}

/-- Either every statement that the callable executed is in effect and `true` is returned, or none of them is and `false`
is returned or an exception thrown. -/
def Atomic (toBeExecuted : Callable σ) (db : Connection σ) : Prop :=
  match DBTransaction.executeWithinTransaction toBeExecuted db with
  | (result, executed, after) =>
    (after.committed = db.committed ++ executed.map Prod.fst ∧ result = .ok true) ∨
      (after.committed = db.committed ∧ result ≠ .ok true)

/-- A callable that returns had no statement fail, and one that throws had none succeed. -/
def Clean (toBeExecuted : Callable σ) (db : Connection σ) : Prop :=
  match toBeExecuted.call db with
  | (.ok _, executed, _) => ∀ e ∈ executed, e.2 = true
  | (.error _, executed, _) => ∀ e ∈ executed, e.2 = false

/-- The statements that succeeded. -/
def succeeded (executed : List (σ × Bool)) : List σ := (executed.filter Prod.snd).map Prod.fst

variable {db : Connection σ} {executed : List (σ × Bool)}

theorem succeeded_eq_all_iff : succeeded executed = executed.map Prod.fst ↔ ∀ e ∈ executed, e.2 = true := by
  constructor
  · intro h
    have hlength : (executed.filter Prod.snd).length = executed.length := by
      simpa [succeeded] using congrArg List.length h
    exact List.length_filter_eq_length_iff.mp hlength
  · intro h
    rw [succeeded, List.filter_eq_self.mpr h]

theorem succeeded_eq_nil_iff : succeeded executed = [] ↔ ∀ e ∈ executed, e.2 = false := by
  simp [succeeded, List.filter_eq_nil_iff]

/-! ### Outside of a transaction -/

/-- A statement that succeeds outside of a transaction is in effect, and no transaction is open after it. -/
theorem retryQuery_statement (retries : Nat) (h : db.transaction = none) (q : σ) :
    (retryQuery db (.statement q) retries).2.transaction = none ∧
      (retryQuery db (.statement q) retries).2.committed =
        db.committed ++ if (retryQuery db (.statement q) retries).1 then [q] else [] := by
  induction retries generalizing db with
  | zero => simp [retryQuery, h]
  | succ retries ih =>
    unfold retryQuery mysql_query
    dsimp only
    cases db.answers db.requests with
    | done => simp [Connection.take, h]
    | recoverable => exact ih h
    | refused => simp [h]

/-- What a callable leaves: the statements that succeeded are in effect. -/
theorem call_spec (c : Callable σ) (h : db.transaction = none) :
    (c.call db).2.2.transaction = none ∧ (c.call db).2.2.committed = db.committed ++ succeeded (c.call db).2.1 := by
  induction c generalizing db with
  | «return» b => simp [Callable.call, succeeded, h]
  | throw message => simp [Callable.call, succeeded, h]
  | executeQuery q next ih =>
    obtain ⟨hopen, hcommitted⟩ := retryQuery_statement 10 h q
    obtain ⟨hopen', hcommitted'⟩ := ih (retryQuery db (.statement q) 10).1 hopen
    have hexecuted : (Callable.call (.executeQuery q next) db).2.1 = (q, (retryQuery db (.statement q) 10).1) ::
        ((next (retryQuery db (.statement q) 10).1).call (retryQuery db (.statement q) 10).2).2.1 := rfl
    refine ⟨hopen', hcommitted'.trans ?_⟩
    rw [hcommitted, hexecuted, List.append_assoc]
    refine congrArg (db.committed ++ ·) ?_
    generalize ((next (retryQuery db (.statement q) 10).1).call (retryQuery db (.statement q) 10).2).2.1 = rest
    cases (retryQuery db (.statement q) 10).1 <;> simp [succeeded]

/-- `BEGIN` leaves the statements in effect, and opens nothing or an empty transaction. -/
theorem retryQuery_begin (retries : Nat) (h : db.transaction = none) :
    (retryQuery db .begin retries).2.committed = db.committed ∧
      (retryQuery db .begin retries).2.transaction.getD [] = [] := by
  induction retries generalizing db with
  | zero => simp [retryQuery, h]
  | succ retries ih =>
    unfold retryQuery mysql_query
    dsimp only
    cases db.answers db.requests with
    | done => simp [Connection.take, h]
    | recoverable => exact ih h
    | refused => simp [h]

/-- A transaction with nothing in it changes nothing. -/
theorem commit_begin (h : db.transaction = none) :
    (DBTransaction.begin ⟨.STATE_NO_START, db⟩).2.commit.db.committed = db.committed := by
  obtain ⟨hcommitted, hopen⟩ := retryQuery_begin 10 h
  unfold DBTransaction.begin DBTransaction.commit Database.commit beginTransaction executeQuery
  simp only [ne_eq, not_true_eq_false, if_false]
  split_ifs
  · simp [hcommitted, hopen]
  · exact hcommitted

/-- What the transaction leaves, whatever the callable does. -/
theorem executeWithinTransaction_committed (c : Callable σ) (h : db.transaction = none) :
    (DBTransaction.executeWithinTransaction c db).2.2.committed = db.committed ++ succeeded (c.call db).2.1 := by
  obtain ⟨hopen, hcommitted⟩ := call_spec c h
  unfold DBTransaction.executeWithinTransaction
  rcases hcall : c.call db with ⟨result, executed, after⟩
  rw [hcall] at hopen hcommitted
  cases result with
  | error message => exact hcommitted
  | ok changesExpected =>
    cases changesExpected
    · exact hcommitted
    · exact (commit_begin hopen).trans hcommitted

/-- A transaction is atomic exactly if its callable returns with every statement done, or throws with none done. -/
theorem atomic_iff (toBeExecuted : Callable σ) (db : Connection σ) (h : db.transaction = none) :
    Atomic toBeExecuted db ↔ Clean toBeExecuted db := by
  have hcommitted := executeWithinTransaction_committed toBeExecuted h
  unfold Atomic Clean
  unfold DBTransaction.executeWithinTransaction at hcommitted ⊢
  rcases hcall : toBeExecuted.call db with ⟨result, executed, after⟩
  rw [hcall] at hcommitted
  cases result with
  | error message =>
    dsimp only at hcommitted ⊢
    rw [hcommitted, ← succeeded_eq_nil_iff]
    simp
  | ok changesExpected =>
    dsimp only at hcommitted ⊢
    rw [← succeeded_eq_all_iff]
    cases changesExpected
    · simp only [Bool.false_eq_true, if_false] at hcommitted ⊢
      rw [hcommitted]
      simp
    · simp only [if_true] at hcommitted ⊢
      rw [hcommitted]
      simp

/-- A server that refuses its `n`-th request and no other. -/
def refusing (n : Nat) : Connection String :=
  ⟨[], none, fun request => if request = n then .refused else .done, 0, 1048576⟩

theorem atomic_iff_stash :
    Atomic (IOLoginData.savePhase ["DELETE FROM `player_stash`", "INSERT INTO `player_stash`"]) (refusing 7) := by
  refine (atomic_iff _ (refusing 7) rfl).mpr ?_
  intro e he
  rcases List.mem_cons.mp he with rfl | he
  · rfl
  · obtain rfl := List.mem_singleton.mp he
    rfl

/-- The phase of the items fails between its two statements: the save fails, the old items are gone and the new ones are
not written. -/
theorem not_atomic_items :
    let items := IOLoginData.savePhase ["DELETE FROM `player_items`", "INSERT INTO `player_items`"]
    let phases := [(items, "Failed to save player item")]
    (IOLoginData.savePlayer phases (refusing 1)).1 = false ∧
      (IOLoginData.savePlayer phases (refusing 1)).2.committed = ["DELETE FROM `player_items`"] ∧
      ¬Atomic (IOLoginData.savePlayerGuard phases) (refusing 1) := by
  refine ⟨rfl, rfl, ?_⟩
  rintro (⟨-, h⟩ | ⟨h, -⟩)
  · cases h
  · cases h

end CrystalServer.Database

/-! ## Rows are never sent once

Neither `execute` nor the flush of `addRow` clears the rows that it has sent, so what was sent is sent again. -/

namespace CrystalServer.Database

/-- A connection outside of a transaction, to a server that refuses nothing. -/
structure Connection.Willing {σ : Type*} (db : Connection σ) : Prop where
  transaction : db.transaction = none
  answers : ∀ n, db.answers n = .done

namespace DBInsert

/-- A row in its parentheses. -/
def parenthesised (row : List UInt8) : List UInt8 := opening :: row ++ [closing]

/-- The rows are added and sent by `execute`: what the server gets are statements of whole rows, not empty, which
together are the rows in order, and a second `execute` sends nothing more. -/
def WritesOnce (insertQuery : List UInt8) (columns rows : List (List UInt8)) (db : Connection (List UInt8)) : Prop :=
  match ((make insertQuery).upsert columns).addRows rows db with
  | (insert, added) =>
    (∃ batches : List (List (List UInt8)), (∀ batch ∈ batches, batch ≠ []) ∧
      (insert.execute added).2.committed = db.committed ++ batches.map (fun batch =>
        insert.statement (List.intercalate [comma] (batch.map parenthesised))) ∧ batches.flatten = rows) ∧
    (insert.execute (insert.execute added).2).2.committed = (insert.execute added).2.committed

/-- The text is too long for one statement, and no end of a row is found to cut it at. -/
def Stuck (insert : DBInsert) (values : List UInt8) : Prop :=
  insert.cutPos < values.length ∧ rfind values separator insert.cutPos = none

variable {insert : DBInsert} {db : Connection (List UInt8)} {str values row : List UInt8}

/-! ### Searching -/

theorem rfind_eq_none_iff {needle : List UInt8} {pos : Nat} :
    rfind str needle pos = none ↔ ∀ i ≤ pos, ¬needle <+: str.drop i := by
  induction pos with
  | zero => simp [rfind]
  | succ pos ih =>
    unfold rfind
    split_ifs with h
    · exact iff_of_false nofun fun hall => hall (pos + 1) le_rfl h
    · rw [ih]
      constructor
      · intro hall i hi
        rcases Nat.le_succ_iff.mp hi with hi | rfl
        · exact hall i hi
        · exact h
      · exact fun hall i hi => hall i (Nat.le_succ_of_le hi)

theorem rfind_isSome {needle : List UInt8} {pos i : Nat} (hi : i ≤ pos) (h : needle <+: str.drop i) :
    rfind str needle pos ≠ none := fun hn => rfind_eq_none_iff.mp hn i hi h

/-- What is found stays to be found when text is added behind. -/
theorem rfind_mono {needle longer : List UInt8} {pos : Nat} (h : rfind str needle pos ≠ none) (hl : str <+: longer) :
    rfind longer needle pos ≠ none := by
  obtain ⟨tail, rfl⟩ := hl
  intro hn
  refine h (rfind_eq_none_iff.mpr fun i hi hfound => rfind_eq_none_iff.mp hn i hi ?_)
  rw [List.drop_append]
  exact hfound.trans (List.prefix_append _ _)

/-! ### What is sent -/

theorem executeQuery_willing {σ : Type*} {db : Connection σ} (h : db.Willing) (q : σ) :
    ∃ db', executeQuery db (.statement q) = (true, db') ∧ db'.Willing ∧ db'.committed = db.committed ++ [q] := by
  unfold executeQuery retryQuery mysql_query
  dsimp only
  rw [h.answers]
  simp only [if_true, Connection.take, h.transaction]
  exact ⟨_, rfl, ⟨rfl, h.answers⟩, rfl⟩

theorem sendBatches_willing (insert : DBInsert) (rounds : Nat) (values : List UInt8) (h : db.Willing) :
    (insert.sendBatches rounds values db).2.Willing ∧
      db.committed <+: (insert.sendBatches rounds values db).2.committed := by
  induction rounds generalizing values db with
  | zero => exact ⟨h, List.prefix_refl _⟩
  | succ rounds ih =>
    rw [sendBatches]
    by_cases hne : values = []
    · rw [if_pos hne]
      exact ⟨h, List.prefix_refl _⟩
    · rw [if_neg hne]
      cases insert.cut values with
      | none => exact ⟨h, List.prefix_refl _⟩
      | some cutPos =>
        obtain ⟨db', hdb', hwilling, hcommitted⟩ := executeQuery_willing h (insert.statement
          (if (values.take cutPos).getLast? = some comma then (values.take cutPos).dropLast else values.take cutPos))
        dsimp only
        rw [hdb']
        obtain ⟨hwilling', hprefix⟩ := ih (values.drop cutPos) hwilling
        refine ⟨hwilling', List.IsPrefix.trans ?_ hprefix⟩
        rw [hcommitted]
        exact List.prefix_append _ _

/-- There is a place to cut unless the text is stuck. -/
theorem cut_eq_none_iff : insert.cut values = none ↔ Stuck insert values := by
  unfold cut Stuck
  split_ifs with hlt
  · simp [hlt]
  · simp [hlt]

theorem cut_of_le (h : values.length ≤ insert.cutPos) : insert.cut values = some values.length :=
  if_neg (Nat.not_lt.mpr h)

/-- Text that can be sent is sent, at least in part; text that fits into one statement is sent whole. -/
theorem sendBatches_sends (hne : values ≠ []) (hs : ¬Stuck insert values) (h : db.Willing) :
    (insert.sendBatches values.length values db).2.committed ≠ db.committed ∧
      (values.length ≤ insert.cutPos → (insert.sendBatches values.length values db).1 = true) := by
  obtain ⟨n, hn⟩ := Nat.exists_eq_succ_of_ne_zero (mt List.length_eq_zero_iff.mp hne)
  cases hcut : insert.cut values with
  | none => exact absurd (cut_eq_none_iff.mp hcut) hs
  | some cutPos =>
    obtain ⟨db', hdb', hwilling, hcommitted⟩ := executeQuery_willing h (insert.statement
      (if (values.take cutPos).getLast? = some comma then (values.take cutPos).dropLast else values.take cutPos))
    rw [hn, sendBatches, if_neg hne, hcut]
    dsimp only
    rw [hdb']
    dsimp only
    constructor
    · intro heq
      have hlength := (sendBatches_willing insert n (values.drop cutPos) hwilling).2.length_le
      rw [heq, hcommitted, List.length_append, List.length_singleton] at hlength
      omega
    · intro hle
      rw [cut_of_le (hn ▸ hle)] at hcut
      rw [← Option.some.inj hcut, List.drop_length]
      cases n with
      | zero => rfl
      | succ n => rfl

theorem execute_stuck (h : Stuck insert insert.values) : insert.execute db = (false, db) := by
  have hne : insert.values ≠ [] := List.ne_nil_of_length_pos (Nat.zero_lt_of_lt h.1)
  obtain ⟨n, hn⟩ := Nat.exists_eq_succ_of_ne_zero (mt List.length_eq_zero_iff.mp hne)
  unfold execute
  rw [if_neg hne, hn, sendBatches, if_neg hne, cut_eq_none_iff.mpr h]

theorem execute_willing (insert : DBInsert) (h : db.Willing) :
    (insert.execute db).2.Willing ∧ db.committed <+: (insert.execute db).2.committed := by
  unfold execute
  split_ifs
  · exact ⟨h, List.prefix_refl _⟩
  · exact sendBatches_willing insert _ _ h

/-! ### Adding rows -/

/-- Rows only grow, and end with a parenthesis. -/
theorem prefix_append (values row : List UInt8) : values <+: append values row := by
  unfold append
  split_ifs with h
  · rw [h]
    exact List.nil_prefix
  · simp

theorem getLast?_append (values row : List UInt8) : (append values row).getLast? = some closing := by
  unfold append
  split_ifs
  · rw [List.getLast?_append]
    rfl
  · rw [List.getLast?_append]
    rfl

/-- Once rows that were sent have others behind them, there is a place to cut. -/
theorem not_stuck_append (hne : values ≠ []) (hlast : values.getLast? = some closing) (hs : ¬Stuck insert values)
    {longer : List UInt8} (hl : append values row <+: longer) : ¬Stuck insert longer := by
  rintro ⟨-, hnone⟩
  by_cases hlt : insert.cutPos < values.length
  · exact rfind_mono (fun hnone => hs ⟨hlt, hnone⟩) ((prefix_append values row).trans hl) hnone
  · refine rfind_mono (rfind_isSome (i := values.length - 1) (by omega) ?_) hl hnone
    have hsplit := List.dropLast_append_getLast? closing hlast
    unfold append
    rw [if_neg hne]
    have hlength : values.length - 1 = values.dropLast.length := List.length_dropLast.symm
    rw [hlength]
    conv => rhs; rw [← hsplit]
    simp [separator]

/-- An `addRow` to a connection that refuses nothing: the rows grow, and if something was sent, what follows is not
stuck. -/
theorem addCounted_spec (hlast : insert.values ≠ [] → insert.values.getLast? = some closing) (row : List UInt8)
    (h : db.Willing) :
    ∃ insert' db', (insert.addCounted row db).2 = (insert', db') ∧ db'.Willing ∧ insert'.query = insert.query ∧
      insert'.upsertColumns = insert.upsertColumns ∧ insert.values <+: insert'.values ∧
      (insert'.values ≠ [] → insert'.values.getLast? = some closing) ∧ (insert.values = [] → insert'.values ≠ []) ∧
      (db'.committed = db.committed ∨ ∀ longer, insert'.values <+: longer → ¬Stuck insert longer) := by
  have hgrown : append insert.values row ≠ [] := fun hnil => by
    have hclosing := getLast?_append insert.values row
    rw [hnil] at hclosing
    cases hclosing
  have hends : append insert.values row ≠ [] → (append insert.values row).getLast? = some closing :=
    fun _ => getLast?_append ..
  have hprefix := prefix_append insert.values row
  unfold addCounted
  by_cases hlong : insert.length > db.maxPacketSize
  · rw [if_pos hlong]
    by_cases hempty : insert.values = []
    · have hexecute : insert.execute db = (true, db) := if_pos hempty
      rw [hexecute]
      exact ⟨_, _, rfl, h, rfl, rfl, hprefix, hends, fun _ => hgrown, Or.inl rfl⟩
    · by_cases hs : Stuck insert insert.values
      · rw [execute_stuck hs]
        exact ⟨_, _, rfl, h, rfl, rfl, List.prefix_refl _, hlast, fun h => absurd h hempty, Or.inl rfl⟩
      · have hexecute : insert.execute db = insert.sendBatches insert.values.length insert.values db := if_neg hempty
        obtain ⟨-, hwhole⟩ := sendBatches_sends hempty hs h
        obtain ⟨hwilling, -⟩ := sendBatches_willing insert insert.values.length insert.values h
        rw [hexecute]
        rcases hsent : insert.sendBatches insert.values.length insert.values db with ⟨success, db'⟩
        rw [hsent] at hwhole hwilling
        cases success with
        | true =>
          refine ⟨_, _, rfl, hwilling, rfl, rfl, hprefix, hends, fun _ => hgrown, Or.inr fun longer hl => ?_⟩
          exact not_stuck_append hempty (hlast hempty) hs hl
        | false =>
          -- The batch was too long, so it was cut: there is a separator.
          refine ⟨_, _, rfl, hwilling, rfl, rfl, List.prefix_refl _, hlast, fun h => absurd h hempty,
            Or.inr fun longer hl => ?_⟩
          have hlt : insert.cutPos < insert.values.length := Nat.lt_of_not_le fun hle => by cases hwhole hle
          rintro ⟨-, hnone⟩
          exact rfind_mono (fun hnone => hs ⟨hlt, hnone⟩) hl hnone
  · rw [if_neg hlong]
    exact ⟨_, _, rfl, h, rfl, rfl, hprefix, hends, fun _ => hgrown, Or.inl rfl⟩

theorem stuck_congr {insert insert' : DBInsert} (hq : insert'.query = insert.query)
    (hu : insert'.upsertColumns = insert.upsertColumns) : Stuck insert' values ↔ Stuck insert values := by
  have hcut : insert'.cutPos = insert.cutPos := by simp only [cutPos, upsertQuery, hq, hu]
  rw [Stuck, Stuck, hcut]

theorem addRows_spec (hlast : insert.values ≠ [] → insert.values.getLast? = some closing) (rows : List (List UInt8))
    (h : db.Willing) :
    ∃ insert' db', insert.addRows rows db = (insert', db') ∧ db'.Willing ∧ insert'.query = insert.query ∧
      insert'.upsertColumns = insert.upsertColumns ∧ insert.values <+: insert'.values ∧
      (insert.values = [] → rows ≠ [] → insert'.values ≠ []) ∧
      (db'.committed = db.committed ∨ ∀ longer, insert'.values <+: longer → ¬Stuck insert longer) := by
  induction rows generalizing insert db with
  | nil => exact ⟨insert, db, rfl, h, rfl, rfl, List.prefix_refl _, fun _ h => absurd rfl h, Or.inl rfl⟩
  | cons row rows ih =>
    have hcounted : ({ insert with length := insert.length + .ofNat row.length } : DBInsert).values ≠ [] →
        insert.values.getLast? = some closing := hlast
    obtain ⟨insert₁, db₁, hrow, hwilling₁, hq₁, hu₁, hprefix₁, hlast₁, hne₁, hsent₁⟩ := addCounted_spec hcounted row h
    obtain ⟨insert₂, db₂, hrows, hwilling₂, hq₂, hu₂, hprefix₂, -, hsent₂⟩ := ih hlast₁ hwilling₁
    refine ⟨insert₂, db₂, ?_, hwilling₂, hq₂.trans hq₁, hu₂.trans hu₁, hprefix₁.trans hprefix₂, ?_, ?_⟩
    · rw [addRows, List.foldl_cons, addRow, hrow]
      exact hrows
    · intro hempty _ hnil
      exact hne₁ hempty (List.prefix_nil.mp (hnil ▸ hprefix₂))
    · rcases hsent₁ with hsent₁ | hsent₁
      · rcases hsent₂ with hsent₂ | hsent₂
        · exact Or.inl (hsent₂.trans hsent₁)
        · exact Or.inr fun longer hl hs => hsent₂ longer hl ((stuck_congr hq₁ hu₁).mpr hs)
      · exact Or.inr fun longer hl => hsent₁ longer (hprefix₂.trans hl)

/-- Rows that are sent once would have to be stuck before, and then none of them was sent. -/
theorem eq_nil_of_writesOnce {insertQuery : List UInt8} {columns rows : List (List UInt8)} (h : db.Willing)
    (hw : WritesOnce insertQuery columns rows db) : rows = [] := by
  by_contra hrows
  have hlast : ((make insertQuery).upsert columns).values ≠ [] →
      ((make insertQuery).upsert columns).values.getLast? = some closing := fun hne => absurd rfl hne
  obtain ⟨insert, added, hadd, hwilling, hq, hu, -, hne, hsent⟩ := addRows_spec hlast rows h
  have hvalues := hne rfl hrows
  unfold WritesOnce at hw
  rw [hadd] at hw
  obtain ⟨⟨batches, -, hcommitted, rfl⟩, hagain⟩ := hw
  by_cases hs : Stuck insert insert.values
  · rw [execute_stuck hs] at hcommitted
    have hnothing : added.committed = db.committed :=
      hsent.resolve_right fun hcut => hcut _ (List.prefix_refl _) ((stuck_congr hq hu).mp hs)
    rw [hnothing] at hcommitted
    have hbatches : batches = [] := by simpa using hcommitted
    exact hrows (by rw [hbatches]; rfl)
  · obtain ⟨hwilling', -⟩ := execute_willing insert hwilling
    have hexecute : insert.execute (insert.execute added).2 =
        insert.sendBatches insert.values.length insert.values (insert.execute added).2 := if_neg hvalues
    rw [hexecute] at hagain
    exact (sendBatches_sends hvalues hs hwilling').1 hagain

/-- The rows of a `DBInsert` are each written exactly once only if there are none. -/
theorem writesOnce_iff (insertQuery : List UInt8) (columns rows : List (List UInt8)) (db : Connection (List UInt8))
    (h : db.Willing) : WritesOnce insertQuery columns rows db ↔ rows = [] := by
  constructor
  · exact eq_nil_of_writesOnce h
  · rintro rfl
    exact ⟨⟨[], nofun, (List.append_nil _).symm, rfl⟩, rfl⟩

/-- A server with the default packet size that refuses nothing. -/
def willing : Connection (List UInt8) := ⟨[], none, fun _ => .done, 0, 1048576⟩

theorem writesOnce_iff_none : WritesOnce "INSERT INTO `player_stash` VALUES".toUTF8.toList [] [] willing :=
  (writesOnce_iff _ [] [] willing ⟨rfl, fun _ => rfl⟩).mpr rfl

/-- The rows `1` and `2` of `I` are sent by the first `execute`, and again by the second. -/
theorem not_writesOnce_two : ¬WritesOnce [73] [] [[49], [50]] willing := by
  rintro ⟨-, hagain⟩
  exact absurd (congrArg List.length hagain) (by decide)

end DBInsert
end CrystalServer.Database
