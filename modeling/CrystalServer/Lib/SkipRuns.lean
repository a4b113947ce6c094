import Mathlib.Data.List.Basic

/-! # Squares in a row, and runs of empty ones

Squares are written one after the other, each with its things. A pair of a number and `0xFF` ends the things of a square
and says how many empty squares come next. A counter of the squares to be skipped is -1 where no square is open: at the
start, and behind a pair that the counter could not take any further. The reader asks for a second byte other than `0xFF`
in what is written of a thing. -/

namespace Lib.SkipRuns

section Reader
variable {ι : Type*} (read : List UInt8 → Option (ι × List UInt8))

/-- Things up to a pair, the number in the pair, and what is behind it. -/
def readThings : Nat → List UInt8 → Option (List ι × Nat × List UInt8)
  | 0, _ => none
  | n + 1, bytes =>
    if bytes[1]? = some 0xFF then some ([], (bytes.headD 0).toNat, bytes.drop 2)
    else do
      let thing ← read bytes
      let things ← readThings n thing.2
      some (thing.1 :: things.1, things.2)

/-- So many squares, the first `s` of them skipped, and what is left to skip and to read. -/
def readSquares : Nat → Nat → List UInt8 → Option (List (List ι) × Nat × List UInt8)
  | 0, s, bytes => some ([], s, bytes)
  | n + 1, s + 1, bytes => do
    let squares ← readSquares n s bytes
    some ([] :: squares.1, squares.2)
  | n + 1, 0, bytes => do
    let things ← readThings read bytes.length bytes
    let squares ← readSquares n things.2.1 things.2.2
    some (things.1 :: squares.1, squares.2)

end Reader

variable {β ι : Type*} (encode : β → List UInt8)

/-- The pair for a counter, where a square is open. -/
def pair (skip : Int) : List UInt8 := if skip ≥ 0 then [.ofInt skip, 0xFF] else []

/-- What is written of squares, from a counter on; a square that is `none` adds to the counter. -/
def write : Int → List (Option (List β)) → List UInt8
  | skip, [] => pair skip
  | skip, some things :: squares => pair skip ++ things.flatMap encode ++ write 0 squares
  | skip, none :: squares => if skip = 0xFE then [0xFF, 0xFF] ++ write (-1) squares else write (skip + 1) squares

variable {encode} {read : List UInt8 → Option (ι × List UInt8)} {shown : β → ι} {after : List UInt8}

/-- What the reader makes of a thing: its bytes are told apart from a pair and from what follows. -/
structure Readable (encode : β → List UInt8) (read : List UInt8 → Option (ι × List UInt8)) (shown : β → ι) (b : β) : Prop where
  read : ∀ rest, read (encode b ++ rest) = some (shown b, rest)
  second : ∃ first second rest, encode b = first :: second :: rest ∧ second ≠ 0xFF

theorem pair_natCast (k : Nat) : pair k = [.ofNat k, 0xFF] := by
  have hcast : UInt8.ofInt k = UInt8.ofNat k := by
    rw [← UInt8.toNat_inj, UInt8.ofInt, UInt8.toNat_ofNat', UInt8.toNat_ofNat']
    omega
  rw [pair, if_pos (Int.natCast_nonneg k), hcast]

theorem readThings_pair (n : Nat) (s : UInt8) (rest : List UInt8) :
    readThings read (n + 1) (s :: 0xFF :: rest) = some ([], s.toNat, rest) := by
  rw [readThings]
  simp

/-- The things of a square are read up to the pair. -/
theorem readThings_flatMap {things : List β} (h : ∀ b ∈ things, Readable encode read shown b) {n : Nat}
    (hn : things.length < n) (s : UInt8) (rest : List UInt8) :
    readThings read n (things.flatMap encode ++ s :: 0xFF :: rest) = some (things.map shown, s.toNat, rest) := by
  induction things generalizing n with
  | nil =>
    obtain ⟨n, rfl⟩ := Nat.exists_eq_succ_of_ne_zero (Nat.ne_of_gt hn)
    exact readThings_pair n s rest
  | cons b things ih =>
    obtain ⟨n, rfl⟩ := Nat.exists_eq_succ_of_ne_zero (Nat.ne_zero_of_lt hn)
    obtain ⟨hread, first, second, bytes, hbytes, hsecond⟩ := h b List.mem_cons_self
    have hnext := ih (fun c hc => h c (List.mem_cons_of_mem _ hc)) (Nat.lt_of_succ_lt_succ hn)
    have hnot : ¬((b :: things).flatMap encode ++ s :: 0xFF :: rest)[1]? = some 0xFF := by
      simp [hbytes, hsecond]
    rw [readThings, if_neg hnot, List.flatMap_cons, List.append_assoc, hread]
    simp [hnext]

theorem length_flatMap_le {things : List β} (h : ∀ b ∈ things, Readable encode read shown b) :
    things.length ≤ (things.flatMap encode).length := by
  induction things with
  | nil => exact Nat.zero_le _
  | cons b things ih =>
    obtain ⟨-, first, second, bytes, hbytes, -⟩ := h b List.mem_cons_self
    have hrest := ih fun c hc => h c (List.mem_cons_of_mem _ hc)
    rw [List.flatMap_cons, hbytes, List.length_append, List.length_cons, List.length_cons, List.length_cons]
    omega

/-- A square that is open or missing: its things, then the pair that `write` has for the squares behind it. -/
theorem readSquares_open {things : List β} (h : ∀ b ∈ things, Readable encode read shown b) {n : Nat} {s : UInt8}
    {rest : List UInt8} {squares : List (List ι) × Nat × List UInt8} (hrest : readSquares read n s.toNat rest = some squares) :
    readSquares read (n + 1) 0 (things.flatMap encode ++ s :: 0xFF :: rest) =
      some (things.map shown :: squares.1, squares.2) := by
  have hlen : things.length < (things.flatMap encode ++ s :: 0xFF :: rest).length := by
    have := length_flatMap_le h
    rw [List.length_append, List.length_cons]
    omega
  rw [readSquares, readThings_flatMap h hlen]
  simp [hrest]

/-- The squares that the reader is to find. -/
def found (shown : β → ι) (squares : List (Option (List β))) : List (List ι) :=
  squares.map fun square => (square.getD []).map shown

/-- Behind an open square comes a pair, with a number no smaller than the counter: the squares that are counted by now are
    skipped first. -/
def Continues (read : List UInt8 → Option (ι × List UInt8)) (found : List (List ι)) (after : List UInt8) (k : Nat)
    (bytes : List UInt8) : Prop :=
  ∃ s rest, bytes = s :: 0xFF :: rest ∧ k ≤ s.toNat ∧
    readSquares read found.length (s.toNat - k) rest = some (found, 0, after)

/-- A square and those behind it. -/
theorem Continues.square {squares : List (List ι)} {bytes : List UInt8} (hc : Continues read squares after 0 bytes)
    {things : List β} (h : ∀ b ∈ things, Readable encode read shown b) :
    readSquares read (squares.length + 1) 0 (things.flatMap encode ++ bytes) =
      some (things.map shown :: squares, 0, after) := by
  obtain ⟨s, rest, rfl, -, hread⟩ := hc
  exact readSquares_open h hread

theorem toNat_ofNat_of_le {k : Nat} (hk : k ≤ 0xFE) : (UInt8.ofNat k).toNat = k := by
  rw [UInt8.toNat_ofNat']
  omega

/-- One more square is counted. -/
theorem Continues.none {squares : List (List ι)} {bytes : List UInt8} {k : Nat}
    (hc : Continues read squares after (k + 1) bytes) : Continues read ([] :: squares) after k bytes := by
  obtain ⟨s, rest, rfl, hle, hread⟩ := hc
  obtain ⟨m, hm⟩ : ∃ m, s.toNat - k = m + 1 := ⟨s.toNat - (k + 1), by omega⟩
  have hm' : s.toNat - (k + 1) = m := by omega
  rw [hm'] at hread
  refine ⟨s, rest, rfl, by omega, ?_⟩
  rw [hm, List.length_cons, readSquares, hread]
  rfl

/-- What is written is read: from the start, and behind an open square with any counter. -/
theorem write_spec {squares : List (Option (List β))} (h : ∀ square ∈ squares, ∀ things ∈ square, ∀ b ∈ things,
    Readable encode read shown b) (after : List UInt8) :
    readSquares read (found shown squares).length 0 (write encode (-1) squares ++ after) =
        some (found shown squares, 0, after) ∧
      ∀ k : Nat, k ≤ 0xFE → Continues read (found shown squares) after k (write encode k squares ++ after) := by
  induction squares with
  | nil =>
    refine ⟨rfl, fun k hk => ⟨.ofNat k, after, by simp [write, pair_natCast], ?_, ?_⟩⟩
    · exact Nat.le_of_eq (toNat_ofNat_of_le hk).symm
    · rw [toNat_ofNat_of_le hk, Nat.sub_self]
      rfl
  | cons square squares ih =>
    obtain ⟨hstart, hopen⟩ := ih fun sq hsq => h sq (List.mem_cons_of_mem _ hsq)
    have hzero := hopen 0 (Nat.zero_le _)
    cases square with
    | none =>
      have hnothing : ∀ b ∈ ([] : List β), Readable encode read shown b := by simp
      refine ⟨hzero.square hnothing, fun k hk => ?_⟩
      by_cases hfull : k = 0xFE
      · -- the counter goes no further: the pair is written, and nothing is open behind it
        subst hfull
        refine ⟨0xFF, write encode (-1) squares ++ after, rfl, by decide, ?_⟩
        show readSquares read ((found shown squares).length + 1) 1 _ = _
        rw [readSquares, hstart]
        rfl
      · have hskip : ¬(k : Int) = 0xFE := by omega
        rw [write, if_neg hskip]
        exact (hopen (k + 1) (by omega)).none
    | some things =>
      have hthings : ∀ b ∈ things, Readable encode read shown b := h _ List.mem_cons_self things rfl
      have hsquare := hzero.square hthings
      refine ⟨?_, fun k hk => ⟨.ofNat k, things.flatMap encode ++ (write encode 0 squares ++ after), ?_, ?_, ?_⟩⟩
      · have hwrite : write encode (-1) (some things :: squares) = things.flatMap encode ++ write encode 0 squares := rfl
        rw [hwrite, List.append_assoc]
        exact hsquare
      · rw [write, pair_natCast]
        simp
      · exact Nat.le_of_eq (toNat_ofNat_of_le hk).symm
      · rw [toNat_ofNat_of_le hk, Nat.sub_self]
        exact hsquare

end Lib.SkipRuns
