import Mathlib.Data.List.DropRight
import Mathlib.Data.List.Lex

/-! # String helpers (`utils/tools.cpp`) -/

namespace CrystalServer

/-- The text with every occurrence of `sought` (not empty) replaced, left to right, the search going on
    behind each replacement. -/
def replaceChars (sought replacement : List Char) : List Char → List Char
  | [] => []
  | c :: str =>
    if sought <+: c :: str then replacement ++ replaceChars sought replacement (str.drop (sought.length - 1))
    else c :: replaceChars sought replacement str
termination_by str => str.length
decreasing_by all_goals simp only [List.length_drop, List.length_cons]; omega

/-- `replaceString`. An empty `sought` is found again at every position, so the loop never ends unless
    `str` is empty too: the result is `none` then. -/
def replaceString (str sought replacement : String) : Option String :=
  if str = "" then some str
  else if sought = "" then none
  else some (String.ofList (replaceChars sought.toList replacement.toList str.toList))

/-! ### Strings of bytes -/

instance instLinearOrderUInt8 : LinearOrder UInt8 where
  le_refl := UInt8.le_refl
  le_trans _ _ _ := UInt8.le_trans
  le_antisymm _ _ := UInt8.le_antisymm
  le_total := UInt8.le_total
  lt_iff_le_not_ge _ _ := by
    rw [UInt8.not_le]
    exact ⟨fun h => ⟨UInt8.le_of_lt h, h⟩, fun h => h.2⟩
  toDecidableLE := inferInstance

/-- `tolower` in the C locale. -/
def tolower (c : UInt8) : UInt8 := if 65 ≤ c ∧ c ≤ 90 then c + 32 else c

/-- `asLowerCaseString`. -/
def asLowerCaseString (source : List UInt8) : List UInt8 := source.map tolower

def trim_left (source : List UInt8) (t : UInt8) : List UInt8 := source.dropWhile (· = t)

def trim_right (source : List UInt8) (t : UInt8) : List UInt8 := source.rdropWhile (· = t)

def trimString (str : List UInt8) : List UInt8 := trim_left (trim_right str ' '.toUInt8) ' '.toUInt8

/-- `explodeString` for a separator of one character, with a limit on how often it splits. -/
def explodeString (separator : UInt8) : Nat → List UInt8 → List (List UInt8)
  | 0, inString => [inString]
  | limit + 1, inString =>
    if separator ∈ inString then
      inString.takeWhile (· ≠ separator) :: explodeString separator limit (inString.dropWhile (· ≠ separator)).tail
    else [inString]

/-- The number that leading decimal digits stand for. -/
def digits (str : List UInt8) : Nat :=
  (str.takeWhile fun c => 48 ≤ c ∧ c ≤ 57).foldl (fun n c => n * 10 + (c.toNat - 48)) 0

/-- `std::atoi`, for a number that an `int` can hold. -/
def atoi (str : List UInt8) : Int :=
  match str.dropWhile fun c => c = 32 ∨ 9 ≤ c ∧ c ≤ 13 with
  | 45 :: str => -digits str
  | 43 :: str => digits str
  | str => digits str

end CrystalServer
