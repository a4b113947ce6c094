import Mathlib.Data.Nat.Log
import Mathlib.Tactic.Ring

/-! # Quotients of binary64 numbers

The quotient of two numbers, rounded to 53 bits, nearest and ties to even. Rounding up what comes out gives what
rounding up the exact quotient gives, as long as the quotient leaves enough bits behind the point. -/

namespace Lib

/-- The number `mantissa / 2 ^ scale`. -/
structure Double where
  mantissa : ℕ
  scale : ℕ

namespace Double

/-- How far a quotient is scaled so that it has 53 bits before the point. -/
def scaling (a b : ℕ) : ℕ :=
  let k := 53 + b.log2 - a.log2
  if 2 ^ 53 * b ≤ a * 2 ^ k then k - 1 else k

/-- The quotient of two numbers that are below `2 ^ 53`. -/
def div (a b : ℕ) : Double :=
  let k := scaling a b
  let q := a * 2 ^ k / b
  let r := a * 2 ^ k % b
  ⟨if 2 * r < b ∨ 2 * r = b ∧ q % 2 = 0 then q else q + 1, k⟩

def ceil (x : Double) : ℕ := (x.mantissa + 2 ^ x.scale - 1) / 2 ^ x.scale

variable {a b : ℕ}

theorem le_scaling (ha : a < 2 ^ 52) : b.log2 + 1 ≤ scaling a b := by
  have hlog : a.log2 < 52 := by
    rcases Nat.eq_zero_or_pos a with rfl | hpos
    · decide
    · exact (Nat.log2_lt hpos.ne').mpr ha
  unfold scaling
  dsimp only
  split_ifs <;> omega

theorem ceilDiv_eq {x n c : ℕ} (hlo : n * c < x) (hhi : x ≤ n * (c + 1)) : (x + n - 1) / n = c + 1 := by
  have hn : 0 < n := Nat.pos_of_ne_zero fun h => by
    subst h
    rw [Nat.zero_mul] at hhi hlo
    omega
  rw [Nat.div_eq_iff hn]
  rw [Nat.mul_succ] at hhi
  rw [Nat.succ_mul, Nat.mul_comm c n]
  omega

/-- Rounding does not go past a whole number. -/
theorem ceil_div (ha : a < 2 ^ 52) (hb : 0 < b) : (div a b).ceil = (a + b - 1) / b := by
  have hk : b ≤ 2 ^ scaling a b :=
    Nat.lt_log2_self.le.trans (Nat.pow_le_pow_right (by decide) (le_scaling ha))
  unfold div ceil
  dsimp only
  generalize scaling a b = k at hk
  have hn : 0 < 2 ^ k := Nat.two_pow_pos k
  generalize 2 ^ k = n at hk hn
  have hsplit := Nat.div_add_mod a b
  have hmod := Nat.mod_lt a hb
  generalize a / b = c at hsplit
  generalize a % b = s at hsplit hmod
  subst hsplit
  rcases Nat.eq_zero_or_pos s with rfl | hs
  · have hq : (b * c + 0) * n / b = c * n := by
      rw [Nat.add_zero, Nat.mul_assoc, Nat.mul_div_cancel_left _ hb]
    have hr : (b * c + 0) * n % b = 0 := by rw [Nat.add_zero, Nat.mul_assoc, Nat.mul_mod_right]
    rw [hq, hr, if_pos (.inl (by omega)), Nat.add_zero]
    have hleft : (c * n + n - 1) / n = c := by
      rw [Nat.div_eq_iff hn]
      omega
    have hright : (b * c + b - 1) / b = c := by
      rw [Nat.div_eq_iff hb, Nat.mul_comm c b]
      omega
    rw [hleft, hright]
  · have hlo : n * c + 1 ≤ (b * c + s) * n / b := by
      rw [Nat.le_div_iff_mul_le hb]
      have hsn : n ≤ s * n := Nat.le_mul_of_pos_left n hs
      calc (n * c + 1) * b = b * c * n + b := by ring
        _ ≤ b * c * n + s * n := by omega
        _ = (b * c + s) * n := by ring
    have hhi : (b * c + s) * n / b + 1 ≤ n * (c + 1) := by
      rw [Nat.succ_le_iff, Nat.div_lt_iff_lt_mul hb]
      have hsn : s * n < b * n := Nat.mul_lt_mul_of_pos_right hmod hn
      calc (b * c + s) * n = b * c * n + s * n := by ring
        _ < b * c * n + b * n := by omega
        _ = n * (c + 1) * b := by ring
    rw [ceilDiv_eq (x := b * c + s) (n := b) (c := c) (by omega) (by rw [Nat.mul_succ]; omega)]
    refine ceilDiv_eq ?_ ?_
    · split_ifs <;> omega
    · split_ifs <;> omega

end Double
end Lib
