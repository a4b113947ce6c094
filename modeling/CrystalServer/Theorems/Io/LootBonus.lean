import CrystalServer.Io.Bosstiary
import Mathlib.Tactic.LinearCombination
import Mathlib.Tactic.Positivity

/-! # Loot bonus and boss points

`calculateBossPoints` gives the least points for a loot bonus, except between the two ends of the middle scale: there
`calculateLootBonus` divides whole numbers before it adds the half. -/

namespace CrystalServer.Bosstiary

/-- No number of `calculateLootBonus` leaves its type. -/
def Fits (bossPoints : UInt32) : Prop := 8 * ((bossPoints.toNat - 1250) / 5) + 81 < 2 ^ 32

/-- No number of `calculateBossPoints` leaves its type, and none of the loot bonus that it is made for. -/
structure PointsFit (lootBonus : UInt16) : Prop where
  lt : (2.5 * lootBonus.toNat * lootBonus.toNat - 477.5 * lootBonus.toNat + 24000 : ℝ) < 2 ^ 32
  fits : Fits (calculateBossPoints lootBonus)

variable {p q : UInt32} {b : UInt16}

theorem fifths_le (h : p ≤ q) : (p.toNat - 1250) / 5 ≤ (q.toNat - 1250) / 5 :=
  Nat.div_le_div_right (Nat.sub_le_sub_right (UInt32.le_iff_toNat_le.mp h) 1250)

theorem Fits.mono (h : p ≤ q) (hq : Fits q) : Fits p :=
  lt_of_le_of_lt (Nat.add_le_add_right (Nat.mul_le_mul_left 8 (fifths_le h)) 81) hq

/-! ### The three scales -/

theorem toNat_calculateLootBonus_low (h : p.toNat ≤ 250) : (calculateLootBonus p).toNat = 25 + p.toNat / 10 := by
  have hsum : (25 + p / 10).toNat = 25 + p.toNat / 10 := by
    rw [UInt32.toNat_add, UInt32.toNat_div]
    exact Nat.mod_eq_of_lt (show 25 + p.toNat / 10 < 2 ^ 32 by omega)
  unfold calculateLootBonus
  rw [if_pos (UInt32.le_iff_toNat_le.mpr h), UInt32.toNat_toUInt16, hsum]
  omega

theorem toNat_calculateLootBonus_mid (h : 250 < p.toNat) (h' : p.toNat < 1250) :
    (calculateLootBonus p).toNat = 37 + p.toNat / 20 := by
  have hfloor : ⌊(37.5 : ℝ) + (p.toNat / 20 : ℕ)⌋₊ = 37 + p.toNat / 20 := by
    rw [Nat.floor_add_natCast (by norm_num)]
    have : ⌊(37.5 : ℝ)⌋₊ = 37 := by
      rw [Nat.floor_eq_iff (by norm_num)]
      norm_num
    rw [this]
  have hdiv : (p / 20).toNat = p.toNat / 20 := UInt32.toNat_div ..
  unfold calculateLootBonus
  rw [if_neg fun hle => Nat.not_le.mpr h (UInt32.le_iff_toNat_le.mp hle),
    if_pos (UInt32.lt_iff_toNat_lt.mpr h'), toUInt16, hdiv, hfloor, UInt16.toNat_ofNat']
  omega

/-- What the last scale reaches, without the root. -/
theorem le_calculateLootBonus_high (h : 1250 ≤ p.toNat) (hp : Fits p) (n : Nat) :
    100 + n ≤ (calculateLootBonus p).toNat ↔ n * n + 9 * n ≤ 2 * ((p.toNat - 1250) / 5) := by
  have hle : (1250 : UInt32) ≤ p := UInt32.le_iff_toNat_le.mpr h
  have hx : (8 * ((p - 1250) / 5) + 81).toNat = 8 * ((p.toNat - 1250) / 5) + 81 := by
    have hsub : (p - 1250).toNat = p.toNat - 1250 := UInt32.toNat_sub_of_le _ _ hle
    unfold Fits at hp
    rw [UInt32.toNat_add, UInt32.toNat_mul, UInt32.toNat_div, hsub]
    simp only [UInt32.reduceToNat]
    omega
  unfold calculateLootBonus
  rw [if_neg (by rw [UInt32.le_iff_toNat_le]; exact Nat.not_le.mpr (lt_of_lt_of_le (by decide) h)),
    if_neg (by rw [UInt32.lt_iff_toNat_lt]; exact Nat.not_lt.mpr h), toUInt16, hx]
  unfold Fits at hp
  generalize (p.toNat - 1250) / 5 = k at hp
  have hroot : (9 : ℝ) ≤ √((8 * k + 81 : ℕ) : ℝ) := by
    apply Real.le_sqrt_of_sq_le
    push_cast
    nlinarith [(Nat.cast_nonneg k : (0 : ℝ) ≤ k)]
  have hroot' : √((8 * k + 81 : ℕ) : ℝ) < 65536 := by
    rw [Real.sqrt_lt' (by norm_num)]
    have : ((8 * k + 81 : ℕ) : ℝ) < (2 ^ 32 : ℕ) := Nat.cast_lt.mpr hp
    norm_num at this ⊢
    exact this
  have hpos : (0 : ℝ) ≤ 100 + 0.5 * (√((8 * k + 81 : ℕ) : ℝ) - 9) := by linarith
  have hlt : ⌊(100 : ℝ) + 0.5 * (√((8 * k + 81 : ℕ) : ℝ) - 9)⌋₊ < 2 ^ 16 := by
    rw [Nat.floor_lt hpos]
    rw [Nat.cast_pow, Nat.cast_ofNat]
    linarith
  rw [UInt16.toNat_ofNat_of_lt' hlt, Nat.le_floor_iff hpos]
  have hreal : ((100 + n : ℕ) : ℝ) ≤ 100 + 0.5 * (√((8 * k + 81 : ℕ) : ℝ) - 9) ↔
      (2 * n + 9 : ℝ) ≤ √((8 * k + 81 : ℕ) : ℝ) := by
    rw [Nat.cast_add, Nat.cast_ofNat]
    constructor <;> intro h <;> linarith
  rw [hreal, Real.le_sqrt' (by positivity)]
  constructor
  · intro h
    have : (((2 * n + 9) ^ 2 : ℕ) : ℝ) ≤ ((8 * k + 81 : ℕ) : ℝ) := by
      push_cast at h ⊢
      exact h
    have := Nat.cast_le.mp this
    nlinarith
  · intro h
    have hnat : (2 * n + 9) ^ 2 ≤ 8 * k + 81 := by nlinarith
    have : (((2 * n + 9) ^ 2 : ℕ) : ℝ) ≤ ((8 * k + 81 : ℕ) : ℝ) := Nat.cast_le.mpr hnat
    push_cast at this ⊢
    exact this

theorem hundred_le_calculateLootBonus (h : 1250 ≤ p.toNat) (hp : Fits p) : 100 ≤ (calculateLootBonus p).toNat :=
  (le_calculateLootBonus_high h hp 0).mpr (Nat.zero_le _)

/-- The loot bonus grows with the points, but for the step down after the first scale. -/
theorem calculateLootBonus_le_iff (h : p ≤ q) (hq : Fits q) :
    calculateLootBonus p ≤ calculateLootBonus q ↔ ¬(p = 250 ∧ 251 ≤ q ∧ q ≤ 259) := by
  have hle := UInt32.le_iff_toNat_le.mp h
  have hp := hq.mono h
  simp only [UInt16.le_iff_toNat_le, UInt32.le_iff_toNat_le, ← UInt32.toNat_inj]
  show _ ↔ ¬(p.toNat = 250 ∧ 251 ≤ q.toNat ∧ q.toNat ≤ 259)
  rcases Nat.lt_or_ge 250 p.toNat with hplow | hplow
  · rcases Nat.lt_or_ge p.toNat 1250 with hpmid | hpmid
    · rw [toNat_calculateLootBonus_mid hplow hpmid]
      rcases Nat.lt_or_ge q.toNat 1250 with hqmid | hqmid
      · rw [toNat_calculateLootBonus_mid (by omega) hqmid]
        omega
      · have := hundred_le_calculateLootBonus hqmid hq
        omega
    · have hbase := hundred_le_calculateLootBonus hpmid hp
      obtain ⟨n, hn⟩ := Nat.exists_eq_add_of_le hbase
      have hreach := (le_calculateLootBonus_high hpmid hp n).mp hn.ge
      have := (le_calculateLootBonus_high (hpmid.trans hle) hq n).mpr
        (hreach.trans (Nat.mul_le_mul_left 2 (fifths_le h)))
      omega
  · rw [toNat_calculateLootBonus_low hplow]
    rcases Nat.lt_or_ge 250 q.toNat with hqlow | hqlow
    · rcases Nat.lt_or_ge q.toNat 1250 with hqmid | hqmid
      · rw [toNat_calculateLootBonus_mid hqlow hqmid]
        omega
      · have := hundred_le_calculateLootBonus hqmid hq
        omega
    · rw [toNat_calculateLootBonus_low hqlow]
      omega

/-! ### Points for a bonus -/

theorem toNat_calculateBossPoints_low (h : 25 < b.toNat) (h' : b.toNat ≤ 50) :
    (calculateBossPoints b).toNat = 10 * b.toNat - 250 := by
  have hmul : (10 * b.toUInt32).toNat = 10 * b.toNat := by
    rw [UInt32.toNat_mul, UInt16.toNat_toUInt32]
    exact Nat.mod_eq_of_lt (show 10 * b.toNat < 2 ^ 32 by omega)
  unfold calculateBossPoints
  rw [if_neg fun hle => Nat.not_le.mpr h (UInt16.le_iff_toNat_le.mp hle), if_pos (UInt16.le_iff_toNat_le.mpr h'),
    UInt32.toNat_sub_of_le _ _ (UInt32.le_iff_toNat_le.mpr (hmul ▸ (by omega : 250 ≤ 10 * b.toNat))), hmul]
  rfl

theorem toNat_calculateBossPoints_mid (h : 50 < b.toNat) (h' : b.toNat ≤ 100) :
    (calculateBossPoints b).toNat = 20 * b.toNat - 750 := by
  have hmul : (20 * b.toUInt32).toNat = 20 * b.toNat := by
    rw [UInt32.toNat_mul, UInt16.toNat_toUInt32]
    exact Nat.mod_eq_of_lt (show 20 * b.toNat < 2 ^ 32 by omega)
  have hlow : ¬b ≤ 25 := fun hle => absurd (UInt16.le_iff_toNat_le.mp hle) (Nat.not_le.mpr (lt_trans (by decide) h))
  unfold calculateBossPoints
  rw [if_neg hlow, if_neg fun hle => Nat.not_le.mpr h (UInt16.le_iff_toNat_le.mp hle),
    if_pos (UInt16.le_iff_toNat_le.mpr h'),
    UInt32.toNat_sub_of_le _ _ (UInt32.le_iff_toNat_le.mpr (hmul ▸ (by omega : 750 ≤ 20 * b.toNat))), hmul]
  rfl

/-- The points of the last scale, from where it begins. -/
theorem toNat_calculateBossPoints_high {n : Nat} (h : b.toNat = 100 + n) (hn : 0 < n) (hb : PointsFit b) :
    2 * (calculateBossPoints b).toNat = 2500 + 5 * (n * n + 9 * n) := by
  have hlow : ∀ m : UInt16, m.toNat ≤ 100 → ¬b ≤ m := fun m hm hle => by
    have := UInt16.le_iff_toNat_le.mp hle
    omega
  obtain ⟨m, hm⟩ : ∃ m, n * n + 9 * n = 2 * m := by
    obtain ⟨k, rfl | rfl⟩ := Nat.even_or_odd' n
    · exact ⟨k * (2 * k) + 9 * k, by ring⟩
    · exact ⟨2 * k * k + 11 * k + 5, by ring⟩
  have hreal : (2.5 * b.toNat * b.toNat - 477.5 * b.toNat + 24000 : ℝ) = (1250 + 5 * m : ℕ) := by
    have hm' : (n * n + 9 * n : ℝ) = 2 * m := by exact_mod_cast hm
    rw [h]
    push_cast
    linear_combination (5 / 2) * hm'
  have hlt : 1250 + 5 * m < 2 ^ 32 := by
    have := hreal ▸ hb.1
    exact_mod_cast this
  unfold calculateBossPoints
  rw [if_neg (hlow 25 (by decide)), if_neg (hlow 50 (by decide)), if_neg (hlow 100 (by decide)), toUInt32, hreal,
    Nat.floor_natCast, UInt32.toNat_ofNat_of_lt' hlt]
  omega

theorem calculateLootBonus_lt_hundred (h : p.toNat < 1250) : (calculateLootBonus p).toNat < 100 := by
  rcases Nat.lt_or_ge 250 p.toNat with hlow | hlow
  · rw [toNat_calculateLootBonus_mid hlow h]
    omega
  · rw [toNat_calculateLootBonus_low hlow]
    omega

theorem isLeast_iff : IsLeast {p | Fits p ∧ b ≤ calculateLootBonus p} q ↔
    (Fits q ∧ b.toNat ≤ (calculateLootBonus q).toNat) ∧
      ∀ p, Fits p → b.toNat ≤ (calculateLootBonus p).toNat → q.toNat ≤ p.toNat := by
  simp only [IsLeast, lowerBounds, Set.mem_ofPred_eq, and_imp, UInt16.le_iff_toNat_le, UInt32.le_iff_toNat_le]

/-- Where the points of a bonus are the least ones that give it. -/
theorem isLeast_calculateBossPoints_iff (h : 25 < b) (hb : PointsFit b) :
    IsLeast {p | Fits p ∧ b ≤ calculateLootBonus p} (calculateBossPoints b) ↔ b ≤ 50 ∨ 100 ≤ b := by
  have hb25 : 25 < b.toNat := UInt16.lt_iff_toNat_lt.mp h
  rw [isLeast_iff, UInt16.le_iff_toNat_le, UInt16.le_iff_toNat_le]
  show _ ↔ b.toNat ≤ 50 ∨ 100 ≤ b.toNat
  rcases Nat.lt_or_ge 50 b.toNat with hlow | hlow
  · rcases Nat.lt_or_ge b.toNat 100 with hmid | hmid
    · have hpoints := toNat_calculateBossPoints_mid hlow hmid.le
      have hbonus : (calculateLootBonus (calculateBossPoints b)).toNat = b.toNat - 1 := by
        rw [toNat_calculateLootBonus_mid (by omega) (by omega), hpoints]
        omega
      constructor
      · rintro ⟨⟨-, hle⟩, -⟩
        omega
      · omega
    · refine iff_of_true ?_ (.inr hmid)
      obtain ⟨n, hn⟩ := Nat.exists_eq_add_of_le hmid
      have hpoints : 2 * (calculateBossPoints b).toNat = 2500 + 5 * (n * n + 9 * n) := by
        rcases n.eq_zero_or_pos with rfl | hpos
        · rw [toNat_calculateBossPoints_mid hlow hn.le, hn]
        · exact toNat_calculateBossPoints_high hn hpos hb
      have hbase : 1250 ≤ (calculateBossPoints b).toNat := by omega
      refine ⟨⟨hb.2, ?_⟩, fun q hq hreach => ?_⟩
      · rw [hn, le_calculateLootBonus_high hbase hb.2]
        generalize n * n + 9 * n = m at hpoints ⊢
        omega
      · have hqbase : 1250 ≤ q.toNat := by
          by_contra hlt
          have := calculateLootBonus_lt_hundred (Nat.not_le.mp hlt)
          omega
        rw [hn, le_calculateLootBonus_high hqbase hq] at hreach
        generalize n * n + 9 * n = m at hpoints hreach
        omega
  · refine iff_of_true ?_ (.inl hlow)
    have hpoints := toNat_calculateBossPoints_low hb25 hlow
    refine ⟨⟨hb.2, ?_⟩, fun q hq hreach => ?_⟩
    · rw [toNat_calculateLootBonus_low (by omega), hpoints]
      omega
    · by_contra hlt
      rw [toNat_calculateLootBonus_low (by omega)] at hreach
      omega

theorem pointsFit_of_le (h : b.toNat ≤ 100) (hp : (calculateBossPoints b).toNat ≤ 1250) : PointsFit b := by
  have hb : (b.toNat : ℝ) ≤ 100 := by exact_mod_cast h
  have hb0 : (0 : ℝ) ≤ b.toNat := Nat.cast_nonneg _
  refine ⟨by nlinarith, ?_⟩
  unfold Fits
  rw [Nat.sub_eq_zero_of_le hp]
  decide

/-- The two scales against each other. -/
theorem lootBonus_scales (p q : UInt32) (b : UInt16) :
    (p ≤ q → Fits q → (calculateLootBonus p ≤ calculateLootBonus q ↔ ¬(p = 250 ∧ 251 ≤ q ∧ q ≤ 259))) ∧
    (25 < b → PointsFit b →
      (IsLeast {p | Fits p ∧ b ≤ calculateLootBonus p} (calculateBossPoints b) ↔ b ≤ 50 ∨ 100 ≤ b)) :=
  ⟨calculateLootBonus_le_iff, isLeast_calculateBossPoints_iff⟩

/-- The scales at points and bonuses within their types. -/
theorem lootBonus_scales_low : (calculateLootBonus 0 ≤ calculateLootBonus 250 ↔ ¬(0 = 250 ∧ 251 ≤ 250 ∧ 250 ≤ 259)) ∧
    (IsLeast {p | Fits p ∧ 26 ≤ calculateLootBonus p} (calculateBossPoints 26) ↔ (26 : UInt16) ≤ 50 ∨ (100 : UInt16) ≤ 26) := by
  have hpoints : (calculateBossPoints 26).toNat = 10 := toNat_calculateBossPoints_low (by decide) (by decide)
  have hfit : PointsFit 26 := pointsFit_of_le (by decide) (hpoints.trans_le (by decide))
  exact ⟨by simpa using (lootBonus_scales 0 250 26).1 (by decide) (by unfold Fits; decide),
    (lootBonus_scales 0 250 26).2 (by decide) hfit⟩

/-- 250 points give more than 251, and the points for 51 give only 50. -/
theorem not_lootBonus_scales : (¬∀ p q : UInt32, p ≤ q → Fits q → calculateLootBonus p ≤ calculateLootBonus q) ∧
    ¬∀ b : UInt16, 25 < b → PointsFit b →
      IsLeast {p | Fits p ∧ b ≤ calculateLootBonus p} (calculateBossPoints b) := by
  constructor
  · intro h
    have hle := UInt16.le_iff_toNat_le.mp (h 250 251 (by decide) (by unfold Fits; decide))
    rw [toNat_calculateLootBonus_low (by decide), toNat_calculateLootBonus_mid (by decide) (by decide)] at hle
    exact absurd hle (by decide)
  · intro h
    have hpoints : (calculateBossPoints 51).toNat = 270 := toNat_calculateBossPoints_mid (by decide) (by decide)
    have hfit : PointsFit 51 := pointsFit_of_le (by decide) (hpoints.trans_le (by decide))
    have hle := UInt16.le_iff_toNat_le.mp (h 51 (by decide) hfit).1.2
    rw [toNat_calculateLootBonus_mid (hpoints ▸ by decide) (hpoints ▸ by decide), hpoints] at hle
    exact absurd hle (by decide)

end CrystalServer.Bosstiary
