import CrystalServer.Creatures.Combat.CombatDamage
import CrystalServer.Lib.SumBy

/-! # A mana shield splits damage

What the shield takes of a hit is taken from the mana, and the rest from the health. -/

namespace CrystalServer.Combat

variable {target : Target} {damage : CombatDamage} {healthChange manaDamage : Int}

/-- Health and mana of the target change by what a hit takes. -/
structure Target.Mortal (target : Target) : Prop where
  tester : target.IsGameTester = false
  infinite : target.HasInfiniteMana = false

/-- What the shield charges is in the mana and in the hit. The shield has no capacity, or falls by it, or ends with it. -/
theorem chargeShield_eq (hmana : target.mana.toNat < 2 ^ 31) (hchange : 0 < healthChange) :
    ∃ m : Nat, m ≤ target.mana.toNat ∧ (m : Int) ≤ healthChange ∧
      ((target.manaShield = 0 ∧ chargeShield target healthChange = (target, (m : Int), 0)) ∨
        (m < target.manaShield.toNat ∧ chargeShield target healthChange =
          (target.setManaShield (target.manaShield - .ofNat m), (m : Int), target.manaShield - .ofNat m)) ∨
        (0 < m ∧ m = target.manaShield.toNat ∧ chargeShield target healthChange = (target.removeManaShield, (m : Int), 0))) := by
  obtain ⟨n, hn⟩ : ∃ n : Nat, min (target.mana.toNat : Int) healthChange = n :=
    ⟨(min (target.mana.toNat : Int) healthChange).toNat, by omega⟩
  have hnat : (UInt32.ofNat n).toNat = n := UInt32.toNat_ofNat_of_lt' (show n < 2 ^ 32 by omega)
  have hcast : UInt32.ofInt (n : Int) = .ofNat n := Lib.ofInt_natCast_of_lt (by omega)
  unfold chargeShield
  dsimp only
  rw [Lib.toInt_toInt32_of_lt hmana, hn, hcast]
  by_cases hpos : target.manaShield > 0
  · rw [if_pos hpos]
    have hlt := UInt32.lt_iff_toNat_lt.mp hpos
    rw [UInt32.toNat_zero] at hlt
    by_cases hmore : target.manaShield > .ofNat n
    · rw [if_pos hmore]
      have := UInt32.lt_iff_toNat_lt.mp hmore
      rw [hnat] at this
      exact ⟨n, by omega, by omega, .inr (.inl ⟨this, rfl⟩)⟩
    · rw [if_neg hmore]
      have := UInt32.le_iff_toNat_le.mp (UInt32.not_lt.mp hmore)
      rw [hnat] at this
      rw [Lib.toInt_toInt32_of_lt (by omega)]
      exact ⟨target.manaShield.toNat, by omega, by omega, .inr (.inr ⟨hlt, rfl, rfl⟩)⟩
  · rw [if_neg hpos]
    have hzero : target.manaShield = 0 := by
      have := UInt32.le_iff_toNat_le.mp (UInt32.not_lt.mp hpos)
      rw [UInt32.toNat_zero] at this
      exact UInt32.toNat_inj.mp (Nat.le_zero.mp this)
    rw [hzero]
    exact ⟨n, by omega, by omega, .inl ⟨rfl, rfl⟩⟩

theorem toNat_sub_ofNat {x : UInt32} {m : Nat} (h : m ≤ x.toNat) : (x - .ofNat m).toNat = x.toNat - m := by
  have hnat : (UInt32.ofNat m).toNat = m := UInt32.toNat_ofNat_of_lt' (h.trans_lt x.toNat_lt)
  rw [UInt32.toNat_sub_of_le _ _ (UInt32.le_iff_toNat_le.mpr (hnat.trans_le h)), hnat]

theorem drainMana_eq (target : Target) (h : target.Mortal) {m : Nat} (hm : m ≤ target.mana.toNat) (hmana : target.mana.toNat < 2 ^ 31) :
    target.drainMana m = { target with mana := target.mana - .ofNat m } := by
  have hnot : ¬-(m : Int) > 0 := by omega
  have hleft : target.mana + .ofInt (-(m : Int)) = target.mana - .ofNat m := by
    rw [UInt32.ofInt_neg, Lib.ofInt_natCast_of_lt (by omega), UInt32.sub_eq_add_neg]
  have hsub : (target.mana - .ofNat m).toNat = target.mana.toNat - m := toNat_sub_ofNat hm
  unfold Target.drainMana Target.changeMana
  rw [h.tester, h.infinite, if_neg (by decide), if_neg hnot, hleft, Lib.toInt_toInt32_of_lt (by omega),
    max_eq_right (by omega), Lib.ofInt_natCast_of_lt (by omega), UInt32.ofNat_toNat]

theorem drainHealth_eq (h : target.Mortal) {d : Int} (hd : 0 ≤ d) (hle : d ≤ target.health) :
    target.drainHealth d = { target with health := target.health - d } := by
  have hnot : ¬-d > 0 := by omega
  unfold Target.drainHealth Target.changeHealth
  rw [h.tester, if_neg Bool.false_ne_true, if_neg hnot, max_eq_right (by omega), Int.sub_eq_add_neg]

/-- Mana and health pay for the damage together. -/
theorem sum_takeMana (hle : manaDamage ≤ damage.primary.value + damage.secondary.value) :
    (takeMana damage manaDamage).primary.value + (takeMana damage manaDamage).secondary.value =
      damage.primary.value + damage.secondary.value - manaDamage := by
  unfold takeMana
  dsimp only
  split_ifs
  · show 0 + max 0 (damage.secondary.value + (damage.primary.value - manaDamage)) = _
    omega
  · show damage.primary.value - manaDamage + damage.secondary.value = _
    omega

theorem takeMana_nonneg (hs : 0 ≤ damage.secondary.value) :
    0 ≤ (takeMana damage manaDamage).primary.value ∧ 0 ≤ (takeMana damage manaDamage).secondary.value := by
  unfold takeMana
  dsimp only
  split_ifs with h
  · exact ⟨le_rfl, le_max_left ..⟩
  · exact ⟨Int.not_lt.mp h, hs⟩

/-- What a hit takes of the mana and of the shield. -/
structure Absorbs (target : Target) (damage : CombatDamage) (hit : Hit) (m : Nat) : Prop where
  le_mana : m ≤ target.mana.toNat
  le_damage : (m : Int) ≤ damage.primary.value + damage.secondary.value
  mana : hit.target.mana.toNat = target.mana.toNat - m
  health : hit.target.health = target.health
  mortal : hit.target.Mortal
  left : hit.damage.primary.value + hit.damage.secondary.value = damage.primary.value + damage.secondary.value - m
  nonneg : 0 ≤ damage.primary.value → 0 ≤ damage.secondary.value →
    0 ≤ hit.damage.primary.value ∧ 0 ≤ hit.damage.secondary.value
  keeps : target.manaShield = 0 → hit.target.CONDITION_MANASHIELD = true ∧ hit.target.manaShield = 0
  ends : 0 < target.manaShield.toNat →
    (hit.target.CONDITION_MANASHIELD = false ↔ 0 < m ∧ (m = target.manaShield.toNat ∨ m = target.mana.toNat)) ∧
    hit.target.manaShield.toNat = if hit.target.CONDITION_MANASHIELD then target.manaShield.toNat - m else 0

/-- A hit that the shield does not take part in. -/
theorem absorbs_zero (h : target.Mortal) (hshield : target.CONDITION_MANASHIELD = true)
    (hpos : 0 < damage.primary.value + damage.secondary.value) : Absorbs target damage ⟨target, damage⟩ 0 where
  le_mana := Nat.zero_le _
  le_damage := hpos.le
  mana := rfl
  health := rfl
  mortal := h
  left := (Int.sub_zero _).symm
  nonneg hp hs := ⟨hp, hs⟩
  keeps h0 := ⟨hshield, h0⟩
  ends _ := ⟨iff_of_false (by rw [hshield]; nofun) fun hm => absurd hm.1 (Nat.lt_irrefl 0), by rw [hshield]; rfl⟩

theorem hitMana_absorbs (h : target.Mortal) (hmana : target.mana.toNat < 2 ^ 31)
    (hshield : target.CONDITION_MANASHIELD = true) (hpos : 0 < damage.primary.value + damage.secondary.value) :
    ∃ m, Absorbs target damage (hitMana target damage (damage.primary.value + damage.secondary.value)) m := by
  unfold hitMana
  by_cases htype : damage.primary.type = .UNDEFINEDDAMAGE
  · rw [if_neg fun hc => hc.2 htype]
    exact ⟨0, absorbs_zero h hshield hpos⟩
  · rw [if_pos ⟨hshield, htype⟩]
    obtain ⟨m, hle, hdamage, hcharge⟩ := chargeShield_eq hmana hpos
    have hleft := sum_takeMana hdamage
    have hmana' : (target.mana - .ofNat m).toNat = target.mana.toNat - m := toNat_sub_ofNat hle
    have hzero : target.mana - .ofNat m = 0 ↔ m = target.mana.toNat := by
      rw [← UInt32.toNat_inj, hmana', UInt32.toNat_zero]
      omega
    refine ⟨m, ?_⟩
    rcases hcharge with ⟨h0, heq⟩ | ⟨hlt, heq⟩ | ⟨hm, hall, heq⟩
    · rw [heq]
      dsimp only
      by_cases hm : m = 0
      · rw [if_neg (by omega)]
        subst hm
        exact absorbs_zero h hshield hpos
      · rw [if_pos (by omega), if_neg fun hc => absurd hc.2 (by decide), drainMana_eq _ h hle hmana]
        exact ⟨hle, hdamage, hmana', rfl, ⟨h.tester, h.infinite⟩, hleft, fun _ => takeMana_nonneg, fun _ => ⟨hshield, h0⟩,
          fun hc => by rw [h0] at hc; exact absurd hc (by decide)⟩
    · have hshield' : (target.manaShield - .ofNat m).toNat = target.manaShield.toNat - m := toNat_sub_ofNat hlt.le
      have hcap : target.manaShield = 0 → False := fun h0 => by
        rw [h0] at hlt
        exact Nat.not_lt_zero _ hlt
      rw [heq]
      dsimp only
      by_cases hm : m = 0
      · rw [if_neg (by omega)]
        subst hm
        have hcap0 : target.manaShield - .ofNat 0 = target.manaShield := UInt32.sub_zero _
        rw [hcap0]
        exact absorbs_zero h hshield hpos
      · have hleftover : target.manaShield - .ofNat m > 0 := by
          rw [gt_iff_lt, UInt32.lt_iff_toNat_lt, hshield', UInt32.toNat_zero]
          omega
        rw [if_pos (by omega),
          drainMana_eq (target.setManaShield (target.manaShield - .ofNat m)) ⟨h.tester, h.infinite⟩ hle hmana]
        by_cases hgone : target.mana - .ofNat m = 0
        · rw [if_pos ⟨hgone, hleftover⟩]
          refine ⟨hle, hdamage, hmana', rfl, ⟨h.tester, h.infinite⟩, hleft, fun _ => takeMana_nonneg, fun h0 => (hcap h0).elim,
            fun _ => ⟨iff_of_true rfl ⟨by omega, .inr (hzero.mp hgone)⟩, rfl⟩⟩
        · rw [if_neg fun hc => hgone hc.1]
          refine ⟨hle, hdamage, hmana', rfl, ⟨h.tester, h.infinite⟩, hleft, fun _ => takeMana_nonneg, fun h0 => (hcap h0).elim,
            fun _ => ⟨iff_of_false (fun hoff => Bool.noConfusion (hshield.symm.trans hoff)) ?_, ?_⟩⟩
          · rintro ⟨-, hm' | hm'⟩
            · omega
            · exact hgone (hzero.mpr hm')
          · show _ = if target.CONDITION_MANASHIELD then _ else _
            rw [hshield]
            exact hshield'
    · rw [heq]
      dsimp only
      rw [if_pos (by omega), if_neg fun hc => absurd hc.2 (by decide),
        drainMana_eq target.removeManaShield ⟨h.tester, h.infinite⟩ hle hmana]
      exact ⟨hle, hdamage, hmana', rfl, ⟨h.tester, h.infinite⟩, hleft, fun _ => takeMana_nonneg,
        fun h0 => by rw [h0] at hall; exact absurd hm (hall ▸ by decide),
        fun _ => ⟨iff_of_true rfl ⟨hm, .inl hall⟩, rfl⟩⟩

/-- What is left of a hit goes to the health as far as this reaches. -/
theorem hitHealth_eq {hit : Hit} (h : hit.target.Mortal) (hhealth : 0 < hit.target.health)
    (hleft : 0 ≤ hit.damage.primary.value + hit.damage.secondary.value) :
    (hitHealth hit).target = { hit.target with
      health := hit.target.health - min hit.target.health (hit.damage.primary.value + hit.damage.secondary.value) } := by
  unfold hitHealth
  dsimp only
  by_cases hzero : hit.damage.primary.value + hit.damage.secondary.value = 0
  · rw [if_pos hzero, hzero, min_eq_right hhealth.le, Int.sub_zero]
  · rw [if_neg hzero, if_neg (by omega)]
    exact drainHealth_eq h (by omega) (by omega)

theorem limitDamage_nonneg {targetHealth : Int} (h : 0 ≤ targetHealth) (hp : 0 ≤ damage.primary.value)
    (hs : 0 ≤ damage.secondary.value) :
    0 ≤ (limitDamage damage targetHealth).primary.value ∧ 0 ≤ (limitDamage damage targetHealth).secondary.value := by
  unfold limitDamage
  split_ifs with hmore
  · exact ⟨h, le_rfl⟩
  · refine ⟨hp, ?_⟩
    show 0 ≤ min damage.secondary.value (targetHealth - damage.primary.value)
    omega
  · exact ⟨hp, hs⟩

theorem hitHealth_nonneg {hit : Hit} (hhealth : 0 < hit.target.health) (hp : 0 ≤ hit.damage.primary.value)
    (hs : 0 ≤ hit.damage.secondary.value) :
    0 ≤ (hitHealth hit).damage.primary.value ∧ 0 ≤ (hitHealth hit).damage.secondary.value := by
  unfold hitHealth
  dsimp only
  split_ifs
  · exact ⟨hp, hs⟩
  · exact ⟨hp, hs⟩
  · exact limitDamage_nonneg hhealth.le hp hs

/-- A mana shield splits a hit between mana and health, without loss or gain. Its capacity falls by what the mana pays while
    the shield stays, and the shield ends with its capacity or with the mana. -/
theorem manaShield_splits (target : Target) (damage : CombatDamage) (h : target.Mortal) (hhealth : 0 < target.health)
    (hmana : target.mana.toNat < 2 ^ 31) (hshield : target.CONDITION_MANASHIELD = true)
    (hpos : 0 < damage.primary.value + damage.secondary.value) :
    let charged := hitMana target damage (damage.primary.value + damage.secondary.value)
    let hit := combatChangeHealth id false target damage
    ∃ m d : Nat, m ≤ target.mana.toNat ∧ (d : Int) ≤ target.health ∧
      hit.target.mana.toNat = target.mana.toNat - m ∧ hit.target.health = target.health - d ∧
      (m + d : Int) = min (m + target.health) (damage.primary.value + damage.secondary.value) ∧
      (target.manaShield = 0 → hit.target.CONDITION_MANASHIELD = true ∧ hit.target.manaShield = 0) ∧
      (0 < target.manaShield.toNat →
        (hit.target.CONDITION_MANASHIELD = false ↔ 0 < m ∧ (m = target.manaShield.toNat ∨ m = target.mana.toNat)) ∧
        hit.target.manaShield.toNat = if hit.target.CONDITION_MANASHIELD then target.manaShield.toNat - m else 0) ∧
      (0 ≤ damage.primary.value → 0 ≤ damage.secondary.value →
        (0 ≤ charged.damage.primary.value ∧ 0 ≤ charged.damage.secondary.value) ∧
        0 ≤ hit.damage.primary.value ∧ 0 ≤ hit.damage.secondary.value) := by
  obtain ⟨m, hm⟩ := hitMana_absorbs h hmana hshield hpos
  have hhit : combatChangeHealth id false target damage =
      hitHealth (hitMana target damage (damage.primary.value + damage.secondary.value)) := by
    unfold combatChangeHealth
    dsimp only
    rw [if_neg hpos.ne', if_neg Bool.false_ne_true, id]
  rw [hhit]
  generalize hitMana target damage (damage.primary.value + damage.secondary.value) = charged at hm
  have hdamage := hm.le_damage
  have htarget := hitHealth_eq hm.mortal (hm.health ▸ hhealth) (by rw [hm.left]; omega)
  rw [hm.left, hm.health] at htarget
  dsimp only
  rw [htarget]
  refine ⟨m, (min target.health (damage.primary.value + damage.secondary.value - m)).toNat, hm.le_mana, by omega, hm.mana, ?_,
    by omega, hm.keeps, hm.ends, fun hp hs => ?_⟩
  · show target.health - min target.health _ = _
    omega
  · obtain ⟨hp', hs'⟩ := hm.nonneg hp hs
    exact ⟨⟨hp', hs'⟩, hitHealth_nonneg (hm.health ▸ hhealth) hp' hs'⟩

/-- A shield of 100 takes 10 of 50 from the mana, which ends it. -/
def shielded : Target := ⟨100, 10, 100, 100, true, 100, 10, false, false⟩

theorem manaShield_splits_shielded :
    let damage : CombatDamage := { primary := ⟨.FIREDAMAGE, 30⟩, secondary := ⟨.ICEDAMAGE, 20⟩ }
    let charged := hitMana shielded damage 50
    let hit := combatChangeHealth id false shielded damage
    ∃ m d : Nat, m ≤ 10 ∧ (d : Int) ≤ 100 ∧ hit.target.mana.toNat = 10 - m ∧ hit.target.health = 100 - d ∧
      (m + d : Int) = min (m + 100) 50 ∧
      (shielded.manaShield = 0 → hit.target.CONDITION_MANASHIELD = true ∧ hit.target.manaShield = 0) ∧
      (0 < shielded.manaShield.toNat →
        (hit.target.CONDITION_MANASHIELD = false ↔ 0 < m ∧ (m = 100 ∨ m = 10)) ∧
        hit.target.manaShield.toNat = if hit.target.CONDITION_MANASHIELD then 100 - m else 0) ∧
      ((0 : Int) ≤ 30 → (0 : Int) ≤ 20 →
        (0 ≤ charged.damage.primary.value ∧ 0 ≤ charged.damage.secondary.value) ∧
        0 ≤ hit.damage.primary.value ∧ 0 ≤ hit.damage.secondary.value) :=
  manaShield_splits shielded { primary := ⟨.FIREDAMAGE, 30⟩, secondary := ⟨.ICEDAMAGE, 20⟩ } ⟨rfl, rfl⟩ (by decide)
    (by decide) rfl (by decide)

/-- With the condition goes what is left of the capacity, not only what the mana paid. -/
theorem not_manaShield_falls : ¬∀ (target : Target) (damage : CombatDamage), target.Mortal → 0 < target.health →
    target.mana.toNat < 2 ^ 31 → target.CONDITION_MANASHIELD = true →
    0 < damage.primary.value + damage.secondary.value →
    let hit := combatChangeHealth id false target damage
    ∃ m d : Nat, m ≤ target.mana.toNat ∧ (d : Int) ≤ target.health ∧
      hit.target.mana.toNat = target.mana.toNat - m ∧ hit.target.health = target.health - d ∧
      (m + d : Int) = min (m + target.health) (damage.primary.value + damage.secondary.value) ∧
      (0 < target.manaShield.toNat → hit.target.manaShield.toNat + m = target.manaShield.toNat ∧
        (hit.target.CONDITION_MANASHIELD = false ↔ hit.target.manaShield = 0 ∨ hit.target.mana = 0)) := by
  intro h
  obtain ⟨m, d, hm, -, -, -, -, hfalls⟩ := h shielded { primary := ⟨.FIREDAMAGE, 50⟩ } ⟨rfl, rfl⟩ (by decide) (by decide)
    rfl (by decide)
  have hzero : (combatChangeHealth id false shielded { primary := ⟨.FIREDAMAGE, 50⟩ }).target.manaShield.toNat = 0 := by
    decide
  have hcap : shielded.manaShield.toNat = 100 := rfl
  have hmana : shielded.mana.toNat = 10 := rfl
  have := (hfalls (by decide)).1
  omega

end CrystalServer.Combat
