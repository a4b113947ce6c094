import CrystalServer.Lib.SumBy
import CrystalServer.Theorems.Creatures.Level

/-! # What a death takes is exact

The loops lower the totals over the whole career by what they are given. The tries that are left at the end go through a cast
to 32 bits, and so does the loss before. -/

namespace CrystalServer.Death
variable {env : Env} {i : SkillId} {level : Nat} {s : State}

/-! ### Totals -/

/-- The mana that a magic level asks for, with all levels below. -/
def manaFor (env : Env) (magLevel : Nat) : Nat := ((List.range' 1 magLevel).map fun l => (getReqMana env l).toNat).sum

/-- The mana spent over the whole career. -/
def totalMana (env : Env) (s : State) : Nat := manaFor env s.magLevel + s.manaSpent.toNat

def triesFor (env : Env) (i : SkillId) (level : Nat) : Nat :=
  ((List.range' 11 (level - 10)).map fun c => (getReqSkillTries env i c).toNat).sum

/-- The tries over the whole career. -/
def totalTries (env : Env) (i : SkillId) (skill : Skill) : Nat := triesFor env i skill.level + skill.tries.toNat

/-- The part of a total that a percentage takes. -/
def lostOf (n : Nat) (p : Rat) : Nat := ⌊(n : Rat) * p⌋.toNat

theorem manaFor_succ (env : Env) (n : Nat) : manaFor env (n + 1) = manaFor env n + (getReqMana env (n + 1)).toNat := by
  unfold manaFor
  rw [List.range'_concat, List.map_append, List.sum_append, Nat.one_mul, Nat.add_comm 1 n]
  rfl

theorem triesFor_of_le (h : level ≤ 10) : triesFor env i level = 0 := by
  unfold triesFor
  rw [Nat.sub_eq_zero_of_le h]
  rfl

theorem triesFor_succ (h : 10 ≤ level) :
    triesFor env i (level + 1) = triesFor env i level + (getReqSkillTries env i (level + 1)).toNat := by
  have hlast : level + 1 - 10 = level - 10 + 1 := by omega
  have hlevel : 11 + (level - 10) = level + 1 := by omega
  unfold triesFor
  rw [hlast, List.range'_concat, List.map_append, List.sum_append, Nat.one_mul, hlevel]
  rfl

theorem sumMana_toNat (h : totalMana env s < 2 ^ 64) : (sumMana env s).toNat = totalMana env s := by
  unfold totalMana manaFor at h ⊢
  have hlt := (Nat.le_add_right ..).trans_lt h
  unfold sumMana
  rw [UInt64.toNat_add, Lib.toNat_sum_uint64, List.map_map, Nat.mod_add_mod]
  exact Nat.mod_eq_of_lt h

theorem sumSkillTries_toNat {skill : Skill} (h : totalTries env i skill < 2 ^ 64) :
    (sumSkillTries env i skill).toNat = totalTries env i skill := by
  unfold totalTries triesFor at h ⊢
  have hlt := (Nat.le_add_right ..).trans_lt h
  unfold sumSkillTries
  rw [UInt64.toNat_add, Lib.toNat_sum_uint64, List.map_map, Nat.mod_add_mod]
  exact Nat.mod_eq_of_lt h

/-- A percentage takes no more than there is. -/
theorem lostOf_le (n : Nat) {p : Rat} (hp : p ≤ 1) : lostOf n p ≤ n := by
  have hle : (n : Rat) * p ≤ n := mul_le_of_le_one_right n.cast_nonneg hp
  have hfloor : ⌊(n : Rat) * p⌋ ≤ n := Int.floor_le_iff.mpr (hle.trans_lt (by exact_mod_cast lt_add_one n))
  exact Int.toNat_le.mpr hfloor

/-! ### The loops -/

/-- The loop pays the loss out of the levels, and the rest is there. -/
theorem manaLoop_spec (magLevel : Nat) {manaSpent lostMana : UInt64}
    (h : lostMana.toNat ≤ manaFor env magLevel + manaSpent.toNat) :
    let res := manaLoop env magLevel manaSpent lostMana
    res.1 ≤ magLevel ∧ res.2.2 ≤ res.2.1 ∧
      manaFor env res.1 + (res.2.1.toNat - res.2.2.toNat) + lostMana.toNat = manaFor env magLevel + manaSpent.toNat := by
  induction magLevel generalizing manaSpent lostMana with
  | zero =>
    have hzero : manaFor env 0 = 0 := rfl
    rw [hzero] at h
    refine ⟨le_rfl, UInt64.le_iff_toNat_le.mpr (h.trans_eq (Nat.zero_add _)), ?_⟩
    change manaFor env 0 + (manaSpent.toNat - lostMana.toNat) + _ = _
    omega
  | succ magLevel ih =>
    unfold manaLoop
    split_ifs with hgt
    · have hlt := UInt64.lt_iff_toNat_lt.mp hgt
      have hsub := UInt64.toNat_sub_of_le _ _ (UInt64.le_of_lt hgt)
      rw [manaFor_succ] at h ⊢
      have hless : (lostMana - manaSpent).toNat ≤ manaFor env magLevel + (getReqMana env (magLevel + 1)).toNat := by omega
      obtain ⟨hlevel, hle, hsum⟩ := ih hless
      exact ⟨hlevel.trans (Nat.le_succ _), hle, by omega⟩
    · have hle := UInt64.not_lt.mp hgt
      have hnat := UInt64.le_iff_toNat_le.mp hle
      refine ⟨le_rfl, hle, ?_⟩
      dsimp only
      omega

/-- What is left of so many tries at the highest level, up to the given one, that they reach. -/
def restTries (env : Env) (i : SkillId) : Nat → Nat → Nat
  | 0, n => n
  | level + 1, n => if triesFor env i (level + 1) ≤ n then n - triesFor env i (level + 1) else restTries env i level n

theorem skillLoop_spec (h10 : 10 ≤ level) {tries : UInt64} {lost : UInt32}
    (h : lost.toNat ≤ triesFor env i level + tries.toNat) :
    let res := skillLoop env i level tries lost
    10 ≤ res.1 ∧ res.1 ≤ level ∧ res.2.2.toNat ≤ res.2.1.toNat ∧
      triesFor env i res.1 + (res.2.1.toNat - res.2.2.toNat) + lost.toNat = triesFor env i level + tries.toNat ∧
      restTries env i level (triesFor env i level + tries.toNat - lost.toNat) = res.2.1.toNat - res.2.2.toNat := by
  induction level generalizing tries lost with
  | zero => exact absurd h10 (by decide)
  | succ level ih =>
    have hwide : lost.toUInt64.toNat = lost.toNat := UInt32.toNat_toUInt64 lost
    unfold skillLoop restTries
    by_cases hgt : lost.toUInt64 > tries
    · have hlt := UInt64.lt_iff_toNat_lt.mp hgt
      rw [hwide] at hlt
      -- at level 10 there is nothing below the tries to lose
      have h11 : 10 ≤ level := by
        by_contra hlow
        rw [triesFor_of_le (by omega)] at h
        omega
      have hsub : (lost.toUInt64 - tries).toUInt32.toNat = lost.toNat - tries.toNat := by
        have hlost := lost.toNat_lt
        rw [UInt64.toNat_toUInt32, UInt64.toNat_sub_of_le _ _ (UInt64.le_of_lt hgt), hwide]
        exact Nat.mod_eq_of_lt (by omega)
      rw [triesFor_succ h11] at h ⊢
      have hless : (lost.toUInt64 - tries).toUInt32.toNat ≤
          triesFor env i level + (getReqSkillTries env i (level + 1)).toNat := by omega
      obtain ⟨hten, hlevel, hle, hsum, hrest⟩ := ih h11 hless
      rw [if_pos hgt, if_neg (by omega), if_neg (by omega)]
      rw [hsub] at hsum hrest
      refine ⟨hten, hlevel.trans (Nat.le_succ _), hle, by omega, ?_⟩
      rw [← hrest]
      congr 1
      omega
    · have hnat := UInt64.le_iff_toNat_le.mp (UInt64.not_lt.mp hgt)
      rw [hwide] at hnat
      rw [if_neg hgt, if_pos (by omega)]
      dsimp only
      exact ⟨h10, le_rfl, hnat, by omega, by omega⟩

/-! ### The casts -/

/-- The lower 32 bits are left, as long as they are no negative number. -/
theorem triesLeft_toNat {tries : UInt64} {lost : UInt32} (h : lost.toNat ≤ tries.toNat) :
    (triesLeft tries lost).toNat =
      if (tries.toNat - lost.toNat) % 2 ^ 32 < 2 ^ 31 then (tries.toNat - lost.toNat) % 2 ^ 32 else 0 := by
  have hsub : (tries - lost.toUInt64).toUInt32.toNat = (tries.toNat - lost.toNat) % 2 ^ 32 := by
    have hle : lost.toUInt64 ≤ tries := UInt64.le_iff_toNat_le.mpr (by rwa [UInt32.toNat_toUInt64])
    rw [UInt64.toNat_toUInt32, UInt64.toNat_sub_of_le _ _ hle, UInt32.toNat_toUInt64]
  unfold triesLeft
  generalize (tries - lost.toUInt64).toUInt32 = n at hsub
  rw [← hsub]
  have hvalue : n.toInt32.toInt = n.toBitVec.toInt := rfl
  rw [BitVec.toInt_eq_toNat_cond, UInt32.toNat_toBitVec] at hvalue
  have hlt := n.toNat_lt
  by_cases hneg : n.toNat < 2 ^ 31
  · rw [if_pos (by omega)] at hvalue
    have hmax : max 0 n.toInt32 = n.toInt32 := if_pos (Int32.le_iff_toInt_le.mpr (by rw [hvalue]; exact Int.natCast_nonneg _))
    rw [if_pos hneg, hmax, hvalue, Int.toNat_natCast, UInt64.toNat_ofNat', Nat.mod_eq_of_lt (by omega)]
  · rw [if_neg (by omega)] at hvalue
    have hmax : max 0 n.toInt32 = 0 := if_neg fun h0 => by
      have hle := Int32.le_iff_toInt_le.mp h0
      rw [hvalue] at hle
      have hzero : (0 : Int32).toInt = 0 := rfl
      omega
    rw [if_neg hneg, hmax]
    rfl

/-- The loss and what is left at the end fit into 32 and 31 bits; or the casts cut off the same of both. -/
def FitsCasts (env : Env) (i : SkillId) (p : Rat) (skill : Skill) : Prop :=
  let lost := lostOf (totalTries env i skill) p
  let rest := restTries env i skill.level (totalTries env i skill - lost % 2 ^ 32)
  rest % 2 ^ 32 < 2 ^ 31 ∧ rest / 2 ^ 32 = lost / 2 ^ 32

theorem loseTries_spec {skill : Skill} {p : Rat} (hp : p ≤ 1) (hlevel : 10 ≤ skill.level)
    (hrange : totalTries env i skill < 2 ^ 64) :
    (10 ≤ (loseTries env p i skill).level ∧ (loseTries env p i skill).level ≤ skill.level) ∧
      (totalTries env i (loseTries env p i skill) + lostOf (totalTries env i skill) p = totalTries env i skill ↔
        FitsCasts env i p skill) := by
  have hle := lostOf_le (totalTries env i skill) hp
  have hcast : (UInt32.ofNat (lostOf (totalTries env i skill) p)).toNat = lostOf (totalTries env i skill) p % 2 ^ 32 :=
    UInt32.toNat_ofNat'
  have hlost : ∀ res, res = skillLoop env i skill.level skill.tries (.ofNat (lostOf (totalTries env i skill) p)) →
      loseTries env p i skill = ⟨res.1, triesLeft res.2.1 res.2.2⟩ := by
    rintro res rfl
    unfold loseTries
    rw [sumSkillTries_toNat hrange]
    rfl
  have hless : (UInt32.ofNat (lostOf (totalTries env i skill) p)).toNat ≤
      triesFor env i skill.level + skill.tries.toNat := by
    rw [hcast]
    exact (Nat.mod_le ..).trans hle
  have hspec := skillLoop_spec hlevel hless
  generalize hres : skillLoop env i skill.level skill.tries _ = res at hspec
  obtain ⟨hten, hdown, hrest, hsum, heq⟩ := hspec
  have hleft := triesLeft_toNat hrest
  rw [hlost res hres.symm]
  refine ⟨⟨hten, hdown⟩, ?_⟩
  change _ = totalTries env i skill at hsum
  change restTries env i skill.level (totalTries env i skill - _) = _ at heq
  rw [hcast] at hsum heq
  unfold FitsCasts
  dsimp only
  rw [heq]
  have hafter : totalTries env i ⟨res.1, triesLeft res.2.1 res.2.2⟩ = triesFor env i res.1 + (triesLeft res.2.1 res.2.2).toNat := rfl
  rw [hafter, hleft]
  split_ifs <;> omega

/-! ### A death -/

/-- What a player has by playing: the totals fit into 64 bits, skills start at level 10, and the experience is enough for the
    level. -/
structure InRange (env : Env) (s : State) : Prop where
  mana : totalMana env s < 2 ^ 64
  tries : ∀ i, totalTries env i (s.skills i) < 2 ^ 64
  skills : ∀ i, 10 ≤ (s.skills i).level
  level : 1 ≤ s.character.level
  experience : Level.getExpForLevel s.character.level ≤ s.character.experience

/-- The computed loss of mana. -/
def lostMana (env : Env) (deathLossPercent : Rat) (s : State) : Nat :=
  lostOf (totalMana env s) (lossPercent env.HALF_LOSS_MAGIC deathLossPercent)

/-- The computed loss of tries. -/
def lostTries (env : Env) (deathLossPercent : Rat) (s : State) (i : SkillId) : Nat :=
  lostOf (totalTries env i (s.skills i)) (lossPercent env.HALF_LOSS_SKILL deathLossPercent)

/-- The totals are lowered by just the losses, down to magic level 0 and skill level 10 without tries, and the level is one
    that the experience is enough for. -/
structure Exact (env : Env) (deathLossPercent : Rat) (s s' : State) : Prop where
  mana : totalMana env s' + lostMana env deathLossPercent s = totalMana env s
  magLevel : s'.magLevel ≤ s.magLevel
  magicEnd : (∀ l, 0 < l → l ≤ s.magLevel → 0 < getReqMana env l) → lostMana env deathLossPercent s = totalMana env s →
    s'.magLevel = 0 ∧ s'.manaSpent = 0
  tries : ∀ i, totalTries env i (s'.skills i) + lostTries env deathLossPercent s i = totalTries env i (s.skills i)
  skills : ∀ i, 10 ≤ (s'.skills i).level ∧ (s'.skills i).level ≤ (s.skills i).level
  skillEnd : ∀ i, (∀ l, 10 < l → l ≤ (s.skills i).level → 0 < getReqSkillTries env i l) →
    lostTries env deathLossPercent s i = totalTries env i (s.skills i) → s'.skills i = ⟨10, 0⟩
  level : Level.getExpForLevel s'.character.level ≤ s'.character.experience

/-- What the last subtractions take is there. -/
structure NoWrap (env : Env) (deathLossPercent : Rat) (s : State) : Prop where
  mana : let res := manaLoop env s.magLevel s.manaSpent (.ofNat (lostMana env deathLossPercent s))
    res.2.2 ≤ res.2.1
  tries : ∀ i, let res := skillLoop env i (s.skills i).level (s.skills i).tries (.ofNat (lostTries env deathLossPercent s i))
    res.2.2.toNat ≤ res.2.1.toNat
  experience : expLoss env (lossPercent env.HALF_LOSS_EXP deathLossPercent) s ≤ s.character.experience

variable {d : Rat}

theorem lossPercent_le (half : Bool) (h : d ≤ 100) : lossPercent half d ≤ 1 := by
  have hone : d / 100 ≤ 1 := (div_le_one (by norm_num)).mpr h
  unfold lossPercent
  dsimp only
  split_ifs with hhalf
  · exact (half_le_self hhalf.2.le).trans hone
  · exact hone

theorem expLoss_le (env : Env) (s : State) {p : Rat} (hp : p ≤ 1) : expLoss env p s ≤ s.character.experience := by
  have hle : (s.character.experience.toNat : Rat) * p ≤ s.character.experience.toNat :=
    mul_le_of_le_one_right (Nat.cast_nonneg _) hp
  have hceil : ⌈(s.character.experience.toNat : Rat) * p⌉ ≤ s.character.experience.toNat :=
    Int.ceil_le.mpr (by exact_mod_cast hle)
  refine UInt64.le_trans (env.onLoseExperience_le _) (UInt64.le_iff_toNat_le.mpr ?_)
  rw [UInt64.toNat_ofNat']
  exact (Nat.mod_le ..).trans (Int.toNat_le.mpr hceil)

/-- The level is lowered to one that the experience is enough for. -/
theorem level_death (env : Level.Env) {c : Level.Character} (hlevel : 1 ≤ c.level)
    (h : Level.getExpForLevel c.level ≤ c.experience) (loss : UInt64) :
    Level.getExpForLevel (Level.death env c loss).level ≤ (Level.death env c loss).experience := by
  have hgen : ∀ (takes : Nat → Vocation) (experience : UInt64) (level : Nat) (stats : Level.Stats), 1 ≤ level →
      Level.getExpForLevel (Level.loseLevels takes experience level stats).1 ≤ experience := by
    intro takes experience level
    induction level with
    | zero => exact fun _ h => absurd h (by decide)
    | succ level ih =>
      intro stats hlevel
      unfold Level.loseLevels
      split_ifs with hlose
      · exact ih _ (by omega)
      · rcases Nat.eq_or_lt_of_le hlevel with hone | hmore
        · rw [← hone, Level.getExpForLevel_one]
          exact UInt64.zero_le
        · exact UInt64.not_lt.mp fun hlt => hlose ⟨hmore, hlt⟩
  unfold Level.death
  split_ifs
  · exact h
  · exact hgen _ _ _ _ hlevel
  · exact hgen _ _ _ _ hlevel

theorem magic_end {magLevel : Nat} (hpos : ∀ l, 0 < l → l ≤ magLevel → 0 < getReqMana env l) (h : manaFor env magLevel = 0) :
    magLevel = 0 := by
  cases magLevel with
  | zero => rfl
  | succ n =>
    rw [manaFor_succ] at h
    have := UInt64.lt_iff_toNat_lt.mp (hpos (n + 1) n.succ_pos le_rfl)
    have hzero : (0 : UInt64).toNat = 0 := rfl
    omega

theorem skill_end (hten : 10 ≤ level) (hpos : ∀ l, 10 < l → l ≤ level → 0 < getReqSkillTries env i l)
    (h : triesFor env i level = 0) : level = 10 := by
  rcases Nat.eq_or_lt_of_le hten with heq | hlt
  · exact heq.symm
  · obtain ⟨n, rfl⟩ : ∃ n, level = n + 1 := ⟨level - 1, by omega⟩
    rw [triesFor_succ (by omega)] at h
    have := UInt64.lt_iff_toNat_lt.mp (hpos (n + 1) hlt le_rfl)
    have hzero : (0 : UInt64).toNat = 0 := rfl
    omega

theorem skill_eq {skill : Skill} (hlevel : skill.level = 10) (htries : skill.tries = 0) : skill = ⟨10, 0⟩ := by
  rcases skill with ⟨level, tries⟩
  cases hlevel
  cases htries
  rfl

/-- The mana comes out as it should, always. -/
theorem loseMana_spec {p : Rat} (hp : p ≤ 1) (h : totalMana env s < 2 ^ 64) :
    let res := manaLoop env s.magLevel s.manaSpent (.ofNat (lostOf (totalMana env s) p))
    res.2.2 ≤ res.2.1 ∧ (loseMana env p s).magLevel ≤ s.magLevel ∧
      totalMana env (loseMana env p s) + lostOf (totalMana env s) p = totalMana env s := by
  have hle := lostOf_le (totalMana env s) hp
  have hcast : (UInt64.ofNat (lostOf (totalMana env s) p)).toNat = lostOf (totalMana env s) p := by
    rw [UInt64.toNat_ofNat']
    exact Nat.mod_eq_of_lt (hle.trans_lt h)
  obtain ⟨hdown, hrest, hsum⟩ := manaLoop_spec s.magLevel (hcast.trans_le hle)
  have hlose : loseMana env p s =
      let res := manaLoop env s.magLevel s.manaSpent (.ofNat (lostOf (totalMana env s) p))
      { s with magLevel := res.1, manaSpent := res.2.1 - res.2.2 } := by
    unfold loseMana
    rw [sumMana_toNat h]
    rfl
  rw [hcast] at hsum
  rw [hlose]
  refine ⟨hrest, hdown, ?_⟩
  rw [← UInt64.toNat_sub_of_le _ _ hrest] at hsum
  exact hsum

/-- Where no more is taken than there is, mana and the level come out as they should, and the skills just where the casts cut
    nothing off. -/
theorem death_exact_iff (hd : d ≤ 100) (h : InRange env s) :
    NoWrap env d s ∧ (Exact env d s (death env d s) ↔
      ∀ i, FitsCasts env i (lossPercent env.HALF_LOSS_SKILL d) (s.skills i)) := by
  obtain ⟨hmanaRest, hmagLevel, hmana⟩ := loseMana_spec (lossPercent_le env.HALF_LOSS_MAGIC hd) h.mana
  have htries := fun i => loseTries_spec (lossPercent_le env.HALF_LOSS_SKILL hd) (h.skills i) (h.tries i)
  refine ⟨⟨hmanaRest, fun i => ?_, expLoss_le env s (lossPercent_le env.HALF_LOSS_EXP hd)⟩,
    fun hexact i => (htries i).2.mp (hexact.tries i), fun hfits => ?_⟩
  · have hle := lostOf_le (totalTries env i (s.skills i)) (lossPercent_le env.HALF_LOSS_SKILL hd)
    refine (skillLoop_spec (h.skills i) (le_trans ?_ hle)).2.2.1
    rw [UInt32.toNat_ofNat']
    exact Nat.mod_le ..
  · have hlost := fun i => (htries i).2.mpr (hfits i)
    refine ⟨hmana, hmagLevel, fun hpos hall => ?_, hlost, fun i => (htries i).1, fun i hpos hall => ?_,
      level_death env.toEnv h.level h.experience _⟩
    · have hnone : totalMana env (death env d s) = 0 := by
        change totalMana env (loseMana env _ s) = 0
        unfold lostMana at hall
        omega
      obtain ⟨hlevels, hspent⟩ := Nat.add_eq_zero_iff.mp hnone
      exact ⟨magic_end (fun l hl hle => hpos l hl (hle.trans hmagLevel)) hlevels, UInt64.toNat_inj.mp hspent⟩
    · have hnone : totalTries env i ((death env d s).skills i) = 0 := by
        have hsum := hlost i
        change totalTries env i (loseTries env _ i (s.skills i)) = 0
        unfold lostTries at hall
        omega
      obtain ⟨hlevels, hleft⟩ := Nat.add_eq_zero_iff.mp hnone
      have hlevel := skill_end (htries i).1.1 (fun l hl hle => hpos l hl (hle.trans (htries i).1.2)) hlevels
      exact skill_eq hlevel (UInt64.toNat_inj.mp hleft)

/-! The vocation of rookies doubles the tries for a club level each time. One who falls to level 36 is left with more than 2 ^ 31
    tries and keeps none of them. -/

def rookEnv : Env where
  noneVocation := ⟨VOCATION_NONE, 5, 5, 10⟩
  ROOK_SYSTEM := false
  MIN_LEVEL_LEAVE_ROOK := 8
  HALF_LOSS_MAGIC := false
  HALF_LOSS_EXP := false
  HALF_LOSS_SKILL := false
  powMana magLevel := .ofNat (1600 * 4 ^ (magLevel - 1))
  powSkillTries i level := .ofNat (if i = 1 then 50 * 2 ^ (level - 11) else 100)
  onLoseExperience := id
  onLoseExperience_le _ := UInt64.le_refl _

def clubFighter (club : Nat) : State where
  magLevel := 1
  manaSpent := 70
  skills i := if i = 1 then ⟨club, 0⟩ else ⟨10, 0⟩
  character := ⟨⟨VOCATION_NONE, 5, 5, 10⟩, 8, 4200, ⟨185, 90, 470⟩⟩

theorem death_exact_club : NoWrap rookEnv 10 (clubFighter 14) ∧
    Exact rookEnv 10 (clubFighter 14) (death rookEnv 10 (clubFighter 14)) :=
  have h := death_exact_iff (by norm_num : (10 : Rat) ≤ 100)
    (⟨by decide +kernel, by decide +kernel, by decide +kernel, by decide, by decide +kernel⟩ :
      InRange rookEnv (clubFighter 14))
  ⟨h.1, h.2.mpr (by unfold FitsCasts; decide +kernel)⟩

theorem death_not_exact : InRange rookEnv (clubFighter 37) ∧
    ¬Exact rookEnv 10 (clubFighter 37) (death rookEnv 10 (clubFighter 37)) := by
  refine ⟨⟨by decide +kernel, by decide +kernel, by decide +kernel, by decide, by decide +kernel⟩, fun h => ?_⟩
  have hclub := h.tries 1
  revert hclub
  decide +kernel

end CrystalServer.Death
