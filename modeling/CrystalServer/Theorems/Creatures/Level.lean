import CrystalServer.Creatures.Level

/-! # Stats that depend on the level

Each level that is gained gives the gains of `gainVocation`. Where the levels that are lost take the same gains, and nothing
is clamped at zero, health, mana and capacity stay what they were at the start plus a function of the level. -/

namespace CrystalServer.Level
open Lib
variable (env : Env) (vocation : Vocation)

/-- The experience is that of the level, or the level is the last one. -/
def Bracket (c : Character) : Prop :=
  1 ≤ c.level ∧ getExpForLevel c.level ≤ c.experience ∧
    (c.experience < getExpForLevel (c.level + 1) ∨ getExpForLevel (c.level + 1) ≤ getExpForLevel c.level)

/-- Nothing is clamped when the gains are taken. -/
def Covers (s : Stats) (v : Vocation) : Prop :=
  0 ≤ s.healthMax - v.gainHP.toInt32 ∧ 0 ≤ (s.manaMax - v.gainMana).toInt32 ∧ 0 ≤ (s.capacity - v.gainCap).toInt32

def SameGains (v w : Vocation) : Prop := v.gainHP = w.gainHP ∧ v.gainMana = w.gainMana ∧ v.gainCap = w.gainCap

instance (c : Character) : Decidable (Bracket c) := inferInstanceAs (Decidable (_ ∧ _ ∧ (_ ∨ _)))
instance (s : Stats) (v : Vocation) : Decidable (Covers s v) := inferInstanceAs (Decidable (_ ∧ _ ∧ _))
instance (v w : Vocation) : Decidable (SameGains v w) := inferInstanceAs (Decidable (_ ∧ _ ∧ _))

/-- Each level that is lost takes what it gave, and nothing is clamped. -/
def Returns (takes : Nat → Vocation) (experience : UInt64) : Nat → Stats → Prop
  | 0, _ => True
  | level + 1, s =>
    level + 1 > 1 ∧ experience < getExpForLevel (level + 1) →
      SameGains (takes level) (gainVocation env vocation (level + 1)) ∧ Covers s (takes level) ∧
        Returns takes experience level (s.lose (takes level))

/-- The experience does not wrap, and the levels that are lost return what they gave. -/
def Meets (c : Character) : Event → Prop
  | .addExperience exp bonus => c.experience.toNat + (bonus exp).toNat < 2 ^ 64
  | .removeExperience exp =>
    exp.toNat ≤ c.experience.toNat + 2 ^ 63 ∧ Returns env c.vocation (removeVocation env c.vocation)
      (max 0 (c.experience - exp).toInt64).toUInt64 c.level c.stats
  | .death expLoss =>
    (c.vocation.id = VOCATION_NONE ∨ c.level > 7 → expLoss ≤ c.experience) ∧
      Returns env c.vocation (deathVocation env c.vocation)
        (if c.vocation.id = VOCATION_NONE ∨ c.level > 7 then c.experience - expLoss else c.experience) c.level c.stats

/-- The gains of all levels up to one. -/
def total : Nat → Stats
  | 0 => ⟨0, 0, 0⟩
  | level + 1 => (total level).gain (gainVocation env vocation (level + 1))

/-- The stats without the gains of the levels. -/
def base (level : Nat) (s : Stats) : Stats :=
  ⟨s.healthMax - (total env vocation level).healthMax, s.manaMax - (total env vocation level).manaMax,
    s.capacity - (total env vocation level).capacity⟩

variable {env vocation} {takes : Nat → Vocation} {experience : UInt64} {level : Nat} {s s' : Stats} {v w : Vocation}
  {c : Character}

theorem stats_eq (h : base env vocation level s = base env vocation level s') : s = s' := by
  obtain ⟨hhealth, hmana, hcap⟩ := Stats.mk.inj h
  rcases s with ⟨healthMax, manaMax, capacity⟩
  rcases s' with ⟨healthMax', manaMax', capacity'⟩
  dsimp only at hhealth hmana hcap
  congr 1 <;> grind

theorem total_succ (env : Env) (vocation : Vocation) (level : Nat) :
    total env vocation (level + 1) = (total env vocation level).gain (gainVocation env vocation (level + 1)) := rfl

theorem base_gain (env : Env) (vocation : Vocation) (level : Nat) (s : Stats) :
    base env vocation (level + 1) (s.gain (gainVocation env vocation (level + 1))) = base env vocation level s := by
  unfold base
  rw [total_succ]
  unfold Stats.gain
  dsimp only
  congr 1 <;> grind

theorem toUInt32_max (n : UInt32) (h : 0 ≤ n.toInt32) : (max 0 n.toInt32).toUInt32 = n := by
  have hmax : max 0 n.toInt32 = n.toInt32 := if_pos h
  rw [hmax]
  exact UInt32.toUInt32_toInt32 n

theorem lose_eq (h : Covers s v) :
    s.lose v = ⟨s.healthMax - v.gainHP.toInt32, s.manaMax - v.gainMana, s.capacity - v.gainCap⟩ := by
  obtain ⟨hhealth, hmana, hcap⟩ := h
  have hmax : max 0 (s.healthMax - v.gainHP.toInt32) = s.healthMax - v.gainHP.toInt32 := if_pos hhealth
  unfold Stats.lose
  rw [hmax, toUInt32_max _ hmana, toUInt32_max _ hcap]

theorem base_lose (hs : Covers s v) (hv : SameGains v (gainVocation env vocation (level + 1))) :
    base env vocation level (s.lose v) = base env vocation (level + 1) s := by
  obtain ⟨hHP, hMana, hCap⟩ := hv
  rw [lose_eq hs, hHP, hMana, hCap]
  unfold base
  rw [total_succ]
  unfold Stats.gain
  dsimp only
  congr 1 <;> grind

/-! ### The loops -/

theorem getExpForLevel_one : getExpForLevel 1 = 0 := by decide

/-- Gaining levels ends in the level of the experience, or the last one. -/
theorem gainLevels_spec (env : Env) (vocation : Vocation) (experience : UInt64) (level : Nat) (s : Stats)
    (h : getExpForLevel level ≤ experience) (hlevel : 1 ≤ level) :
    ∃ level' s', gainLevels env vocation experience level s (getExpForLevel (level + 1)) = (level', s') ∧ 1 ≤ level' ∧
      base env vocation level' s' = base env vocation level s ∧ getExpForLevel level' ≤ experience ∧
      (experience < getExpForLevel (level' + 1) ∨ getExpForLevel (level' + 1) ≤ getExpForLevel level') := by
  have hgen : ∀ (n : Nat) (level : Nat) (s : Stats), 2 ^ 64 - (getExpForLevel (level + 1)).toNat = n →
      getExpForLevel level ≤ experience → 1 ≤ level →
      ∃ level' s', gainLevels env vocation experience level s (getExpForLevel (level + 1)) = (level', s') ∧ 1 ≤ level' ∧
        base env vocation level' s' = base env vocation level s ∧ getExpForLevel level' ≤ experience ∧
        (experience < getExpForLevel (level' + 1) ∨ getExpForLevel (level' + 1) ≤ getExpForLevel level') := by
    intro n
    -- The next level asks for more experience in each round.
    induction n using Nat.strongRecOn with
    | ind n ih =>
      intro level s hn h hlevel
      rw [gainLevels]
      split_ifs with hnext hlast
      · exact ⟨_, _, rfl, Nat.succ_le_succ (Nat.zero_le _), base_gain env vocation level s, hnext, Or.inr hlast⟩
      · have hlt := UInt64.lt_iff_toNat_lt.mp (UInt64.not_le.mp hlast)
        have hbound := (getExpForLevel (level + 1 + 1)).toNat_lt
        obtain ⟨level', s', heq, hone, hbase, hexp, hmax⟩ := ih _ (by omega) (level + 1)
          (s.gain (gainVocation env vocation (level + 1))) rfl hnext (Nat.succ_le_succ (Nat.zero_le _))
        exact ⟨level', s', heq, hone, hbase.trans (base_gain env vocation level s), hexp, hmax⟩
      · exact ⟨level, s, rfl, hlevel, rfl, h, Or.inl (UInt64.not_le.mp hnext)⟩
  exact hgen _ level s rfl h hlevel

/-- Losing levels that return what they gave ends in the level of the experience. -/
theorem loseLevels_spec (level : Nat) (s : Stats) (hlevel : 1 ≤ level)
    (hmax : experience < getExpForLevel (level + 1) ∨ getExpForLevel (level + 1) ≤ getExpForLevel level)
    (hr : Returns env vocation takes experience level s) :
    ∃ level' s', loseLevels takes experience level s = (level', s') ∧ 1 ≤ level' ∧
      base env vocation level' s' = base env vocation level s ∧ getExpForLevel level' ≤ experience ∧
      (experience < getExpForLevel (level' + 1) ∨ getExpForLevel (level' + 1) ≤ getExpForLevel level') := by
  induction level generalizing s with
  | zero => exact absurd hlevel (Nat.not_succ_le_zero 0)
  | succ level ih =>
    rw [loseLevels]
    split_ifs with hlose
    · obtain ⟨hsame, hcovers, hrest⟩ := hr hlose
      obtain ⟨level', s', heq, hone, hbase, hexp, hmax⟩ := ih (s.lose (takes level)) (by omega) (Or.inl hlose.2) hrest
      exact ⟨level', s', heq, hone, hbase.trans (base_lose hcovers hsame), hexp, hmax⟩
    · refine ⟨level + 1, s, rfl, hlevel, rfl, ?_, hmax⟩
      rcases Nat.eq_or_lt_of_le hlevel with hone | hmore
      · rw [← hone, getExpForLevel_one]
        exact UInt64.zero_le
      · exact UInt64.not_lt.mp fun hlt => hlose ⟨hmore, hlt⟩

/-! ### Steps -/

/-- The stats of a character without the gains of his levels. -/
def Character.base (env : Env) (c : Character) : Stats := Level.base env c.vocation c.level c.stats

theorem toInt_toInt64 (n : UInt64) : 0 ≤ n.toInt64.toInt → n.toNat < 2 ^ 63 := by
  have hvalue : n.toInt64.toInt = n.toBitVec.toInt := rfl
  rw [hvalue, BitVec.toInt_eq_toNat_cond, UInt64.toNat_toBitVec]
  have := n.toNat_lt
  split_ifs <;> omega

theorem remaining_le {experience exp : UInt64} (h : exp.toNat ≤ experience.toNat + 2 ^ 63) :
    (max 0 (experience - exp).toInt64).toUInt64 ≤ experience := by
  by_cases hneg : 0 ≤ (experience - exp).toInt64
  · have hmax : max 0 (experience - exp).toInt64 = (experience - exp).toInt64 := if_pos hneg
    rw [hmax, UInt64.toUInt64_toInt64, UInt64.le_iff_toNat_le]
    have hsmall := toInt_toInt64 _ (Int64.le_iff_toInt_le.mp hneg)
    have hlt := experience.toNat_lt
    have hlt' := exp.toNat_lt
    rw [UInt64.toNat_sub] at hsmall ⊢
    omega
  · have hmax : max 0 (experience - exp).toInt64 = 0 := if_neg hneg
    rw [hmax]
    exact UInt64.zero_le

theorem bracket_step (hb : Bracket c) (e : Event) (h : Meets env c e) :
    Bracket (step env c e) ∧ (step env c e).vocation = c.vocation ∧ (step env c e).base env = c.base env := by
  obtain ⟨hone, hexp, hmax⟩ := hb
  have hstays : Bracket c ∧ c.vocation = c.vocation ∧ c.base env = c.base env := ⟨⟨hone, hexp, hmax⟩, rfl, rfl⟩
  cases e with
  | addExperience exp bonus =>
    change c.experience.toNat + (bonus exp).toNat < 2 ^ 64 at h
    have hmore : getExpForLevel c.level ≤ c.experience + bonus exp := by
      refine UInt64.le_trans hexp (UInt64.le_iff_toNat_le.mpr ?_)
      rw [UInt64.toNat_add, Nat.mod_eq_of_lt h]
      exact Nat.le_add_right _ _
    obtain ⟨level', s', heq, hone', hbase, hexp', hmax'⟩ :=
      gainLevels_spec env c.vocation (c.experience + bonus exp) c.level c.stats hmore hone
    unfold step addExperience
    dsimp only
    split_ifs
    · exact hstays
    · exact hstays
    · rw [heq]
      exact ⟨⟨hone', hexp', hmax'⟩, rfl, hbase⟩
  | removeExperience exp =>
    obtain ⟨hle, hr⟩ := h
    have hless := remaining_le hle
    obtain ⟨level', s', heq, hone', hbase, hexp', hmax'⟩ :=
      loseLevels_spec c.level c.stats hone (hmax.imp_left (UInt64.lt_of_le_of_lt hless)) hr
    unfold step removeExperience
    dsimp only
    split_ifs
    · exact hstays
    · rw [heq]
      exact ⟨⟨hone', hexp', hmax'⟩, rfl, hbase⟩
  | death expLoss =>
    obtain ⟨hle, hr⟩ := h
    have hless : (if c.vocation.id = VOCATION_NONE ∨ c.level > 7 then c.experience - expLoss else c.experience) ≤
        c.experience := by
      split_ifs with hlow
      · have hle := hle hlow
        rw [UInt64.le_iff_toNat_le, UInt64.toNat_sub_of_le _ _ hle]
        exact Nat.sub_le _ _
      · exact UInt64.le_refl _
    obtain ⟨level', s', heq, hone', hbase, hexp', hmax'⟩ :=
      loseLevels_spec c.level c.stats hone (hmax.imp_left (UInt64.lt_of_le_of_lt hless)) hr
    unfold step death
    dsimp only
    split_ifs
    · exact hstays
    all_goals
      rename_i hlow
      first
      | rw [if_pos hlow] at heq hexp' hmax'
      | rw [if_neg hlow] at heq hexp' hmax'
      rw [heq]
      exact ⟨⟨hone', hexp', hmax'⟩, rfl, hbase⟩

/-- What a run keeps whose steps all return what they gave. -/
theorem bracket_run {events : List Event} (hb : Bracket c) (h : Lib.Meets (step env) (Meets env) c events) :
    Bracket (run (step env) c events) ∧ (run (step env) c events).vocation = c.vocation ∧
      (run (step env) c events).base env = c.base env := by
  refine run_invariant (fun d => Bracket d ∧ d.vocation = c.vocation ∧ d.base env = c.base env) ?_ ⟨hb, rfl, rfl⟩ h
  rintro d e ⟨hd, hvocation, hbase⟩ hmeets
  obtain ⟨hd', hvocation', hbase'⟩ := bracket_step hd e hmeets
  exact ⟨hd', hvocation'.trans hvocation, hbase'.trans hbase⟩

/-- In a run whose steps all return what they gave: the experience is always that of the level, and whenever the character
is at a level that he was at before, he has the stats that he had then. -/
theorem stats_of_level (env : Env) (c : Character) (events : List Event) (hb : Bracket c)
    (h : Lib.Meets (step env) (Meets env) c events) :
    Bracket (run (step env) c events) ∧ ∀ before, before <+: events →
      (run (step env) c before).level = (run (step env) c events).level →
      (run (step env) c before).stats = (run (step env) c events).stats := by
  obtain ⟨hend, hvocation, hbase⟩ := bracket_run hb h
  refine ⟨hend, ?_⟩
  rintro before ⟨after, rfl⟩ hlevel
  obtain ⟨-, hvocation', hbase'⟩ := bracket_run hb h.of_append
  have heq := hbase'.trans hbase.symm
  unfold Character.base at heq
  rw [hvocation', hvocation, hlevel] at heq
  exact stats_eq heq

def rookgaard : Env := ⟨⟨0, 5, 5, 1000⟩, false, 8⟩

def knight (level : Nat) (experience : UInt64) (healthMax : Int32) (capacity : UInt32) : Character :=
  ⟨⟨4, 15, 5, 2500⟩, level, experience, ⟨healthMax, 90, capacity⟩⟩

theorem knight_gains :
    addExperience rookgaard (knight 8 4200 185 47000) 2200 id =
      { knight 9 6400 200 49500 with stats := ⟨200, 95, 49500⟩ } := by
  unfold addExperience
  rw [if_neg (by decide), if_neg (by decide)]
  dsimp only
  rw [gainLevels, if_pos (by decide), if_neg (by decide), gainLevels, if_neg (by decide)]
  decide

/-- A knight who gains level nine and dies has the stats that he had at level eight. -/
theorem stats_of_level_death :
    (run (step rookgaard) (knight 8 4200 185 47000) [.addExperience 2200 id, .death 2200]).stats = ⟨185, 90, 47000⟩ := by
  have hmeets : Lib.Meets (step rookgaard) (Meets rookgaard) (knight 8 4200 185 47000)
      [.addExperience 2200 id, .death 2200] := by
    refine ⟨(by decide : 4200 + 2200 < 2 ^ 64), ?_, trivial⟩
    rw [step, knight_gains]
    refine ⟨fun _ => by decide, fun _ => ⟨by decide, by decide, fun h => absurd h (by decide)⟩⟩
  have hlevel : (run (step rookgaard) (knight 8 4200 185 47000) [.addExperience 2200 id, .death 2200]).level = 8 := by
    rw [run_cons, run_cons, run_nil, step, knight_gains]
    decide
  exact ((stats_of_level rookgaard (knight 8 4200 185 47000) _ (by decide) hmeets).2 [] List.nil_prefix hlevel.symm).symm

/-- Falling from level nine to eight by `removeExperience` takes the gains of vocation 0. -/
theorem stats_drift : ¬ ∀ (env : Env) (c : Character) (events : List Event), Bracket c → ∀ before, before <+: events →
    (run (step env) c before).level = (run (step env) c events).level →
    (run (step env) c before).stats = (run (step env) c events).stats := by
  intro h
  have hrun : run (step rookgaard) (knight 8 4200 185 47000) [.addExperience 2200 id, .removeExperience 2200] =
      { knight 8 4200 195 48500 with stats := ⟨195, 90, 48500⟩ } := by
    rw [run_cons, run_cons, run_nil, step, knight_gains]
    decide
  have hstats := h rookgaard (knight 8 4200 185 47000) _ (by decide) [] List.nil_prefix (by rw [hrun]; decide)
  rw [hrun] at hstats
  exact absurd hstats (by decide)

end CrystalServer.Level
