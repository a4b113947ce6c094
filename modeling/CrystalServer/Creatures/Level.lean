import CrystalServer.Lib.Run
import Mathlib.Data.UInt
import Mathlib.Data.Rat.Floor

/-! # Levels, skills and what a death takes

How `Player` gains and loses levels, skills and magic levels (`creatures/players/player.cpp`). Vocation 0 is in the data
files. The percentages that the player sees are left out. -/

/-! ## Levels

How a player gains and loses levels with his experience, and health, mana and capacity with his levels. -/

namespace CrystalServer

/-- What levels read of a `Vocation`. -/
structure Vocation where
  id : UInt16
  gainHP : UInt32
  gainMana : UInt32
  gainCap : UInt32
  deriving DecidableEq

def VOCATION_NONE : UInt16 := 0

namespace Level

/-- The vocation of rookies, and the settings. -/
structure Env where
  noneVocation : Vocation
  ROOK_SYSTEM : Bool
  MIN_LEVEL_LEAVE_ROOK : UInt32

structure Stats where
  healthMax : Int32
  manaMax : UInt32
  capacity : UInt32
  deriving DecidableEq

structure Character where
  vocation : Vocation
  level : Nat
  experience : UInt64
  stats : Stats
  deriving DecidableEq

/-- `Player::getExpForLevel`. -/
def getExpForLevel (level : Nat) : UInt64 :=
  let level : UInt64 := .ofNat level
  (((level - 6) * level + 17) * level - 12) / 6 * 100

def Stats.gain (s : Stats) (v : Vocation) : Stats :=
  ⟨s.healthMax + v.gainHP.toInt32, s.manaMax + v.gainMana, s.capacity + v.gainCap⟩

/-- `std::max<int32_t>(0, n - gain)` in each of them. -/
def Stats.lose (s : Stats) (v : Vocation) : Stats :=
  ⟨max 0 (s.healthMax - v.gainHP.toInt32), (max 0 (s.manaMax - v.gainMana).toInt32).toUInt32,
    (max 0 (s.capacity - v.gainCap).toInt32).toUInt32⟩

/-- Whose gains `addExperience` gives for reaching a level. -/
def gainVocation (env : Env) (vocation : Vocation) (level : Nat) : Vocation :=
  if vocation.id ≠ VOCATION_NONE ∧ env.ROOK_SYSTEM ∧ level ≤ env.MIN_LEVEL_LEAVE_ROOK.toNat then env.noneVocation
  else vocation

/-- Whose gains `removeExperience` takes for falling to a level. -/
def removeVocation (env : Env) (vocation : Vocation) (level : Nat) : Vocation :=
  if vocation.id ≠ VOCATION_NONE ∧ level ≤ 8 then env.noneVocation else vocation

/-- Whose gains `death` takes for falling to a level. -/
def deathVocation (env : Env) (vocation : Vocation) (level : Nat) : Vocation :=
  if vocation.id ≠ VOCATION_NONE ∧ env.ROOK_SYSTEM ∧ level < env.MIN_LEVEL_LEAVE_ROOK.toNat then env.noneVocation
  else vocation

/-- The loop of `addExperience`. -/
def gainLevels (env : Env) (vocation : Vocation) (experience : UInt64) (level : Nat) (stats : Stats)
    (nextLevelExp : UInt64) : Nat × Stats :=
  if experience ≥ nextLevelExp then
    if nextLevelExp ≥ getExpForLevel (level + 1 + 1) then (level + 1, stats.gain (gainVocation env vocation (level + 1)))
    else gainLevels env vocation experience (level + 1) (stats.gain (gainVocation env vocation (level + 1)))
      (getExpForLevel (level + 1 + 1))
  else (level, stats)
termination_by 2 ^ 64 - nextLevelExp.toNat
decreasing_by
  have hlt := UInt64.lt_iff_toNat_lt.mp (UInt64.not_le.mp ‹¬nextLevelExp ≥ getExpForLevel (level + 1 + 1)›)
  have := (getExpForLevel (level + 1 + 1)).toNat_lt
  omega

/-- The loops of `removeExperience` and `death`. -/
def loseLevels (takes : Nat → Vocation) (experience : UInt64) : Nat → Stats → Nat × Stats
  | 0, stats => (0, stats)
  | level + 1, stats =>
    if level + 1 > 1 ∧ experience < getExpForLevel (level + 1) then
      loseLevels takes experience level (stats.lose (takes level))
    else (level + 1, stats)

/-- `Player::addExperience`; `bonus` is what the hazard system and the animus mastery make of the amount. -/
def addExperience (env : Env) (c : Character) (exp : UInt64) (bonus : UInt64 → UInt64) : Character :=
  if getExpForLevel c.level ≥ getExpForLevel (c.level + 1) then c
  else if exp = 0 then c
  else
    let experience := c.experience + bonus exp
    let (level, stats) := gainLevels env c.vocation experience c.level c.stats (getExpForLevel (c.level + 1))
    { c with level, experience, stats }

/-- `Player::removeExperience`. -/
def removeExperience (env : Env) (c : Character) (exp : UInt64) : Character :=
  if c.experience = 0 ∨ exp = 0 then c
  else
    let experience := (max 0 (c.experience - exp).toInt64).toUInt64
    let (level, stats) := loseLevels (removeVocation env c.vocation) experience c.level c.stats
    { c with level, experience, stats }

/-- The loss of levels in `Player::death`. -/
def death (env : Env) (c : Character) (expLoss : UInt64) : Character :=
  if expLoss = 0 then c
  else
    let experience := if c.vocation.id = VOCATION_NONE ∨ c.level > 7 then c.experience - expLoss else c.experience
    let (level, stats) := loseLevels (deathVocation env c.vocation) experience c.level c.stats
    { c with level, experience, stats }

inductive Event
  | addExperience (exp : UInt64) (bonus : UInt64 → UInt64)
  | removeExperience (exp : UInt64)
  | death (expLoss : UInt64)

def step (env : Env) (c : Character) : Event → Character
  | .addExperience exp bonus => addExperience env c exp bonus
  | .removeExperience exp => removeExperience env c exp
  | .death expLoss => death env c expLoss

end Level
end CrystalServer

/-! ## What a death takes

The losses of magic level, skills and levels in `Player::death`, for a percentage that is a rational number. A cast to 32 bits
takes the lower bits. -/

namespace CrystalServer.Death

def SKILL_LAST : Nat := 12

/-- `skills_t`, from `SKILL_FIRST` to `SKILL_LAST`. -/
abbrev SkillId := Fin (SKILL_LAST + 1)

/-- `Skill`, without its percentage. -/
structure Skill where
  level : Nat
  tries : UInt64
  deriving DecidableEq

/-- What a death reads beside the player: the settings, what the vocation computes with `pow`, and the scripts for
    `onLoseExperience`, which give the amount back as it is, and no more than that. -/
structure Env extends Level.Env where
  HALF_LOSS_MAGIC : Bool
  HALF_LOSS_EXP : Bool
  HALF_LOSS_SKILL : Bool
  powMana : Nat → UInt64
  powSkillTries : SkillId → Nat → UInt64
  onLoseExperience : UInt64 → UInt64
  onLoseExperience_le : ∀ exp, onLoseExperience exp ≤ exp

structure State where
  magLevel : Nat
  manaSpent : UInt64
  skills : SkillId → Skill
  character : Level.Character

def minSkillLevel : Nat := 10

variable (env : Env)

/-- `Vocation::getReqMana`. -/
def getReqMana (magLevel : Nat) : UInt64 := if magLevel = 0 then 0 else env.powMana magLevel

/-- `Vocation::getReqSkillTries`. -/
def getReqSkillTries (skill : SkillId) (level : Nat) : UInt64 :=
  if level ≤ minSkillLevel then 0 else env.powSkillTries skill level

/-- The percentage of one kind of loss. -/
def lossPercent (half : Bool) (deathLossPercent : Rat) : Rat :=
  let lossPercent := deathLossPercent / 100
  if half ∧ lossPercent > 0 then lossPercent / 2 else lossPercent

/-! ### Magic level -/

def sumMana (s : State) : UInt64 := ((List.range' 1 s.magLevel).map (getReqMana env)).sum + s.manaSpent

/-- The loop over the magic levels, with `manaSpent` and `lostMana`. -/
def manaLoop : Nat → UInt64 → UInt64 → Nat × UInt64 × UInt64
  | 0, manaSpent, lostMana => (0, manaSpent, lostMana)
  | magLevel + 1, manaSpent, lostMana =>
    if lostMana > manaSpent then manaLoop magLevel (getReqMana env (magLevel + 1)) (lostMana - manaSpent)
    else (magLevel + 1, manaSpent, lostMana)

def loseMana (magicLossPercent : Rat) (s : State) : State :=
  let lostMana := UInt64.ofNat ⌊(sumMana env s).toNat * magicLossPercent⌋.toNat
  let (magLevel, manaSpent, lostMana) := manaLoop env s.magLevel s.manaSpent lostMana
  { s with magLevel, manaSpent := manaSpent - lostMana }

/-! ### Skills -/

def sumSkillTries (i : SkillId) (skill : Skill) : UInt64 :=
  ((List.range' 11 (skill.level - 10)).map (getReqSkillTries env i)).sum + skill.tries

/-- The loop over the levels of a skill, with `tries` and `lostSkillTries`. -/
def skillLoop (i : SkillId) : Nat → UInt64 → UInt32 → Nat × UInt64 × UInt32
  | 0, tries, lostSkillTries => if lostSkillTries.toUInt64 > tries then (10, 0, 0) else (0, tries, lostSkillTries)
  | level + 1, tries, lostSkillTries =>
    if lostSkillTries.toUInt64 > tries then
      let lostSkillTries := (lostSkillTries.toUInt64 - tries).toUInt32
      if level + 1 ≤ 10 then (10, 0, 0) else skillLoop i level (getReqSkillTries env i (level + 1)) lostSkillTries
    else (level + 1, tries, lostSkillTries)

/-- `std::max<int32_t>(0, skills[i].tries - lostSkillTries)`. -/
def triesLeft (tries : UInt64) (lostSkillTries : UInt32) : UInt64 :=
  .ofNat (max 0 (tries - lostSkillTries.toUInt64).toUInt32.toInt32).toInt.toNat

def loseTries (skillLossPercent : Rat) (i : SkillId) (skill : Skill) : Skill :=
  let lostSkillTries := UInt32.ofNat ⌊(sumSkillTries env i skill).toNat * skillLossPercent⌋.toNat
  let (level, tries, lostSkillTries) := skillLoop env i skill.level skill.tries lostSkillTries
  ⟨level, triesLeft tries lostSkillTries⟩

/-! ### All losses -/

def expLoss (expLossPercent : Rat) (s : State) : UInt64 :=
  env.onLoseExperience (.ofNat ⌈s.character.experience.toNat * expLossPercent⌉.toNat)

/-- The losses in `Player::death`. -/
def death (deathLossPercent : Rat) (s : State) : State :=
  let lost := loseMana env (lossPercent env.HALF_LOSS_MAGIC deathLossPercent) s
  { lost with
    skills := fun i => loseTries env (lossPercent env.HALF_LOSS_SKILL deathLossPercent) i (s.skills i)
    character := Level.death env.toEnv s.character (expLoss env (lossPercent env.HALF_LOSS_EXP deathLossPercent) s) }

end CrystalServer.Death

/-! ## Training

`Player::addManaSpent` and `Player::addOfflineTrainingTries`, with scripts that leave the amounts as they are. The messages are
left out. A level wraps around at the width of its type. -/

namespace CrystalServer.Training
open Death

/-- `skills_t`, without `SKILL_NONE`. -/
inductive Trained where
  | skill (i : SkillId)
  | magLevel
  | level
  deriving DecidableEq

/-- A level, and what is spent towards the next. -/
structure Progress where
  level : Nat
  spent : UInt64
  deriving DecidableEq

/-- The level after a level that is `width` values wide. -/
def levelAfter (width level : Nat) : Nat := (level + 1) % width

/-- The loop of both functions, for so many rounds, on the levels that ask for `req`; `none` if they are not enough. Beside
    the progress it leaves what is left of the amount, and whether it left at the highest level. -/
def levelLoop (req : Nat → UInt64) (width : Nat) : Nat → Progress → UInt64 → Option (Progress × UInt64 × Bool)
  | 0, _, _ => none
  | n + 1, p, amount =>
    let nextReq := req (levelAfter width p.level)
    if p.spent + amount ≥ nextReq then
      let amount := amount - (nextReq - p.spent)
      let p : Progress := ⟨levelAfter width p.level, 0⟩
      if nextReq ≥ req (levelAfter width p.level) then some (p, amount, true) else levelLoop req width n p amount
    else some (p, amount, false)

variable (env : Death.Env)

/-- The values of a `uint32_t` magic level. -/
def magWidth : Nat := 2 ^ 32

/-- The values of a `uint16_t` level of a skill. -/
def skillWidth : Nat := 2 ^ 16

/-- `Player::addManaSpent`; no loop is longer than there are levels. -/
def addManaSpent (notGainMana : Bool) (amount : UInt64) (s : State) : Option State :=
  if notGainMana then some s
  else if getReqMana env s.magLevel ≥ getReqMana env (levelAfter magWidth s.magLevel) then some s
  else if amount = 0 then some s
  else
    (levelLoop (getReqMana env) magWidth magWidth ⟨s.magLevel, s.manaSpent⟩ amount).map fun left =>
      let (p, amount, highest) := left
      { s with magLevel := p.level, manaSpent := if highest then p.spent else p.spent + amount }

/-- `Player::addOfflineTrainingTries`. -/
def addOfflineTrainingTries (skill : Trained) (tries : UInt64) (s : State) : Option State :=
  if tries = 0 then some s
  else
    match skill with
    | .level => some s
    | .magLevel =>
      if getReqMana env s.magLevel ≥ getReqMana env (levelAfter magWidth s.magLevel) then some s
      else
        (levelLoop (getReqMana env) magWidth magWidth ⟨s.magLevel, s.manaSpent⟩ tries).map fun left =>
          let (p, tries, highest) := left
          let tries := if highest then 0 else tries
          { s with magLevel := p.level, manaSpent := p.spent + tries }
    | .skill i =>
      let skill := s.skills i
      if getReqSkillTries env i skill.level ≥ getReqSkillTries env i (levelAfter skillWidth skill.level) then some s
      else
        (levelLoop (getReqSkillTries env i) skillWidth skillWidth ⟨skill.level, skill.tries⟩ tries).map
          fun left =>
            let (p, tries, highest) := left
            let tries := if highest then 0 else tries
            { s with skills := Function.update s.skills i ⟨p.level, p.spent + tries⟩ }

end CrystalServer.Training
