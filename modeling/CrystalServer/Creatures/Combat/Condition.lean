import Mathlib.Data.UInt
import CrystalServer.Lib.Run

/-! # Conditions

What every condition has (`Condition` in `creatures/combat/condition.cpp`). The clock is an argument, and so is whether the
player deflects the condition, which is drawn by chance. -/

namespace CrystalServer

/-- `ConditionType_t`. -/
inductive ConditionType_t
  | NONE | POISON | FIRE | ENERGY | BLEEDING | HASTE | PARALYZE | OUTFIT | INVISIBLE | LIGHT | MANASHIELD | INFIGHT | DRUNK
  | EXHAUST | REGENERATION | SOUL | DROWN | MUTED | CHANNELMUTEDTICKS | YELLTICKS | ATTRIBUTES | FREEZING | DAZZLED | CURSED
  | EXHAUST_COMBAT | EXHAUST_HEAL | PACIFIED | SPELLCOOLDOWN | SPELLGROUPCOOLDOWN | ROOTED | FEARED | LESSERHEX | INTENSEHEX
  | GREATERHEX | BAKRAGORE | GOSHNARTAINT | POWERLESS | AGONY
  deriving DecidableEq

/-- `Condition`. The ids are those of `ConditionId_t`, the sounds those of `SoundEffect_t`. -/
structure Condition where
  drainBodyStage : UInt8
  endTime : Int64
  subId : UInt32
  ticks : Int32
  conditionType : ConditionType_t
  id : Int8
  isBuff : Bool
  m_isPersistent : Bool
  tickSound : UInt16
  addSound : UInt16
  deriving DecidableEq

namespace Condition

/-- `Condition::setTicks`. -/
def setTicks (c : Condition) (OTSYS_TIME : Int64) (newTicks : Int32) : Condition :=
  { c with ticks := newTicks, endTime := newTicks.toInt64 + OTSYS_TIME }

/-- `Condition::startCondition`; `none` where it returns `false`. -/
def startCondition (c : Condition) (OTSYS_TIME : Int64) (deflects : Bool) : Option Condition :=
  if deflects then none
  else if c.ticks > 0 then some { c with endTime := c.ticks.toInt64 + OTSYS_TIME } else some c

/-- `Condition::updateCondition`. -/
def updateCondition (c addCondition : Condition) (OTSYS_TIME : Int64) (deflects : Bool) : Bool :=
  if c.conditionType ≠ addCondition.conditionType then false
  else if c.ticks = -1 ∧ addCondition.ticks > 0 then false
  else if addCondition.ticks ≥ 0 ∧ c.endTime > OTSYS_TIME + addCondition.ticks.toInt64 then false
  else !deflects

end Condition
end CrystalServer

/-! ## Speed

`ConditionSpeed` (`creatures/combat/condition.cpp`), `Game::changeSpeed` (`game/game.cpp`) and the speed of a creature
(`creatures/creature.cpp`). -/

namespace CrystalServer

/-- `ConditionSpeed`; the variables of the formula are the bits of a `float`. -/
structure ConditionSpeed extends Condition where
  speedDelta : Int32
  mina : UInt32
  minb : UInt32
  maxa : UInt32
  maxb : UInt32
  deriving DecidableEq

/-- `ConditionSpeed::getFormulaValues` for the four variables, in the arithmetic of `float`. -/
abbrev Formula := UInt32 → UInt32 → UInt32 → UInt32 → Int32 → Int32 × Int32

/-- What one call of `uniform_random` draws between two bounds. -/
abbrev Draw := Int32 → Int32 → Int32

/-- `PLAYER_MAX_SPEED`. -/
def PLAYER_MAX_SPEED : Int := 65535

namespace ConditionSpeed

/-- The speed that a condition without a delta of its own draws. -/
def drawSpeed (formula : Formula) (uniform_random : Draw) (c : ConditionSpeed) (baseSpeed : UInt16) : Int32 :=
  let base : Int32 := .ofNat baseSpeed.toNat
  let (min, max) := formula c.mina c.minb c.maxa c.maxb base
  let speedDelta := uniform_random min max - base
  if c.conditionType = .PARALYZE ∧ speedDelta < 40 - base then 40 - base else speedDelta

/-- The condition with its delta. -/
def drawn (formula : Formula) (uniform_random : Draw) (c : ConditionSpeed) (baseSpeed : UInt16) : ConditionSpeed :=
  if c.speedDelta = 0 then { c with speedDelta := c.drawSpeed formula uniform_random baseSpeed } else c

/-- `ConditionSpeed::startCondition`; `none` where it returns `false`, else the delta is to be added to the speed. -/
def startCondition (formula : Formula) (uniform_random : Draw) (c : ConditionSpeed) (baseSpeed : UInt16)
    (OTSYS_TIME : Int64) (deflects : Bool) : Option ConditionSpeed :=
  (c.toCondition.startCondition OTSYS_TIME deflects).map fun base =>
    { c with toCondition := base }.drawn formula uniform_random baseSpeed

/-- `ConditionSpeed::addCondition`, with the change of speed that it makes. -/
def addCondition (formula : Formula) (uniform_random : Draw) (c addCondition : ConditionSpeed) (baseSpeed : UInt16)
    (OTSYS_TIME : Int64) (deflects : Bool) : ConditionSpeed × Int32 :=
  if c.conditionType ≠ addCondition.conditionType then (c, 0)
  else if c.ticks = -1 ∧ addCondition.ticks > 0 then (c, 0)
  else if deflects then (c, 0)
  else
    let new : ConditionSpeed := { addCondition with toCondition := c.setTicks OTSYS_TIME addCondition.ticks }
    let new := new.drawn formula uniform_random baseSpeed
    (new, new.speedDelta - c.speedDelta)

end ConditionSpeed

/-- The speed of a creature and its conditions of speed. -/
structure Speed where
  baseSpeed : UInt16
  varSpeed : Int32
  conditions : List ConditionSpeed
  deriving DecidableEq

namespace Speed

/-- `Creature::getSpeed`. -/
def getSpeed (s : Speed) : Int := max 0 (min (s.baseSpeed.toNat + s.varSpeed.toInt) 65535)

/-- `Creature::setSpeed`. -/
def setSpeed (s : Speed) (varSpeedDelta : Int32) : Speed :=
  if s.getSpeed ≥ PLAYER_MAX_SPEED then s else { s with varSpeed := varSpeedDelta }

/-- `Game::changeSpeed`. -/
def changeSpeed (s : Speed) (varSpeedDelta : Int32) : Speed :=
  let varSpeed : Int32 := .ofInt (s.getSpeed - s.baseSpeed.toNat)
  s.setSpeed (varSpeed + varSpeedDelta)

/-- A condition starts, another one is added to the `i`-th condition, the `i`-th condition ends, or something else changes
the speed. -/
inductive Event
  | startCondition (c : ConditionSpeed) (uniform_random : Draw) (OTSYS_TIME : Int64) (deflects : Bool)
  | addCondition (i : Nat) (c : ConditionSpeed) (uniform_random : Draw) (OTSYS_TIME : Int64) (deflects : Bool)
  | endCondition (i : Nat)
  | changeSpeed (varSpeedDelta : Int32)

def step (formula : Formula) (s : Speed) : Event → Speed
  | .startCondition c uniform_random OTSYS_TIME deflects =>
    match c.startCondition formula uniform_random s.baseSpeed OTSYS_TIME deflects with
    | none => s
    | some c => { s.changeSpeed c.speedDelta with conditions := s.conditions ++ [c] }
  | .addCondition i c uniform_random OTSYS_TIME deflects =>
    match s.conditions[i]? with
    | none => s
    | some prevCond =>
      let (prevCond, newSpeedChange) := prevCond.addCondition formula uniform_random c s.baseSpeed OTSYS_TIME deflects
      let s := { s with conditions := s.conditions.set i prevCond }
      if newSpeedChange ≠ 0 then s.changeSpeed newSpeedChange else s
  | .endCondition i =>
    match s.conditions[i]? with
    | none => s
    | some c => { s with conditions := s.conditions.eraseIdx i }.changeSpeed (-c.speedDelta)
  | .changeSpeed varSpeedDelta => s.changeSpeed varSpeedDelta

end Speed
end CrystalServer

/-! ## Attribute conditions

`ConditionAttributes` (`creatures/combat/condition.cpp`) and the modifiers of a creature that it changes. Sums are those of
32 bits that wrap. -/

namespace CrystalServer

/-- `SKILL_LAST + 1`. -/
abbrev SKILL_COUNT := 13
/-- `STAT_LAST + 1`. -/
abbrev STAT_COUNT := 5
/-- `BUFF_LAST + 1`. -/
abbrev BUFF_COUNT := 3
abbrev COMBAT_COUNT := 14

/-- What attribute conditions change of a `Creature`, and of a `Player`. -/
@[ext] structure Modifiers where
  varSkills : Fin SKILL_COUNT → Int32
  varStats : Fin STAT_COUNT → Int32
  varBuffs : Fin BUFF_COUNT → Int32
  absorbPercent : Fin COMBAT_COUNT → Int32
  increasePercent : Fin COMBAT_COUNT → Int32
  charmChanceModifier : Int8
  canUseDefense : Bool

/-- What the player returns for the percentages. -/
structure PlayerGetters where
  getMaxHealth : Int32
  getMaxMana : UInt32
  getBaseMagicLevel : UInt32
  getCapacity : UInt32
  getBaseSkill : Fin SKILL_COUNT → UInt16

/-- The arithmetic of `float`: `n * ((percent - 100) / 100.f)` and `n * (percent / 100.f)` cast to `int32_t`, and
`std::round(n * percent / 100.f)`. -/
structure Percent where
  above : Int → Int32 → Int32
  share : Int → Int32 → Int32
  round : Int32 → Int32 → Int32

structure ConditionAttributes extends Condition where
  skills : Fin SKILL_COUNT → Int32
  skillsPercent : Fin SKILL_COUNT → Int32
  stats : Fin STAT_COUNT → Int32
  statsPercent : Fin STAT_COUNT → Int32
  buffsPercent : Fin BUFF_COUNT → Int32
  buffs : Fin BUFF_COUNT → Int32
  charmChanceModifier : Int8
  absorbs : Fin COMBAT_COUNT → Int32
  absorbsPercent : Fin COMBAT_COUNT → Int32
  increases : Fin COMBAT_COUNT → Int32
  increasesPercent : Fin COMBAT_COUNT → Int32
  disableDefense : Bool

namespace ConditionAttributes
variable {n : Nat}

/-- The loop of the percentages: where there is one, the value is computed again. -/
def recompute (percent values new : Fin n → Int32) : Fin n → Int32 := fun i => if percent i = 0 then values i else new i

/-- The loop of the updates. -/
def addNonzero (values modifiers : Fin n → Int32) : Fin n → Int32 := fun i =>
  if values i ≠ 0 then modifiers i + values i else modifiers i

/-- The loop of `endCondition`, with its test. -/
def takeIf (test : Fin n → Prop) [DecidablePred test] (values modifiers : Fin n → Int32) : Fin n → Int32 := fun i =>
  if test i then modifiers i + -values i else modifiers i

variable (f : Percent) (c : ConditionAttributes) (m : Modifiers) (player : PlayerGetters)

def updatePercentStats : ConditionAttributes :=
  { c with
    stats := recompute c.statsPercent c.stats fun i =>
      match i with
      | 0 => f.above player.getMaxHealth.toInt (c.statsPercent i)
      | 1 => f.above player.getMaxMana.toNat (c.statsPercent i)
      | 2 => c.stats i
      | 3 => f.above player.getBaseMagicLevel.toNat (c.statsPercent i)
      | 4 => f.share player.getCapacity.toNat (c.statsPercent i) }

def updateStats : Modifiers := { m with varStats := addNonzero c.stats m.varStats }

def updatePercentSkills : ConditionAttributes :=
  { c with
    skills := recompute c.skillsPercent c.skills fun i => f.above (player.getBaseSkill i).toNat (c.skillsPercent i) }

def updateSkills : Modifiers := { m with varSkills := addNonzero c.skills m.varSkills }

def updatePercentAbsorbs : ConditionAttributes :=
  { c with absorbs := recompute c.absorbsPercent c.absorbs fun i => f.round (100 - m.absorbPercent i) (c.absorbsPercent i) }

def updateAbsorbs : Modifiers := { m with absorbPercent := addNonzero c.absorbs m.absorbPercent }

def updatePercentIncreases : ConditionAttributes :=
  { c with
    increases := recompute c.increasesPercent c.increases fun i =>
      f.round (100 - m.increasePercent i) (c.increasesPercent i) }

def updateIncreases : Modifiers := { m with increasePercent := addNonzero c.increases m.increasePercent }

def updateCharmChanceModifier : Modifiers :=
  { m with charmChanceModifier := m.charmChanceModifier + c.charmChanceModifier }

def updatePercentBuffs : ConditionAttributes :=
  { c with buffs := recompute c.buffsPercent c.buffs fun i => f.above (m.varBuffs i).toInt (c.buffsPercent i) }

def updateBuffs : Modifiers := { m with varBuffs := addNonzero c.buffs m.varBuffs }

/-- The updates that `startCondition` and `addCondition` make one after the other; `getPlayer` is `none` for a monster. -/
def update (getPlayer : Option PlayerGetters) : ConditionAttributes × Modifiers :=
  let c := c.updatePercentBuffs f m
  let m := c.updateBuffs m
  let c := c.updatePercentAbsorbs f m
  let m := c.updateAbsorbs m
  let c := c.updatePercentIncreases f m
  let m := c.updateIncreases m
  let m := c.updateCharmChanceModifier m
  match getPlayer with
  | none => (c, m)
  | some player =>
    let c := c.updatePercentSkills f player
    let m := c.updateSkills m
    let c := c.updatePercentStats f player
    let m := c.updateStats m
    (c, m)

/-- `ConditionAttributes::startCondition`; `none` where it returns `false`. -/
def startCondition (getPlayer : Option PlayerGetters) (OTSYS_TIME : Int64) (deflects : Bool) :
    Option (ConditionAttributes × Modifiers) :=
  (c.toCondition.startCondition OTSYS_TIME deflects).map fun base =>
    { c with toCondition := base }.update f { m with canUseDefense := !c.disableDefense } getPlayer

/-- The values that `endCondition` takes off. -/
def takeOff (isPlayer : Bool) : Modifiers :=
  let m :=
    if isPlayer then
      { m with
        varSkills := takeIf (fun i => c.skills i ≠ 0 ∨ c.skillsPercent i ≠ 0) c.skills m.varSkills
        varStats := takeIf (fun i => c.stats i ≠ 0) c.stats m.varStats
        charmChanceModifier := m.charmChanceModifier - c.charmChanceModifier }
    else m
  { m with
    varBuffs := takeIf (fun i => c.buffs i ≠ 0) c.buffs m.varBuffs
    absorbPercent := takeIf (fun i => c.absorbs i ≠ 0) c.absorbs m.absorbPercent
    increasePercent := takeIf (fun i => c.increases i > 0) c.increases m.increasePercent }

/-- `ConditionAttributes::endCondition`. -/
def endCondition (isPlayer : Bool) : Modifiers :=
  let m := c.takeOff m isPlayer
  if c.disableDefense then { m with canUseDefense := true } else m

/-- `ConditionAttributes::addCondition`. -/
def addCondition (addCondition : ConditionAttributes) (getPlayer : Option PlayerGetters) (OTSYS_TIME : Int64)
    (deflects : Bool) : ConditionAttributes × Modifiers :=
  if c.updateCondition addCondition.toCondition OTSYS_TIME deflects then
    let m := c.endCondition m getPlayer.isSome
    { addCondition with toCondition := c.setTicks OTSYS_TIME addCondition.ticks }.update f m getPlayer
  else (c, m)

end ConditionAttributes

/-- A creature and its attribute conditions. -/
structure Attributed where
  modifiers : Modifiers
  conditions : List ConditionAttributes

namespace Attributed

/-- A condition starts, another one is added to the `i`-th condition, or the `i`-th condition ends. -/
inductive Event
  | startCondition (c : ConditionAttributes) (getPlayer : PlayerGetters) (OTSYS_TIME : Int64) (deflects : Bool)
  | addCondition (i : Nat) (c : ConditionAttributes) (getPlayer : PlayerGetters) (OTSYS_TIME : Int64) (deflects : Bool)
  | endCondition (i : Nat)

/-- What `getPlayer` returns. -/
def player (isPlayer : Bool) (getters : PlayerGetters) : Option PlayerGetters := if isPlayer then some getters else none

def step (f : Percent) (isPlayer : Bool) (s : Attributed) : Event → Attributed
  | .startCondition c getPlayer OTSYS_TIME deflects =>
    match c.startCondition f s.modifiers (player isPlayer getPlayer) OTSYS_TIME deflects with
    | none => s
    | some (c, modifiers) => ⟨modifiers, s.conditions ++ [c]⟩
  | .addCondition i c getPlayer OTSYS_TIME deflects =>
    match s.conditions[i]? with
    | none => s
    | some prevCond =>
      let (prevCond, modifiers) := prevCond.addCondition f s.modifiers c (player isPlayer getPlayer) OTSYS_TIME deflects
      ⟨modifiers, s.conditions.set i prevCond⟩
  | .endCondition i =>
    match s.conditions[i]? with
    | none => s
    | some c => ⟨c.endCondition s.modifiers isPlayer, s.conditions.eraseIdx i⟩

end Attributed
end CrystalServer
