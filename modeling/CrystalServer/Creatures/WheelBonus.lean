import CrystalServer.Creatures.WheelPerks
import CrystalServer.Lib.SumBy

/-! # The bonuses of the wheel

How the part of `PlayerWheel` that depends on the wheel is built anew, and what a fight does to it
(`creatures/players/wheel/player_wheel.cpp`). What is sent to the client, and the health and the mana that a smaller
maximum takes away, are left out. -/

namespace CrystalServer.WheelBonus
open WheelSlots (WheelSlot WheelFragmentType SlotInfo getMaxPointsPerSlot canOpenWheel)
open WheelGems (WheelGemAffinity PlayerWheelGem)

inductive WheelSpellGrade where
  | NONE | REGULAR | UPGRADED | MAX
  deriving DecidableEq

inductive WheelMajor where
  | MELEE | DISTANCE | SHIELD | MAGIC | HOLY_RESISTANCE | CRITICAL_DMG | PHYSICAL_DMG | HOLY_DMG | CRITICAL_DMG_2
  | DEFENSE | DAMAGE
  deriving DecidableEq

inductive WheelOnThink where
  | BATTLE_INSTINCT | POSITIONAL_TACTICS | BALLISTIC_MASTERY | COMBAT_MASTERY | FOCUS_MASTERY | GIFT_OF_LIFE
  | DIVINE_EMPOWERMENT | AVATAR_SPELL | AVATAR_FORGE | SANCTUARY | ASCETIC | SPIRITUAL_OUTBURST
  deriving DecidableEq

/-- The vocation of the wheel's player, that of which it is the promotion, and two flags of his group. -/
structure Player where
  vocation : Vocation
  fromVocation : UInt16
  cannotUseSpells : Bool
  ignoreSpellCheck : Bool

/-- The fields of `PlayerWheel` in which the bonuses are collected; `m_strategies` are those of the modifier context. -/
structure Bonuses where
  m_playerBonusData : PlayerWheelMethodsBonusData
  m_bonusRevelationPoints : WheelGemAffinity → UInt16
  m_strategies : List GemModifierStrategy
  m_stages : WheelStage → UInt8
  m_stats : WheelStat → Int32
  m_resistance : CombatType → Int32
  m_spellsBonuses : String → Option Bonus
  m_beamMasterySpells : Finset String

/-- The grades of the spells, those among them that the wheel taught, and all that the player has learned. -/
structure Spells where
  m_spellsSelected : String → Option WheelSpellGrade
  m_learnedSpellsSelected : List String
  learnedInstantSpellList : Finset String

/-- The wheel: its slots and gems, the vocation for which the modifier context was made, and what depends on them. -/
structure State where
  slots : WheelSlots.State
  gems : WheelGems.State
  m_modifierContext : Option UInt16
  bonuses : Bonuses
  spells : Spells
  m_instant : WheelInstant → Bool
  m_majorStats : WheelMajor → Int32
  m_specializedMagic : CombatType → Int32
  m_onThink : WheelOnThink → Int
  giftOfLifeCooldown : Int

/-! ### Collecting -/

section
variable (player : Player) (s : Spells)

def hasLearnedInstantSpell (spellName : String) : Bool :=
  if player.cannotUseSpells then false
  else if player.ignoreSpellCheck then true
  else spellName.toLower ∈ s.learnedInstantSpellList

def learnInstantSpell (spellName : String) : Spells :=
  if hasLearnedInstantSpell player s spellName then s
  else { s with learnedInstantSpellList := insert spellName.toLower s.learnedInstantSpellList }

def forgetInstantSpell (spellName : String) : Spells :=
  { s with learnedInstantSpellList := s.learnedInstantSpellList.erase spellName.toLower }

def upgradeSpell (name : String) : Spells :=
  let s :=
    if hasLearnedInstantSpell player s name then s
    else learnInstantSpell player { s with m_learnedSpellsSelected := s.m_learnedSpellsSelected ++ [name] } name
  let grade := match s.m_spellsSelected name with
    | none | some .NONE => .REGULAR
    | some .REGULAR => .UPGRADED
    | some .UPGRADED | some .MAX => .MAX
  { s with m_spellsSelected := Function.update s.m_spellsSelected name (some grade) }

/-- What `resetUpgradedSpells` does to the spells. -/
def Spells.reset : Spells :=
  let s := s.m_learnedSpellsSelected.foldl
    (fun s spell => if hasLearnedInstantSpell player s spell then forgetInstantSpell s spell else s) s
  { s with m_spellsSelected := fun _ => none, m_learnedSpellsSelected := [] }

end

section
variable (b : Bonuses)

def setStage (type : WheelStage) (value : UInt8) : Bonuses :=
  { b with m_stages := Function.update b.m_stages type value }

def addStat (type : WheelStat) (value : Int32) : Bonuses :=
  { b with m_stats := Function.update b.m_stats type (b.m_stats type + value) }

def addResistance (type : CombatType) (value : Int32) : Bonuses :=
  { b with m_resistance := Function.update b.m_resistance type (b.m_resistance type + value) }

def addRevelationBonus (affinity : WheelGemAffinity) (points : UInt16) : Bonuses :=
  { b with
      m_bonusRevelationPoints :=
        Function.update b.m_bonusRevelationPoints affinity (b.m_bonusRevelationPoints affinity + points) }

/-- What `addSpellBonus` makes of the bonus that the spell has and the one it gets. -/
def Bonus.add (old bonus : Bonus) : Bonus where
  mana := old.mana + bonus.mana
  life := old.life + bonus.life
  area := bonus.area
  damage := old.damage + bonus.damage
  heal := old.heal + bonus.heal
  aditionalTarget := old.aditionalTarget + bonus.aditionalTarget
  damageReduction := old.damageReduction + bonus.damageReduction
  duration := old.duration + bonus.duration
  criticalDamage := old.criticalDamage + bonus.criticalDamage
  criticalChance := old.criticalChance + bonus.criticalChance
  cooldown := old.cooldown + bonus.cooldown
  manaCost := old.manaCost + bonus.manaCost
  secondaryGroupCooldown := old.secondaryGroupCooldown + bonus.secondaryGroupCooldown

def addSpellBonus (spellName : String) (bonus : Bonus) : Bonuses :=
  let bonus := match b.m_spellsBonuses spellName with
    | some old => old.add bonus
    | none => bonus
  { b with m_spellsBonuses := Function.update b.m_spellsBonuses spellName (some bonus) }

/-- `setSpellInstant` for the name of a stage. -/
def setSpellStage (stage : WheelStage) (value : Bool) : Bonuses :=
  setStage b stage (if value then b.m_stages stage + 1 else 0)

end

/-! ### The reset -/

section
variable (player : Player)

def resetUpgradedSpells (s : State) : State :=
  { s with
      spells := s.spells.reset player
      bonuses := { s.bonuses with m_beamMasterySpells := ∅, m_stages := fun _ => 0 }
      m_majorStats := fun _ => 0
      m_onThink := Function.update s.m_onThink .FOCUS_MASTERY 0 }

def resetResistance (s : State) : State := { s with bonuses := { s.bonuses with m_resistance := fun _ => 0 } }

def resetStats (s : State) : State := { s with bonuses := { s.bonuses with m_stats := fun _ => 0 } }

/-- `resetRevelationState`. The context keeps the vocation of the time when it was made. -/
def resetRevelationState (s : State) : State :=
  { s with
      m_modifierContext := some (s.m_modifierContext.getD player.fromVocation)
      bonuses :=
        { s.bonuses with
            m_bonusRevelationPoints := fun _ => 0
            m_strategies := []
            m_spellsBonuses := fun _ => none } }

def resetPlayerData (s : State) : State :=
  let s := { s with bonuses := { s.bonuses with m_playerBonusData := {} } }
  resetRevelationState player (resetStats (resetResistance (resetUpgradedSpells player s)))

end

/-! ### The slots and the gems -/

/-- `loadDedicationAndConvictionPerks`. -/
def loadDedicationAndConvictionPerks (player : Player) (m_wheelSlots : WheelSlot → UInt16) (b : Bonuses) :
    Bonuses :=
  if player.vocation = .NONE then b
  else
    { b with
        m_playerBonusData := WheelSlots.enum_values.foldl
          (fun bonusData slot =>
            let points := m_wheelSlots slot
            if points > 0 then wheelMapFunctions m_wheelSlots slot points player.vocation bonusData else bonusData)
          b.m_playerBonusData }

/-- `addStrategies` of a basic modifier. -/
def addBasicStrategies (m_vocation : UInt16) (b : Bonuses) (modifier grade : UInt8) : Bonuses :=
  match basicModifier modifier with
  | some modifier =>
    { b with m_strategies := b.m_strategies ++ basicStrategies m_vocation (gradeMultiplier grade) modifier }
  | none => b

/-- `addStrategies` of a supreme modifier. It adds the points of a revelation itself already, and a shorter cooldown
    comes with momentum. -/
def addSupremeStrategies (b : Bonuses) (modifier grade : UInt8) : Bonuses :=
  match supremeModifier modifier with
  | some modifier =>
    let strategy := supremeStrategy grade modifier
    let b := { b with m_strategies := b.m_strategies ++ [strategy] }
    match strategy with
    | .revelation affinity points => addRevelationBonus b affinity points
    | .spellBonus _ bonus =>
      let momentum : Float := if grade < 3 then 0.33 * grade.toFloat else 1
      let total := (b.m_playerBonusData.momentum.toFloat + momentum).toFloat32
      if bonus.cooldown > 0 then { b with m_playerBonusData := { b.m_playerBonusData with momentum := total } } else b
    | _ => b
  | none => b

def executeStrategy (b : Bonuses) : GemModifierStrategy → Bonuses
  | .resistance combatType resistance => addResistance b combatType resistance
  | .stat stat value => addStat b stat value
  | .revelation affinity value => addRevelationBonus b affinity value
  | .spellBonus spellName bonus => addSpellBonus b spellName bonus

def executeStrategies (b : Bonuses) : Bonuses := b.m_strategies.foldl executeStrategy b

def affinities : List WheelGemAffinity := [.Green, .Red, .Blue, .Purple]

def getActiveGems (m_activeGems : WheelGemAffinity → Option PlayerWheelGem) : List PlayerWheelGem :=
  affinities.filterMap m_activeGems

/-- What the grades of the gems' modifiers are read from. -/
structure Grades where
  m_basicGrades : UInt8 → UInt8
  m_supremeGrades : UInt8 → UInt8

/-- The turn of `processActiveGems` for one gem. -/
def processGem (m_vocation : UInt16) (grades : Grades) (b : Bonuses) (gem : PlayerWheelGem) : Bonuses :=
  let count := b.m_playerBonusData.unlockedVesselResonances gem.affinity
  let addBasic (b : Bonuses) (modifier : UInt8) :=
    addBasicStrategies m_vocation b modifier (grades.m_basicGrades modifier)
  let b := if count ≥ 1 then addBasic b gem.basicModifier1 else b
  let b := if count ≥ 2 ∧ gem.quality ≥ 1 then addBasic b gem.basicModifier2 else b
  if count ≥ 3 ∧ gem.quality ≥ 2 then
    addSupremeStrategies b gem.supremeModifier (grades.m_supremeGrades gem.supremeModifier)
  else b

def processActiveGems (m_vocation : UInt16) (grades : Grades)
    (m_activeGems : WheelGemAffinity → Option PlayerWheelGem) (b : Bonuses) : Bonuses :=
  executeStrategies ((getActiveGems m_activeGems).foldl (processGem m_vocation grades) b)

/-! ### The stages -/

/-- The slots of a slice. -/
def sliceSlots : WheelGemAffinity → List WheelSlot
  | .Green => [.GREEN_50, .GREEN_TOP_75, .GREEN_BOTTOM_75, .GREEN_TOP_100, .GREEN_MIDDLE_100, .GREEN_BOTTOM_100,
      .GREEN_TOP_150, .GREEN_BOTTOM_150, .GREEN_200]
  | .Red => [.RED_50, .RED_TOP_75, .RED_BOTTOM_75, .RED_TOP_100, .RED_MIDDLE_100, .RED_BOTTOM_100, .RED_TOP_150,
      .RED_BOTTOM_150, .RED_200]
  | .Purple => [.PURPLE_50, .PURPLE_TOP_75, .PURPLE_BOTTOM_75, .PURPLE_TOP_100, .PURPLE_MIDDLE_100,
      .PURPLE_BOTTOM_100, .PURPLE_TOP_150, .PURPLE_BOTTOM_150, .PURPLE_200]
  | .Blue => [.BLUE_50, .BLUE_TOP_75, .BLUE_BOTTOM_75, .BLUE_TOP_100, .BLUE_MIDDLE_100, .BLUE_BOTTOM_100,
      .BLUE_TOP_150, .BLUE_BOTTOM_150, .BLUE_200]

/-- `getPlayerSliceStage`, for the color of an affinity. -/
def getPlayerSliceStage (m_wheelSlots : WheelSlot → UInt16) (m_modsMaxGrade : UInt8) (b : Bonuses)
    (color : WheelGemAffinity) : Nat :=
  let totalPoints := ((sliceSlots color).map fun slot => (m_wheelSlots slot).toNat).sum +
    (b.m_bonusRevelationPoints color).toNat + m_modsMaxGrade.toNat
  if totalPoints ≥ 1000 then 3 else if totalPoints ≥ 500 then 2 else if totalPoints ≥ 250 then 1 else 0

/-- `getRevelationStatByStage`: the damage, and the healing. -/
def getRevelationStatByStage : Nat → Int32 × Int32
  | 1 => (4, 4)
  | 2 => (9, 9)
  | _ => (20, 20)

/-- The stage of a slice, and the spells that come with it. -/
def stageBonus (vocation : Vocation) (n : Nat) : WheelGemAffinity → Option (WheelStage × List String)
  | .Green => some (.GIFT_OF_LIFE, [])
  | .Red =>
    match vocation with
    | .DRUID => some (.BLESSING_OF_THE_GROVE, [])
    | .KNIGHT => some (.EXECUTIONERS_THROW, List.replicate n "Executioner's Throw")
    | .SORCERER => some (.BEAM_MASTERY, List.replicate n "Great Death Beam")
    | .PALADIN => some (.DIVINE_GRENADE, List.replicate n "Divine Grenade")
    | .MONK => some (.SPIRITUAL_OUTBURST, List.replicate n "Spiritual Outburst")
    | .NONE => none
  | .Purple =>
    match vocation with
    | .KNIGHT => some (.AVATAR_OF_STEEL, List.replicate n "Avatar of Steel")
    | .PALADIN => some (.AVATAR_OF_LIGHT, List.replicate n "Avatar of Light")
    | .DRUID => some (.AVATAR_OF_NATURE, List.replicate n "Avatar of Nature")
    | .SORCERER => some (.AVATAR_OF_STORM, List.replicate n "Avatar of Storm")
    | .MONK => some (.AVATAR_OF_BALANCE, List.replicate n "Avatar of Balance")
    | .NONE => none
  | .Blue =>
    match vocation with
    | .KNIGHT => some (.COMBAT_MASTERY, [])
    | .SORCERER => some (.DRAIN_BODY, List.replicate (n + 1) "Drain_Body_Spells")
    | .PALADIN => some (.DIVINE_EMPOWERMENT, List.replicate (n + 1) "Divine Empowerment")
    | .DRUID => some (.TWIN_BURST, (List.replicate n ["Terra Burst", "Ice Burst"]).flatten)
    | .MONK => some (.ASCETIC, List.replicate (n + 1) "Ascetic")
    | .NONE => none

/-- `applyStageBonusForColor`, with the `apply…StageBonus` of the color. -/
def applyStageBonusForColor (vocation : Vocation) (m_wheelSlots : WheelSlot → UInt16) (m_modsMaxGrade : UInt8)
    (b : Bonuses) (color : WheelGemAffinity) : Bonuses :=
  let stage := getPlayerSliceStage m_wheelSlots m_modsMaxGrade b color
  if stage = 0 then b
  else
    let (statsDamage, statsHealing) := getRevelationStatByStage stage
    let data := b.m_playerBonusData
    let data := { data with damage := data.damage + statsDamage, healing := data.healing + statsHealing }
    match stageBonus vocation stage color with
    | none => { b with m_playerBonusData := data }
    | some (type, spells) =>
      { b with
          m_playerBonusData :=
            { data with stages := Function.update data.stages type stage, spells := data.spells ++ spells } }

def applyStageBonuses (vocation : Vocation) (m_wheelSlots : WheelSlot → UInt16) (m_modsMaxGrade : UInt8)
    (b : Bonuses) : Bonuses :=
  [.Green, .Red, .Purple, .Blue].foldl (applyStageBonusForColor vocation m_wheelSlots m_modsMaxGrade) b

/-! ### The registration -/

/-- `setPlayerCombatStats`. -/
def setPlayerCombatStats (b : Bonuses) (type : WheelStat) (leechAmount : Int32) : Bonuses :=
  addStat b type (if leechAmount > 0 then leechAmount else 0)

def registerStats (b : Bonuses) : Bonuses :=
  let data := b.m_playerBonusData
  let b := addStat b .HEALTH data.health
  let b := addStat b .MANA data.mana
  let b := addStat b .CAPACITY data.capacity
  let b := addStat b .MITIGATION (data.mitigation * 100).toInt32
  let b := addStat b .DAMAGE data.damage
  let b := addStat b .HEALING data.healing
  let b := addStat b .MELEE data.melee
  let b := addStat b .DISTANCE data.distance
  let b := addStat b .MAGIC data.magic
  let b := addStat b .FIST data.fist
  let b := setPlayerCombatStats b .LIFE_LEECH (data.lifeLeech * 100).toInt32
  setPlayerCombatStats b .MANA_LEECH (data.manaLeech * 100).toInt32

/-- The bonuses that the second and the third stage give to spells. -/
def stageSpellBonuses : WheelStage → List (Nat × String × Bonus)
  | .DIVINE_EMPOWERMENT =>
    [(2, "Divine Empowerment", { cooldown := 4 * 1000 }), (3, "Divine Empowerment", { cooldown := 4 * 1000 })]
  | .DIVINE_GRENADE =>
    [(2, "Divine Grenade", { cooldown := 6 * 1000 }), (3, "Divine Grenade", { cooldown := 4 * 1000 })]
  | .BEAM_MASTERY =>
    [(2, "Great Death Beam", { cooldown := 2 * 1000, damage := 6 }),
      (3, "Great Death Beam", { cooldown := 2 * 1000, damage := 6 })]
  | .TWIN_BURST =>
    let bonus : Bonus := { cooldown := 4 * 1000, secondaryGroupCooldown := 4 * 1000 }
    [(2, "Ice Burst", bonus), (2, "Terra Burst", bonus), (3, "Ice Burst", bonus), (3, "Terra Burst", bonus)]
  | .EXECUTIONERS_THROW =>
    [(2, "Executioner's Throw", { cooldown := 4 * 1000 }), (3, "Executioner's Throw", { cooldown := 4 * 1000 })]
  | .SPIRITUAL_OUTBURST =>
    [(2, "Spiritual Outburst", { cooldown := 4 * 1000 }), (3, "Spiritual Outburst", { cooldown := 4 * 1000 })]
  | .AVATAR_OF_LIGHT => avatar "Avatar of Light"
  | .AVATAR_OF_NATURE => avatar "Avatar of Nature"
  | .AVATAR_OF_STEEL => avatar "Avatar of Steel"
  | .AVATAR_OF_STORM => avatar "Avatar of Storm"
  | .AVATAR_OF_BALANCE => avatar "Avatar of Balance"
  | .COMBAT_MASTERY | .GIFT_OF_LIFE | .BLESSING_OF_THE_GROVE | .DRAIN_BODY | .ASCETIC => []
where
  /-- 30 minutes. -/
  avatar (name : String) : List (Nat × String × Bonus) :=
    [(2, name, { cooldown := 30 * 60 * 1000 }), (3, name, { cooldown := 30 * 60 * 1000 })]

/-- The part of `registerPlayerBonusData` for a stage. -/
def registerStage (b : Bonuses) (stage : WheelStage) : Bonuses :=
  let n := b.m_playerBonusData.stages stage
  if n > 0 then
    let b :=
      if stage = .BEAM_MASTERY then
        { b with m_beamMasterySpells :=
            b.m_beamMasterySpells ∪ {"Energy Beam", "Great Death Beam", "Great Energy Beam"} }
      else b
    let b := (List.replicate n stage).foldl (fun b stage => setSpellStage b stage true) b
    ((stageSpellBonuses stage).filter (·.1 ≤ n)).foldl (fun b x => addSpellBonus b x.2.1 x.2.2) b
  else setSpellStage b stage false

/-- The stages in the order in which they are registered. -/
def registeredStages : List WheelStage :=
  [.COMBAT_MASTERY, .GIFT_OF_LIFE, .BLESSING_OF_THE_GROVE, .DIVINE_EMPOWERMENT, .DIVINE_GRENADE, .DRAIN_BODY,
    .BEAM_MASTERY, .TWIN_BURST, .EXECUTIONERS_THROW, .SPIRITUAL_OUTBURST, .ASCETIC, .AVATAR_OF_LIGHT,
    .AVATAR_OF_NATURE, .AVATAR_OF_STEEL, .AVATAR_OF_STORM, .AVATAR_OF_BALANCE]

/-- What an instant that is off takes from the major stats. -/
def instantMajors : WheelInstant → List WheelMajor
  | .BATTLE_INSTINCT => [.SHIELD, .MELEE]
  | .POSITIONAL_TACTICS => [.MAGIC, .HOLY_RESISTANCE]
  | .BALLISTIC_MASTERY => [.CRITICAL_DMG, .PHYSICAL_DMG, .HOLY_DMG]
  | _ => []

/-- The timer that an instant that is off stops. -/
def instantTimers : WheelInstant → List WheelOnThink
  | .SANCTUARY => [.SANCTUARY]
  | .FOCUS_MASTERY => [.FOCUS_MASTERY]
  | _ => []

/-- `setSpellInstant` for the name of an instant. -/
def setSpellInstant (s : State) (instant : WheelInstant) (value : Bool) : State :=
  let s := { s with m_instant := Function.update s.m_instant instant value }
  if value then s
  else
    { s with
        m_majorStats := (instantMajors instant).foldl (fun m type => Function.update m type 0) s.m_majorStats
        m_onThink := (instantTimers instant).foldl (fun m type => Function.update m type 0) s.m_onThink }

/-- The instants in the order in which they are registered. -/
def registeredInstants : List WheelInstant :=
  [.BATTLE_INSTINCT, .BATTLE_HEALING, .POSITIONAL_TACTICS, .BALLISTIC_MASTERY, .HEALING_LINK, .RUNIC_MASTERY,
    .FOCUS_MASTERY, .GUIDING_PRESENCE, .SANCTUARY]

/-- `registerPlayerBonusData` up to its think. -/
def registerBonuses (player : Player) (s : State) : State :=
  let s := { s with bonuses := registerStats s.bonuses }
  let s := registeredInstants.foldl
    (fun s instant => setSpellInstant s instant (s.bonuses.m_playerBonusData.instant instant)) s
  let s := { s with bonuses := registeredStages.foldl registerStage s.bonuses }
  { s with spells := s.bonuses.m_playerBonusData.spells.foldl (upgradeSpell player) s.spells }

/-! ### Thinking -/

inductive AmmoType where
  | BOLT | ARROW | other
  deriving DecidableEq

structure Weapon where
  ammoType : AmmoType
  twoHand : Bool

/-- What a think finds: the time, whether the player is in a fight and whether in a protection zone, the monsters next
    to him, his weapon, and whether a divine empowerment of his is among the items of his tile, if it has items. -/
structure Think where
  now : Int
  infight : Bool
  protectionZone : Bool
  creaturesNearby : UInt16
  weapon : Option Weapon
  empowered : Option Bool

section
variable (s : State) (think : Think)

def setOnThinkTimer (type : WheelOnThink) (time : Int) : State :=
  { s with m_onThink := Function.update s.m_onThink type time }

def setMajorStat (type : WheelMajor) (value : Int32) : State :=
  { s with m_majorStats := Function.update s.m_majorStats type value }

def setSpecializedMagic (type : CombatType) (value : Int32) : State :=
  { s with m_specializedMagic := Function.update s.m_specializedMagic type value }

def checkBattleInstinct : State :=
  let s := setOnThinkTimer s .BATTLE_INSTINCT (think.now + 2000)
  let creaturesNearby := if think.creaturesNearby ≥ 5 then think.creaturesNearby - 4 else 0
  setMajorStat (setMajorStat s .MELEE (Int32.ofNat creaturesNearby.toNat)) .SHIELD
    (Int32.ofNat (6 * creaturesNearby).toNat)

def checkPositionalTactics : State :=
  let s := setOnThinkTimer s .POSITIONAL_TACTICS (think.now + 2000)
  if think.creaturesNearby = 0 then
    setSpecializedMagic (setSpecializedMagic (setMajorStat s .DISTANCE 3) .HOLYDAMAGE 0) .HEALING 0
  else setSpecializedMagic (setSpecializedMagic (setMajorStat s .DISTANCE 0) .HOLYDAMAGE 3) .HEALING 3

def checkBallisticMastery : State :=
  let s := setOnThinkTimer s .BALLISTIC_MASTERY (think.now + 2000)
  let (critical, other) : Int32 × Int32 := match think.weapon.map (·.ammoType) with
    | some AmmoType.BOLT => (1000, 0)
    | some AmmoType.ARROW => (0, 2)
    | _ => (0, 0)
  setMajorStat (setMajorStat (setMajorStat s .CRITICAL_DMG critical) .PHYSICAL_DMG other) .HOLY_DMG other

/-- A value for each stage. -/
def byStage (stage : UInt8) (one two three : Int32) : Int32 :=
  if stage ≥ 3 then three else if stage ≥ 2 then two else if stage ≥ 1 then one else 0

def checkCombatMastery : State :=
  let s := setOnThinkTimer s .COMBAT_MASTERY (think.now + 2000)
  let stage := s.bonuses.m_stages .COMBAT_MASTERY
  if think.weapon.any (·.twoHand) then
    setMajorStat (setMajorStat s .CRITICAL_DMG_2 (byStage stage 400 800 1200)) .DEFENSE 0
  else
    let s := setMajorStat s .CRITICAL_DMG_2 0
    if s.m_majorStats .DEFENSE = 0 then setMajorStat s .DEFENSE (byStage stage 10 20 30) else s

def checkDivineEmpowerment : State :=
  let s := setOnThinkTimer s .DIVINE_EMPOWERMENT (think.now + 1000)
  match think.empowered with
  | none => s
  | some isOwner =>
    setMajorStat s .DAMAGE (if isOwner then byStage (s.bonuses.m_stages .DIVINE_EMPOWERMENT) 8 10 12 else 0)

def getGiftOfCooldown : Int := if s.giftOfLifeCooldown ≤ 0 then 0 else s.giftOfLifeCooldown

/-- `decreaseGiftOfCooldown(1)`. -/
def decreaseGiftOfCooldown : State :=
  let cooldown := getGiftOfCooldown s - 1
  if cooldown ≤ 0 then setOnThinkTimer s .GIFT_OF_LIFE (think.now + 3600000)
  else { setOnThinkTimer s .GIFT_OF_LIFE (think.now + 1000) with giftOfLifeCooldown := cooldown }

/-- Nothing of the wheel needs a fight. -/
def idle : Bool :=
  !s.m_instant .BATTLE_INSTINCT && !s.m_instant .POSITIONAL_TACTICS && !s.m_instant .BALLISTIC_MASTERY &&
    s.bonuses.m_stages .GIFT_OF_LIFE == 0 && s.bonuses.m_stages .COMBAT_MASTERY == 0 &&
    s.bonuses.m_stages .DIVINE_EMPOWERMENT == 0 && getGiftOfCooldown s == 0 && s.bonuses.m_stages .ASCETIC == 0

/-- A check of `onThink`, where its perk is on and its time has come. -/
def checkWhen (isOn : State → Bool) (timer : WheelOnThink) (check : State → Think → State) (force : Bool) :
    State :=
  if isOn s && (force || s.m_onThink timer < think.now) then check s think else s

/-- The checks of `onThink`. -/
def checks (force : Bool) : State :=
  let s := checkWhen s think (·.m_instant .BATTLE_INSTINCT) .BATTLE_INSTINCT checkBattleInstinct force
  let s := checkWhen s think (·.m_instant .POSITIONAL_TACTICS) .POSITIONAL_TACTICS checkPositionalTactics force
  let s := checkWhen s think (·.m_instant .BALLISTIC_MASTERY) .BALLISTIC_MASTERY checkBallisticMastery force
  let s := checkWhen s think (·.bonuses.m_stages .COMBAT_MASTERY != 0) .COMBAT_MASTERY checkCombatMastery force
  checkWhen s think (·.bonuses.m_stages .DIVINE_EMPOWERMENT != 0) .DIVINE_EMPOWERMENT checkDivineEmpowerment force

def onThink (force : Bool) : State :=
  let s :=
    if getGiftOfCooldown s > 0 ∧ s.m_onThink .GIFT_OF_LIFE ≤ think.now then decreaseGiftOfCooldown s think else s
  if !think.infight || think.protectionZone || idle s then
    let s := { s with m_majorStats := fun _ => 0 }
    if force then checks s think force else s
  else checks s think force

end

/-! ### The load, and what changes the wheel -/

section
variable (player : Player) (s : State)

/-- `loadPlayerBonusData` up to the think that ends it. -/
def rebuild : State :=
  let s := resetPlayerData player s
  let b := loadDedicationAndConvictionPerks player s.slots.m_wheelSlots s.bonuses
  let b := processActiveGems (s.m_modifierContext.getD player.fromVocation)
    ⟨s.slots.m_basicGrades, s.slots.m_supremeGrades⟩ s.gems.m_activeGems b
  let b := applyStageBonuses player.vocation s.slots.m_wheelSlots s.slots.m_modsMaxGrade b
  registerBonuses player { s with bonuses := b }

def loadPlayerBonusData (think : Think) : State :=
  if !canOpenWheel s.slots then s else onThink (rebuild player s) think false

/-- The vessels of the message: the index of a gem, or none. -/
def setVessels (gems : WheelGems.State) (vessels : WheelGemAffinity → Option UInt16) : WheelGems.State :=
  affinities.foldl
    (fun gems affinity => match vessels affinity with
      | none => WheelGems.removeActiveGem gems affinity
      | some gemIndex => WheelGems.setActiveGem gems affinity gemIndex.toNat) gems

/-- `saveSlotPointsOnPressSaveButton`, with the vessels and the load. -/
def saveSlotPointsOnPressSaveButton (sort : List SlotInfo → List SlotInfo) (message : WheelSlot → UInt16)
    (vessels : WheelGemAffinity → Option UInt16) (think : Think) : State :=
  if !canOpenWheel s.slots then s
  else if WheelSlots.enum_values.any fun slot => message slot > getMaxPointsPerSlot slot then s
  else
    loadPlayerBonusData player
      { s with
          slots := WheelSlots.saveSlotPointsOnPressSaveButton sort s.slots message
          gems := setVessels s.gems vessels } think

/-- The grade that `improveGemGrade` gives. -/
def nextGrade (slots : WheelSlots.State) (fragmentType : WheelFragmentType) (pos : UInt8) : UInt8 :=
  match fragmentType with
  | .Lesser => slots.m_basicGrades pos + 1
  | .Greater => slots.m_supremeGrades pos + 1

/-- `improveGemGrade`, with the load. -/
def improveGemGrade (fragmentType : WheelFragmentType) (pos : UInt8) (paid : Bool) (think : Think) : State :=
  let grade := nextGrade s.slots fragmentType pos
  if grade = 0 ∨ grade > 3 ∨ !paid then s
  else
    loadPlayerBonusData player { s with slots := WheelSlots.improveGemGrade s.slots fragmentType pos paid } think

end

/-- The calls of a history, with what the thinks in them find; the player's level and his right to the wheel may
    change between them. -/
inductive Op where
  | saveSlotPointsOnPressSaveButton (message : WheelSlot → UInt16) (vessels : WheelGemAffinity → Option UInt16)
      (think : Think)
  | revealGem (gem : PlayerWheelGem) (paid : Bool)
  | destroyGem (index : Nat) (received : Bool)
  | switchGemDomain (index : Nat) (paid : Bool)
  | toggleGemLock (index : Nat)
  | improveGemGrade (fragmentType : WheelFragmentType) (pos : UInt8) (paid : Bool) (think : Think)
  | unlockScroll (scrollName : String)
  | setLevel (level : UInt32)
  | setMayOpen (mayOpen : Bool)
  | loadPlayerBonusData (think : Think)
  | onThink (think : Think) (force : Bool)

def step (player : Player) (sort : List SlotInfo → List SlotInfo) (s : State) : Op → State
  | .saveSlotPointsOnPressSaveButton message vessels think =>
    saveSlotPointsOnPressSaveButton player s sort message vessels think
  | .revealGem gem paid => { s with gems := WheelGems.revealGem s.gems gem paid }
  | .destroyGem index received => { s with gems := WheelGems.destroyGem s.gems index received }
  | .switchGemDomain index paid => { s with gems := WheelGems.switchGemDomain s.gems index paid }
  | .toggleGemLock index => { s with gems := WheelGems.toggleGemLock s.gems index }
  | .improveGemGrade fragmentType pos paid think => improveGemGrade player s fragmentType pos paid think
  | .unlockScroll scrollName => { s with slots := WheelSlots.unlockScroll s.slots scrollName }
  | .setLevel level => { s with slots := { s.slots with level := level } }
  | .setMayOpen mayOpen => { s with slots := { s.slots with mayOpen := mayOpen } }
  | .loadPlayerBonusData think => loadPlayerBonusData player s think
  | .onThink think force => onThink s think force

/-! ### A new wheel -/

/-- How many positions have the highest grade, counted with a `uint8_t`. -/
def maxGrades (grades : UInt8 → UInt8) : UInt8 :=
  Lib.sumBy (fun n => if grades (UInt8.ofNat n) = 3 then 1 else 0) (List.range 256)

/-- `loadKVModGrades`, for the grades that the store holds and 0 for those that it does not. -/
def loadKVModGrades (s : WheelSlots.State) (grades : Grades) : WheelSlots.State :=
  { s with
      m_basicGrades := grades.m_basicGrades
      m_supremeGrades := grades.m_supremeGrades
      m_modsMaxGrade := maxGrades grades.m_basicGrades + maxGrades grades.m_supremeGrades }

/-- The bonuses of a wheel that was just made. -/
def Bonuses.empty : Bonuses where
  m_playerBonusData := {}
  m_bonusRevelationPoints _ := 0
  m_strategies := []
  m_stages _ := 0
  m_stats _ := 0
  m_resistance _ := 0
  m_spellsBonuses _ := none
  m_beamMasterySpells := ∅

/-- The wheel of a player who logs in, before its first load: the slots, the gems and the grades that were saved, and
    the spells that the player has learned. -/
def State.start (slots : WheelSlots.State) (gems : WheelGems.State) (grades : Grades) (learned : Finset String)
    (giftOfLifeCooldown : Int) : State where
  slots := loadKVModGrades slots grades
  gems := gems
  m_modifierContext := none
  bonuses := .empty
  spells := ⟨fun _ => none, [], learned⟩
  m_instant _ := false
  m_majorStats _ := 0
  m_specializedMagic _ := 0
  m_onThink _ := 0
  giftOfLifeCooldown := giftOfLifeCooldown

end CrystalServer.WheelBonus
