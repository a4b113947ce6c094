import CrystalServer.Creatures.WheelGems
import CrystalServer.Creatures.WheelSlots

/-! # The perks of the wheel

What the points in the slots of the wheel of destiny give (`io/io_wheel.cpp`), and what the gems in its vessels give
(`creatures/players/wheel/wheel_gems.cpp`). -/

namespace CrystalServer.WheelBonus
open WheelSlots (WheelSlot getMaxPointsPerSlot)
open WheelGems (WheelGemAffinity)

/-! ### The names of what is given -/

/-- What `getPlayerVocationEnum` gives: the client's members of `Vocation_t`. -/
inductive Vocation where
  | NONE | KNIGHT | PALADIN | SORCERER | DRUID | MONK
  deriving DecidableEq

inductive CombatType where
  | PHYSICALDAMAGE | ENERGYDAMAGE | EARTHDAMAGE | FIREDAMAGE | UNDEFINEDDAMAGE | LIFEDRAIN | MANADRAIN | HEALING
  | DROWNDAMAGE | ICEDAMAGE | HOLYDAMAGE | DEATHDAMAGE | AGONYDAMAGE | NEUTRALDAMAGE
  deriving DecidableEq

inductive WheelStat where
  | HEALTH | MANA | CAPACITY | MITIGATION | MELEE | DISTANCE | MAGIC | LIFE_LEECH | MANA_LEECH | HEALING | DAMAGE
  | LIFE_LEECH_CHANCE | MANA_LEECH_CHANCE | DODGE | CRITICAL_DAMAGE | FIST
  deriving DecidableEq

/-- `WheelStage_t`. Each is also a member of `Stages` or of `Avatar`, and a name that `setSpellInstant` knows. -/
inductive WheelStage where
  | GIFT_OF_LIFE | COMBAT_MASTERY | BLESSING_OF_THE_GROVE | DRAIN_BODY | BEAM_MASTERY | DIVINE_EMPOWERMENT
  | TWIN_BURST | EXECUTIONERS_THROW | AVATAR_OF_LIGHT | AVATAR_OF_NATURE | AVATAR_OF_STEEL | AVATAR_OF_STORM | DIVINE_GRENADE
  | AVATAR_OF_BALANCE | SPIRITUAL_OUTBURST | ASCETIC
  deriving DecidableEq

/-- `WheelInstant_t`. Each is also a member of `Instant`, and a name that `setSpellInstant` knows. -/
inductive WheelInstant where
  | BATTLE_INSTINCT | BATTLE_HEALING | POSITIONAL_TACTICS | BALLISTIC_MASTERY | HEALING_LINK | RUNIC_MASTERY
  | FOCUS_MASTERY | GUIDING_PRESENCE | SANCTUARY
  deriving DecidableEq

/-- `WheelSpells::Bonus`: the leech, the increase and the decrease. -/
structure Bonus where
  mana : Int32 := 0
  life : Int32 := 0
  area : Bool := false
  damage : Int32 := 0
  heal : Int32 := 0
  aditionalTarget : Int32 := 0
  damageReduction : Int32 := 0
  duration : Int32 := 0
  criticalDamage : Int32 := 0
  criticalChance : Int32 := 0
  cooldown : Int32 := 0
  manaCost : Int32 := 0
  secondaryGroupCooldown : Int32 := 0

structure PlayerWheelMethodsBonusData where
  health : Int32 := 0
  mana : Int32 := 0
  capacity : Int32 := 0
  damage : Int32 := 0
  healing : Int32 := 0
  unlockedVesselResonances : WheelGemAffinity → UInt8 := fun _ => 0
  melee : Int32 := 0
  distance : Int32 := 0
  magic : Int32 := 0
  fist : Int32 := 0
  manaLeech : Float := 0
  lifeLeech : Float := 0
  instant : WheelInstant → Bool := fun _ => false
  stages : WheelStage → Nat := fun _ => 0
  momentum : Float32 := 0
  mitigation : Float32 := 0
  spells : List String := []

/-! ### The slots -/

section
variable (vocation : Vocation) (points : UInt16) (isMax : Bool) (bonusData : PlayerWheelMethodsBonusData)

/-- `IOWheel::isMaxPointAddedToSlot`. -/
def isMaxPointAddedToSlot (m_wheelSlots : WheelSlot → UInt16) (slot : WheelSlot) : Bool :=
  points == m_wheelSlots slot && points == getMaxPointsPerSlot slot

def addHealth : PlayerWheelMethodsBonusData :=
  let health := match vocation with
    | .KNIGHT => 3
    | .PALADIN | .MONK => 2
    | _ => 1
  { bonusData with health := bonusData.health + health * Int32.ofNat points.toNat }

def addMana : PlayerWheelMethodsBonusData :=
  let mana := match vocation with
    | .KNIGHT => 1
    | .PALADIN => 3
    | .MONK => 2
    | _ => 6
  { bonusData with mana := bonusData.mana + mana * Int32.ofNat points.toNat }

def addCapacity : PlayerWheelMethodsBonusData :=
  let capacity := match vocation with
    | .KNIGHT | .MONK => 5
    | .PALADIN => 4
    | _ => 2
  { bonusData with capacity := bonusData.capacity + capacity * Int32.ofNat points.toNat }

/-- `MITIGATION_INCREASE` for each point. -/
def addMitigation : PlayerWheelMethodsBonusData :=
  { bonusData with mitigation := (bonusData.mitigation.toFloat + 0.03 * points.toFloat).toFloat32 }

def addSkill : PlayerWheelMethodsBonusData :=
  if !isMax then bonusData
  else
    match vocation with
    | .KNIGHT => { bonusData with melee := bonusData.melee + 1 }
    | .PALADIN => { bonusData with distance := bonusData.distance + 1 }
    | .MONK => { bonusData with fist := bonusData.fist + 1 }
    | _ => { bonusData with magic := bonusData.magic + 1 }

/-- `MANA_LEECH_INCREASE`. -/
def addManaLeech : PlayerWheelMethodsBonusData :=
  if isMax then { bonusData with manaLeech := bonusData.manaLeech + 0.25 } else bonusData

/-- `HEALTH_LEECH_INCREASE`. -/
def addLifeLeech : PlayerWheelMethodsBonusData :=
  if isMax then { bonusData with lifeLeech := bonusData.lifeLeech + 0.75 } else bonusData

def addSpell (spellNames : List String) : PlayerWheelMethodsBonusData :=
  if isMax then { bonusData with spells := bonusData.spells ++ spellNames } else bonusData

def addVesselResonance (affinity : WheelGemAffinity) : PlayerWheelMethodsBonusData :=
  if isMax then
    let count := bonusData.unlockedVesselResonances affinity
    { bonusData with
        unlockedVesselResonances := Function.update bonusData.unlockedVesselResonances affinity (count + 1) }
  else bonusData

def addInstant (instant : WheelInstant) : PlayerWheelMethodsBonusData :=
  if isMax then { bonusData with instant := Function.update bonusData.instant instant true } else bonusData

end

def m_focusSpells : List String := ["Eternal Winter", "Hell's Core", "Rage of the Skies", "Wrath of Nature"]

/-- The spells of `RED_200` and `BLUE_50`. -/
def frontSweepSpells : Vocation → List String
  | .KNIGHT => ["Front Sweep"]
  | .PALADIN => ["Sharpshooter"]
  | .MONK => ["Sweeping Takedown"]
  | .SORCERER => m_focusSpells
  | _ => ["Strong Ice Wave"]

/-- The spells of `GREEN_MIDDLE_100` and `PURPLE_TOP_100`. -/
def groundshakerSpells : Vocation → List String
  | .KNIGHT => ["Groundshaker"]
  | .PALADIN => ["Strong Ethereal Spear"]
  | .MONK => ["Mass Spirit Mend"]
  | .SORCERER => ["Magic Shield"]
  | _ => ["Mass Healing"]

/-- The spells of `RED_MIDDLE_100` and `BLUE_MIDDLE_100`. -/
def chivalrousChallengeSpells : Vocation → List String
  | .KNIGHT => ["Chivalrous Challenge"]
  | .PALADIN => ["Divine Dazzle"]
  | .MONK => ["Mystic Repulse"]
  | .SORCERER => ["Sap Strength"]
  | _ => ["Nature's Embrace"]

/-- The spells of `GREEN_BOTTOM_100` and `PURPLE_MIDDLE_100`. -/
def intenseWoundCleansingSpells : Vocation → List String
  | .KNIGHT => ["Intense Wound Cleansing"]
  | .PALADIN => ["Swift Foot"]
  | .MONK => ["Chained Penance"]
  | .SORCERER => ["Energy Wave"]
  | _ => ["Terra Wave"]

/-- The spells of `RED_50` and `BLUE_200`. -/
def fierceBerserkSpells : Vocation → List String
  | .KNIGHT => ["Fierce Berserk"]
  | .PALADIN => ["Divine Caldera"]
  | .MONK => ["Flurry of Blows"]
  | .SORCERER => ["Great Fire Wave"]
  | _ => ["Heal Friend"]

/-- The instant of `GREEN_200`. -/
def greenInstant : Vocation → WheelInstant
  | .KNIGHT => .BATTLE_INSTINCT
  | .PALADIN => .POSITIONAL_TACTICS
  | .MONK => .GUIDING_PRESENCE
  | .SORCERER => .RUNIC_MASTERY
  | _ => .HEALING_LINK

/-- The instant of `PURPLE_200`. -/
def purpleInstant : Vocation → WheelInstant
  | .KNIGHT => .BATTLE_HEALING
  | .PALADIN => .BALLISTIC_MASTERY
  | .MONK => .SANCTUARY
  | .SORCERER => .FOCUS_MASTERY
  | _ => .RUNIC_MASTERY

/-- `getWheelMapFunctions`: the functions `slotGreen200` to `slotPurple200`, of a vocation with a wheel. -/
def wheelMapFunctions (m_wheelSlots : WheelSlot → UInt16) (slot : WheelSlot) (points : UInt16) (vocation : Vocation)
    (bonusData : PlayerWheelMethodsBonusData) : PlayerWheelMethodsBonusData :=
  let isMax := isMaxPointAddedToSlot points m_wheelSlots slot
  match slot with
  | .GREEN_200 => bonusData |> addHealth vocation points |> addMana vocation points |>
      fun b => addInstant isMax b (greenInstant vocation)
  | .GREEN_TOP_150 => bonusData |> addMitigation points |> addManaLeech isMax
  | .GREEN_TOP_100 => addVesselResonance isMax (addHealth vocation points bonusData) .Green
  | .RED_TOP_100 => bonusData |> addMana vocation points |> addSkill vocation isMax
  | .RED_TOP_150 => addVesselResonance isMax (addHealth vocation points bonusData) .Red
  | .RED_200 => addSpell isMax bonusData (frontSweepSpells vocation) |> addHealth vocation points |>
      addMana vocation points
  | .GREEN_BOTTOM_150 => addVesselResonance isMax (addMitigation points bonusData) .Green
  | .GREEN_MIDDLE_100 => addSpell isMax bonusData (groundshakerSpells vocation) |> addHealth vocation points
  | .GREEN_TOP_75 => bonusData |> addMana vocation points |> addLifeLeech isMax
  | .RED_TOP_75 => addVesselResonance isMax (addCapacity vocation points bonusData) .Red
  | .RED_MIDDLE_100 => addSpell isMax bonusData (chivalrousChallengeSpells vocation) |> addMana vocation points
  | .RED_BOTTOM_150 => bonusData |> addHealth vocation points |> addManaLeech isMax
  | .GREEN_BOTTOM_100 => addSpell isMax bonusData (intenseWoundCleansingSpells vocation) |> addHealth vocation points
  | .GREEN_BOTTOM_75 => bonusData |> addMana vocation points |> addSkill vocation isMax
  | .GREEN_50 => addVesselResonance isMax (addCapacity vocation points bonusData) .Green
  | .RED_50 => addSpell isMax (addMitigation points bonusData) (fierceBerserkSpells vocation)
  | .RED_BOTTOM_75 => bonusData |> addCapacity vocation points |> addLifeLeech isMax
  | .RED_BOTTOM_100 => addVesselResonance isMax (addMana vocation points bonusData) .Red
  | .BLUE_TOP_100 => addVesselResonance isMax (addMitigation points bonusData) .Blue
  | .BLUE_TOP_75 => bonusData |> addHealth vocation points |> addManaLeech isMax
  | .BLUE_50 => addSpell isMax bonusData (frontSweepSpells vocation) |> addMana vocation points
  | .PURPLE_50 => addVesselResonance isMax (addHealth vocation points bonusData) .Purple
  | .PURPLE_TOP_75 => bonusData |> addMitigation points |> addSkill vocation isMax
  | .PURPLE_TOP_100 => addSpell isMax bonusData (groundshakerSpells vocation) |> addCapacity vocation points
  | .BLUE_TOP_150 => bonusData |> addCapacity vocation points |> addLifeLeech isMax
  | .BLUE_MIDDLE_100 => addSpell isMax (addMitigation points bonusData) (chivalrousChallengeSpells vocation)
  | .BLUE_BOTTOM_75 => addVesselResonance isMax (addHealth vocation points bonusData) .Blue
  | .PURPLE_BOTTOM_75 => bonusData |> addMitigation points |> addManaLeech isMax
  | .PURPLE_MIDDLE_100 =>
    addSpell isMax bonusData (intenseWoundCleansingSpells vocation) |> addCapacity vocation points
  | .PURPLE_TOP_150 => addVesselResonance isMax (addMana vocation points bonusData) .Purple
  | .BLUE_200 => addSpell isMax bonusData (fierceBerserkSpells vocation) |> addHealth vocation points |>
      addMana vocation points
  | .BLUE_BOTTOM_150 => addVesselResonance isMax (addCapacity vocation points bonusData) .Blue
  | .BLUE_BOTTOM_100 => bonusData |> addMitigation points |> addSkill vocation isMax
  | .PURPLE_BOTTOM_100 => addVesselResonance isMax (addCapacity vocation points bonusData) .Purple
  | .PURPLE_BOTTOM_150 => bonusData |> addMana vocation points |> addLifeLeech isMax
  | .PURPLE_200 => bonusData |> addHealth vocation points |> addMana vocation points |>
      fun b => addInstant isMax b (purpleInstant vocation)

/-! ### The gems -/

inductive WheelGemBasicModifier where
  | General_PhysicalResistance | General_HolyResistance | General_DeathResistance | General_FireResistance
  | General_EarthResistance | General_IceResistance | General_EnergyResistance
  | General_HolyResistance_DeathWeakness | General_DeathResistance_HolyWeakness
  | General_FireResistance_EarthResistance | General_FireResistance_IceResistance
  | General_FireResistance_EnergyResistance | General_EarthResistance_IceResistance
  | General_EarthResistance_EnergyResistance | General_IceResistance_EnergyResistance
  | General_FireResistance_EarthWeakness | General_FireResistance_IceWeakness
  | General_FireResistance_EnergyWeakness | General_EarthResistance_FireWeakness
  | General_EarthResistance_IceWeakness | General_EarthResistance_EnergyWeakness
  | General_IceResistance_EarthWeakness | General_IceResistance_FireWeakness
  | General_IceResistance_EnergyWeakness | General_EnergyResistance_EarthWeakness
  | General_EnergyResistance_IceWeakness | General_EnergyResistance_FireWeakness | General_ManaDrainResistance
  | General_LifeDrainResistance | General_ManaDrainResistance_LifeDrainResistance
  | General_MitigationMultiplier | Vocation_Health | Vocation_Mana_FireResistance
  | Vocation_Mana_EnergyResistance | Vocation_Mana_Earth_Resistance | Vocation_Mana_Ice_Resistance
  | Vocation_Mana | Vocation_Health_FireResistance | Vocation_Health_EnergyResistance
  | Vocation_Health_EarthResistance | Vocation_Health_IceResistance | Vocation_Mixed | Vocation_Mixed2
  | Vocation_Capacity_FireResistance | Vocation_Capacity_EnergyResistance | Vocation_Capacity_EarthResistance
  | Vocation_Capacity_IceResistance | Vocation_Capacity
  deriving DecidableEq

inductive WheelGemSupremeModifier where
  | General_Dodge | General_CriticalDamage | General_LifeLeech | General_ManaLeech
  | SorcererDruid_UltimateHealing | General_RevelationMastery_GiftOfLife | Knight_AvatarOfSteel_Cooldown
  | Knight_ExecutionersThrow_Cooldown | Knight_ExecutionersThrow_DamageIncrease
  | Knight_ExecutionersThrow_CriticalExtraDamage | Knight_Fierce_Berserk_DamageIncrease
  | Knight_Fierce_Berserk_CriticalExtraDamage | Knight_Berserk_DamageIncrease
  | Knight_Berserk_CriticalExtraDamage | Knight_Front_Sweep_DamageIncrease
  | Knight_Front_Sweep_CriticalExtraDamage | Knight_Groundshaker_DamageIncrease
  | Knight_Groundshaker_CriticalExtraDamage | Knight_Annihilation_DamageIncrease
  | Knight_Annihilation_CriticalExtraDamage | Knight_FairWoundCleansing_HealingIncrease
  | Knight_RevelationMastery_AvatarOfSteel | Knight_RevelationMastery_ExecutionersThrow
  | Knight_RevelationMastery_CombatMastery | Paladin_AvatarOfLight_Cooldown | Paladin_DivineDazzle_Cooldown
  | Paladin_DivineGrenade_DamageIncrease | Paladin_DivineGrenade_CriticalExtraDamage
  | Paladin_DivineCaldera_DamageIncrease | Paladin_DivineCaldera_CriticalExtraDamage
  | Paladin_DivineMissile_DamageIncrease | Paladin_DivineMissile_CriticalExtraDamage
  | Paladin_EtherealSpear_DamageIncrease | Paladin_EtherealSpear_CriticalExtraDamage
  | Paladin_StrongEtherealSpear_DamageIncrease | Paladin_StrongEtherealSpear_CriticalExtraDamage
  | Paladin_DivineEmpowerment_Cooldown | Paladin_DivineGrenade_Cooldown | Paladin_Salvation_HealingIncrease
  | Paladin_RevelationMastery_AvatarOfLight | Paladin_RevelationMastery_DivineGrenade
  | Paladin_RevelationMastery_DivineEmpowerment | Sorcerer_AvatarOfStorm_Cooldown
  | Sorcerer_EnergyWave_Cooldown | Sorcerer_GreatDeathBeam_DamageIncrease
  | Sorcerer_GreatDeathBeam_CriticalExtraDamage | Sorcerer_HellsCore_DamageIncrease
  | Sorcerer_HellsCore_CriticalExtraDamage | Sorcerer_EnergyWave_DamageIncrease
  | Sorcerer_EnergyWave_CriticalExtraDamage | Sorcerer_GreatFireWave_DamageIncrease
  | Sorcerer_GreatFireWave_CriticalExtraDamage | Sorcerer_RageOfTheSkies_DamageIncrease
  | Sorcerer_RageOfTheSkies_CriticalExtraDamage | Sorcerer_GreatEnergyBeam_DamageIncrease
  | Sorcerer_GreatEnergyBeam_CriticalExtraDamage | Sorcerer_RevelationMastery_AvatarOfStorm
  | Sorcerer_RevelationMastery_BeamMastery | Sorcerer_RevelationMastery_DrainBody
  | Druid_AvatarOfNature_Cooldown | Druid_NaturesEmbrace_Cooldown | Druid_TerraBurst_DamageIncrease
  | Druid_TerraBurst_CriticalExtraDamage | Druid_IceBurst_DamageIncrease | Druid_IceBurst_CriticalExtraDamage
  | Druid_EternalWinter_DamageIncrease | Druid_EternalWinter_CriticalExtraDamage
  | Druid_TerraWave_DamageIncrease | Druid_TerraWave_CriticalExtraDamage | Druid_StrongIceWave_DamageIncrease
  | Druid_StrongIceWave_CriticalExtraDamage | Druid_HealFriend_HealingIncrease
  | Druid_MassHealing_HealingIncrease | Druid_RevelationMastery_AvatarOfNature
  | Druid_RevelationMastery_BlessingOfTheGrove | Druid_RevelationMastery_TwinBursts
  | Monk_AvatarOfBalance_Cooldown | Monk_SpiritMend_HealingIncrease | Monk_SpiritualOutburst_DamageIncrease
  | Monk_SpiritualOutburst_CriticalExtraDamage | Monk_ForcefulUppercut_DamageIncrease
  | Monk_ForcefulUppercut_CriticalExtraDamage | Monk_FurryofBlows_DamageIncrease
  | Monk_FurryofBlows_CriticalExtraDamage | Monk_GreaterFurryofBlows_DamageIncrease
  | Monk_GreaterFurryofBlows_CriticalExtraDamage | Monk_SweepingTakedown_DamageIncrease
  | Monk_SweepingTakedown_CriticalExtraDamage | Monk_FocusSerenety | Monk_FocusHarmony
  | Monk_MassSpiritMand_HealingIncrease | Monk_RevelationMastery_AvatarOfBalance
  | Monk_RevelationMastery_SpiritualOutburst | Monk_RevelationMastery_Ascetic
  deriving DecidableEq

/-- The modifier of a number; 32 is none. -/
def basicModifier (n : UInt8) : Option WheelGemBasicModifier :=
  if n < 32 then some (.ofNat n.toNat)
  else if 33 ≤ n ∧ n ≤ 48 then some (.ofNat (n.toNat - 1))
  else none

def supremeModifier (n : UInt8) : Option WheelGemSupremeModifier :=
  if n < 94 then some (.ofNat n.toNat) else none

/-- The subclasses of `GemModifierStrategy`. -/
inductive GemModifierStrategy where
  | resistance (combatType : CombatType) (resistance : Int32)
  | stat (stat : WheelStat) (value : Int32)
  | revelation (affinity : WheelGemAffinity) (value : UInt16)
  | spellBonus (spellName : String) (bonus : Bonus)

def gradeMultiplier (grade : UInt8) : Float32 :=
  if grade = 1 then 1.1 else if grade = 2 then 1.2 else if grade = 3 then 1.5 else 1.0

/-- A number times the multiplier, as an `int32_t` parameter takes it. -/
def scaled (m : Float32) (value : Int32) : Int32 := (value.toFloat32 * m).toInt32

/-- The server's numbers of the vocations, by which the gems tell them apart. -/
def VOCATION_SORCERER : UInt16 := 1
def VOCATION_DRUID : UInt16 := 2
def VOCATION_PALADIN : UInt16 := 3
def VOCATION_KNIGHT : UInt16 := 4
def VOCATION_MONK : UInt16 := 9

/-- A row of the maps of `WheelGemUtils`. -/
def vocationValue (vocation : UInt16) (knight paladin monk mage : Int32) : Int32 :=
  if vocation = VOCATION_KNIGHT then knight
  else if vocation = VOCATION_PALADIN then paladin
  else if vocation = VOCATION_MONK then monk
  else if vocation = VOCATION_SORCERER ∨ vocation = VOCATION_DRUID then mage
  else 0

def getHealthValue (vocation : UInt16) : WheelGemBasicModifier → Int32
  | .Vocation_Health => vocationValue vocation 300 200 200 100
  | .Vocation_Health_FireResistance | .Vocation_Health_EnergyResistance | .Vocation_Health_EarthResistance |
    .Vocation_Health_IceResistance | .Vocation_Mixed | .Vocation_Mixed2 => vocationValue vocation 150 100 100 50
  | _ => 0

def getManaValue (vocation : UInt16) : WheelGemBasicModifier → Int32
  | .Vocation_Mana_FireResistance | .Vocation_Mana_EnergyResistance | .Vocation_Mana_Earth_Resistance |
    .Vocation_Mana_Ice_Resistance | .Vocation_Capacity => vocationValue vocation 50 150 0 300
  | .Vocation_Mana => vocationValue vocation 100 300 200 600
  | .Vocation_Mixed => vocationValue vocation 50 100 0 150
  | _ => 0

def getCapacityValue (vocation : UInt16) : WheelGemBasicModifier → Int32
  | .Vocation_Capacity_FireResistance | .Vocation_Capacity_EnergyResistance | .Vocation_Capacity_EarthResistance |
    .Vocation_Capacity_IceResistance => vocationValue vocation 250 200 250 100
  | .Vocation_Capacity => vocationValue vocation 500 400 500 200
  | .Vocation_Mixed => vocationValue vocation 125 0 0 0
  | .Vocation_Mixed2 => vocationValue vocation 250 200 0 100
  | _ => 0

/-- The strategies that `addStrategies` adds for a basic modifier; `Vocation_Mixed2` is not among its cases. -/
def basicStrategies (m_vocation : UInt16) (m : Float32) (modifier : WheelGemBasicModifier) :
    List GemModifierStrategy :=
  let scaled := scaled m
  let health := scaled (getHealthValue m_vocation modifier)
  let mana := scaled (getManaValue m_vocation modifier)
  let capacity := scaled (getCapacityValue m_vocation modifier)
  match modifier with
  | .General_PhysicalResistance => [.resistance .PHYSICALDAMAGE (scaled 100)]
  | .General_HolyResistance => [.resistance .HOLYDAMAGE (scaled 100)]
  | .General_DeathResistance => [.resistance .DEATHDAMAGE (scaled 100)]
  | .General_FireResistance => [.resistance .FIREDAMAGE (scaled 200)]
  | .General_EarthResistance => [.resistance .EARTHDAMAGE (scaled 200)]
  | .General_IceResistance => [.resistance .ICEDAMAGE (scaled 200)]
  | .General_EnergyResistance => [.resistance .ENERGYDAMAGE (scaled 200)]
  | .General_HolyResistance_DeathWeakness => [.resistance .HOLYDAMAGE (scaled 150), .resistance .DEATHDAMAGE (-100)]
  | .General_DeathResistance_HolyWeakness => [.resistance .DEATHDAMAGE (scaled 150), .resistance .HOLYDAMAGE (-100)]
  | .General_FireResistance_EarthResistance =>
    [.resistance .FIREDAMAGE (scaled 100), .resistance .EARTHDAMAGE (scaled 100)]
  | .General_FireResistance_IceResistance =>
    [.resistance .FIREDAMAGE (scaled 100), .resistance .ICEDAMAGE (scaled 100)]
  | .General_FireResistance_EnergyResistance =>
    [.resistance .FIREDAMAGE (scaled 100), .resistance .ENERGYDAMAGE (scaled 100)]
  | .General_EarthResistance_IceResistance =>
    [.resistance .EARTHDAMAGE (scaled 100), .resistance .ICEDAMAGE (scaled 100)]
  | .General_EarthResistance_EnergyResistance =>
    [.resistance .EARTHDAMAGE (scaled 100), .resistance .ENERGYDAMAGE (scaled 100)]
  | .General_IceResistance_EnergyResistance =>
    [.resistance .ICEDAMAGE (scaled 100), .resistance .ENERGYDAMAGE (scaled 100)]
  | .General_FireResistance_EarthWeakness => [.resistance .FIREDAMAGE (scaled 300), .resistance .EARTHDAMAGE (-200)]
  | .General_FireResistance_IceWeakness => [.resistance .FIREDAMAGE (scaled 300), .resistance .ICEDAMAGE (-200)]
  | .General_FireResistance_EnergyWeakness =>
    [.resistance .FIREDAMAGE (scaled 300), .resistance .ENERGYDAMAGE (-200)]
  | .General_EarthResistance_FireWeakness => [.resistance .EARTHDAMAGE (scaled 300), .resistance .FIREDAMAGE (-200)]
  | .General_EarthResistance_IceWeakness => [.resistance .EARTHDAMAGE (scaled 300), .resistance .ICEDAMAGE (-200)]
  | .General_EarthResistance_EnergyWeakness =>
    [.resistance .EARTHDAMAGE (scaled 300), .resistance .ENERGYDAMAGE (-200)]
  | .General_IceResistance_EarthWeakness => [.resistance .ICEDAMAGE (scaled 300), .resistance .EARTHDAMAGE (-200)]
  | .General_IceResistance_FireWeakness => [.resistance .ICEDAMAGE (scaled 300), .resistance .FIREDAMAGE (-200)]
  | .General_IceResistance_EnergyWeakness => [.resistance .ICEDAMAGE (scaled 300), .resistance .ENERGYDAMAGE (-200)]
  | .General_EnergyResistance_EarthWeakness =>
    [.resistance .ENERGYDAMAGE (scaled 300), .resistance .EARTHDAMAGE (-200)]
  | .General_EnergyResistance_IceWeakness => [.resistance .ENERGYDAMAGE (scaled 300), .resistance .ICEDAMAGE (-200)]
  | .General_EnergyResistance_FireWeakness =>
    [.resistance .ENERGYDAMAGE (scaled 300), .resistance .FIREDAMAGE (-200)]
  | .General_ManaDrainResistance => [.resistance .MANADRAIN (scaled 300)]
  | .General_LifeDrainResistance => [.resistance .LIFEDRAIN (scaled 300)]
  | .General_ManaDrainResistance_LifeDrainResistance =>
    [.resistance .MANADRAIN (scaled 150), .resistance .LIFEDRAIN (scaled 150)]
  | .General_MitigationMultiplier => [.stat .MITIGATION (scaled 500)]
  | .Vocation_Health => [.stat .HEALTH health]
  | .Vocation_Mana_FireResistance => [.stat .MANA mana, .resistance .FIREDAMAGE (scaled 100)]
  | .Vocation_Mana_EnergyResistance => [.stat .MANA mana, .resistance .ENERGYDAMAGE (scaled 100)]
  | .Vocation_Mana_Earth_Resistance => [.stat .MANA mana, .resistance .EARTHDAMAGE (scaled 100)]
  | .Vocation_Mana_Ice_Resistance => [.stat .MANA mana, .resistance .ICEDAMAGE (scaled 100)]
  | .Vocation_Mana => [.stat .MANA mana]
  | .Vocation_Health_FireResistance => [.stat .HEALTH health, .resistance .FIREDAMAGE (scaled 100)]
  | .Vocation_Health_EnergyResistance => [.stat .HEALTH health, .resistance .ENERGYDAMAGE (scaled 100)]
  | .Vocation_Health_EarthResistance => [.stat .HEALTH health, .resistance .EARTHDAMAGE (scaled 100)]
  | .Vocation_Health_IceResistance => [.stat .HEALTH health, .resistance .ICEDAMAGE (scaled 100)]
  | .Vocation_Mixed => [.stat .HEALTH health, .stat .MANA mana, .stat .CAPACITY capacity]
  | .Vocation_Capacity_FireResistance => [.stat .CAPACITY capacity, .resistance .FIREDAMAGE (scaled 100)]
  | .Vocation_Capacity_EnergyResistance => [.stat .CAPACITY capacity, .resistance .ENERGYDAMAGE (scaled 100)]
  | .Vocation_Capacity_EarthResistance => [.stat .CAPACITY capacity, .resistance .EARTHDAMAGE (scaled 100)]
  | .Vocation_Capacity_IceResistance => [.stat .CAPACITY capacity, .resistance .ICEDAMAGE (scaled 100)]
  | .Vocation_Capacity => [.stat .CAPACITY capacity]
  | .Vocation_Mixed2 => []

/-- The strategy that `addStrategies` adds for a supreme modifier. -/
def supremeStrategy (grade : UInt8) : WheelGemSupremeModifier → GemModifierStrategy :=
  let m := gradeMultiplier grade
  let stat t value := .stat t (scaled m value)
  let revelation affinity := .revelation affinity (150 * m).toUInt16
  let cooldown spellName value := .spellBonus spellName { cooldown := value }
  let spellBonus := GemModifierStrategy.spellBonus
  fun
  | .General_Dodge => stat .DODGE 28
  | .General_LifeLeech => stat .LIFE_LEECH 200
  | .General_ManaLeech => stat .MANA_LEECH 80
  | .General_CriticalDamage => stat .CRITICAL_DAMAGE 200
  | .General_RevelationMastery_GiftOfLife => revelation .Green
  | .SorcererDruid_UltimateHealing => spellBonus "Ultimate Healing" { heal := scaled m 5 }
  | .Knight_RevelationMastery_ExecutionersThrow => revelation .Red
  | .Knight_RevelationMastery_AvatarOfSteel => revelation .Purple
  | .Knight_RevelationMastery_CombatMastery => revelation .Blue
  | .Paladin_RevelationMastery_DivineGrenade => revelation .Red
  | .Paladin_RevelationMastery_AvatarOfLight => revelation .Purple
  | .Paladin_RevelationMastery_DivineEmpowerment => revelation .Blue
  | .Druid_RevelationMastery_BlessingOfTheGrove => revelation .Red
  | .Druid_RevelationMastery_AvatarOfNature => revelation .Purple
  | .Druid_RevelationMastery_TwinBursts => revelation .Blue
  | .Sorcerer_RevelationMastery_BeamMastery => revelation .Red
  | .Sorcerer_RevelationMastery_AvatarOfStorm => revelation .Purple
  | .Sorcerer_RevelationMastery_DrainBody => revelation .Blue
  | .Knight_AvatarOfSteel_Cooldown => cooldown "Avatar of Steel" (900 * 1000)
  | .Knight_ExecutionersThrow_Cooldown => cooldown "Executioner's Throw" (2 * 1000)
  | .Knight_ExecutionersThrow_DamageIncrease => spellBonus "Executioner's Throw" { damage := scaled m 6 }
  | .Knight_ExecutionersThrow_CriticalExtraDamage =>
    spellBonus "Executioner's Throw" { criticalDamage := scaled m 12 }
  | .Knight_Fierce_Berserk_DamageIncrease => spellBonus "Fierce Berserk" { damage := scaled m 5 }
  | .Knight_Fierce_Berserk_CriticalExtraDamage => spellBonus "Fierce Berserk" { criticalDamage := scaled m 8 }
  | .Knight_Berserk_DamageIncrease => spellBonus "Berserk" { damage := scaled m 5 }
  | .Knight_Berserk_CriticalExtraDamage => spellBonus "Berserk" { criticalDamage := scaled m 12 }
  | .Knight_Front_Sweep_CriticalExtraDamage => spellBonus "Front Sweep" { criticalDamage := scaled m 12 }
  | .Knight_Front_Sweep_DamageIncrease => spellBonus "Front Sweep" { damage := scaled m 8 }
  | .Knight_Groundshaker_DamageIncrease => spellBonus "Groundshaker" { damage := (6.5 * m.toFloat).round.toInt32 }
  | .Knight_Groundshaker_CriticalExtraDamage => spellBonus "Groundshaker" { criticalDamage := scaled m 12 }
  | .Knight_Annihilation_CriticalExtraDamage => spellBonus "Annihilation" { criticalDamage := scaled m 15 }
  | .Knight_Annihilation_DamageIncrease => spellBonus "Annihilation" { damage := scaled m 12 }
  | .Knight_FairWoundCleansing_HealingIncrease => spellBonus "Fair Wound Cleansing" { heal := scaled m 10 }
  | .Paladin_AvatarOfLight_Cooldown => cooldown "Avatar of Light" (900 * 1000)
  | .Paladin_DivineDazzle_Cooldown => cooldown "Divine Dazzle" (4 * 1000)
  | .Paladin_DivineGrenade_DamageIncrease => spellBonus "Divine Grenade" { damage := scaled m 6 }
  | .Paladin_DivineGrenade_CriticalExtraDamage => spellBonus "Divine Grenade" { criticalDamage := scaled m 12 }
  | .Paladin_DivineCaldera_DamageIncrease => spellBonus "Divine Caldera" { damage := scaled m 5 }
  | .Paladin_DivineCaldera_CriticalExtraDamage => spellBonus "Divine Caldera" { criticalDamage := scaled m 12 }
  | .Paladin_DivineMissile_DamageIncrease => spellBonus "Divine Missile" { damage := scaled m 8 }
  | .Paladin_DivineMissile_CriticalExtraDamage => spellBonus "Divine Missile" { criticalDamage := scaled m 12 }
  | .Paladin_EtherealSpear_DamageIncrease => spellBonus "Ethereal Spear" { damage := scaled m 10 }
  | .Paladin_EtherealSpear_CriticalExtraDamage => spellBonus "Ethereal Spear" { criticalDamage := scaled m 15 }
  | .Paladin_StrongEtherealSpear_DamageIncrease => spellBonus "Strong Ethereal Spear" { damage := scaled m 8 }
  | .Paladin_StrongEtherealSpear_CriticalExtraDamage =>
    spellBonus "Strong Ethereal Spear" { criticalDamage := scaled m 12 }
  | .Paladin_DivineEmpowerment_Cooldown => cooldown "Divine Empowerment" (6 * 1000)
  | .Paladin_DivineGrenade_Cooldown => cooldown "Divine Grenade" (2 * 1000)
  | .Paladin_Salvation_HealingIncrease => spellBonus "Salvation" { heal := scaled m 6 }
  | .Sorcerer_AvatarOfStorm_Cooldown => cooldown "Avatar of Storm" (900 * 1000)
  | .Sorcerer_EnergyWave_Cooldown => cooldown "Energy Wave" (1 * 1000)
  | .Sorcerer_GreatDeathBeam_DamageIncrease => spellBonus "Great Death Beam" { damage := scaled m 10 }
  | .Sorcerer_GreatDeathBeam_CriticalExtraDamage => spellBonus "Great Death Beam" { criticalDamage := scaled m 15 }
  | .Sorcerer_HellsCore_DamageIncrease => spellBonus "Hell's Core" { damage := scaled m 8 }
  | .Sorcerer_HellsCore_CriticalExtraDamage => spellBonus "Hell's Core" { criticalDamage := scaled m 12 }
  | .Sorcerer_EnergyWave_DamageIncrease => spellBonus "Energy Wave" { damage := scaled m 5 }
  | .Sorcerer_EnergyWave_CriticalExtraDamage => spellBonus "Energy Wave" { criticalDamage := scaled m 12 }
  | .Sorcerer_GreatFireWave_DamageIncrease => spellBonus "Great Fire Wave" { damage := scaled m 5 }
  | .Sorcerer_GreatFireWave_CriticalExtraDamage => spellBonus "Great Fire Wave" { criticalDamage := scaled m 8 }
  | .Sorcerer_RageOfTheSkies_DamageIncrease => spellBonus "Rage of the Skies" { damage := scaled m 8 }
  | .Sorcerer_RageOfTheSkies_CriticalExtraDamage => spellBonus "Rage of the Skies" { criticalDamage := scaled m 12 }
  | .Sorcerer_GreatEnergyBeam_DamageIncrease => spellBonus "Great Energy Beam" { damage := scaled m 10 }
  | .Sorcerer_GreatEnergyBeam_CriticalExtraDamage => spellBonus "Great Energy Beam" { criticalDamage := scaled m 15 }
  | .Druid_AvatarOfNature_Cooldown => cooldown "Avatar of Nature" (900 * 1000)
  | .Druid_NaturesEmbrace_Cooldown => cooldown "Nature's Embrace" (5 * 1000)
  | .Druid_TerraBurst_DamageIncrease => spellBonus "Terra Burst" { damage := scaled m 7 }
  | .Druid_TerraBurst_CriticalExtraDamage => spellBonus "Terra Burst" { criticalDamage := scaled m 12 }
  | .Druid_IceBurst_DamageIncrease => spellBonus "Ice Burst" { damage := scaled m 7 }
  | .Druid_IceBurst_CriticalExtraDamage => spellBonus "Ice Burst" { criticalDamage := scaled m 12 }
  | .Druid_EternalWinter_CriticalExtraDamage => spellBonus "Eternal Winter" { criticalDamage := scaled m 12 }
  | .Druid_EternalWinter_DamageIncrease => spellBonus "Eternal Winter" { damage := scaled m 8 }
  | .Druid_TerraWave_DamageIncrease => spellBonus "Terra Wave" { damage := scaled m 5 }
  | .Druid_TerraWave_CriticalExtraDamage => spellBonus "Terra Wave" { criticalDamage := scaled m 12 }
  | .Druid_StrongIceWave_DamageIncrease => spellBonus "Strong Ice Wave" { damage := scaled m 8 }
  | .Druid_StrongIceWave_CriticalExtraDamage => spellBonus "Strong Ice Wave" { criticalDamage := scaled m 15 }
  | .Druid_HealFriend_HealingIncrease => spellBonus "Heal Friend" { heal := scaled m 5 }
  | .Druid_MassHealing_HealingIncrease => spellBonus "Mass Healing" { heal := scaled m 5 }
  | .Monk_AvatarOfBalance_Cooldown => cooldown "Avatar of Balance" (900 * 1000)
  | .Monk_SpiritMend_HealingIncrease => spellBonus "Spirit Mend" { heal := scaled m 6 }
  | .Monk_SpiritualOutburst_DamageIncrease => spellBonus "Spiritual Outburst" { damage := scaled m 5 }
  | .Monk_SpiritualOutburst_CriticalExtraDamage => spellBonus "Spiritual Outburst" { criticalDamage := scaled m 8 }
  | .Monk_ForcefulUppercut_DamageIncrease => spellBonus "Forceful Uppercut" { damage := scaled m 10 }
  | .Monk_ForcefulUppercut_CriticalExtraDamage => spellBonus "Forceful Uppercut" { criticalDamage := scaled m 8 }
  | .Monk_FurryofBlows_DamageIncrease => spellBonus "Flurry of Blows" { criticalDamage := (6.5 * m.toFloat).toInt32 }
  | .Monk_FurryofBlows_CriticalExtraDamage => spellBonus "Flurry of Blows" { damage := scaled m 8 }
  | .Monk_GreaterFurryofBlows_DamageIncrease => spellBonus "Greater Flurry of Blows" { damage := scaled m 5 }
  | .Monk_GreaterFurryofBlows_CriticalExtraDamage =>
    spellBonus "Greater Flurry of Blows" { criticalDamage := scaled m 8 }
  | .Monk_SweepingTakedown_DamageIncrease => spellBonus "Sweeping Takedown" { damage := scaled m 8 }
  | .Monk_SweepingTakedown_CriticalExtraDamage => spellBonus "Sweeping Takedown" { criticalDamage := scaled m 8 }
  | .Monk_FocusSerenety => cooldown "Focus Serenity" (150 * 1000)
  | .Monk_FocusHarmony => cooldown "Focus Harmony" (30 * 1000)
  | .Monk_MassSpiritMand_HealingIncrease => spellBonus "Mass Spirit Mend" { heal := scaled m 5 }
  | .Monk_RevelationMastery_AvatarOfBalance => revelation .Purple
  | .Monk_RevelationMastery_SpiritualOutburst => revelation .Red
  | .Monk_RevelationMastery_Ascetic => revelation .Blue

end CrystalServer.WheelBonus
