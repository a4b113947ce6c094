import CrystalServer.Items.Tile

/-! # Damage of combats

`Combat::doCombatHealth`, `Combat::CombatFunc` and `Combat::applyExtensions` (`creatures/combat/combat.cpp`): what is
handed to `CombatHealthFunc`, and the damage that `applyExtensions` leaves with each target. What the dice give, and
products with `double`, come with the call. -/

namespace CrystalServer.Combat

/-- `CombatType_t`. -/
inductive CombatType where
  | PHYSICALDAMAGE | ENERGYDAMAGE | EARTHDAMAGE | FIREDAMAGE | UNDEFINEDDAMAGE | LIFEDRAIN | MANADRAIN | HEALING
  | DROWNDAMAGE | ICEDAMAGE | HOLYDAMAGE | DEATHDAMAGE | AGONYDAMAGE | NEUTRALDAMAGE | NONE
  deriving DecidableEq

/-- `CombatOrigin`. -/
inductive CombatOrigin where
  | NONE | CONDITION | SPELL | MELEE | RANGED
  deriving DecidableEq

/-- `primary` and `secondary` of `CombatDamage`. -/
structure CombatValue where
  type : CombatType := .NONE
  value : Int := 0
  deriving DecidableEq

/-- `CombatDamage`. -/
structure CombatDamage where
  primary : CombatValue := {}
  secondary : CombatValue := {}
  origin : CombatOrigin := .NONE
  critical : Bool := false
  affected : Int := 1
  extension : Bool := false
  exString : String := ""
  fatal : Bool := false
  hazardDodge : Bool := false
  criticalDamage : Int := 0
  criticalChance : Int := 0
  damageMultiplier : Int := 0
  damageReductionMultiplier : Int := 0
  healingMultiplier : Int := 0
  manaLeech : Int := 0
  manaLeechChance : Int := 0
  lifeLeech : Int := 0
  lifeLeechChance : Int := 0
  healingLink : Int := 0
  instantSpellName : String := ""
  runeSpellName : String := ""
  deriving DecidableEq

/-- Two of the fields are not looked at. -/
def CombatDamage.isEmpty (d : CombatDamage) : Bool :=
  d = { hazardDodge := d.hazardDodge, damageReductionMultiplier := d.damageReductionMultiplier }

/-- The perks of the equipped weapon that concern critical hits. -/
structure ProficiencyPerk where
  critHitChanceForAutoAttack : Int
  critHitChanceForOffensiveRunes : Int
  critHitChanceForElementIdToSpellsAndRunes : CombatType → Int
  critExtraDamageForAutoAttack : Int
  critExtraDamageForOffensiveRunes : Int
  critExtraDamageForElementIdToSpellsAndRunes : CombatType → Int

/-- What is read of a caster who is a player. A charm gives its race and its chance, if it is there. -/
structure PlayerCaster where
  criticalHitChance : Int
  criticalHitDamage : Int
  lowBlowCharmRaceId : UInt16
  lowBlowChance : Option Int
  savageBlowCharmRaceId : UInt16
  savageBlowChance : Option Int
  attackedCreature : Option CreatureRef
  proficiencyPerk : ProficiencyPerk
  isAttackRune : String → Bool
  beamMasterySpells : String → Bool
  beamMastery : Bool
  checkBeamMasteryDamage : Int
  isFirstOnStack : Bool

/-- What is read of a caster that is a monster. -/
structure MonsterCaster where
  criticalChance : Int
  criticalDamage : Int
  attackMultiplier : Int → Int

inductive CasterKind where
  | player (p : PlayerCaster)
  | monster (m : MonsterCaster)
  | npc

/-- The dice of a call, and `static_cast<int32_t>(value * (1.0 + bonus / 10000.0))` and
    `static_cast<int32_t>(std::round(value * 0.6))`. -/
structure Rolls where
  rand : Int
  canApplyFatal : Bool
  multiply : Int → Int → Int
  sixTenths : Int → Int

/-- A target: whether it is a monster, and the race of its type if the type is there. -/
inductive TargetKind where
  | monster (raceId : Option UInt16)
  | other

/-- What a call reads of the game. -/
structure Call where
  caster : Option (CreatureRef × CasterKind)
  targetKind : CreatureRef → TargetKind
  rolls : Rolls
  aggressive : Bool
  isHealing : Bool
  targetCasterOrTopMost : Bool

/-! ### Extensions -/

/-- What is the same for all targets in `applyExtensions`. -/
structure CriticalBase where
  chance : Int
  damage : Int
  canApplyCritical : Bool
  lowBlowChance : Int
  canApplyLowBlow : Bool
  savageBlowBonus : Int

def criticalBase (p : PlayerCaster) (rolls : Rolls) (damage : CombatDamage) : CriticalBase :=
  let chance := p.criticalHitChance + damage.criticalChance
  let canApplyCritical := chance ≠ 0 ∧ rolls.rand ≤ chance
  let lowBlow := if !canApplyCritical ∧ p.lowBlowCharmRaceId ≠ 0 then p.lowBlowChance else none
  { chance
    damage := p.criticalHitDamage + damage.criticalDamage
    canApplyCritical
    lowBlowChance := lowBlow.getD 0
    canApplyLowBlow := lowBlow.any fun c => rolls.rand ≤ chance + c
    savageBlowBonus := if p.savageBlowCharmRaceId ≠ 0 then p.savageBlowChance.getD 0 else 0 }

def isSpellOrRune (damage : CombatDamage) : Bool := damage.instantSpellName ≠ "" || damage.runeSpellName ≠ ""

/-- `isTargetCritical` for a monster. -/
def isTargetCritical (p : PlayerCaster) (rolls : Rolls) (base : CriticalBase) (c : CreatureRef) (raceId : UInt16)
    (damage : CombatDamage) : Bool :=
  let perk := p.proficiencyPerk
  let chance := base.chance + base.lowBlowChance
  let runes := if perk.critHitChanceForOffensiveRunes > 0 ∧ damage.runeSpellName ≠ "" ∧ p.isAttackRune damage.runeSpellName
    then perk.critHitChanceForOffensiveRunes else 0
  let element := perk.critHitChanceForElementIdToSpellsAndRunes damage.primary.type
  base.canApplyCritical || (raceId = p.lowBlowCharmRaceId ∧ base.canApplyLowBlow) ||
    (p.attackedCreature = some c ∧ perk.critHitChanceForAutoAttack > 0 ∧
      rolls.rand ≤ chance + perk.critHitChanceForAutoAttack) ||
    (isSpellOrRune damage ∧ ((runes > 0 ∧ rolls.rand ≤ chance + runes) ∨
      (element > 0 ∧ rolls.rand ≤ chance + (runes + element))))

/-- `finalCriticalHitDamage` for a monster. -/
def finalCriticalHitDamage (p : PlayerCaster) (base : CriticalBase) (c : CreatureRef) (raceId : UInt16)
    (damage : CombatDamage) : Int :=
  let perk := p.proficiencyPerk
  let auto := if p.attackedCreature = some c ∧ perk.critExtraDamageForAutoAttack > 0
    then perk.critExtraDamageForAutoAttack else 0
  let savage := if base.savageBlowBonus ≠ 0 ∧ raceId = p.savageBlowCharmRaceId then base.savageBlowBonus else 0
  let runes := if isSpellOrRune damage ∧ perk.critExtraDamageForOffensiveRunes > 0 ∧ damage.runeSpellName ≠ "" ∧
    p.isAttackRune damage.runeSpellName then perk.critExtraDamageForOffensiveRunes else 0
  let element := perk.critExtraDamageForElementIdToSpellsAndRunes damage.primary.type
  base.damage + auto + savage + runes + (if isSpellOrRune damage ∧ element > 0 then element else 0)

/-- The critical and the fatal part. -/
def finishDamage (rolls : Rolls) (critical : Option Int) (damage : CombatDamage) : CombatDamage :=
  let damage := match critical with
    | some bonus => { damage with
        critical := true
        primary.value := rolls.multiply damage.primary.value bonus
        secondary.value := rolls.multiply damage.secondary.value bonus }
    | none => damage
  if rolls.canApplyFatal then
    { damage with
      fatal := true
      primary.value := damage.primary.value + rolls.sixTenths damage.primary.value
      secondary.value := damage.secondary.value + rolls.sixTenths damage.secondary.value }
  else damage

/-- What `applyExtensions` computes for a target of a player. A monster without a type is passed over. -/
def targetDamage (p : PlayerCaster) (call : Call) (damage : CombatDamage) (c : CreatureRef) : Option CombatDamage :=
  let base := criticalBase p call.rolls damage
  match call.targetKind c with
  | .monster none => none
  | .monster (some raceId) =>
    let bonus := finalCriticalHitDamage p base c raceId damage
    let critical := isTargetCritical p call.rolls base c raceId damage
    some (finishDamage call.rolls (if critical then some bonus else none) damage)
  | .other => some (finishDamage call.rolls (if base.canApplyCritical then some base.damage else none) damage)

/-- What `applyExtensions` makes of the damage of a monster. -/
def monsterDamage (m : MonsterCaster) (rolls : Rolls) (damage : CombatDamage) : CombatDamage :=
  let chance := m.criticalChance + (UInt16.ofInt damage.criticalChance).toNat
  let damage := if chance ≠ 0 ∧ rolls.rand ≤ chance then
    { damage with
      critical := true
      primary.value := rolls.multiply damage.primary.value (m.criticalDamage + damage.criticalDamage)
      secondary.value := rolls.multiply damage.secondary.value (m.criticalDamage + damage.criticalDamage) }
    else damage
  { damage with
    primary.value := m.attackMultiplier damage.primary.value
    secondary.value := m.attackMultiplier damage.secondary.value }

/-- `m_combatDamage` of each creature. -/
abbrev Fields := CreatureRef → CombatDamage

def setCombatDamage (fields : Fields) (c : CreatureRef) (damage : CombatDamage) : Fields :=
  Function.update fields c damage

/-- The loop of `applyExtensions` over the targets of a player. -/
def extendTargets (p : PlayerCaster) (call : Call) (isSingleCombat : Bool) (s : Fields × CombatDamage) (c : CreatureRef) :
    Fields × CombatDamage :=
  match targetDamage p call s.2 c with
  | some d => (setCombatDamage s.1 c d, if isSingleCombat then d else s.2)
  | none => s

/-- `Combat::applyExtensions`. -/
def applyExtensions (call : Call) (fields : Fields) (targets : List CreatureRef) (damage : CombatDamage) :
    Fields × CombatDamage :=
  if damage.extension ∨ call.caster.isNone ∨ damage.primary.type = .HEALING then (fields, damage)
  else match call.caster with
    | some (_, .player p) => targets.foldl (extendTargets p call (targets.length = 1)) (fields, damage)
    | some (_, .monster m) => (fields, monsterDamage m call.rolls damage)
    | _ => (fields, damage)

/-! ### One target -/

def isCaster (call : Call) (c : CreatureRef) : Bool := call.caster.any fun k => k.1 = c

/-- `!params.aggressive || (caster != target && canDoCombat)`, where `canDoCombat` says which creatures `Combat::canDoCombat`
    answers `RETURNVALUE_NOERROR` for. -/
def canCombat (call : Call) (canDoCombat : CreatureRef → Bool) (c : CreatureRef) : Bool :=
  !call.aggressive || (!isCaster call c && canDoCombat c)

def TargetKind.isMonster : TargetKind → Bool
  | .monster _ => true
  | .other => false

/-- `Combat::doCombatHealth` for one target: the fields, and what is handed to `CombatHealthFunc`. -/
def doCombatHealthTarget (call : Call) (canDoCombat : CreatureRef → Bool) (fields : Fields) (target : CreatureRef)
    (damage : CombatDamage) : Fields × List (CreatureRef × CombatDamage) :=
  if call.isHealing ∧ (call.targetKind target).isMonster ∧ !isCaster call target then (fields, [])
  else
    let (fields, damage) := applyExtensions call fields [target] damage
    (fields, if canCombat call canDoCombat target then [(target, damage)] else [])

/-! ### An area -/

/-- A tile of the area, as one of the loops finds it. -/
structure AreaTile where
  /-- `canDoCombat` with the tile answers `RETURNVALUE_NOERROR`. -/
  isOpen : Bool
  /-- `canDoCombat` with the creature answers `RETURNVALUE_NOERROR`. -/
  canDoCombat : CreatureRef → Bool
  creatures : List CreatureRef
  topCreature : Option CreatureRef
  /-- The tile is the one of the caster. -/
  hasCaster : Bool
  /-- The world has optional pvp, and the position is the one of the caster. -/
  isPeacefulOrigin : Bool

/-- The creatures of a tile that the loops of `CombatFunc` do not pass over. -/
def targetsOf (call : Call) (tile : AreaTile) : List CreatureRef :=
  if !tile.isOpen then []
  else tile.creatures.filter fun c =>
    (!call.targetCasterOrTopMost ||
      if call.caster.isSome ∧ tile.hasCaster then isCaster call c else tile.topCreature = some c) &&
      canCombat call tile.canDoCombat c

/-- The creatures that the second loop comes to. -/
def hitsOf (call : Call) (tile : AreaTile) : List CreatureRef :=
  if call.targetCasterOrTopMost then (targetsOf call tile).take 1 else targetsOf call tile

/-- `CombatFunc` returns from its first loop. -/
def turnsBack (call : Call) (tiles : List AreaTile) : Bool :=
  match call.caster with
  | some (_, .player p) => !p.isFirstOnStack && tiles.any (·.isPeacefulOrigin)
  | _ => false

/-- `PlayerWheel::getBeamAffectedTotal`. -/
def getBeamAffectedTotal (call : Call) (damage : CombatDamage) : Nat :=
  match call.caster with
  | some (_, .player p) => if p.beamMasterySpells damage.instantSpellName ∧ p.beamMastery then 3 else 0
  | _ => 0

/-- `PlayerWheel::updateBeamMasteryDamage`, on the damage and `beamAffectedTotal`. -/
def updateBeamMasteryDamage (call : Call) (s : CombatDamage × Nat) : CombatDamage × Nat :=
  match call.caster, s.2 with
  | some (_, .player p), total + 1 =>
    ({ s.1 with damageMultiplier := s.1.damageMultiplier + p.checkBeamMasteryDamage }, total)
  | _, _ => s

/-- The second loop of `CombatFunc`. -/
def hitLoop (call : Call) : Fields → CombatDamage × Nat → List CreatureRef → Fields × List (CreatureRef × CombatDamage)
  | fields, _, [] => (fields, [])
  | fields, own, c :: hits =>
    let own := updateBeamMasteryDamage call own
    let creatureDamage := fields c
    let (handed, fields) :=
      if !creatureDamage.isEmpty then (creatureDamage, setCombatDamage fields c {}) else (own.1, fields)
    let (fields, rest) := hitLoop call fields own hits
    (fields, (c, handed) :: rest)

/-- `tmpDamage` once the targets are counted. -/
def areaDamage (call : Call) (tiles : List AreaTile) (damage : CombatDamage) : CombatDamage :=
  { damage with affected := (tiles.flatMap (targetsOf call)).length }

/-- `Combat::doCombatHealth` for an area. The second loop may find the tiles otherwise than the first, by what was done to
    the creatures before. -/
def doCombatHealthArea (call : Call) (fields : Fields) (tiles tilesThen : List AreaTile) (damage : CombatDamage) :
    Fields × List (CreatureRef × CombatDamage) :=
  if turnsBack call tiles then (fields, [])
  else
    let tmpDamage := areaDamage call tiles damage
    let (fields, _) := applyExtensions call fields (tiles.flatMap (targetsOf call)) tmpDamage
    hitLoop call fields (tmpDamage, getBeamAffectedTotal call damage) (tilesThen.flatMap (hitsOf call))

/-! ### Casts -/

/-- A call of `doCombatHealth`. -/
inductive Cast where
  | target (call : Call) (canDoCombat : CreatureRef → Bool) (target : CreatureRef) (damage : CombatDamage)
  | area (call : Call) (tiles tilesThen : List AreaTile) (damage : CombatDamage)

/-- What a cast leaves in the fields, and what it hands to `CombatHealthFunc`. -/
def doCombatHealth (fields : Fields) : Cast → Fields × List (CreatureRef × CombatDamage)
  | .target call canDoCombat target damage => doCombatHealthTarget call canDoCombat fields target damage
  | .area call tiles tilesThen damage => doCombatHealthArea call fields tiles tilesThen damage

def step (fields : Fields) (cast : Cast) : Fields := (doCombatHealth fields cast).1

/-- `CombatDamage()` in every creature. -/
def start : Fields := fun _ => {}

end CrystalServer.Combat

/-! ## Damage to health and mana

`Game::combatChangeHealth` (`game/game.cpp`) for damage, from where it adds up the two values, with what it calls of
`Creature` (`creatures/creature.cpp`). There are no scripts, no Gift of Life and no multiplier of fights between players. -/

namespace CrystalServer.Combat

/-- What is read and changed of the target. -/
structure Target where
  health : Int
  mana : UInt32
  manaShield : UInt32
  maxManaShield : UInt32
  CONDITION_MANASHIELD : Bool
  getMaxHealth : Int
  getMaxMana : UInt32
  IsGameTester : Bool
  HasInfiniteMana : Bool
  deriving DecidableEq

namespace Target
variable (target : Target)

def setManaShield (value : UInt32) : Target := { target with manaShield := value }

/-- `removeCondition`, with the end of the condition. -/
def removeManaShield : Target :=
  { target with CONDITION_MANASHIELD := false, manaShield := 0, maxManaShield := 0 }

/-- `Creature::changeHealth`, and before it the one of `Player`. -/
def changeHealth (healthChange : Int) : Target :=
  if target.IsGameTester then target
  else if healthChange > 0 then
    { target with health := target.health + min healthChange (target.getMaxHealth - target.health) }
  else { target with health := max 0 (target.health + healthChange) }

/-- `Creature::changeMana`, and before it the one of `Player`. -/
def changeMana (manaChange : Int) : Target :=
  if target.IsGameTester || target.HasInfiniteMana then target
  else if manaChange > 0 then
    { target with
      mana := target.mana + .ofInt (min manaChange (target.getMaxMana - target.mana).toInt32.toInt) }
  else { target with mana := .ofInt (max 0 (target.mana + .ofInt manaChange).toInt32.toInt) }

def drainHealth (damage : Int) : Target := target.changeHealth (-damage)

def drainMana (manaLoss : Int) : Target := target.changeMana (-manaLoss)

end Target

/-- A hit on its way: the target, and what is left of the damage. -/
structure Hit where
  target : Target
  damage : CombatDamage
  deriving DecidableEq

/-- The mana that a hit is charged with, the shield that is left, and the target whose shield was changed. -/
def chargeShield (target : Target) (healthChange : Int) : Target × Int × UInt32 :=
  let manaDamage := min target.mana.toInt32.toInt healthChange
  let manaShield := target.manaShield
  if manaShield > 0 then
    if manaShield > .ofInt manaDamage then
      (target.setManaShield (manaShield - .ofInt manaDamage), manaDamage, manaShield - .ofInt manaDamage)
    else (target.removeManaShield, manaShield.toInt32.toInt, 0)
  else (target, manaDamage, manaShield)

/-- The damage that is left when mana has taken its part. -/
def takeMana (damage : CombatDamage) (manaDamage : Int) : CombatDamage :=
  let primary := damage.primary.value - manaDamage
  if primary < 0 then
    { damage with
      primary := { damage.primary with value := 0 }
      secondary := { damage.secondary with value := max 0 (damage.secondary.value + primary) } }
  else { damage with primary := { damage.primary with value := primary } }

/-- The part with the mana shield. -/
def hitMana (target : Target) (damage : CombatDamage) (healthChange : Int) : Hit :=
  if target.CONDITION_MANASHIELD ∧ damage.primary.type ≠ .UNDEFINEDDAMAGE then
    let (target, manaDamage, manaShield) := chargeShield target healthChange
    if manaDamage ≠ 0 then
      let target := target.drainMana manaDamage
      let target := if target.mana = 0 ∧ manaShield > 0 then target.removeManaShield else target
      ⟨target, takeMana damage manaDamage⟩
    else ⟨target, damage⟩
  else ⟨target, damage⟩

/-- The values that are shown to those who watch: no more than the target has. -/
def limitDamage (damage : CombatDamage) (targetHealth : Int) : CombatDamage :=
  if damage.primary.value ≥ targetHealth then
    { damage with
      primary := { damage.primary with value := targetHealth }
      secondary := { damage.secondary with value := 0 } }
  else if damage.secondary.value ≠ 0 then
    { damage with
      secondary := { damage.secondary with value := min damage.secondary.value (targetHealth - damage.primary.value) } }
  else damage

/-- The part with the health. -/
def hitHealth (hit : Hit) : Hit :=
  let realDamage := hit.damage.primary.value + hit.damage.secondary.value
  if realDamage = 0 then hit
  else
    let realDamage := min hit.target.health realDamage
    if realDamage = 0 then hit
    else ⟨hit.target.drainHealth realDamage, limitDamage hit.damage hit.target.health⟩

/-- `Game::combatChangeHealth` from where `healthChange` is made. Before the shield, the hazard system may change the damage,
    and a charm may dodge it. -/
def combatChangeHealth (handleHazardSystemAttack : CombatDamage → CombatDamage) (dodged : Bool) (target : Target)
    (damage : CombatDamage) : Hit :=
  let healthChange := damage.primary.value + damage.secondary.value
  if healthChange = 0 then ⟨target, damage⟩
  else
    let damage := handleHazardSystemAttack damage
    if dodged then ⟨target, damage⟩ else hitHealth (hitMana target damage healthChange)

end CrystalServer.Combat
