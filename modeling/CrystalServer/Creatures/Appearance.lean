import CrystalServer.Creatures.Combat.Condition

/-! # Mounts and outfits

What mounts and outfits give to the player who wears them (`creatures/appearance/mounts/mounts.cpp`,
`creatures/appearance/outfit/outfit.cpp`), and the calls that change them (`Game::playerChangeOutfit`, `player.cpp`).
Nothing suppresses or deflects the conditions that they give. Wings, auras and shaders come after all of this and are left
out. -/

namespace CrystalServer.Appearance

inductive ConditionId_t
  | DEFAULT | COMBAT | HEAD | NECKLACE | BACKPACK | ARMOR | RIGHT | LEFT | LEGS | FEET | RING | AMMO | OUTFIT | MOUNT
  deriving DecidableEq

/-- What `ConditionRegeneration` keeps, with its defaults; the other conditions of mounts and outfits leave it so. -/
structure Regeneration where
  healthTicks : UInt32 := 1000
  manaTicks : UInt32 := 1000
  healthGain : UInt32 := 0
  manaGain : UInt32 := 0
  deriving DecidableEq

/-- The conditions that never end. -/
abbrev Conditions := ConditionId_t × ConditionType_t → Option Regeneration

/-- The fields that `Mount` and `Outfit` share. The amounts of `imbuing` are those that `setVarSkill` takes, without their
fraction. -/
structure Attributes where
  manaShield : Bool := false
  invisible : Bool := false
  regeneration : Bool := false
  healthGain : Int32 := 0
  healthTicks : Int32 := 0
  manaGain : Int32 := 0
  manaTicks : Int32 := 0
  lifeLeechChance : Int32 := 0
  lifeLeechAmount : Int32 := 0
  manaLeechChance : Int32 := 0
  manaLeechAmount : Int32 := 0
  criticalChance : Int32 := 0
  criticalDamage : Int32 := 0
  skills : Fin SKILL_COUNT → Int32 := fun _ => 0
  stats : Fin STAT_COUNT → Int32 := fun _ => 0

structure Mount where
  id : UInt16
  clientId : UInt16
  premium : Bool
  speed : Int
  attributes : Attributes

structure Outfit where
  lookType : UInt16
  premium : Bool
  unlocked : Bool
  speed : Int
  attributes : Attributes

structure Outfit_t where
  lookType : UInt16
  lookAddons : UInt8
  lookMount : UInt16
  deriving DecidableEq

structure Player where
  defaultOutfit : Outfit_t
  currentOutfit : Outfit_t
  currentMount : UInt16 := 0
  mountAttributes : Bool := false
  outfitAttributes : Bool := false
  randomMount : Bool := false
  requestedOutfit : Bool := false
  wasMounted : Bool := false
  mountsMap : UInt16 → Bool := fun _ => false
  lastToggleMount : Int64 := 0
  baseSpeed : UInt16
  varSpeed : Int := 0
  varSkills : Fin SKILL_COUNT → Int32 := fun _ => 0
  varStats : Fin STAT_COUNT → Int32 := fun _ => 0
  conditions : Conditions := fun _ => none

/-- The tables and settings, and what the calls read of the player and do not change. The mounts are in the order of their
set, the outfits are those of the player's sex. -/
structure Env where
  mounts : List Mount
  outfits : List Outfit
  ALLOW_CHANGEOUTFIT : Bool
  WARN_UNSAFE_SCRIPTS : Bool
  UNLOCK_ALL_OUTFITS : Bool
  UNLOCK_ALL_MOUNTS : Bool
  TOGGLE_MOUNT_IN_PZ : Bool
  isLookTypeRegistered : UInt16 → Bool
  access : Bool
  isPremium : Bool
  CanWearAllMounts : Bool
  CONDITION_OUTFIT : Bool
  outfitsMap : List (UInt16 × UInt8)

/-- What differs from call to call. -/
structure Now where
  OTSYS_TIME : Int64
  /-- The tile of the player, if there is one: whether it is a protection zone. -/
  getTile : Option Bool
  /-- The answer of the scripts for `onChangeOutfit`. -/
  onChangeOutfit : Bool
  uniform_random : Nat

/-! ### Attributes -/

namespace Attributes

/-- The parameters that are set on the condition. -/
def regenerationOf (a : Attributes) : Regeneration where
  healthGain := if a.healthGain ≠ 0 then a.healthGain.toUInt32 else 0
  healthTicks := if a.healthTicks ≠ 0 then a.healthTicks.toUInt32 else 1000
  manaGain := if a.manaGain ≠ 0 then a.manaGain.toUInt32 else 0
  manaTicks := if a.manaTicks ≠ 0 then a.manaTicks.toUInt32 else 1000

/-- The skills of `imbuing`, in the order of the source. -/
def imbuing (a : Attributes) : List (Fin SKILL_COUNT × Int32) :=
  [(9, a.lifeLeechChance), (10, a.lifeLeechAmount), (11, a.manaLeechChance), (12, a.manaLeechAmount),
    (7, a.criticalChance), (8, a.criticalDamage)]

/-- `Creature::addCondition`: one that is there takes the parameters of the new one. -/
def addCondition (id : ConditionId_t) (type : ConditionType_t) (r : Regeneration) (c : Conditions) : Conditions :=
  Function.update c (id, type) (some r)

/-- `Creature::removeCondition`. -/
def removeCondition (type : ConditionType_t) (id : ConditionId_t) (c : Conditions) : Conditions :=
  Function.update c (id, type) none

def addConditions (a : Attributes) (id : ConditionId_t) (c : Conditions) : Conditions :=
  let c := if a.manaShield then addCondition id .MANASHIELD {} c else c
  let c := if a.invisible then addCondition id .INVISIBLE {} c else c
  if a.regeneration then addCondition id .REGENERATION a.regenerationOf c else c

def removeConditions (a : Attributes) (id : ConditionId_t) (c : Conditions) : Conditions :=
  let c := if a.manaShield then removeCondition .MANASHIELD id c else c
  let c := if a.invisible then removeCondition .INVISIBLE id c else c
  if a.regeneration then removeCondition .REGENERATION id c else c

/-- `Player::setVarSkill`. -/
def setVarSkill (skill : Fin SKILL_COUNT) (modifier : Int32) (varSkills : Fin SKILL_COUNT → Int32) :
    Fin SKILL_COUNT → Int32 :=
  Function.update varSkills skill (varSkills skill + modifier)

def addImbuing (l : List (Fin SKILL_COUNT × Int32)) (v : Fin SKILL_COUNT → Int32) : Fin SKILL_COUNT → Int32 :=
  l.foldl (fun v x => if x.2 > 0 then setVarSkill x.1 x.2 v else v) v

def removeImbuing (l : List (Fin SKILL_COUNT × Int32)) (v : Fin SKILL_COUNT → Int32) : Fin SKILL_COUNT → Int32 :=
  l.foldl (fun v x => if x.2 > 0 then setVarSkill x.1 (-x.2) v else v) v

/-- What both `addAttributes` do with conditions, skills and stats. -/
def add (a : Attributes) (id : ConditionId_t) (p : Player) : Player :=
  { p with
    conditions := a.addConditions id p.conditions
    varSkills := addImbuing a.imbuing (ConditionAttributes.addNonzero a.skills p.varSkills)
    varStats := ConditionAttributes.addNonzero a.stats p.varStats }

/-- What both `removeAttributes` do with conditions, skills and stats. -/
def remove (a : Attributes) (id : ConditionId_t) (p : Player) : Player :=
  { p with
    conditions := a.removeConditions id p.conditions
    varSkills := removeImbuing a.imbuing (ConditionAttributes.takeIf (fun i => a.skills i ≠ 0) a.skills p.varSkills)
    varStats := ConditionAttributes.takeIf (fun i => a.stats i ≠ 0) a.stats p.varStats }

end Attributes

/-! ### Speed -/

namespace Player

def PLAYER_MAX_SPEED : Int := 65535

def getSpeed (p : Player) : Int := max 0 (min (p.baseSpeed.toNat + p.varSpeed) 65535)

def setSpeed (varSpeedDelta : Int) (p : Player) : Player :=
  if p.getSpeed ≥ PLAYER_MAX_SPEED then p else { p with varSpeed := varSpeedDelta }

/-- `Game::changeSpeed`. -/
def changeSpeed (varSpeedDelta : Int) (p : Player) : Player :=
  p.setSpeed (p.getSpeed - p.baseSpeed.toNat + varSpeedDelta)

end Player

/-! ### The tables -/

namespace Env
variable (env : Env)

def getMountByID (id : UInt16) : Option Mount := env.mounts.find? (·.id = id)

def getMountByClientID (clientId : UInt16) : Option Mount := env.mounts.find? (·.clientId = clientId)

def getOutfitByLookType (lookType : UInt16) : Option Outfit := env.outfits.find? (·.lookType = lookType)

def getOutfitId (lookType : UInt16) : UInt16 := (env.getOutfitByLookType lookType).elim 0 (·.lookType)

/-- `Mounts::addAttributes`, with what it returns. -/
def addMountAttributes (mountId : UInt8) (p : Player) : Bool × Player :=
  match env.getMountByID mountId.toUInt16 with
  | none => (false, p)
  | some mount => (true, mount.attributes.add .MOUNT p)

/-- `Mounts::removeAttributes`. -/
def removeMountAttributes (mountId : UInt8) (p : Player) : Bool × Player :=
  match env.getMountByID mountId.toUInt16 with
  | none => (false, p)
  | some mount => (true, mount.attributes.remove .MOUNT p)

/-- `Outfits::addAttributes`. -/
def addOutfitAttributes (outfitId : UInt16) (p : Player) : Bool × Player :=
  match env.getOutfitByLookType outfitId with
  | none => (false, p)
  | some outfit =>
    (true, outfit.attributes.add .OUTFIT (if outfit.speed ≠ 0 then p.changeSpeed outfit.speed else p))

/-- `Outfits::removeAttributes`. -/
def removeOutfitAttributes (outfitId : UInt16) (p : Player) : Bool × Player :=
  match env.getOutfitByLookType outfitId with
  | none => (false, p)
  | some outfit =>
    (true, outfit.attributes.remove .OUTFIT (if outfit.speed ≠ 0 then p.changeSpeed (-outfit.speed) else p))

end Env

/-! ### The player -/

namespace Player
variable (env : Env) (now : Now) (p : Player)

def isMounted : Bool := p.defaultOutfit.lookMount ≠ 0

def isWearingSupportOutfit : Bool :=
  p.currentOutfit.lookType = 75 ∨ p.currentOutfit.lookType = 266 ∨ p.currentOutfit.lookType = 302

def hasMount (mount : Mount) : Bool :=
  if env.CanWearAllMounts || env.UNLOCK_ALL_MOUNTS then true
  else if mount.premium && !env.isPremium then false
  else p.mountsMap mount.id

def hasAnyMount : Bool := env.mounts.any (p.hasMount env)

/-- `none` where `at` throws, because the player has no mount. -/
def getRandomMountId : Option UInt16 :=
  let playerMounts := (env.mounts.filter (p.hasMount env)).map (·.id)
  playerMounts[now.uniform_random % playerMounts.length]?

/-- The loop of `canWearOutfit` over `outfitsMap`. -/
def wearsEntry (lookType : UInt16) (addons : UInt8) : Bool :=
  match env.outfitsMap.find? (·.1 = lookType) with
  | none => false
  | some entry => entry.2 = addons || entry.2 = 3 || addons = 0

def canWearOutfit (lookType : UInt16) (addons : UInt8) : Bool :=
  if env.WARN_UNSAFE_SCRIPTS && lookType ≠ 0 && !env.isLookTypeRegistered lookType then false
  else if env.access then true
  else
    match env.getOutfitByLookType lookType with
    | none => false
    | some outfit =>
      if env.UNLOCK_ALL_OUTFITS then true
      else if outfit.premium && !env.isPremium then false
      else if outfit.unlocked && addons = 0 then true
      else wearsEntry env lookType addons

/-- The attributes of the outfit that the player takes off. -/
def takeOffOutfit : Player :=
  if p.outfitAttributes ∧ p.defaultOutfit.lookAddons = 3 then
    let (removed, p) := env.removeOutfitAttributes (env.getOutfitId p.defaultOutfit.lookType) p
    { p with outfitAttributes := !removed }
  else p

def putOnOutfit (outfit : Outfit_t) : Player :=
  if outfit.lookAddons = 3 then
    let (added, p) := env.addOutfitAttributes (env.getOutfitId outfit.lookType) { p with defaultOutfit := outfit }
    { p with outfitAttributes := added }
  else { p with defaultOutfit := outfit, outfitAttributes := false }

/-- `none` where it returns `false`. -/
def changeOutfit (outfit : Outfit_t) (checkList : Bool) : Option Player :=
  if checkList ∧ (¬canWearOutfit env (env.getOutfitId outfit.lookType) outfit.lookAddons ∨ ¬p.requestedOutfit) then none
  else some (({ p with requestedOutfit := false } : Player).takeOffOutfit env |>.putOnOutfit env outfit)

def changeMount (mountId : UInt8) (checkList : Bool) : Bool × Player :=
  match env.getMountByID mountId.toUInt16 with
  | none => (false, p)
  | some mount =>
    if checkList && !p.hasMount env mount then (false, p)
    else if p.mountAttributes then
      match env.getMountByID p.currentMount with
      | none => (false, p)
      | some currentMount =>
        let (_, p) := env.removeMountAttributes currentMount.id.toUInt8 p
        let (added, p) := env.addMountAttributes mountId p
        (true, { p with mountAttributes := added })
    else
      let (added, p) := env.addMountAttributes mountId p
      (true, { p with mountAttributes := added })

def dismount : Player :=
  match env.getMountByID p.currentMount with
  | none => { p with mountAttributes := false, defaultOutfit.lookMount := 0 }
  | some mount =>
    let p := if mount.speed > 0 then p.changeSpeed (-mount.speed) else p
    if p.mountAttributes then
      let (removed, p) := env.removeMountAttributes mount.id.toUInt8 p
      { p with mountAttributes := !removed, defaultOutfit.lookMount := 0 }
    else { p with mountAttributes := false, defaultOutfit.lookMount := 0 }

/-- `Game::internalCreatureChangeOutfit`. -/
def internalCreatureChangeOutfit (outfit : Outfit_t) : Player :=
  if now.onChangeOutfit then { p with currentOutfit := outfit } else p

/-- The outfit window of the client. -/
def sendOutfitWindow : Player := { p with requestedOutfit := true }

/-- The id that `toggleMount` takes, in a `uint8_t`, where there is a current mount; `none` where the draw throws. -/
def toggleMountId : Option UInt8 :=
  if p.randomMount then (p.getRandomMountId env now).map (·.toUInt8) else some p.currentMount.toUInt8

/-- The rest of `toggleMount(true)` for the mount that is found. -/
def mountUp (mount : Mount) : Player :=
  let p := { p with defaultOutfit.lookMount := mount.clientId, currentMount := mount.id }
  let p := if mount.speed ≠ 0 then p.changeSpeed mount.speed else p
  let p := (p.changeMount env mount.id.toUInt8 true).2
  { p.internalCreatureChangeOutfit now p.defaultOutfit with lastToggleMount := now.OTSYS_TIME }

def toggleMountOn : Bool × Player :=
  if p.isMounted then (false, p)
  else if !env.TOGGLE_MOUNT_IN_PZ && !env.access && now.getTile = some true then (false, p)
  else if (env.getOutfitByLookType p.defaultOutfit.lookType).isNone then (false, p)
  else if p.currentMount.toUInt8 = 0 then (false, p.sendOutfitWindow)
  else
    match (p.toggleMountId env now).bind (env.getMountByID ·.toUInt16) with
    | none => (false, p)
    | some currentMount =>
      if !p.hasMount env currentMount then (false, ({ p with currentMount := 0 } : Player).sendOutfitWindow)
      else if currentMount.premium && !env.isPremium then (false, p)
      else if env.CONDITION_OUTFIT then (false, p)
      else (true, p.mountUp env now currentMount)

def toggleMount (mount : Bool) : Bool × Player :=
  if now.OTSYS_TIME - p.lastToggleMount < 3000 ∧ ¬p.wasMounted then (false, p)
  else if p.isWearingSupportOutfit then (false, p)
  else if mount then p.toggleMountOn env now
  else if !p.isMounted then (false, p)
  else
    let p := p.dismount env
    (true, { p.internalCreatureChangeOutfit now p.defaultOutfit with lastToggleMount := now.OTSYS_TIME })

def tameMount (mountId : UInt16) : Bool × Player :=
  match env.getMountByID mountId with
  | none => (false, p)
  | some mount =>
    if p.hasMount env mount then (false, p) else (true, { p with mountsMap := Function.update p.mountsMap mountId true })

def untameMount (mountId : UInt16) : Bool × Player :=
  match env.getMountByID mountId with
  | none => (false, p)
  | some mount =>
    if !p.hasMount env mount then (false, p)
    else
      let p := { p with mountsMap := Function.update p.mountsMap mountId false }
      if p.currentMount = mountId then
        let p :=
          if p.isMounted then
            let p := p.dismount env
            p.internalCreatureChangeOutfit now p.defaultOutfit
          else p
        (true, { p with currentMount := 0 })
      else (true, p)

/-! ### `Game::playerChangeOutfit` -/

/-- Whether the draw of a mount is kept. -/
def randomizes (isMounted randomizeMount : Bool) : Bool := randomizeMount && isMounted && !p.isWearingSupportOutfit

/-- `outfit.lookMount` when the mount is looked up. -/
def lookMountOf (outfit : Outfit_t) (isMounted randomizeMount : Bool) : UInt16 :=
  let lookMount := if p.isWearingSupportOutfit || !isMounted then 0 else outfit.lookMount
  let lookMount :=
    if p.randomizes isMounted randomizeMount && lookMount ≠ 0 && p.hasAnyMount env then
      ((p.getRandomMountId env now).bind env.getMountByID).elim lookMount (·.clientId)
    else lookMount
  if (env.getOutfitByLookType outfit.lookType).isNone then 0 else lookMount

/-- The mount of the outfit, with the `outfit.lookMount` that stays; `none` where the function returns. -/
def ride (lookMount : UInt16) : Option (Player × UInt16) :=
  if lookMount ≠ 0 then
    match env.getMountByClientID lookMount with
    | none => none
    | some mount =>
      if !p.hasMount env mount then none
      else
        match now.getTile with
        | none => none
        | some protectionZone =>
          let lookMount := if !env.TOGGLE_MOUNT_IN_PZ && protectionZone then 0 else lookMount
          let deltaSpeedChange :=
            if p.isMounted then mount.speed - (env.getMountByID p.currentMount).elim 0 (·.speed) else mount.speed
          let p := (p.changeMount env mount.id.toUInt8 true).2
          let p := { p with currentMount := mount.id }
          some (p.changeSpeed deltaSpeedChange, lookMount)
  else some (if p.isMounted then p.dismount env else p, lookMount)

/-- The outfit is worn as it is now. -/
def wear (outfit : Outfit_t) : Player :=
  if canWearOutfit env outfit.lookType outfit.lookAddons then
    let p := { p with defaultOutfit := outfit }
    if env.CONDITION_OUTFIT then p else p.internalCreatureChangeOutfit now outfit
  else p

def playerChangeOutfit (outfit : Outfit_t) (isMounted randomizeMount : Bool) : Player :=
  if !env.ALLOW_CHANGEOUTFIT then p
  else
    match p.changeOutfit env outfit true with
    | none => p
    | some p =>
      let p := { p with randomMount := p.randomizes isMounted randomizeMount }
      match p.ride env now (p.lookMountOf env now outfit isMounted randomizeMount) with
      | none => p
      | some (p, lookMount) => p.wear env now { outfit with lookMount }

end Player

/-! ### Runs -/

inductive Call
  | playerChangeOutfit (now : Now) (outfit : Outfit_t) (isMounted randomizeMount : Bool)
  | toggleMount (now : Now) (mount : Bool)
  | tameMount (mountId : UInt16)
  | untameMount (now : Now) (mountId : UInt16)
  /-- The client asks for the outfit window. -/
  | sendOutfitWindow

def step (env : Env) (p : Player) : Call → Player
  | .playerChangeOutfit now outfit isMounted randomizeMount => p.playerChangeOutfit env now outfit isMounted randomizeMount
  | .toggleMount now mount => (p.toggleMount env now mount).2
  | .tameMount mountId => (p.tameMount env mountId).2
  | .untameMount now mountId => (p.untameMount env now mountId).2
  | .sendOutfitWindow => p.sendOutfitWindow

end CrystalServer.Appearance
