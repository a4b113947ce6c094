import Mathlib.Data.List.Nodup

/-! # Bestiary kills and charms

The part of `io/iobestiary.cpp` that counts kills, grants charm points and sells, sets and resets charms, with the fields
of `Player` that it uses. Texts sent to the client, metrics and the fees are left out. -/

namespace CrystalServer.Bestiary

/-- `charmRune_t`, from `CHARM_WOUND` (0) to `CHARM_OVERFLUX` (24). -/
abbrev CharmRune := Fin 25

inductive CharmCategory where
  | CHARM_ALL
  | CHARM_MAJOR
  | CHARM_MINOR
  deriving DecidableEq

/-- A charm with the prices of its three tiers. -/
structure Charm where
  id : CharmRune
  category : CharmCategory
  points : List UInt16
  three : points.length = 3

def Charm.binary (charm : Charm) : BitVec 32 := 1#32 <<< charm.id.val

/-- A creature of the bestiary, with increasing thresholds. -/
structure MonsterType where
  bestiaryFirstUnlock : UInt16
  bestiarySecondUnlock : UInt16
  bestiaryToUnlock : UInt16
  bestiaryCharmsPoints : UInt16
  first_le : bestiaryFirstUnlock ≤ bestiarySecondUnlock
  second_le : bestiarySecondUnlock ≤ bestiaryToUnlock

/-- The charms, each made once by `Game.createBestiaryCharm`, and the creatures by their race ids. -/
structure Env where
  charmList : List Charm
  getMonsterTypeByRaceId : UInt16 → Option MonsterType
  nodup : (charmList.map Charm.id).Nodup

structure CharmInfo where
  raceId : UInt16 := 0
  tier : UInt8 := 0

/-- The fields of a player. `granted` is a history: the race ids whose points were added, last first. -/
structure Player where
  charmPoints : UInt32 := 0
  minorCharmEchoes : UInt32 := 0
  maxCharmPoints : UInt32 := 0
  maxMinorCharmEchoes : UInt32 := 0
  charmsArray : CharmRune → CharmInfo := fun _ => {}
  UsedRunesBit : BitVec 32 := 0
  UnlockedRunesBit : BitVec 32 := 0
  killStorage : UInt16 → Int32 := fun _ => -1
  granted : List UInt16 := []

/-! ### The player -/

namespace Player
variable (p : Player)

def getBestiaryKillCount (raceid : UInt16) : UInt32 :=
  let value := p.killStorage raceid
  if 0 < value then value.toUInt32 else 0

def addBestiaryKillCount (raceid : UInt16) (amount : UInt32) : Player :=
  let oldCount := p.getBestiaryKillCount raceid
  { p with killStorage := Function.update p.killStorage raceid (oldCount + amount).toInt32 }

def getCharmTier (charmId : CharmRune) : UInt8 := (p.charmsArray charmId).tier

def setCharmTier (charmId : CharmRune) (newTier : UInt8) : Player :=
  { p with charmsArray := Function.update p.charmsArray charmId { p.charmsArray charmId with tier := newTier } }

/-- `Player::parseRacebyCharm` where it reads. -/
def parseRacebyCharm (charmId : CharmRune) : UInt16 := (p.charmsArray charmId).raceId

/-- `Player::parseRacebyCharm` where it sets. -/
def setRacebyCharm (charmId : CharmRune) (newRaceid : UInt16) : Player :=
  { p with charmsArray := Function.update p.charmsArray charmId { p.charmsArray charmId with raceId := newRaceid } }

end Player

/-! ### Bits -/

def bitToggle (input : BitVec 32) (charm : Charm) (on : Bool) : BitVec 32 :=
  if on then input ||| charm.binary else input &&& ~~~charm.binary

/-- The loop of `getCharmUsedRuneBitAll`. A number that is not negative is zero after 31 rounds. -/
def usedLoop : Nat → BitVec 32 → Nat → List Nat → List Nat
  | 0, _, _, rtn => rtn
  | fuel + 1, input, i, rtn =>
    if input = 0 then rtn
    else usedLoop fuel (input.sshiftRight 1) (i + 1) (if input &&& 1 = 1 then i :: rtn else rtn)

def getCharmUsedRuneBitAll (p : Player) : List Nat := usedLoop 32 p.UsedRunesBit 0 []

/-! ### Kills -/

def addCharmPoints (p : Player) (amount : UInt32) (negative : Bool) : Player :=
  if negative then { p with charmPoints := p.charmPoints - amount }
  else { p with charmPoints := p.charmPoints + amount, maxCharmPoints := p.maxCharmPoints + amount }

def addMinorCharmEchoes (p : Player) (amount : UInt32) (negative : Bool) : Player :=
  if negative then { p with minorCharmEchoes := p.minorCharmEchoes - amount }
  else
    { p with minorCharmEchoes := p.minorCharmEchoes + amount
             maxMinorCharmEchoes := p.maxMinorCharmEchoes + amount }

section
variable (env : Env) (p : Player)

def addBestiaryKill (raceid : UInt16) (amount : UInt32) : Player :=
  match env.getMonsterTypeByRaceId raceid with
  | none => p
  | some mtype =>
    if raceid = 0 then p
    else
      let curCount := p.getBestiaryKillCount raceid
      let p := p.addBestiaryKillCount raceid amount
      if curCount = 0 ∨
          (curCount < mtype.bestiaryFirstUnlock.toUInt32 ∧ mtype.bestiaryFirstUnlock.toUInt32 ≤ curCount + amount) ∨
          (curCount < mtype.bestiarySecondUnlock.toUInt32 ∧ mtype.bestiarySecondUnlock.toUInt32 ≤ curCount + amount) ∨
          (curCount < mtype.bestiaryToUnlock.toUInt32 ∧ mtype.bestiaryToUnlock.toUInt32 ≤ curCount + amount) then
        if mtype.bestiaryToUnlock.toUInt32 ≤ curCount + amount then
          { addCharmPoints p mtype.bestiaryCharmsPoints.toUInt32 false with granted := raceid :: p.granted }
        else p
      else p

/-! ### Charms -/

def getBestiaryCharm (activeCharm : Nat) : Option Charm := env.charmList.find? fun charm => charm.id.val = activeCharm

def resetCharmRuneCreature (charm : Charm) : Player :=
  { p with UsedRunesBit := bitToggle p.UsedRunesBit charm false }.setRacebyCharm charm.id 0

def resetAllCharmRuneCreatures : Player :=
  env.charmList.foldl (fun p charm => (p.setRacebyCharm charm.id 0).setCharmTier charm.id 0) p

def setCharmRuneCreature (charm : Charm) (raceid : UInt16) : Player :=
  let p := p.setRacebyCharm charm.id raceid
  { p with UsedRunesBit := bitToggle p.UsedRunesBit charm true }

/-- The body of the loop of `getCharmFromTarget`. -/
def noteCharm (raceId : UInt16) (playerCharmByMonster : Option CharmRune × Option CharmRune) (it : Nat) :
    Option CharmRune × Option CharmRune :=
  match getBestiaryCharm env it with
  | none => playerCharmByMonster
  | some charm =>
    if raceId = p.parseRacebyCharm charm.id then
      match charm.category with
      | .CHARM_MAJOR => (some charm.id, playerCharmByMonster.2)
      | .CHARM_MINOR => (playerCharmByMonster.1, some charm.id)
      | .CHARM_ALL => playerCharmByMonster
    else playerCharmByMonster

/-- The major and the minor charm that are set on a creature. -/
def getCharmFromTarget (raceId : UInt16) : Option CharmRune × Option CharmRune :=
  match env.getMonsterTypeByRaceId raceId with
  | none => (none, none)
  | some _ => (getCharmUsedRuneBitAll p).foldl (noteCharm env p raceId) (none, none)

/-- A call of `sendBuyCharmRune`, with what it asks about the player: whether he pays the fee (`removeMoney`) and
    whether his promotion is in the key-value store. -/
structure Call where
  action : UInt8
  charmId : UInt8
  raceId : UInt16
  isPremium : Bool
  hasCharmExpansion : Bool
  removeMoney : Bool
  isPromoted : Bool

def limitRunes (call : Call) : Nat := if call.isPremium then if call.hasCharmExpansion then 25 else 6 else 2

/-- Action 0: a tier is bought. -/
def buyTier (charm : Charm) : Player :=
  let charmTier := p.getCharmTier charm.id
  match charm.category with
  | .CHARM_MAJOR =>
    if 2 < charmTier then p
    else
      let price := (charm.points.getD charmTier.toNat 0).toUInt32
      if p.charmPoints < price then p
      else
        let p := addCharmPoints p price true
        let p := addMinorCharmEchoes p (25 * charmTier.toUInt32 * charmTier.toUInt32 + 25 * charmTier.toUInt32 + 50) false
        let p := p.setCharmTier charm.id (charmTier + 1)
        { p with UnlockedRunesBit := bitToggle p.UnlockedRunesBit charm true }
  | .CHARM_MINOR =>
    if 2 < charmTier then p
    else
      let price := (charm.points.getD charmTier.toNat 0).toUInt32
      if p.minorCharmEchoes < price then p
      else
        let p := addMinorCharmEchoes p price true
        let p := p.setCharmTier charm.id (charmTier + 1)
        { p with UnlockedRunesBit := bitToggle p.UnlockedRunesBit charm true }
  | .CHARM_ALL => p

/-- The checks of action 1. -/
def mayAssign (call : Call) (charm : Charm) : Bool :=
  let usedRunes := getCharmUsedRuneBitAll p
  let killedEnough :=
    match env.getMonsterTypeByRaceId call.raceId with
    | none => true
    | some mType =>
      charm.category ≠ .CHARM_MAJOR ∨ mType.bestiaryToUnlock.toUInt32 ≤ p.getBestiaryKillCount call.raceId
  let (major, minor) := getCharmFromTarget env p call.raceId
  !(limitRunes call ≤ usedRunes.length) && killedEnough &&
    !((charm.category = .CHARM_MAJOR ∧ major ≠ none) ∨ (charm.category = .CHARM_MINOR ∧ minor ≠ none))

/-- Action 3: all charms are taken back. -/
def resetAll (call : Call) : Player :=
  let p := resetAllCharmRuneCreatures env p
  let p := { p with charmPoints := p.maxCharmPoints }
  let echoesResetValue : UInt16 := if call.isPromoted then 100 else 0
  { p with minorCharmEchoes := echoesResetValue.toUInt32
           maxMinorCharmEchoes := echoesResetValue.toUInt32
           UsedRunesBit := 0
           UnlockedRunesBit := 0 }

def sendBuyCharmRune (call : Call) : Player :=
  match getBestiaryCharm env call.charmId.toNat with
  | none => if call.action = 3 ∧ call.removeMoney then resetAll env p call else p
  | some charm =>
    if call.action = 0 then buyTier p charm
    else if call.action = 1 then if mayAssign env p call charm then setCharmRuneCreature p charm call.raceId else p
    else if call.action = 2 then if call.removeMoney then resetCharmRuneCreature p charm else p
    else if call.action = 3 then if call.removeMoney then resetAll env p call else p
    else p

inductive Op where
  | addBestiaryKill (raceid : UInt16) (amount : UInt32)
  | sendBuyCharmRune (call : Call)

def step : Op → Player
  | .addBestiaryKill raceid amount => addBestiaryKill env p raceid amount
  | .sendBuyCharmRune call => sendBuyCharmRune env p call

end

end CrystalServer.Bestiary
