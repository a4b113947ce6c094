import CrystalServer.Creatures.Combat.ChainCombat

/-! # The targets of a monster

The list of targets, the count of the players in it and the choice among them (`creatures/monsters/monster.cpp`,
`creatures/monsters/monster.hpp`). A `std::weak_ptr` is a reference that may not be alive any more. What is asked of other
creatures, of the map and of the dispatcher is looked up in the moment of the call. Sums of `int32_t` are exact: one that
overflows has no value in the source. -/

namespace CrystalServer

/-- The objects of creatures. Players, monsters and NPCs draw their ids from ranges of their own, so that an id tells the
    class. -/
structure CreatureTable where
  getID : CreatureRef → UInt32
  kind : CreatureRef → CreatureKind
  kind_eq : ∀ a b, getID a = getID b → kind a = kind b

namespace CreatureTable

def isPlayer (table : CreatureTable) (r : CreatureRef) : Bool := table.kind r = .player

end CreatureTable

/-- The number behind a `Faction_t`. -/
def Faction.value : Faction → Int
  | .DEFAULT => 0
  | .PLAYER => 1
  | .LION => 2
  | .LIONUSURPERS => 3
  | .MARID => 4
  | .EFREET => 5
  | .DEEPLING => 6
  | .DEATHLING => 7
  | .ANUMA => 8
  | .FAFNAR => 9

/-- `Creature::canSee` in the view port. -/
def Position.canSee (myPos pos : Position) : Bool :=
  let offsetz : Int := myPos.z.toNat - pos.z.toNat
  let sameSide : Bool :=
    if (myPos.z.toNat : Int) ≤ MAP_INIT_SURFACE_LAYER then (pos.z.toNat : Int) ≤ MAP_INIT_SURFACE_LAYER
    else (myPos.getDistanceZ pos : Int) ≤ MAP_LAYER_VIEW_LIMIT
  sameSide ∧
    (pos.x.toNat : Int) ≥ myPos.x.toNat - MAP_MAX_VIEW_PORT_X + offsetz ∧
    (pos.x.toNat : Int) ≤ myPos.x.toNat + MAP_MAX_VIEW_PORT_X + offsetz ∧
    (pos.y.toNat : Int) ≥ myPos.y.toNat - MAP_MAX_VIEW_PORT_Y + offsetz ∧
    (pos.y.toNat : Int) ≤ myPos.y.toNat + MAP_MAX_VIEW_PORT_Y + offsetz

/-- What a monster reads of a creature. -/
structure CreatureNow where
  position : Position
  health : Int
  faction : Faction
  master : Option CreatureRef
  ignoredByMonsters : Bool
  isRemoved : Bool
  isAttackable : Bool
  isInvisible : Bool
  zoneType : ZoneType
  isDisconnected : Bool
  loginDelay : Bool

/-- What is read outside of the monster at the time of a call. -/
structure Moment where
  creature : CreatureRef → CreatureNow
  /-- `Spectators::find` around the monster, on the floors in view. -/
  spectators : List CreatureRef
  map : Map
  isPartner : CreatureRef → CreatureRef → Bool
  /-- `isEnemyFaction` and `totalPlayersOnScreen` of a master that is a monster. -/
  masterIsEnemyFaction : Faction → Bool
  masterPlayersOnScreen : UInt16
  /-- The dispatcher runs an async task, and one of the walk group. -/
  isAsync : Bool
  isWalkGroup : Bool
  noConditions : Bool
  isInSpawnLocation : Bool
  hasFollowPath : Bool
  setFollowCreature : CreatureRef → Bool

/-- What is read of `mType->info`. -/
structure MonsterInfo where
  faction : Faction
  enemyFactions : List Faction
  isHostile : Bool
  strategiesTargetNearest : Int
  strategiesTargetHealth : Int
  strategiesTargetDamage : Int

structure Monster where
  self : CreatureRef
  master : Option CreatureRef
  info : MonsterInfo
  targetDistance : Int
  /-- The ranges of `attackSpells`. -/
  attackRanges : List UInt32
  canSeeInvisibility : Bool
  damageMap : UInt32 → Option Int
  friendList : List (UInt32 × CreatureRef)
  targetList : List CreatureRef
  totalPlayersOnScreen : UInt16
  isIdle : Bool
  isWalkingBack : Bool

namespace Monster
variable (table : CreatureTable) (alive : CreatureRef → Bool) (now : Moment)

def getMaster (m : Monster) : Option CreatureRef := m.master.filter alive

def isSummon (m : Monster) : Bool := (m.getMaster alive).isSome

def getFaction (m : Monster) : Faction :=
  match m.getMaster alive with
  | some master => (now.creature master).faction
  | none => m.info.faction

def isEnemyFaction (m : Monster) (faction : Faction) : Bool :=
  if (m.getMaster alive).any (table.kind · = .monster) then now.masterIsEnemyFaction faction
  else m.info.enemyFactions.contains faction

/-! ### Friends and opponents -/

/-- A player, or the player whose summon the creature is. -/
def playerBehind (creature : CreatureRef) : Option CreatureRef :=
  if table.isPlayer creature then some creature else (now.creature creature).master.filter table.isPlayer

def isFriend (m : Monster) (creature : CreatureRef) : Bool :=
  (((m.getMaster alive).filter table.isPlayer).any fun masterPlayer =>
    (playerBehind table now creature).any fun tmpPlayer => tmpPlayer = masterPlayer || now.isPartner masterPlayer tmpPlayer) ||
  (table.kind creature = .monster && (now.creature creature).master.isNone)

def isOpponent (m : Monster) (creature : CreatureRef) : Bool :=
  if (m.getMaster alive).any table.isPlayer then m.getMaster alive ≠ some creature
  else if table.isPlayer creature && (now.creature creature).ignoredByMonsters then false
  else if m.getFaction alive now ≠ .DEFAULT then
    m.isEnemyFaction table alive now (now.creature creature).faction || (now.creature creature).faction = .PLAYER
  else (playerBehind table now creature).isSome

def addFriend (m : Monster) (creature : CreatureRef) : Monster :=
  if creature = m.self ∨ m.friendList.any (·.1 = table.getID creature) then m
  else { m with friendList := m.friendList ++ [(table.getID creature, creature)] }

def removeFriend (m : Monster) (creature : CreatureRef) : Monster :=
  { m with friendList := m.friendList.filter fun it => alive it.2 && table.getID it.2 ≠ table.getID creature }

/-! ### The list of targets -/

/-- The test of `getTargetIterator`. -/
def isIt (creature ref : CreatureRef) : Bool := alive ref && table.getID ref = table.getID creature

/-- The monster counts the creature where it adds or removes it. -/
def countsPlayer (m : Monster) (creature : CreatureRef) : Bool :=
  (m.getMaster alive).isNone && m.getFaction alive now ≠ .DEFAULT && table.isPlayer creature

def addTarget (m : Monster) (creature : CreatureRef) (pushFront : Bool) : Monster × Bool :=
  if creature = m.self ∨ m.targetList.any (isIt table alive creature) then (m, false)
  else
    let targetList := if pushFront then creature :: m.targetList else m.targetList ++ [creature]
    let total := if m.countsPlayer table alive now creature then m.totalPlayersOnScreen + 1 else m.totalPlayersOnScreen
    ({ m with targetList := targetList, totalPlayersOnScreen := total }, true)

/-- The iterator points to a reference that is alive, so that `lock` does not fail. -/
def removeTarget (m : Monster) (creature : CreatureRef) : Monster × Bool :=
  if m.targetList.any (isIt table alive creature) then
    let total := if m.countsPlayer table alive now creature then m.totalPlayersOnScreen - 1 else m.totalPlayersOnScreen
    ({ m with targetList := m.targetList.eraseP (isIt table alive creature), totalPlayersOnScreen := total }, true)
  else (m, false)

def clearTargetList (m : Monster) : Monster := { m with targetList := [] }

def clearFriendList (m : Monster) : Monster := { m with friendList := [] }

/-- `Creature::onIdleStatus`. -/
def onIdleStatus (m : Monster) : Monster :=
  if (now.creature m.self).health > 0 then { m with damageMap := fun _ => none } else m

def setIdle (m : Monster) (idle : Bool) : Monster :=
  if (now.creature m.self).isRemoved ∨ (now.creature m.self).health ≤ 0 then m
  else
    let m := { m with isIdle := idle }
    if idle then ((m.onIdleStatus now).clearTargetList).clearFriendList else m

def updateIdleStatus (m : Monster) : Monster :=
  if now.isWalkGroup then m
  else if now.noConditions then
    if !m.isSummon alive && m.targetList.isEmpty then
      if now.isInSpawnLocation then m.setIdle now true else { m with isWalkingBack := true }.setIdle now false
    else if (m.getMaster alive).any fun master =>
        ((!m.isSummon alive && m.totalPlayersOnScreen = 0) ||
          (m.isSummon alive && table.kind master = .monster && now.masterPlayersOnScreen = 0)) &&
        m.getFaction alive now ≠ .DEFAULT then m.setIdle now true
    else m.setIdle now false
  else m.setIdle now false

def onCreatureFound (m : Monster) (creature : CreatureRef) (pushFront : Bool) : Monster :=
  let m := if m.isFriend table alive now creature then m.addFriend table creature else m
  let m := if m.isOpponent table alive now creature then (m.addTarget table alive now creature pushFront).1 else m
  m.updateIdleStatus table alive now

def onCreatureEnter (m : Monster) (creature : CreatureRef) : Monster := m.onCreatureFound table alive now creature true

def onCreatureLeave (m : Monster) (creature : CreatureRef) : Monster :=
  let m := if m.isFriend table alive now creature then m.removeFriend table alive creature else m
  if m.isOpponent table alive now creature then
    let m := (m.removeTarget table alive now creature).1
    if m.targetList.isEmpty then m.updateIdleStatus table alive now else m
  else m

def canSee (m : Monster) (creature : CreatureRef) : Bool :=
  (now.creature m.self).position.canSee (now.creature creature).position

/-- What `updateTargetList` leaves in the lists. -/
def stays (m : Monster) (ref : CreatureRef) : Bool := alive ref && (now.creature ref).health > 0 && m.canSee now ref

def updateTargetList (m : Monster) : Monster :=
  if !now.isAsync then m
  else
    let m := { m with
      friendList := m.friendList.filter fun it => m.stays alive now it.2
      targetList := m.targetList.filter (m.stays alive now) }
    now.spectators.foldl (fun m spectator =>
      if spectator ≠ m.self ∧ m.canSee now spectator then m.onCreatureFound table alive now spectator false else m) m

def onFollowCreatureComplete (m : Monster) (creature : CreatureRef) : Monster :=
  let removed := m.removeTarget table alive now creature
  if removed.2 ∧ (now.hasFollowPath ∨ !m.isSummon alive) then
    (removed.1.addTarget table alive now creature now.hasFollowPath).1
  else removed.1

end Monster

/-! ## The choice of a target -/

inductive TargetSearchType where
  | DEFAULT | NEAREST | HP | DAMAGE | RANDOM
  deriving DecidableEq

namespace Monster
variable (table : CreatureTable) (alive : CreatureRef → Bool) (now : Moment)

def isTarget (m : Monster) (creature : CreatureRef) : Bool :=
  let c := now.creature creature
  if c.isRemoved ∨ !c.isAttackable ∨ c.zoneType = .PROTECTION ∨ (!m.canSeeInvisibility ∧ c.isInvisible) then false
  else if c.position.z ≠ (now.creature m.self).position.z then false
  else if m.isSummon alive then true
  else if table.isPlayer creature ∧ c.isDisconnected then false
  else if m.getFaction alive now ≠ .DEFAULT then m.isEnemyFaction table alive now c.faction
  else true

/-- The greater of the distances on the two axes. -/
def range (m : Monster) (creature : CreatureRef) : Int :=
  let myPos := (now.creature m.self).position
  let pos := (now.creature creature).position
  max (myPos.getDistanceX pos) (myPos.getDistanceY pos)

def canUseAttack (m : Monster) (target : CreatureRef) : Bool :=
  if m.info.isHostile then
    m.attackRanges.any (fun range => range ≠ 0 && m.range now target ≤ range.toNat) &&
      now.map.isSightClear (now.creature m.self).position (now.creature target).position true
  else true

/-- The answer of `selectTarget`. The creature that is attacked is set along the way. -/
def selectTarget (m : Monster) (creature : CreatureRef) : Bool :=
  m.isTarget table alive now creature && !(table.isPlayer creature && (now.creature creature).loginDelay) &&
    m.targetList.any (isIt table alive creature) && now.setFollowCreature creature

/-- `resultList`: the targets that the search chooses among. -/
def resultList (m : Monster) : List CreatureRef :=
  m.targetList.filter fun creature =>
    alive creature && m.isTarget table alive now creature && (m.targetDistance = 1 || m.canUseAttack now creature)

def factionOf (creature : CreatureRef) : Int := (now.creature creature).faction.value

/-- `TARGETSEARCH_NEAREST`. The branch for an empty list is never taken. -/
def searchNearest (m : Monster) (first : CreatureRef) (rest : List CreatureRef) : CreatureRef :=
  let factionOffset := factionOf now first * 100
  (rest.foldl (fun (getTarget, minRange) creature =>
    let distance := m.range now creature + factionOffset
    if distance < minRange then (creature, distance) else (getTarget, minRange)) (first, m.range now first)).1

/-- The loop of `TARGETSEARCH_HP`: the target so far, its value, and the offset for the next creature. -/
structure HpSearch where
  getTarget : CreatureRef
  minHp : Int
  factionOffset : Int

/-- `TARGETSEARCH_HP`. -/
def searchHp (first : CreatureRef) (rest : List CreatureRef) : CreatureRef :=
  let factionOffset := factionOf now first * 100000
  (rest.foldl (fun (s : HpSearch) creature =>
    let hp := (now.creature creature).health + s.factionOffset
    let s := { s with factionOffset := factionOf now creature * 100000 }
    if hp < s.minHp then { s with getTarget := creature, minHp := hp } else s)
    ⟨first, (now.creature first).health + factionOffset, factionOffset⟩).getTarget

/-- `TARGETSEARCH_DAMAGE`. -/
def searchDamage (m : Monster) (first : CreatureRef) (rest : List CreatureRef) : CreatureRef :=
  (rest.foldl (fun (getTarget, mostDamage) creature =>
    let factionOffset := factionOf now creature * 100000
    match m.damageMap (table.getID creature) with
    | some total => if total + factionOffset > mostDamage then (creature, total) else (getTarget, mostDamage)
    | none => (getTarget, mostDamage)) (first, 0)).1

/-- How `TARGETSEARCH_DEFAULT` draws a strategy with a number from 1 to 100. -/
def drawSearchType (m : Monster) (rnd : Int) : TargetSearchType :=
  if rnd ≤ m.info.strategiesTargetNearest then .NEAREST
  else if rnd ≤ m.info.strategiesTargetNearest + m.info.strategiesTargetHealth then .HP
  else if rnd ≤ m.info.strategiesTargetNearest + m.info.strategiesTargetHealth + m.info.strategiesTargetDamage then .DAMAGE
  else .RANDOM

/-- `Monster::searchTarget`: the creature that is selected, if one is. `rnd` and `index` are what `uniform_random` gives, for
    the strategy and for a target at random. -/
def searchTarget (m : Monster) (searchType : TargetSearchType) (rnd : Int) (index : Nat) : Option CreatureRef :=
  match m.resultList table alive now with
  | [] => none
  | first :: rest =>
    let fallback := (m.targetList.filter alive).find? (m.selectTarget table alive now)
    let select := fun getTarget => if m.selectTarget table alive now getTarget then some getTarget else fallback
    match if searchType = .DEFAULT then m.drawSearchType rnd else searchType with
    | .NEAREST => select (m.searchNearest now first rest)
    | .HP => select (searchHp now first rest)
    | .DAMAGE => select (m.searchDamage table now first rest)
    | _ => ((first :: rest)[index]?).filter (m.selectTarget table alive now)

end Monster
end CrystalServer
