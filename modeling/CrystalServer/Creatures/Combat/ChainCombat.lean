import CrystalServer.Creatures.Level
import CrystalServer.Map.SightLine
import CrystalServer.Map.Spectators

/-! # Chain combat

`Combat::canDoCombat`, `pickChainTargets` and `doCombatChain` (`creatures/combat/combat.cpp`). No creature moves while the
targets are picked. What a player carries and what scripts answer is looked up. -/

namespace CrystalServer

/-- The values of `ReturnValue` that `canDoCombat` gives, with those of scripts. -/
inductive CombatReturn where
  | NOERROR | NOTENOUGHROOM | ACTIONNOTPERMITTEDINPROTECTIONZONE | ACTIONNOTPERMITTEDINANOPVPZONE
  | YOUMAYNOTATTACKTHISPLAYER | YOUMAYNOTATTACKTHISCREATURE
  | script (value : UInt16)
  deriving DecidableEq

inductive ZoneType where
  | PROTECTION | NOPVP | PVP | NOLOGOUT | NORMAL
  deriving DecidableEq

/-- The bits of `TileFlags_t` that make a zone. -/
inductive ZoneFlag where
  | PROTECTIONZONE | NOPVPZONE | PVPZONE | NOLOGOUT
  deriving DecidableEq

inductive WorldType where
  | OPTIONAL | OPEN | HARDCORE
  deriving DecidableEq

inductive Skull where
  | NONE | YELLOW | GREEN | WHITE | RED | BLACK | ORANGE
  deriving DecidableEq

inductive Faction where
  | DEFAULT | PLAYER | LION | LIONUSURPERS | MARID | EFREET | DEEPLING | DEATHLING | ANUMA | FAFNAR
  deriving DecidableEq

/-- The flags of a group that `canDoCombat` asks for. -/
inductive AttackFlag where
  | CannotBeAttacked | CannotAttackPlayer | CannotAttackMonster
  deriving DecidableEq

/-- What combat reads of a `Player`. -/
structure CombatPlayer where
  level : UInt32
  vocationId : UInt16
  canCombat : Bool
  skull : Skull
  secureMode : Bool
  hasFlag : AttackFlag → Bool
  hasPermittedConditionInPZ : Bool

/-- The game as chain combat reads it. -/
structure ChainGame where
  sectors : MapSectors
  map : Map
  zone : Position → ZoneFlag → Bool
  worldType : WorldType
  PROTECTION_LEVEL : UInt32
  player : Creature → CombatPlayer
  getMaster : Creature → Option Creature
  getFaction : Creature → Faction
  isEnemyFaction : Creature → Faction → Bool
  getSkullClient : Creature → Creature → Skull
  onTargetCombat : Creature → Creature → CombatReturn
  chainPickerCallback : Option (Creature → Creature → Bool)

namespace Creature

def isPlayer (c : Creature) : Bool := c.kind = .player

def isMonster (c : Creature) : Bool := c.kind = .monster

end Creature

namespace ChainGame
variable (game : ChainGame)

def isSummon (c : Creature) : Bool := (game.getMaster c).isSome

/-- The master of a creature, if it is a player. -/
def playerMaster (c : Creature) : Option Creature := (game.getMaster c).filter (·.isPlayer)

/-- The master of a creature, if it is a monster. -/
def monsterMaster (c : Creature) : Option Creature := (game.getMaster c).filter (·.isMonster)

/-- `Tile::getZoneType` of the tile of a creature. -/
def getZoneType (c : Creature) : ZoneType :=
  if game.zone c.position .PROTECTIONZONE then .PROTECTION
  else if game.zone c.position .NOPVPZONE then .NOPVP
  else if game.zone c.position .PVPZONE then .PVP
  else if game.zone c.position .NOLOGOUT then .NOLOGOUT
  else .NORMAL

/-! ### Who may attack whom -/

/-- `Combat::isInPvpZone`. -/
def isInPvpZone (attacker target : Creature) : Bool := game.getZoneType attacker = .PVP ∧ game.getZoneType target = .PVP

/-- `Combat::isProtected`. -/
def isProtected (attacker target : Creature) : Bool :=
  let a := game.player attacker
  let t := game.player target
  if t.level < game.PROTECTION_LEVEL ∨ a.level < game.PROTECTION_LEVEL then true
  else if (!a.canCombat ∨ !t.canCombat) ∧ (a.vocationId = VOCATION_NONE ∨ t.vocationId = VOCATION_NONE) then true
  else a.skull = .BLACK ∧ game.getSkullClient attacker target = .NONE

/-- What keeps a player from attacking a player. -/
def playerAgainstPlayer (attacker target : Creature) : Option CombatReturn :=
  if (game.player attacker).hasFlag .CannotAttackPlayer then some .YOUMAYNOTATTACKTHISPLAYER
  else if game.isProtected attacker target then some .YOUMAYNOTATTACKTHISPLAYER
  else if game.zone target.position .NOPVPZONE then some .ACTIONNOTPERMITTEDINANOPVPZONE
  else if game.zone attacker.position .NOPVPZONE ∧
      ¬(game.zone target.position .NOPVPZONE ∨ game.zone target.position .PROTECTIONZONE) then
    some .ACTIONNOTPERMITTEDINANOPVPZONE
  else if game.getFaction attacker ≠ .DEFAULT ∧ game.getFaction attacker ≠ .PLAYER ∧
      game.getFaction attacker = game.getFaction target then some .YOUMAYNOTATTACKTHISPLAYER
  else none

/-- What keeps the summon of a player from attacking a player. -/
def masterAgainstPlayer (master target : Creature) : Option CombatReturn :=
  if (game.player master).hasFlag .CannotAttackPlayer then some .YOUMAYNOTATTACKTHISPLAYER
  else if game.zone target.position .NOPVPZONE then some .ACTIONNOTPERMITTEDINANOPVPZONE
  else if game.isProtected master target then some .YOUMAYNOTATTACKTHISPLAYER
  else none

/-- What keeps a creature from attacking a player. -/
def againstPlayer (attacker target : Creature) : Option CombatReturn :=
  if (game.player target).hasFlag .CannotBeAttacked then some .YOUMAYNOTATTACKTHISPLAYER
  else
    (if attacker.isPlayer then game.playerAgainstPlayer attacker target else none) <|>
    ((game.playerMaster attacker).bind fun master => game.masterAgainstPlayer master target) <|>
    (if attacker.isMonster ∧ (game.getMaster attacker = none ∨ (game.monsterMaster attacker).isSome) ∧
        game.getFaction attacker ≠ .DEFAULT ∧ !game.isEnemyFaction attacker (game.getFaction target) then
      some .YOUMAYNOTATTACKTHISPLAYER
    else none)

/-- What keeps a creature from attacking a monster. -/
def againstMonster (attacker target : Creature) : Option CombatReturn :=
  if game.getFaction attacker ≠ .DEFAULT ∧ game.getFaction attacker ≠ .PLAYER ∧ attacker.isMonster ∧
      !game.isEnemyFaction attacker (game.getFaction target) then some .YOUMAYNOTATTACKTHISCREATURE
  else if attacker.isPlayer then
    if (game.player attacker).hasFlag .CannotAttackMonster then some .YOUMAYNOTATTACKTHISCREATURE
    else if game.isSummon target ∧ (game.playerMaster target).isSome ∧ game.getZoneType target = .NOPVP then
      some .ACTIONNOTPERMITTEDINANOPVPZONE
    else none
  else if attacker.isMonster ∧ (game.playerMaster target).isNone ∧ game.getFaction attacker = .DEFAULT ∧
      (game.playerMaster attacker).isNone then some .YOUMAYNOTATTACKTHISCREATURE
  else none

/-- What a world with optional fights between players forbids. -/
def againstOptional (attacker target : Creature) : Option CombatReturn :=
  if game.worldType = .OPTIONAL ∧ (attacker.isPlayer ∨ (game.playerMaster attacker).isSome) ∧
      !game.isInPvpZone attacker target then
    if target.isPlayer then some .YOUMAYNOTATTACKTHISPLAYER
    else if game.isSummon target ∧ (game.playerMaster target).isSome then some .YOUMAYNOTATTACKTHISCREATURE
    else none
  else none

/-- `Combat::canDoCombat` of a creature against a creature. -/
def canDoCombat (attacker target : Creature) (aggressive : Bool) : CombatReturn :=
  if !aggressive then .NOERROR
  else if (game.map.getTile target.position.x target.position.y target.position.z).any (·.flags .BLOCKPROJECTILE) then
    .NOTENOUGHROOM
  else if target.isPlayer ∧ game.zone target.position .PROTECTIONZONE then
    if (game.player target).hasPermittedConditionInPZ then .NOERROR else .ACTIONNOTPERMITTEDINPROTECTIONZONE
  else
    let refusal :=
      (if target.isPlayer then game.againstPlayer attacker target
      else if target.isMonster then game.againstMonster attacker target
      else some .YOUMAYNOTATTACKTHISCREATURE) <|> game.againstOptional attacker target
    refusal.getD (game.onTargetCombat attacker target)

/-! ### The picker -/

/-- `Combat::isValidChainTarget`. -/
def isValidChainTarget (caster currentTarget potentialTarget : Creature) (aggressive : Bool) : Bool :=
  let canCombat := game.canDoCombat caster potentialTarget aggressive = .NOERROR
  let pick := game.chainPickerCallback.all fun onChainCombat => onChainCombat caster potentialTarget
  let hasSight := game.map.isSightClear currentTarget.position potentialTarget.position true
  canCombat ∧ pick ∧ hasSight

/-- The spectators that the loop leaves out before it asks whether they are valid. -/
def leavesOut (caster spectator : Creature) : Bool :=
  if game.getZoneType spectator = .PROTECTION then true
  else if spectator.kind = .npc then true
  else if spectator = caster then true
  else match caster.kind with
    | .player => (game.player caster).secureMode && (spectator.isPlayer || (game.playerMaster spectator).isSome)
    | .monster => if game.isSummon spectator then (game.playerMaster spectator).isNone else !spectator.isPlayer
    | .npc => false

/-- What the loop over the spectators knows: whom it has visited, and the closest with the square of the distance. -/
structure Look where
  visited : List Nat
  closest : Option (Creature × Nat)

/-- The square of `Position::getEuclideanDistance`. -/
def squaredDistance (p1 p2 : Position) : Nat := p1.getDistanceX p2 ^ 2 + p1.getDistanceY p2 ^ 2

def consider (caster currentTarget : Creature) (aggressive : Bool) (s : Look) (spectator : Creature) : Look :=
  if spectator.id ∈ s.visited then s
  else if game.leavesOut caster spectator || !game.isValidChainTarget caster currentTarget spectator aggressive then
    { s with visited := spectator.id :: s.visited }
  else
    let distance := squaredDistance currentTarget.position spectator.position
    if s.closest.all (distance < ·.2) then { s with closest := some (spectator, distance) } else s

/-- Enters a link in the vector of places: with the first entry of its place, or in a new one. -/
def record (resultMap : List (Position × List Nat)) (pos : Position) (id : Nat) : List (Position × List Nat) :=
  match resultMap with
  | [] => [(pos, [id])]
  | (p, ids) :: rest => if p = pos then (p, ids ++ [id]) :: rest else (p, ids) :: record rest pos id

/-- The state of the search. The back of the vector `targets` comes first. -/
structure ChainSearch where
  targets : List Creature
  visited : List Nat
  resultMap : List (Position × List Nat)
  backtrackingAttempts : Nat
  cache : Spectators.Cache

/-- `Spectators().find<Creature>` around a place. -/
def query (chainDistance : UInt8) (pos : Position) : Spectators.Query :=
  let distance := Int32.ofNat chainDistance.toNat
  ⟨pos, false, none, distance, distance, distance, distance, true⟩

/-- A round of the loop of `pickChainTargets`. -/
def pickRound (caster : Creature) (chainDistance maxTargets : UInt8) (backtracking aggressive : Bool)
    (s : ChainSearch) : ChainSearch ⊕ ChainSearch :=
  match s.targets with
  | [] => .inr s
  | currentTarget :: earlier =>
    if s.targets.length ≤ maxTargets.toNat ∧ s.backtrackingAttempts > 0 then
      let found := Spectators.find game.sectors s.cache (query chainDistance currentTarget.position)
      let look := found.1.foldl (game.consider caster currentTarget aggressive) ⟨s.visited, none⟩
      let s := { s with visited := look.visited, cache := found.2 }
      match look.closest with
      | some (closestSpectator, _) =>
        .inl { s with
          targets := closestSpectator :: s.targets
          visited := closestSpectator.id :: s.visited
          resultMap := record s.resultMap currentTarget.position closestSpectator.id }
      | none =>
        if backtracking then .inl { s with targets := earlier, backtrackingAttempts := s.backtrackingAttempts - 1 }
        else .inr s
    else .inr s

/-- Where the search begins: an initial target is the first link. -/
def startSearch (caster : Creature) (initialTarget : Option Creature) (cache : Spectators.Cache) : ChainSearch :=
  match initialTarget.filter (· ≠ caster) with
  | some target => ⟨[target], [target.id], [(caster.position, [target.id])], 10, cache⟩
  | none => ⟨[caster], [], [], 10, cache⟩

/-- `maxTargets++` where the search begins with the caster. -/
def adjustMaximum (caster : Creature) (initialTarget : Option Creature) (maxTargets : UInt8) : UInt8 :=
  if (initialTarget.filter (· ≠ caster)).isSome then maxTargets else maxTargets + 1

/-- `Combat::pickChainTargets`, for so many rounds. The flags stand in the order of the definition, which is not that of the
    declaration. -/
def pickChainTargets (rounds : Nat) (caster : Creature) (chainDistance maxTargets : UInt8) (backtracking aggressive : Bool)
    (initialTarget : Option Creature) (cache : Spectators.Cache) : Option ChainSearch :=
  Lib.loop (game.pickRound caster chainDistance (adjustMaximum caster initialTarget maxTargets) backtracking aggressive)
    rounds (startSearch caster initialTarget cache)

/-- `Combat::doCombatChain` up to the links that it picks. -/
def chainTargets (rounds : Nat) (caster : Creature) (target : Option Creature) (aggressive : Bool)
    (maxTargets chainDistance : UInt8) (backtracking : Bool) (cache : Spectators.Cache) : Option ChainSearch :=
  game.pickChainTargets rounds caster chainDistance maxTargets aggressive backtracking target cache

end ChainGame
end CrystalServer
