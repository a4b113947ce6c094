import Mathlib.Data.List.Nodup

/-! # Spawns of monsters

`SpawnMonster` (`creatures/monsters/spawns/spawn_monster.cpp`): the checks, the chains of scheduled steps and the monsters on
its blocks, as time goes by. What the map, the random choice of a type and the players around have to say is an input of
each check. -/

namespace CrystalServer.Spawns

def NONBLOCKABLE_SPAWN_MONSTER_INTERVAL : UInt16 := 1400

/-- What a `SpawnMonster` never changes: the keys of `spawnMonsterMap`, the intervals of its blocks, its own and a setting. -/
structure Setup where
  ids : List UInt32
  nodup : ids.Nodup
  blockInterval : UInt32 → UInt32
  interval : UInt32
  BLOCK_RESPAWN : Bool

/-- A monster that is not removed, and the block that it was spawned for. -/
structure Monster where
  id : Nat
  spawnMonsterId : UInt32
  deriving DecidableEq

/-- A scheduled step of `scheduleSpawn`. -/
structure Scheduled where
  spawnMonsterId : UInt32
  interval : UInt16
  time : Int
  deriving DecidableEq

/-- What has happened. The code keeps no such list. -/
inductive Happening where
  | noticed (spawnMonsterId : UInt32) (time : Int)
  | started (spawnMonsterId : UInt32) (isBlockable foundPlayer : Bool)
  | appeared (spawnMonsterId : UInt32) (time : Int)
  deriving DecidableEq

structure World where
  OTSYS_TIME : Int
  lastSpawn : UInt32 → Int
  spawnedMonsterMap : UInt32 → Option Nat
  checkSpawnMonsterEvent : Option Int
  scheduled : List Scheduled
  alive : List Monster
  created : Nat
  history : List Happening

/-- What a check is told about a block: the type that is drawn, `canSpawn` of that type, `findPlayer`, and whether the monster
    can be placed. -/
structure Surroundings where
  isBlockable : UInt32 → Option Bool
  canSpawn : UInt32 → Bool
  findPlayer : UInt32 → Bool
  placed : UInt32 → Bool

namespace World

/-- `SpawnMonster::spawnMonster`. -/
def spawnMonster (spawnMonsterId : UInt32) (placed : Bool) (w : World) : World :=
  if (w.spawnedMonsterMap spawnMonsterId).isSome then w
  else if !placed then w
  else
    { w with
      spawnedMonsterMap := Function.update w.spawnedMonsterMap spawnMonsterId (some w.created)
      lastSpawn := Function.update w.lastSpawn spawnMonsterId w.OTSYS_TIME
      alive := ⟨w.created, spawnMonsterId⟩ :: w.alive
      created := w.created + 1
      history := .appeared spawnMonsterId w.OTSYS_TIME :: w.history }

/-- `SpawnMonster::scheduleSpawn`. -/
def scheduleSpawn (spawnMonsterId : UInt32) (interval : UInt16) (placed : Bool) (w : World) : World :=
  if interval ≤ 0 then w.spawnMonster spawnMonsterId placed
  else
    { w with scheduled := ⟨spawnMonsterId, interval - NONBLOCKABLE_SPAWN_MONSTER_INTERVAL,
        w.OTSYS_TIME + NONBLOCKABLE_SPAWN_MONSTER_INTERVAL.toNat⟩ :: w.scheduled }

/-- `SpawnMonster::startSpawnMonsterCheck`. -/
def startSpawnMonsterCheck (setup : Setup) (w : World) : World :=
  if w.checkSpawnMonsterEvent = none then
    { w with checkSpawnMonsterEvent := some (w.OTSYS_TIME + setup.interval.toNat) }
  else w

/-- The monster of a block is in `spawnedMonsterMap`, and removed. -/
def Dead (w : World) (spawnMonsterId : UInt32) : Prop :=
  ∃ monster ∈ w.spawnedMonsterMap spawnMonsterId, ⟨monster, spawnMonsterId⟩ ∉ w.alive

instance (w : World) (spawnMonsterId : UInt32) : Decidable (w.Dead spawnMonsterId) :=
  inferInstanceAs (Decidable (∃ _ ∈ _, _))

/-- The loop of `cleanup`, for a block. -/
def cleanupBlock (w : World) (spawnMonsterId : UInt32) : World :=
  if w.Dead spawnMonsterId then
    { w with
      lastSpawn := Function.update w.lastSpawn spawnMonsterId w.OTSYS_TIME
      spawnedMonsterMap := Function.update w.spawnedMonsterMap spawnMonsterId none
      history := .noticed spawnMonsterId w.OTSYS_TIME :: w.history }
  else w

/-- `SpawnMonster::cleanup`. -/
def cleanup (setup : Setup) (w : World) : World := setup.ids.foldl cleanupBlock w

/-- The loop of `checkSpawnMonster`, for a block. It also computes `spawnBlockedByPlayer`, which it does not read. -/
def checkBlock (setup : Setup) (s : Surroundings) (w : World) (spawnMonsterId : UInt32) : World :=
  if (w.spawnedMonsterMap spawnMonsterId).isSome then w
  else
    match s.isBlockable spawnMonsterId with
    | none => w
    | some isBlockable =>
      if !s.canSpawn spawnMonsterId || (isBlockable && s.findPlayer spawnMonsterId) then
        { w with lastSpawn := Function.update w.lastSpawn spawnMonsterId w.OTSYS_TIME }
      else if w.OTSYS_TIME < w.lastSpawn spawnMonsterId + (setup.blockInterval spawnMonsterId).toNat then w
      else
        let w := { w with history := .started spawnMonsterId isBlockable (s.findPlayer spawnMonsterId) :: w.history }
        if isBlockable then w.spawnMonster spawnMonsterId (s.placed spawnMonsterId)
        else w.scheduleSpawn spawnMonsterId (3 * NONBLOCKABLE_SPAWN_MONSTER_INTERVAL) (s.placed spawnMonsterId)

/-- The event of a check is due. -/
def CheckDue (w : World) : Prop := ∃ time ∈ w.checkSpawnMonsterEvent, time ≤ w.OTSYS_TIME

instance (w : World) : Decidable w.CheckDue := inferInstanceAs (Decidable (∃ _ ∈ _, _))

/-- `SpawnMonster::checkSpawnMonster`, when its event is due. -/
def checkSpawnMonster (setup : Setup) (s : Surroundings) (w : World) : World :=
  if w.CheckDue then
    let w := cleanup setup { w with checkSpawnMonsterEvent := none }
    let w := setup.ids.foldl (checkBlock setup s) w
    if (setup.ids.filter fun id => (w.spawnedMonsterMap id).isSome).length < setup.ids.length then
      { w with checkSpawnMonsterEvent := some (w.OTSYS_TIME + setup.interval.toNat) }
    else w
  else w

/-- The dispatcher runs a scheduled step that is due. -/
def runScheduled (i : Nat) (placed : Bool) (w : World) : World :=
  match w.scheduled[i]? with
  | none => w
  | some step =>
    if step.time ≤ w.OTSYS_TIME then
      scheduleSpawn step.spawnMonsterId step.interval placed { w with scheduled := w.scheduled.eraseIdx i }
    else w

/-- A monster is removed, and its `onDisappear` starts a check. -/
def death (setup : Setup) (monster : Nat) (w : World) : World :=
  if w.alive.any fun m => m.id = monster then
    startSpawnMonsterCheck setup { w with alive := w.alive.filter fun m => m.id ≠ monster }
  else w

/-- `SpawnMonster::startup`, not delayed, for a block. -/
def startupBlock (s : Surroundings) (w : World) (spawnMonsterId : UInt32) : World :=
  match s.isBlockable spawnMonsterId with
  | none => w
  | some _ => w.scheduleSpawn spawnMonsterId 0 (s.placed spawnMonsterId)

/-- A `SpawnMonster` after `startup`. -/
def started (setup : Setup) (time : Int) (s : Surroundings) : World :=
  setup.ids.foldl (startupBlock s) ⟨time, fun _ => 0, fun _ => none, none, [], [], 0, []⟩

end World

/-- What can happen next. -/
inductive Operation where
  | wait (ms : Nat)
  | checkSpawnMonster (s : Surroundings)
  | runScheduled (i : Nat) (placed : Bool)
  | startSpawnMonsterCheck
  | death (monster : Nat)

def step (setup : Setup) (w : World) : Operation → World
  | .wait ms => { w with OTSYS_TIME := w.OTSYS_TIME + ms }
  | .checkSpawnMonster s => w.checkSpawnMonster setup s
  | .runScheduled i placed => w.runScheduled i placed
  | .startSpawnMonsterCheck => w.startSpawnMonsterCheck setup
  | .death monster => w.death setup monster

end CrystalServer.Spawns
