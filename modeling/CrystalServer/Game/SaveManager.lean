import CrystalServer.Lib.Run

/-! # Scheduled saves

`SaveManager` (`game/scheduling/save_manager.cpp`): requests to save a player, the tasks that they leave to the thread
pool, and the saves themselves. Threads meet between the blocks that a mutex protects. -/

namespace CrystalServer.SaveManager

/-- How far a request has come: `schedulePlayer` has read the clock, has written `m_playerMap`, has handed the task to
the thread pool; the task has found its own time in `m_playerMap` and goes on to `doSavePlayer`. -/
inductive Stage
  | clocked | scheduled | detached | checked
  deriving DecidableEq

/-- A call of `schedulePlayer`, and then its task. Players are named by their GUID. -/
structure Job where
  player : UInt32
  scheduledAt : Nat
  stage : Stage
  deriving DecidableEq

/-- What happened to a player: a request to save him was entered, his state was read by `IOLoginData::savePlayer`. -/
inductive Entry
  | schedulePlayer (player : UInt32)
  | savePlayer (player : UInt32)
  deriving DecidableEq

structure State where
  m_playerMap : UInt32 → Option Nat
  now : Nat
  jobs : List Job
  log : List Entry

/-- Nothing is scheduled yet. -/
def State.init (now : Nat) : State := ⟨fun _ => none, now, [], []⟩

/-- What the threads do next: wait, begin a `schedulePlayer`, do a save of `saveAll`, or the next block of a request. -/
inductive Event
  | wait (ticks : Nat)
  | schedulePlayer (player : UInt32)
  | doSavePlayer (player : UInt32)
  | proceed (i : Nat)

/-- `SaveManager::doSavePlayer`: what it does under the lock of the player. -/
def doSavePlayer (s : State) (player : UInt32) : State :=
  { s with
    m_playerMap := fun p => if p = player then none else s.m_playerMap p
    log := s.log ++ [.savePlayer player] }

/-- The next block of the `i`-th request. -/
def proceed (s : State) (i : Nat) : State :=
  match s.jobs[i]? with
  | none => s
  | some j =>
    match j.stage with
    | .clocked =>
      { s with
        m_playerMap := fun p => if p = j.player then some j.scheduledAt else s.m_playerMap p
        jobs := s.jobs.set i { j with stage := .scheduled }
        log := s.log ++ [.schedulePlayer j.player] }
    | .scheduled => { s with jobs := s.jobs.set i { j with stage := .detached } }
    | .detached =>
      -- A task that finds no time, or another one, skips.
      if s.m_playerMap j.player = some j.scheduledAt then { s with jobs := s.jobs.set i { j with stage := .checked } }
      else { s with jobs := s.jobs.eraseIdx i }
    | .checked => { doSavePlayer s j.player with jobs := s.jobs.eraseIdx i }

/-- `TOGGLE_SAVE_ASYNC` says whether `schedulePlayer` saves later or at once. -/
def step (TOGGLE_SAVE_ASYNC : Bool) (s : State) : Event → State
  | .wait ticks => { s with now := s.now + ticks }
  | .schedulePlayer player =>
    if !TOGGLE_SAVE_ASYNC then doSavePlayer { s with log := s.log ++ [.schedulePlayer player] } player
    else { s with jobs := s.jobs ++ [⟨player, s.now, .clocked⟩] }
  | .doSavePlayer player => doSavePlayer s player
  | .proceed i => proceed s i

end CrystalServer.SaveManager
