import Mathlib.Data.List.Range

/-! # The dispatcher

The main loop, the lists of the threads, and the calls that fill them (`game/scheduling/dispatcher.cpp`,
`game/scheduling/task.cpp`). A block under a mutex is one step, and so is each access of the loop to `hasPendingTasks`.
What a task does are the calls that follow while it runs. Ids are not used up. -/

namespace CrystalServer
namespace Dispatcher

/-- `TaskGroup`, without the thread pool. -/
inductive TaskGroup where
  | Walk | WalkParallel | Serial | GenericParallel
  deriving DecidableEq

def TaskGroup.isSerial : TaskGroup → Bool
  | .Walk | .Serial => true
  | .WalkParallel | .GenericParallel => false

/-- The next group that `executeEvents` goes to. -/
def TaskGroup.next : TaskGroup → Option TaskGroup
  | .Walk => some .WalkParallel
  | .WalkParallel => some .Serial
  | .Serial => some .GenericParallel
  | .GenericParallel => none

/-- A `Task` of a group. The thread that it came from and the number tell events apart. -/
structure Event where
  number : Nat
  thread : Nat
  expiration : Int
  deriving DecidableEq

/-- `Task::hasExpired`. -/
def Event.hasExpired (e : Event) (now : Int) : Bool := e.expiration ≠ 0 ∧ e.expiration < now

/-- A scheduled `Task`, which is canceled once it has no function. -/
structure Task where
  utime : Int
  delay : UInt32
  cycle : Bool
  isCanceled : Bool
  deriving DecidableEq

/-- `ThreadTask`; a scheduled task goes by its id. -/
structure ThreadTask where
  tasks : TaskGroup → List Event
  scheduledTasks : List Nat

/-- The threads, one of which runs the main loop, and the size of the pool. -/
structure Threads where
  count : Nat
  own : Nat
  own_lt : own < count
  get_thread_count : Nat
  get_thread_count_pos : 0 < get_thread_count

/-- Where the main loop stands. -/
inductive Place where
  | updateTime
  | mergeEvents (thread : Nat)
  | checkPendingTasks
  | executeEvents (group : TaskGroup)
  | serialEvents (group : TaskGroup) (i : Nat)
  | serialRuns (group : TaskGroup) (i : Nat)
  | parallelEvents (group : TaskGroup) (waiting running : List Event)
  | scheduledEvents (i : Nat)
  | scheduledRuns (i : Nat)
  | readPending
  | enterWait
  | waits (notified : Bool)
  deriving DecidableEq

/-- What is seen of a run. -/
inductive Output where
  | added (group : TaskGroup) (e : Event)
  | merged (thread : Nat)
  | executed (group : TaskGroup) (e : Event)
  | expired (group : TaskGroup) (e : Event) (now : Int)
  | scheduled (thread id : Nat) (task : Task)
  | ran (id : Nat) (now : Int)
  | stopped (id : Nat)
  deriving DecidableEq

/-- The fields of the dispatcher, and in `log` what has been seen. -/
structure State where
  now : Int
  threads : Nat → ThreadTask
  m_tasks : TaskGroup → List Event
  scheduledTasks : List Nat
  scheduledTasksRef : List Nat
  task : Nat → Task
  nextNumber : Nat
  nextId : Nat
  hasPendingTasks : Bool
  place : Place
  log : List Output

def start : State where
  now := 0
  threads _ := ⟨fun _ => [], []⟩
  m_tasks _ := []
  scheduledTasks := []
  scheduledTasksRef := []
  task _ := ⟨0, 0, false, true⟩
  nextNumber := 0
  nextId := 1
  hasPendingTasks := false
  place := .updateTime
  log := []

namespace State

def emit (s : State) (o : Output) : State := { s with log := s.log ++ [o] }

def goTo (s : State) (place : Place) : State := { s with place := place }

def setThread (s : State) (thread : Nat) (t : ThreadTask) : State :=
  { s with threads := Function.update s.threads thread t }

def setTask (s : State) (id : Nat) (t : Task) : State := { s with task := Function.update s.task id t }

/-- The loop is in a call of a task's function, on its own thread or on others. -/
def runsTask (s : State) : Bool :=
  match s.place with
  | .serialRuns _ _ | .scheduledRuns _ => true
  | .parallelEvents _ _ running => running ≠ []
  | _ => false

end State

/-! ### Calls -/

/-- `notify`, with `notify_one`. -/
def notify (s : State) : State :=
  if s.hasPendingTasks then s
  else
    let s := { s with hasPendingTasks := true }
    match s.place with
    | .waits _ => s.goTo (.waits true)
    | _ => s

/-- What `addEvent`, `addWalkEvent` and `asyncEvent` do under the mutex of the thread. -/
def emplace (s : State) (thread : Nat) (group : TaskGroup) (expiresAfterMs : UInt32) : State :=
  let expiration := if expiresAfterMs > 0 then s.now + expiresAfterMs.toNat else 0
  let e : Event := ⟨s.nextNumber, thread, expiration⟩
  let t := s.threads thread
  let s := s.setThread thread { t with tasks := Function.update t.tasks group (t.tasks group ++ [e]) }
  notify ({ s with nextNumber := s.nextNumber + 1 }.emit (.added group e))

def addEvent (s : State) (thread : Nat) (expiresAfterMs : UInt32) : State := emplace s thread .Serial expiresAfterMs

def addWalkEvent (s : State) (thread : Nat) (expiresAfterMs : UInt32) : State := emplace s thread .Walk expiresAfterMs

def asyncEvent (s : State) (thread : Nat) (group : TaskGroup) : State := emplace s thread group 0

/-- `scheduleEvent`, for a new task with the time that its constructor has set. -/
def scheduleEvent (s : State) (thread : Nat) (utime : Int) (delay : UInt32) (cycle : Bool) : State :=
  let id := s.nextId
  let t := s.threads thread
  let task : Task := ⟨utime, delay, cycle, false⟩
  let s := s.setTask id task
  let s := s.setThread thread { t with scheduledTasks := t.scheduledTasks ++ [id] }
  let s := { s with nextId := s.nextId + 1, scheduledTasksRef := id :: s.scheduledTasksRef }
  notify (s.emit (.scheduled thread id task))

def stopEvent (s : State) (eventId : Nat) : State :=
  let s :=
    if eventId ∈ s.scheduledTasksRef then
      let s := s.setTask eventId { s.task eventId with isCanceled := true }
      { s with scheduledTasksRef := s.scheduledTasksRef.filter (· ≠ eventId) }
    else s
  s.emit (.stopped eventId)

/-! ### The main loop -/

/-- `scheduledTasks.insert`: behind the tasks of the same time. -/
def insert (s : State) (l : List Nat) (id : Nat) : List Nat :=
  l.takeWhile (fun k => (s.task k).utime ≤ (s.task id).utime) ++
    id :: l.dropWhile (fun k => (s.task k).utime ≤ (s.task id).utime)

/-- A group of a thread in `__mergeEvents`: the longer list is swapped in and the other one appended. -/
def mergeGroup (tasks threadTasks : List Event) : List Event :=
  if threadTasks.length > tasks.length then threadTasks ++ tasks else tasks ++ threadTasks

/-- The block of `__mergeEvents` for a thread. -/
def mergeThread (s : State) (thread : Nat) : State :=
  let t := s.threads thread
  let s := { s with m_tasks := fun group => mergeGroup (s.m_tasks group) (t.tasks group)
                    scheduledTasks := t.scheduledTasks.foldl (insert s) s.scheduledTasks }
  (s.setThread thread ⟨fun _ => [], []⟩).emit (.merged thread)

/-- `generatePartition`, for a size that is not 0. -/
def generatePartition (threadCount size : Nat) : List (Nat × Nat) :=
  let sizePerBlock := (size + threadCount - 1) / threadCount
  (List.range ((size + sizePerBlock - 1) / sizePerBlock)).map fun k =>
    (k * sizePerBlock, min size (k * sizePerBlock + sizePerBlock))

/-- The calls that `asyncWait` makes of `f`: the first block, and then one loop over all the others. -/
def asyncWait (threadCount requestSize : Nat) : List Nat :=
  match generatePartition threadCount requestSize with
  | [] => []
  | [(first, last)] => List.range' first (last - first)
  | (first, last) :: (min, k) :: rest =>
    let max := (((min, k) :: rest).getLast (List.cons_ne_nil _ _)).2
    List.range' first (last - first) ++ List.range' min (max - min)

/-- The rest of `executeEvents` after a group. -/
def afterGroup (s : State) (group : TaskGroup) : State :=
  match group.next with
  | some group => s.goTo (.executeEvents group)
  | none => s.goTo (.scheduledEvents 0)

/-- `tasks.clear()` at the end of a group. -/
def clearGroup (s : State) (group : TaskGroup) : State :=
  afterGroup { s with m_tasks := Function.update s.m_tasks group [] } group

/-- `Task::execute` of an event: it starts to run, or has expired. -/
def execute (s : State) (group : TaskGroup) (e : Event) : State :=
  if e.hasExpired s.now then s.emit (.expired group e s.now) else s.emit (.executed group e)

/-- A step of `executeSerialEvents` between two tasks. -/
def executeSerialEvents (s : State) (group : TaskGroup) (i : Nat) : State :=
  match (s.m_tasks group)[i]? with
  | none => clearGroup s group
  | some e => (execute s group e).goTo (if e.hasExpired s.now then .serialEvents group (i + 1) else .serialRuns group i)

/-- The beginning of a group in `executeEvents`. -/
def executeEvents (threads : Threads) (s : State) (group : TaskGroup) : State :=
  if s.m_tasks group = [] then afterGroup s group
  else if group.isSerial then s.goTo (.serialEvents group 0)
  else
    let indices := asyncWait threads.get_thread_count (s.m_tasks group).length
    s.goTo (.parallelEvents group (indices.filterMap fun i => (s.m_tasks group)[i]?) [])

/-- A step of `executeScheduledEvents` between two tasks. -/
def executeScheduledEvents (s : State) (i : Nat) : State :=
  match s.scheduledTasks[i]? with
  | none => { s with scheduledTasks := s.scheduledTasks.drop i }.goTo .readPending
  | some id =>
    if (s.task id).utime > s.now then { s with scheduledTasks := s.scheduledTasks.drop i }.goTo .readPending
    else if (s.task id).isCanceled then
      { s with scheduledTasksRef := s.scheduledTasksRef.filter (· ≠ id) }.goTo (.scheduledEvents (i + 1))
    else (s.emit (.ran id s.now)).goTo (.scheduledRuns i)

/-- What `executeScheduledEvents` does once a task has returned. -/
def afterScheduled (threads : Threads) (s : State) (i : Nat) : State :=
  let s := s.goTo (.scheduledEvents (i + 1))
  match s.scheduledTasks[i]? with
  | none => s
  | some id =>
    if (s.task id).cycle then
      let s := s.setTask id { s.task id with utime := s.now + (s.task id).delay.toNat }
      let t := s.threads threads.own
      s.setThread threads.own { t with scheduledTasks := t.scheduledTasks ++ [id] }
    else { s with scheduledTasksRef := s.scheduledTasksRef.filter (· ≠ id) }

/-- The next step of the main loop; `UPDATE_OTSYS_TIME` sets the time. A group that runs on several threads goes on
    when all of it is done. A wait ends with a notification, with the time, or for no reason. -/
def advance (threads : Threads) (s : State) (time : Int) : State :=
  match s.place with
  | .updateTime => { s with now := time }.goTo (.mergeEvents 0)
  | .mergeEvents k =>
    if k < threads.count then (mergeThread s k).goTo (.mergeEvents (k + 1))
    else { s with hasPendingTasks := false }.goTo .checkPendingTasks
  | .checkPendingTasks =>
    let pending := [.Walk, .WalkParallel, .Serial, .GenericParallel].any fun group => s.m_tasks group ≠ []
    { s with hasPendingTasks := s.hasPendingTasks || pending }.goTo (.executeEvents .Walk)
  | .executeEvents group => executeEvents threads s group
  | .serialEvents group i => executeSerialEvents s group i
  | .serialRuns group i => s.goTo (.serialEvents group (i + 1))
  | .parallelEvents group waiting running => if waiting = [] ∧ running = [] then clearGroup s group else s
  | .scheduledEvents i => executeScheduledEvents s i
  | .scheduledRuns i => afterScheduled threads s i
  | .readPending => s.goTo (if s.hasPendingTasks then .updateTime else .enterWait)
  | .enterWait => s.goTo (.waits false)
  | .waits _ => s.goTo .updateTime

/-- One of the tasks of a parallel group starts. -/
def startParallel (s : State) (n : Nat) : State :=
  match s.place with
  | .parallelEvents group waiting running =>
    match waiting[n]? with
    | none => s
    | some e =>
      (execute s group e).goTo
        (.parallelEvents group (waiting.eraseIdx n) (if e.hasExpired s.now then running else running ++ [e]))
  | _ => s

/-- One of the tasks of a parallel group returns. -/
def finishParallel (s : State) (n : Nat) : State :=
  match s.place with
  | .parallelEvents group waiting running => s.goTo (.parallelEvents group waiting (running.eraseIdx n))
  | _ => s

/-! ### Steps -/

inductive Action where
  | addEvent (thread : Nat) (expiresAfterMs : UInt32)
  | addWalkEvent (thread : Nat) (expiresAfterMs : UInt32)
  | asyncEvent (thread : Nat) (group : TaskGroup)
  | scheduleEvent (thread : Nat) (utime : Int) (delay : UInt32) (cycle : Bool)
  | stopEvent (eventId : Nat)
  | advance (time : Int)
  | startParallel (n : Nat)
  | finishParallel (n : Nat)
  deriving DecidableEq

/-- The thread of the main loop makes calls only in a task. -/
def mayCall (threads : Threads) (s : State) (thread : Nat) : Bool :=
  thread < threads.count ∧ (thread = threads.own → s.runsTask)

def step (threads : Threads) (s : State) : Action → State
  | .addEvent thread expiresAfterMs => if mayCall threads s thread then addEvent s thread expiresAfterMs else s
  | .addWalkEvent thread expiresAfterMs => if mayCall threads s thread then addWalkEvent s thread expiresAfterMs else s
  | .asyncEvent thread group => if mayCall threads s thread then asyncEvent s thread group else s
  | .scheduleEvent thread utime delay cycle =>
    if mayCall threads s thread then scheduleEvent s thread utime delay cycle else s
  | .stopEvent eventId => stopEvent s eventId
  | .advance time => advance threads s time
  | .startParallel n => startParallel s n
  | .finishParallel n => finishParallel s n

end Dispatcher
end CrystalServer
