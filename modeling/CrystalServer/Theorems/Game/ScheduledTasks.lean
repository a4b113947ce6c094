import CrystalServer.Lib.SortedMap
import CrystalServer.Theorems.Game.Dispatcher

/-! # The dispatcher: scheduled tasks

A scheduled task is in the list of one thread, in the set of the loop, or running. It runs when its time has come,
before every task of the set with a later time, and not once it was stopped. -/

namespace CrystalServer
namespace Dispatcher

/-! ### Lists by thread -/

/-- One of the lists comes first. -/
theorem flatMap_update_perm {α : Type} (f : Nat → List α) {n k : Nat} (hk : k < n) (l : List α) :
    ((List.range n).flatMap (Function.update f k l)).Perm (l ++ (List.range n).flatMap (Function.update f k [])) := by
  obtain ⟨a, b, hab⟩ := List.append_of_mem (List.mem_range.mpr hk)
  have hnodup : (a ++ k :: b).Nodup := hab ▸ List.nodup_range
  have ha : k ∉ a := fun h => (List.nodup_append.mp hnodup).2.2 k h k List.mem_cons_self rfl
  have hb : k ∉ b := (List.nodup_cons.mp (List.nodup_append.mp hnodup).2.1).1
  have hcongr : ∀ (c : List Nat) (l : List α), k ∉ c → c.flatMap (Function.update f k l) = c.flatMap f := fun c l hc =>
    List.flatMap_congr fun x hx => Function.update_of_ne (fun h : x = k => hc (h ▸ hx)) l f
  rw [hab, List.flatMap_append, List.flatMap_append, List.flatMap_cons, List.flatMap_cons, hcongr a _ ha, hcongr a _ ha,
    hcongr b _ hb, hcongr b _ hb, Function.update_self, Function.update_self, List.nil_append, ← List.append_assoc,
    ← List.append_assoc]
  exact List.perm_append_comm.append_right _

/-! ### Where a task is -/

/-- The tasks of the set that this round has yet to come to. -/
def unprocessed (s : State) : List Nat :=
  match s.place with
  | .scheduledEvents i => s.scheduledTasks.drop i
  | .scheduledRuns i => s.scheduledTasks.drop (i + 1)
  | _ => s.scheduledTasks

def runningTask (s : State) : Option Nat :=
  match s.place with
  | .scheduledRuns i => s.scheduledTasks[i]?
  | _ => none

/-- The lists of the threads. -/
def listed (threads : Threads) (s : State) : List Nat :=
  (List.range threads.count).flatMap fun t => (s.threads t).scheduledTasks

/-- The tasks that are to run. -/
def queued (threads : Threads) (s : State) : List Nat := listed threads s ++ unprocessed s

/-- The tasks that are to run or that run. -/
def owed (threads : Threads) (s : State) : List Nat := (runningTask s).toList ++ queued threads s

/-! ### What the log says of a task -/

/-- The task was stopped after it was scheduled. -/
def Stopped (log : List Output) (id : Nat) : Prop :=
  ∃ l₁ l₂ t task, log = l₁ ++ .stopped id :: l₂ ∧ .scheduled t id task ∈ l₁

/-- The turn of a task: its time has come, a period has passed since each of its runs, and it was not stopped. -/
structure RunTurn (log : List Output) (id : Nat) (now : Int) : Prop where
  due : ∃ t task, .scheduled t id task ∈ log ∧ task.utime ≤ now ∧
    ∀ n, .ran id n ∈ log → task.cycle ∧ n + task.delay.toNat ≤ now
  notStopped : ¬Stopped log id

/-- What may be seen of tasks after the log. -/
def TaskTurn (log : List Output) : Output → Prop
  | .ran id now => RunTurn log id now
  | _ => True

section
variable {log : List Output} {o : Output} {id : Nat}

theorem stopped_concat : Stopped (log ++ [o]) id ↔
    Stopped log id ∨ o = .stopped id ∧ ∃ t task, .scheduled t id task ∈ log := by
  constructor
  · rintro ⟨l₁, l₂, t, task, hlog, hmem⟩
    rcases List.eq_nil_or_concat l₂ with rfl | ⟨l₂, x, rfl⟩
    · obtain ⟨rfl, rfl⟩ := List.append_singleton_inj.mp hlog
      exact .inr ⟨rfl, t, task, hmem⟩
    · rw [List.concat_eq_append, ← List.cons_append, ← List.append_assoc] at hlog
      exact .inl ⟨l₁, l₂, t, task, (List.append_singleton_inj.mp hlog).1, hmem⟩
  · rintro (⟨l₁, l₂, t, task, rfl, hmem⟩ | ⟨rfl, t, task, hmem⟩)
    · exact ⟨l₁, l₂ ++ [o], t, task, by simp, hmem⟩
    · exact ⟨log, [], t, task, rfl, hmem⟩

theorem Stopped.scheduled (h : Stopped log id) : ∃ t task, .scheduled t id task ∈ log := by
  obtain ⟨l₁, l₂, t, task, rfl, hmem⟩ := h
  exact ⟨t, task, List.mem_append_left _ hmem⟩

end

/-! ### The invariant -/

/-- What holds of the scheduled tasks in every state that is reached. -/
structure Queue (threads : Threads) (s : State) : Prop where
  nodup : (owed threads s).Nodup
  known : ∀ id ∈ owed threads s, ∃ t task, .scheduled t id task ∈ s.log
  ids : ∀ t id task, .scheduled t id task ∈ s.log → id < s.nextId
  task : ∀ t id task, .scheduled t id task ∈ s.log →
    (s.task id).cycle = task.cycle ∧ (s.task id).delay = task.delay ∧ task.utime ≤ (s.task id).utime
  ref : ∀ id ∈ owed threads s, ¬(s.task id).isCanceled → id ∈ s.scheduledTasksRef
  stopped : ∀ id, Stopped s.log id → id ∈ owed threads s → (s.task id).isCanceled
  ran : ∀ id ∈ queued threads s, ∀ n, .ran id n ∈ s.log →
    (s.task id).cycle ∧ n + (s.task id).delay.toNat ≤ (s.task id).utime
  running : ∀ id, runningTask s = some id →
    (s.task id).utime ≤ s.now ∧ .ran id s.now ∈ s.log ∧ ∀ n, .ran id n ∈ s.log → n ≤ s.now
  sorted : ((runningTask s).toList ++ unprocessed s).Pairwise fun a b => (s.task a).utime ≤ (s.task b).utime
  kept : ∀ t id task, .scheduled t id task ∈ s.log → ¬(s.task id).isCanceled →
    id ∈ owed threads s ∨ ¬task.cycle ∧ ∃ n, .ran id n ∈ s.log
  canceled : ∀ t id task, .scheduled t id task ∈ s.log → (s.task id).isCanceled → .stopped id ∈ s.log
  turns : ∀ l o l', s.log = l ++ o :: l' → TaskTurn l o

variable {threads : Threads} {s s' : State}

theorem queue_start (threads : Threads) : Queue threads start := by
  have hnil : owed threads start = [] := by simp [owed, runningTask, queued, listed, unprocessed, start]
  have hqueued : queued threads start = [] := by simp [queued, listed, unprocessed, start]
  refine ⟨?_, ?_, by rintro _ _ _ ⟨⟩, by rintro _ _ _ ⟨⟩, ?_, ?_, ?_, by rintro _ ⟨⟩, .nil, by rintro _ _ _ ⟨⟩,
    by rintro _ _ _ ⟨⟩, ?_⟩
  · rw [hnil]
    exact .nil
  · rw [hnil]
    rintro _ ⟨⟩
  · rw [hnil]
    rintro _ ⟨⟩
  · rw [hnil]
    exact fun _ _ h => absurd h List.not_mem_nil
  · rw [hqueued]
    rintro _ ⟨⟩
  · exact fun l o l' h => absurd h (by simp [start])

/-- A task that ran was scheduled. -/
theorem Queue.scheduled_of_ran (h : Queue threads s) {id : Nat} {n : Int} (hr : .ran id n ∈ s.log) :
    ∃ t task, .scheduled t id task ∈ s.log := by
  obtain ⟨l, l', hl⟩ := List.append_of_mem hr
  have hturn : RunTurn l id n := h.turns l _ l' hl
  obtain ⟨t, task, hmem, -⟩ := hturn.due
  exact ⟨t, task, hl ▸ List.mem_append_left _ hmem⟩

/-- What is seen of no scheduled task. -/
def Output.Still : Output → Prop
  | .added _ _ | .merged _ | .executed _ _ | .expired _ _ _ => True
  | _ => False

/-- A step that moves tasks at most. -/
theorem Queue.moves (h : Queue threads s) (hlog : s'.log = s.log ∨ ∃ o : Output, o.Still ∧ s'.log = s.log ++ [o])
    (hrun : runningTask s' = runningTask s) (hqueued : (queued threads s').Perm (queued threads s))
    (htask : s'.task = s.task) (href : s'.scheduledTasksRef = s.scheduledTasksRef) (hnext : s'.nextId = s.nextId)
    (hnow : s'.now = s.now ∨ runningTask s = none)
    (hsorted : ((runningTask s').toList ++ unprocessed s').Pairwise fun a b => (s.task a).utime ≤ (s.task b).utime) :
    Queue threads s' := by
  have howed : (owed threads s').Perm (owed threads s) := by
    rw [owed, owed, hrun]
    exact hqueued.append_left _
  have hentry : ∀ o : Output, ¬o.Still → (o ∈ s'.log ↔ o ∈ s.log) := fun o ho => by
    rcases hlog with hlog | ⟨o', ho', hlog⟩
    · rw [hlog]
    · rw [hlog, List.mem_append, List.mem_singleton]
      exact or_iff_left fun heq => ho (heq ▸ ho')
  have hscheduled : ∀ t id task, Output.scheduled t id task ∈ s'.log ↔ Output.scheduled t id task ∈ s.log :=
    fun t id task => hentry _ (fun h => h)
  have hran : ∀ id n, Output.ran id n ∈ s'.log ↔ Output.ran id n ∈ s.log := fun id n => hentry _ (fun h => h)
  have hstopped : ∀ id, Stopped s'.log id → Stopped s.log id := fun id hs => by
    rcases hlog with hlog | ⟨o, ho, hlog⟩
    · rwa [hlog] at hs
    · rw [hlog] at hs
      rcases stopped_concat.mp hs with hs | ⟨rfl, -⟩
      · exact hs
      · exact absurd ho (fun h => h)
  refine ⟨?_, ?_, ?_, ?_, ?_, ?_, ?_, ?_, ?_, ?_, ?_, ?_⟩
  · exact howed.nodup_iff.mpr h.nodup
  · simp only [howed.mem_iff, hscheduled]
    exact h.known
  · simp only [hscheduled, hnext]
    exact h.ids
  · simp only [hscheduled, htask]
    exact h.task
  · simp only [howed.mem_iff, htask, href]
    exact h.ref
  · intro id hs
    rw [howed.mem_iff, htask]
    exact h.stopped id (hstopped id hs)
  · simp only [hqueued.mem_iff, htask, hran]
    exact h.ran
  · intro id hid
    rw [hrun] at hid
    simp only [htask, hran]
    rcases hnow with hnow | hnow
    · rw [hnow]
      exact h.running id hid
    · rw [hnow] at hid
      exact nomatch hid
  · rw [htask]
    exact hsorted
  · simp only [hscheduled, htask, howed.mem_iff, hran]
    exact h.kept
  · intro t id task hmem
    rw [htask, hentry (.stopped id) (fun h => h)]
    exact h.canceled t id task ((hscheduled t id task).mp hmem)
  · rcases hlog with hlog | ⟨o, ho, hlog⟩
    · rw [hlog]
      exact h.turns
    · rw [hlog]
      refine Lib.splits_concat h.turns ?_
      cases o <;> trivial

/-- A step that tasks have no part in. -/
theorem Queue.still (h : Queue threads s) (hlog : s'.log = s.log ∨ ∃ o : Output, o.Still ∧ s'.log = s.log ++ [o])
    (hrun : runningTask s' = runningTask s) (hun : unprocessed s' = unprocessed s)
    (hthreads : ∀ t, (s'.threads t).scheduledTasks = (s.threads t).scheduledTasks) (htask : s'.task = s.task)
    (href : s'.scheduledTasksRef = s.scheduledTasksRef) (hnext : s'.nextId = s.nextId)
    (hnow : s'.now = s.now ∨ runningTask s = none) : Queue threads s' := by
  have hqueued : queued threads s' = queued threads s := by
    simp only [queued, listed, hun, hthreads]
  refine h.moves hlog hrun (.of_eq hqueued) htask href hnext hnow ?_
  rw [hrun, hun]
  exact h.sorted

/-! ### Calls -/

theorem Queue.notify (h : Queue threads s) : Queue threads (notify s) := by
  obtain ⟨place, heq, hplace⟩ := notify_eq s
  rw [heq]
  rcases hplace with rfl | ⟨⟨notified, hw⟩, rfl⟩
  · exact h.still (.inl rfl) rfl rfl (fun _ => rfl) rfl rfl rfl (.inl rfl)
  · exact h.still (.inl rfl) (by rw [runningTask, runningTask, hw]) (by rw [unprocessed, unprocessed, hw]) (fun _ => rfl)
      rfl rfl rfl (.inl rfl)

theorem queue_emplace (h : Queue threads s) (thread : Nat) (group : TaskGroup) (expiresAfterMs : UInt32) :
    Queue threads (emplace s thread group expiresAfterMs) := by
  unfold emplace
  dsimp only
  refine Queue.notify (h.still (.inr ⟨_, ?_, rfl⟩) rfl rfl (fun t => ?_) rfl rfl rfl (.inl rfl))
  · trivial
  · by_cases ht : t = thread
    · subst ht
      simp [State.emit, State.setThread]
    · simp [State.emit, State.setThread, Function.update_of_ne ht]

/-- A list of a thread grows. -/
theorem listed_append {f : Nat → ThreadTask} {k id : Nat} {tasks : TaskGroup → List Event} (hk : k < threads.count)
    (hthreads : s'.threads = Function.update f k ⟨tasks, (f k).scheduledTasks ++ [id]⟩) (hf : s.threads = f) :
    (listed threads s').Perm (id :: listed threads s) := by
  subst hf
  have hlists : (fun t => (s'.threads t).scheduledTasks) =
      Function.update (fun t => (s.threads t).scheduledTasks) k ((s.threads k).scheduledTasks ++ [id]) := by
    funext t
    rw [hthreads]
    by_cases ht : t = k
    · subst ht
      simp
    · simp [Function.update_of_ne ht]
  have hself : (fun t => (s.threads t).scheduledTasks) =
      Function.update (fun t => (s.threads t).scheduledTasks) k (s.threads k).scheduledTasks :=
    (Function.update_eq_self ..).symm
  rw [listed, listed, hlists]
  refine (flatMap_update_perm _ hk _).trans ?_
  rw [hself]
  refine .trans ?_ ((flatMap_update_perm _ hk _).symm.cons id)
  simp only [Function.update_idem, List.append_assoc]
  exact List.perm_middle

theorem queue_scheduleEvent (h : Queue threads s) {thread : Nat} (ht : thread < threads.count) (utime : Int)
    (delay : UInt32) (cycle : Bool) : Queue threads (scheduleEvent s thread utime delay cycle) := by
  unfold scheduleEvent
  dsimp only
  refine Queue.notify ?_
  generalize htk : Task.mk utime delay cycle false = tk
  generalize hs' : State.emit _ _ = s'
  have hlog : s'.log = s.log ++ [.scheduled thread s.nextId tk] := by rw [← hs']; rfl
  have htask : s'.task = Function.update s.task s.nextId tk := by rw [← hs']; rfl
  have hrun : runningTask s' = runningTask s := by rw [← hs']; rfl
  have hun : unprocessed s' = unprocessed s := by rw [← hs']; rfl
  have href : s'.scheduledTasksRef = s.nextId :: s.scheduledTasksRef := by rw [← hs']; rfl
  have hnext : s'.nextId = s.nextId + 1 := by rw [← hs']; rfl
  have hnow : s'.now = s.now := by rw [← hs']; rfl
  have hlisted : (listed threads s').Perm (s.nextId :: listed threads s) :=
    listed_append ht (by rw [← hs']; rfl) rfl
  have hqueued : (queued threads s').Perm (s.nextId :: queued threads s) := by
    rw [queued, queued, hun]
    exact hlisted.append_right _
  have howed : (owed threads s').Perm (s.nextId :: owed threads s) := by
    rw [owed, owed, hrun]
    exact (hqueued.append_left _).trans List.perm_middle
  -- ids below the new one are as before
  have hold : ∀ {t id task}, Output.scheduled t id task ∈ s.log → s'.task id = s.task id := fun hmem => by
    rw [htask, Function.update_of_ne (h.ids _ _ _ hmem).ne]
  have holdOwed : ∀ {id}, id ∈ owed threads s → s'.task id = s.task id := fun hid => by
    obtain ⟨t, task, hmem⟩ := h.known _ hid
    exact hold hmem
  have hnew : s.nextId ∉ owed threads s := fun hid => by
    obtain ⟨t, task, hmem⟩ := h.known _ hid
    exact lt_irrefl _ (h.ids _ _ _ hmem)
  have hscheduled : ∀ t id task, Output.scheduled t id task ∈ s'.log ↔
      Output.scheduled t id task ∈ s.log ∨ t = thread ∧ id = s.nextId ∧ task = tk := fun t id task => by
    simp [hlog]
  have hran : ∀ id n, Output.ran id n ∈ s'.log ↔ Output.ran id n ∈ s.log := fun id n => by simp [hlog]
  have hstopped : ∀ id, Stopped s'.log id ↔ Stopped s.log id := fun id => by
    rw [hlog, stopped_concat]
    exact or_iff_left fun hs => nomatch hs.1
  have hself : s'.task s.nextId = tk := by rw [htask, Function.update_self]
  have hnotRan : ∀ n, Output.ran s.nextId n ∉ s.log := fun n hn => by
    obtain ⟨t, task, hmem⟩ := h.scheduled_of_ran hn
    exact lt_irrefl _ (h.ids _ _ _ hmem)
  have hrunOwed : ∀ id ∈ (runningTask s).toList ++ unprocessed s, id ∈ owed threads s := fun id hid => by
    rcases List.mem_append.mp hid with hid | hid
    · exact List.mem_append_left _ hid
    · exact List.mem_append_right _ (List.mem_append_right _ hid)
  refine ⟨?_, fun id hid => ?_, fun t id task hmem => ?_, fun t id task hmem => ?_, fun id hid hc => ?_, fun id hs hid => ?_,
    fun id hid n hn => ?_, fun id hid => ?_, ?_, fun t id task hmem hc => ?_, fun t id task hmem hc => ?_, ?_⟩
  · exact howed.nodup_iff.mpr (List.nodup_cons.mpr ⟨hnew, h.nodup⟩)
  · rcases List.mem_cons.mp (howed.mem_iff.mp hid) with rfl | hid
    · exact ⟨thread, tk, (hscheduled _ _ _).mpr (.inr ⟨rfl, rfl, rfl⟩)⟩
    · obtain ⟨t, task, hmem⟩ := h.known id hid
      exact ⟨t, task, (hscheduled _ _ _).mpr (.inl hmem)⟩
  · rw [hnext]
    rcases (hscheduled _ _ _).mp hmem with hmem | ⟨-, rfl, -⟩
    · exact Nat.lt_succ_of_lt (h.ids _ _ _ hmem)
    · exact Nat.lt_succ_self _
  · rcases (hscheduled _ _ _).mp hmem with hmem | ⟨-, rfl, rfl⟩
    · rw [hold hmem]
      exact h.task t id task hmem
    · rw [hself]
      exact ⟨rfl, rfl, Int.le_refl _⟩
  · rw [href]
    rcases List.mem_cons.mp (howed.mem_iff.mp hid) with rfl | hid
    · exact List.mem_cons_self
    · rw [holdOwed hid] at hc
      exact List.mem_cons_of_mem _ (h.ref id hid hc)
  · have hs := (hstopped id).mp hs
    rcases List.mem_cons.mp (howed.mem_iff.mp hid) with rfl | hid
    · obtain ⟨t, task, hmem⟩ := hs.scheduled
      exact absurd (h.ids _ _ _ hmem) (lt_irrefl _)
    · rw [holdOwed hid]
      exact h.stopped id hs hid
  · have hn := (hran id n).mp hn
    rcases List.mem_cons.mp (hqueued.mem_iff.mp hid) with rfl | hid
    · exact absurd hn (hnotRan n)
    · rw [holdOwed (List.mem_append_right _ hid)]
      exact h.ran id hid n hn
  · rw [hrun] at hid
    rw [hnow, holdOwed (List.mem_append_left _ (by rw [hid]; exact List.mem_singleton_self id))]
    simp only [hran]
    exact h.running id hid
  · rw [hrun, hun]
    refine h.sorted.imp_of_mem fun {a b} ha hb hab => ?_
    rwa [holdOwed (hrunOwed a ha), holdOwed (hrunOwed b hb)]
  · rcases (hscheduled _ _ _).mp hmem with hmem | ⟨-, rfl, -⟩
    · rw [hold hmem] at hc
      simp only [howed.mem_iff, hran]
      exact (h.kept t id task hmem hc).imp (List.mem_cons_of_mem _) fun h => h
    · exact .inl (howed.mem_iff.mpr List.mem_cons_self)
  · rw [hlog]
    rcases (hscheduled _ _ _).mp hmem with hmem | ⟨-, rfl, -⟩
    · rw [hold hmem] at hc
      exact List.mem_append_left _ (h.canceled t id task hmem hc)
    · rw [hself, ← htk] at hc
      exact absurd hc Bool.false_ne_true
  · rw [hlog]
    exact Lib.splits_concat h.turns trivial

/-- What `stopEvent` changes of a task. -/
theorem stopEvent_task (s : State) (id k : Nat) : (stopEvent s id).task k = s.task k ∨
    k = id ∧ id ∈ s.scheduledTasksRef ∧ (stopEvent s id).task k = { s.task k with isCanceled := true } := by
  unfold stopEvent
  dsimp only
  split_ifs with href
  · by_cases hk : k = id
    · subst hk
      exact .inr ⟨rfl, href, Function.update_self ..⟩
    · exact .inl (Function.update_of_ne hk ..)
  · exact .inl rfl

/-- What `stopEvent` leaves alone, and what it logs. -/
theorem stopEvent_rest (s : State) (id : Nat) : (stopEvent s id).place = s.place ∧ (stopEvent s id).threads = s.threads ∧
    (stopEvent s id).scheduledTasks = s.scheduledTasks ∧ (stopEvent s id).nextId = s.nextId ∧
    (stopEvent s id).now = s.now ∧ (stopEvent s id).log = s.log ++ [.stopped id] := by
  unfold stopEvent
  dsimp only
  split_ifs <;> exact ⟨rfl, rfl, rfl, rfl, rfl, rfl⟩

theorem queue_stopEvent (h : Queue threads s) (id : Nat) : Queue threads (stopEvent s id) := by
  have hrest := stopEvent_rest s id
  have htask := stopEvent_task s id
  -- the reference of the task goes, and what stays in the table is as before
  have href : ∀ k, k ∈ (stopEvent s id).scheduledTasksRef ↔ k ∈ s.scheduledTasksRef ∧ k ≠ id := fun k => by
    unfold stopEvent
    dsimp only
    split_ifs with hid
    · simp [State.emit, State.setTask]
    · exact ⟨fun hk => ⟨hk, fun h => hid (h ▸ hk)⟩, And.left⟩
  have hstop : id ∈ s.scheduledTasksRef → ((stopEvent s id).task id).isCanceled := fun hid => by
    unfold stopEvent
    dsimp only
    rw [if_pos hid]
    simp [State.emit, State.setTask]
  generalize hs' : stopEvent s id = s' at *
  obtain ⟨hplace, hthreads, hset, hnext, hnow, hlog⟩ := hrest
  have hrun : runningTask s' = runningTask s := by rw [runningTask, runningTask, hplace, hset]
  have hun : unprocessed s' = unprocessed s := by rw [unprocessed, unprocessed, hplace, hset]
  have hqueued : queued threads s' = queued threads s := by rw [queued, queued, listed, listed, hun, hthreads]
  have howed : owed threads s' = owed threads s := by rw [owed, owed, hrun, hqueued]
  have hscheduled : ∀ t k task, Output.scheduled t k task ∈ s'.log ↔ Output.scheduled t k task ∈ s.log := fun t k task => by
    simp [hlog]
  have hran : ∀ k n, Output.ran k n ∈ s'.log ↔ Output.ran k n ∈ s.log := fun k n => by simp [hlog]
  have hcycle : ∀ k, (s'.task k).cycle = (s.task k).cycle := fun k => by
    rcases htask k with heq | ⟨-, -, heq⟩ <;> rw [heq]
  have hdelay : ∀ k, (s'.task k).delay = (s.task k).delay := fun k => by
    rcases htask k with heq | ⟨-, -, heq⟩ <;> rw [heq]
  have hutime : ∀ k, (s'.task k).utime = (s.task k).utime := fun k => by
    rcases htask k with heq | ⟨-, -, heq⟩ <;> rw [heq]
  have hcanceled : ∀ k, (s.task k).isCanceled → (s'.task k).isCanceled := fun k hk => by
    rcases htask k with heq | ⟨-, -, heq⟩
    · rwa [heq]
    · rw [heq]
  refine ⟨?_, ?_, ?_, ?_, fun k hk hc => ?_, fun k hs hk => ?_, ?_, ?_, ?_, fun t k task hmem hc => ?_,
    fun t k task hmem hc => ?_, ?_⟩
  · rw [howed]
    exact h.nodup
  · simp only [howed, hscheduled]
    exact h.known
  · simp only [hscheduled, hnext]
    exact h.ids
  · simp only [hscheduled, hcycle, hdelay, hutime]
    exact h.task
  · rw [howed] at hk
    have hold := h.ref k hk fun hc' => hc (hcanceled k hc')
    refine (href k).mpr ⟨hold, ?_⟩
    rintro rfl
    exact hc (hstop hold)
  · rw [howed] at hk
    rw [hlog] at hs
    rcases stopped_concat.mp hs with hs | ⟨heq, -⟩
    · exact hcanceled k (h.stopped k hs hk)
    · obtain rfl : id = k := Output.stopped.inj heq
      by_cases hc : (s.task id).isCanceled
      · exact hcanceled id hc
      · exact hstop (h.ref id hk hc)
  · simp only [hqueued, hcycle, hdelay, hutime, hran]
    exact h.ran
  · simp only [hrun, hutime, hnow, hran]
    exact h.running
  · simp only [hrun, hun, hutime]
    exact h.sorted
  · simp only [howed, hran]
    exact h.kept t k task ((hscheduled t k task).mp hmem) fun hc' => hc (hcanceled k hc')
  · rw [hlog]
    rcases htask k with heq | ⟨rfl, -, -⟩
    · rw [heq] at hc
      exact List.mem_append_left _ (h.canceled t k task ((hscheduled t k task).mp hmem) hc)
    · exact List.mem_append_right _ (List.mem_singleton_self _)
  · rw [hlog]
    exact Lib.splits_concat h.turns trivial

/-! ### Merges -/

/-- A thread's tasks go into the set in the order of their times. -/
theorem foldl_insert (s : State) (l k : List Nat) :
    l.foldl (insert s) k = Lib.insertAll (fun id => (s.task id).utime) l k := rfl

theorem queue_mergeThread (h : Queue threads s) {k : Nat} (hk : k < threads.count) (hplace : s.place = .mergeEvents k) :
    Queue threads ((mergeThread s k).goTo (.mergeEvents (k + 1))) := by
  have hrun : runningTask s = none := by rw [runningTask, hplace]
  have hun : unprocessed s = s.scheduledTasks := by rw [unprocessed, hplace]
  have hsorted := h.sorted
  rw [hrun, hun] at hsorted
  have hperm : ((s.threads k).scheduledTasks.foldl (insert s) s.scheduledTasks).Perm _ :=
    foldl_insert s .. ▸ Lib.insertAll_perm
  refine h.moves (.inr ⟨.merged k, trivial, rfl⟩) hrun.symm ?_ rfl rfl rfl (.inl rfl) (Lib.pairwise_insertAll hsorted)
  have hlists : (fun t => (Function.update s.threads k ⟨fun _ => [], []⟩ t).scheduledTasks) =
      Function.update (fun t => (s.threads t).scheduledTasks) k [] := by
    funext t
    by_cases ht : t = k
    · subst ht
      simp
    · simp [Function.update_of_ne ht]
  have hself := flatMap_update_perm (fun t => (s.threads t).scheduledTasks) hk (s.threads k).scheduledTasks
  rw [Function.update_eq_self] at hself
  rw [queued, queued, hun]
  change ((List.range threads.count).flatMap (fun t => (Function.update s.threads k ⟨fun _ => [], []⟩ t).scheduledTasks) ++
    (s.threads k).scheduledTasks.foldl (insert s) s.scheduledTasks).Perm _
  rw [hlists]
  refine (hperm.append_left _).trans ?_
  rw [← List.append_assoc]
  exact (List.perm_append_comm.trans hself.symm).append_right _

/-! ### Execution -/

/-- A task leaves those that are owed, and nothing else changes of them. -/
theorem Queue.drops (h : Queue threads s) (id : Nat) (howed : (owed threads s).Perm (id :: owed threads s'))
    (hqueued : ∀ k ∈ queued threads s', k ∈ queued threads s) (hdone : (s.task id).isCanceled ∨
      (s.task id).cycle = false ∧ ∃ n, .ran id n ∈ s.log)
    (hrun : runningTask s' = none) (hsorted : (unprocessed s').Sublist ((runningTask s).toList ++ unprocessed s))
    (hlog : s'.log = s.log) (htask : s'.task = s.task) (hnext : s'.nextId = s.nextId)
    (href : s'.scheduledTasksRef = s.scheduledTasksRef.filter (· ≠ id)) : Queue threads s' := by
  have hsub : ∀ k ∈ owed threads s', k ∈ owed threads s := fun k hk => howed.mem_iff.mpr (List.mem_cons_of_mem _ hk)
  obtain ⟨hnew, hnodup⟩ := List.nodup_cons.mp (howed.nodup_iff.mp h.nodup)
  refine ⟨hnodup, ?_, ?_, ?_, fun k hk hc => ?_, ?_, ?_, fun k hk => ?_, ?_, fun t k task hmem hc => ?_, ?_, ?_⟩
  · rw [hlog]
    exact fun k hk => h.known k (hsub k hk)
  · rw [hlog, hnext]
    exact h.ids
  · rw [hlog, htask]
    exact h.task
  · rw [htask] at hc
    rw [href, List.mem_filter]
    refine ⟨h.ref k (hsub k hk) hc, ?_⟩
    have hne : k ≠ id := fun heq => hnew (heq ▸ hk)
    simpa using hne
  · rw [hlog, htask]
    exact fun k hs hk => h.stopped k hs (hsub k hk)
  · rw [hlog, htask]
    exact fun k hk => h.ran k (hqueued k hk)
  · rw [hrun] at hk
    exact nomatch hk
  · rw [hrun, htask]
    exact h.sorted.sublist hsorted
  · rw [hlog] at hmem ⊢
    rw [htask] at hc
    rcases h.kept t k task hmem hc with hk | hk
    · rcases List.mem_cons.mp (howed.mem_iff.mp hk) with rfl | hk
      · rcases hdone with hcan | ⟨hcyc, hran⟩
        · exact absurd hcan hc
        · rw [(h.task t k task hmem).1] at hcyc
          exact .inr ⟨by simp [hcyc], hran⟩
      · exact .inl hk
    · exact .inr hk
  · rw [hlog, htask]
    exact h.canceled
  · rw [hlog]
    exact h.turns

/-- The next task of the set. -/
theorem unprocessed_cons {i id : Nat} (hplace : s.place = .scheduledEvents i) (hi : s.scheduledTasks[i]? = some id) :
    unprocessed s = id :: s.scheduledTasks.drop (i + 1) := by
  obtain ⟨hlt, hget⟩ := List.getElem?_eq_some_iff.mp hi
  rw [unprocessed, hplace, ← hget]
  exact List.drop_eq_getElem_cons hlt

/-- The next task of the set starts to run. -/
theorem Queue.starts (h : Queue threads s) {i id : Nat} (hplace : s.place = .scheduledEvents i)
    (hi : s.scheduledTasks[i]? = some id) (htime : ¬s.now < (s.task id).utime) (hcan : ¬(s.task id).isCanceled) :
    Queue threads ((s.emit (.ran id s.now)).goTo (.scheduledRuns i)) := by
  have hrun : runningTask s = none := by rw [runningTask, hplace]
  have hlisted : owed threads s = listed threads s ++ unprocessed s := by rw [owed, hrun, queued]; rfl
  have hcons := unprocessed_cons hplace hi
  generalize hs' : (s.emit (.ran id s.now)).goTo (.scheduledRuns i) = s'
  have hlog : s'.log = s.log ++ [.ran id s.now] := by rw [← hs']; rfl
  have htask : s'.task = s.task := by rw [← hs']; rfl
  have hnow : s'.now = s.now := by rw [← hs']; rfl
  have href : s'.scheduledTasksRef = s.scheduledTasksRef := by rw [← hs']; rfl
  have hnext : s'.nextId = s.nextId := by rw [← hs']; rfl
  have hrun' : runningTask s' = some id := by rw [← hs']; exact hi
  have hun' : unprocessed s' = s.scheduledTasks.drop (i + 1) := by rw [← hs']; rfl
  have hlisted' : listed threads s' = listed threads s := by rw [← hs']; rfl
  have howed : (owed threads s').Perm (owed threads s) := by
    rw [hlisted, owed, queued, hrun', hun', hlisted', hcons]
    change (id :: (listed threads s ++ s.scheduledTasks.drop (i + 1))).Perm _
    exact List.perm_middle.symm
  have hid : id ∈ owed threads s := by
    rw [hlisted, hcons]
    exact List.mem_append_right _ List.mem_cons_self
  have hidQueued : id ∈ queued threads s := by
    rw [queued, hcons]
    exact List.mem_append_right _ List.mem_cons_self
  have hscheduled : ∀ t k task, Output.scheduled t k task ∈ s'.log ↔ Output.scheduled t k task ∈ s.log :=
    fun t k task => by simp [hlog]
  have hran : ∀ k n, Output.ran k n ∈ s'.log ↔ Output.ran k n ∈ s.log ∨ k = id ∧ n = s.now := fun k n => by
    simp [hlog]
  have hstopped : ∀ k, Stopped s'.log k ↔ Stopped s.log k := fun k => by
    rw [hlog, stopped_concat]
    exact or_iff_left fun hs => nomatch hs.1
  refine ⟨howed.nodup_iff.mpr h.nodup, ?_, ?_, ?_, ?_, fun k hs hk => ?_, fun k hk n hn => ?_, fun k hk => ?_, ?_,
    fun t k task hmem hc => ?_, fun t k task hmem hc => ?_, ?_⟩
  · simp only [howed.mem_iff, hscheduled]
    exact h.known
  · simp only [hscheduled, hnext]
    exact h.ids
  · simp only [hscheduled, htask]
    exact h.task
  · simp only [howed.mem_iff, htask, href]
    exact h.ref
  · rw [htask]
    exact h.stopped k ((hstopped k).mp hs) (howed.mem_iff.mp hk)
  · -- what remains is another task
    have hk' : k ∈ listed threads s ++ s.scheduledTasks.drop (i + 1) := by rwa [queued, hlisted', hun'] at hk
    have hne : k ≠ id := by
      rintro rfl
      have hnodup := howed.nodup_iff.mpr h.nodup
      rw [owed, queued, hrun', hlisted', hun'] at hnodup
      exact (List.nodup_cons.mp hnodup).1 hk'
    rw [htask]
    refine h.ran k ?_ n (((hran k n).mp hn).resolve_right fun hc => hne hc.1)
    rw [queued, hcons]
    rcases List.mem_append.mp hk' with hk' | hk'
    · exact List.mem_append_left _ hk'
    · exact List.mem_append_right _ (List.mem_cons_of_mem _ hk')
  · obtain rfl : id = k := Option.some.inj (hrun'.symm.trans hk)
    rw [htask, hnow]
    refine ⟨Int.not_lt.mp htime, (hran id s.now).mpr (.inr ⟨rfl, rfl⟩), fun n hn => ?_⟩
    rcases (hran id n).mp hn with hn | ⟨-, rfl⟩
    · have hperiod := (h.ran id hidQueued n hn).2
      have hutime := Int.not_lt.mp htime
      omega
    · exact Int.le_refl _
  · have hsorted := h.sorted
    rw [hrun, hcons] at hsorted
    rw [hrun', hun', htask]
    exact hsorted
  · rw [htask] at hc
    rcases h.kept t k task ((hscheduled t k task).mp hmem) hc with hk | ⟨hcyc, n, hn⟩
    · exact .inl (howed.mem_iff.mpr hk)
    · exact .inr ⟨hcyc, n, (hran k n).mpr (.inl hn)⟩
  · rw [htask] at hc
    rw [hlog]
    exact List.mem_append_left _ (h.canceled t k task ((hscheduled t k task).mp hmem) hc)
  · rw [hlog]
    refine Lib.splits_concat h.turns ⟨?_, fun hs => hcan (h.stopped id hs hid)⟩
    obtain ⟨t, task, hmem⟩ := h.known id hid
    obtain ⟨hcyc, hdelay, hutime⟩ := h.task t id task hmem
    have htime' := Int.not_lt.mp htime
    refine ⟨t, task, hmem, Int.le_trans hutime htime', fun n hn => ?_⟩
    obtain ⟨hcycle, hperiod⟩ := h.ran id hidQueued n hn
    exact ⟨hcyc ▸ hcycle, by rw [← hdelay]; omega⟩

theorem queue_executeScheduledEvents (h : Queue threads s) {i : Nat} (hplace : s.place = .scheduledEvents i) :
    Queue threads (executeScheduledEvents s i) := by
  have hrun : runningTask s = none := by rw [runningTask, hplace]
  have hun : unprocessed s = s.scheduledTasks.drop i := by rw [unprocessed, hplace]
  have hlisted : owed threads s = listed threads s ++ unprocessed s := by rw [owed, hrun, queued]; rfl
  unfold executeScheduledEvents
  split
  · exact h.still (.inl rfl) hrun.symm hun.symm (fun _ => rfl) rfl rfl rfl (.inl rfl)
  · rename_i id hi
    have hcons := unprocessed_cons hplace hi
    split_ifs with htime hcan
    · exact h.still (.inl rfl) hrun.symm hun.symm (fun _ => rfl) rfl rfl rfl (.inl rfl)
    · refine h.drops id ?_ (fun k hk => ?_) (.inl hcan) rfl ?_ rfl rfl rfl rfl
      · rw [hlisted, hcons]
        exact List.perm_middle
      · rw [queued, hcons]
        rcases List.mem_append.mp hk with hk | hk
        · exact List.mem_append_left _ hk
        · exact List.mem_append_right _ (List.mem_cons_of_mem _ hk)
      · rw [hrun, hcons]
        exact List.sublist_cons_self ..
    · exact h.starts hplace hi htime hcan

/-- A task that ran goes to the list of the loop's thread, with its next time. -/
theorem Queue.returns (h : Queue threads s) {i id : Nat} (hplace : s.place = .scheduledRuns i)
    (hi : s.scheduledTasks[i]? = some id) (hcycle : (s.task id).cycle) : Queue threads (afterScheduled threads s i) := by
  have hrun : runningTask s = some id := by rw [runningTask, hplace]; exact hi
  have hun : unprocessed s = s.scheduledTasks.drop (i + 1) := by rw [unprocessed, hplace]
  have howedEq : owed threads s = id :: queued threads s := by rw [owed, hrun]; rfl
  obtain ⟨hutime, hran, hbefore⟩ := h.running id hrun
  unfold afterScheduled
  dsimp only [State.goTo]
  rw [hi]
  dsimp only
  rw [if_pos hcycle]
  generalize hs' : State.setThread _ _ _ = s'
  have hlog : s'.log = s.log := by rw [← hs']; rfl
  have htask : s'.task = Function.update s.task id
      { s.task id with utime := s.now + (s.task id).delay.toNat } := by rw [← hs']; rfl
  have href : s'.scheduledTasksRef = s.scheduledTasksRef := by rw [← hs']; rfl
  have hnext : s'.nextId = s.nextId := by rw [← hs']; rfl
  have hrun' : runningTask s' = none := by rw [← hs']; rfl
  have hun' : unprocessed s' = unprocessed s := by rw [hun, ← hs']; rfl
  have hlisted : (listed threads s').Perm (id :: listed threads s) :=
    listed_append threads.own_lt (by rw [← hs']; rfl) rfl
  have hqueued : (queued threads s').Perm (id :: queued threads s) := by
    rw [queued, queued, hun']
    exact hlisted.append_right _
  have howed : (owed threads s').Perm (owed threads s) := by
    rw [howedEq, owed, hrun']
    exact hqueued
  have hself : s'.task id = { s.task id with utime := s.now + (s.task id).delay.toNat } := by
    rw [htask, Function.update_self]
  have hother : ∀ k, k ≠ id → s'.task k = s.task k := fun k hk => by rw [htask, Function.update_of_ne hk]
  have hfields : ∀ k, (s'.task k).cycle = (s.task k).cycle ∧ (s'.task k).delay = (s.task k).delay ∧
      (s'.task k).isCanceled = (s.task k).isCanceled ∧ (s.task k).utime ≤ (s'.task k).utime := fun k => by
    by_cases hk : k = id
    · subst hk
      rw [hself]
      exact ⟨rfl, rfl, rfl, by dsimp only; omega⟩
    · rw [hother k hk]
      exact ⟨rfl, rfl, rfl, Int.le_refl _⟩
  have hnew : id ∉ queued threads s := (List.nodup_cons.mp (howedEq ▸ h.nodup)).1
  refine ⟨howed.nodup_iff.mpr h.nodup, ?_, ?_, fun t k task hmem => ?_, ?_, ?_, fun k hk n hn => ?_, fun k hk => ?_,
    ?_, ?_, ?_, ?_⟩
  · simp only [howed.mem_iff, hlog]
    exact h.known
  · rw [hlog, hnext]
    exact h.ids
  · rw [hlog] at hmem
    obtain ⟨hc, hd, hle⟩ := h.task t k task hmem
    obtain ⟨hc', hd', -, hle'⟩ := hfields k
    exact ⟨hc'.trans hc, hd'.trans hd, Int.le_trans hle hle'⟩
  · simp only [howed.mem_iff, href, (hfields _).2.2.1]
    exact h.ref
  · simp only [hlog, howed.mem_iff, (hfields _).2.2.1]
    exact h.stopped
  · rw [hlog] at hn
    rcases List.mem_cons.mp (hqueued.mem_iff.mp hk) with rfl | hk
    · rw [hself]
      refine ⟨hcycle, ?_⟩
      have := hbefore n hn
      dsimp only
      omega
    · rw [hother k fun heq => hnew (heq ▸ hk)]
      exact h.ran k hk n hn
  · rw [hrun'] at hk
    exact nomatch hk
  · have hsorted := h.sorted
    rw [hrun] at hsorted
    rw [hrun', hun']
    refine (List.pairwise_cons.mp hsorted).2.imp_of_mem fun {a b} ha hb hab => ?_
    have hne : ∀ k ∈ unprocessed s, k ≠ id := fun k hk heq =>
      hnew (heq ▸ List.mem_append_right _ hk)
    rwa [hother a (hne a ha), hother b (hne b hb)]
  · simp only [hlog, howed.mem_iff, (hfields _).2.2.1]
    exact h.kept
  · simp only [hlog, (hfields _).2.2.1]
    exact h.canceled
  · rw [hlog]
    exact h.turns

theorem queue_afterScheduled (h : Queue threads s) {i : Nat} (hplace : s.place = .scheduledRuns i) :
    Queue threads (afterScheduled threads s i) := by
  have hrun : runningTask s = s.scheduledTasks[i]? := by rw [runningTask, hplace]
  have hun : unprocessed s = s.scheduledTasks.drop (i + 1) := by rw [unprocessed, hplace]
  cases hi : s.scheduledTasks[i]? with
  | none =>
    unfold afterScheduled
    dsimp only [State.goTo]
    rw [hi]
    exact h.still (.inl rfl) (by rw [hrun, hi]; rfl) hun.symm (fun _ => rfl) rfl rfl rfl (.inl rfl)
  | some id =>
    by_cases hcycle : (s.task id).cycle
    · exact h.returns hplace hi hcycle
    · have howedEq : owed threads s = id :: queued threads s := by rw [owed, hrun, hi]; rfl
      obtain ⟨hutime, hran, hbefore⟩ := h.running id (hrun.trans hi)
      unfold afterScheduled
      dsimp only [State.goTo]
      rw [hi]
      dsimp only
      rw [if_neg hcycle]
      refine h.drops id ?_ (fun k hk => ?_) (.inr ⟨by simpa using hcycle, s.now, hran⟩) rfl ?_ rfl rfl rfl rfl
      · rw [howedEq, owed, queued, queued, hun]
        exact .refl _
      · rw [queued, hun]
        exact hk
      · rw [hun]
        exact List.sublist_append_right ..

/-! ### Runs -/

theorem queue_advance (h : Queue threads s) (time : Int) : Queue threads (advance threads s time) := by
  unfold advance
  cases hp : s.place with
  | updateTime =>
    have hrun : runningTask s = none := by rw [runningTask, hp]
    exact h.still (.inl rfl) hrun.symm (by rw [unprocessed, unprocessed, hp]; rfl) (fun _ => rfl) rfl rfl rfl (.inr hrun)
  | mergeEvents k =>
    dsimp only
    split_ifs with hk
    · exact queue_mergeThread h hk hp
    · exact h.still (.inl rfl) (by rw [runningTask, runningTask, hp]; rfl) (by rw [unprocessed, unprocessed, hp]; rfl)
        (fun _ => rfl) rfl rfl rfl (.inl rfl)
  | checkPendingTasks | serialRuns | waits | enterWait =>
    exact h.still (.inl rfl) (by rw [runningTask, runningTask, hp]; rfl) (by rw [unprocessed, unprocessed, hp]; rfl)
      (fun _ => rfl) rfl rfl rfl (.inl rfl)
  | readPending =>
    dsimp only
    split_ifs <;>
      exact h.still (.inl rfl) (by rw [runningTask, runningTask, hp]; rfl) (by rw [unprocessed, unprocessed, hp]; rfl)
        (fun _ => rfl) rfl rfl rfl (.inl rfl)
  | executeEvents g =>
    dsimp only [executeEvents]
    split_ifs
    · cases g <;> exact h.still (.inl rfl) (by rw [runningTask, runningTask, hp]; rfl)
        (by rw [unprocessed, unprocessed, hp]; rfl) (fun _ => rfl) rfl rfl rfl (.inl rfl)
    · exact h.still (.inl rfl) (by rw [runningTask, runningTask, hp]; rfl) (by rw [unprocessed, unprocessed, hp]; rfl)
        (fun _ => rfl) rfl rfl rfl (.inl rfl)
    · exact h.still (.inl rfl) (by rw [runningTask, runningTask, hp]; rfl) (by rw [unprocessed, unprocessed, hp]; rfl)
        (fun _ => rfl) rfl rfl rfl (.inl rfl)
  | serialEvents g i =>
    dsimp only [executeSerialEvents]
    split
    · cases g <;> exact h.still (.inl rfl) (by rw [runningTask, runningTask, hp]; rfl)
        (by rw [unprocessed, unprocessed, hp]; rfl) (fun _ => rfl) rfl rfl rfl (.inl rfl)
    · rename_i e _
      obtain ⟨o, ho, hexec⟩ := execute_eq s g e
      have hstill : o.Still := by
        rcases ho with rfl | ⟨now, -, rfl⟩ <;> trivial
      rw [hexec]
      cases e.hasExpired s.now <;>
        exact h.still (.inr ⟨o, hstill, rfl⟩) (by rw [runningTask, runningTask, hp]; rfl)
          (by rw [unprocessed, unprocessed, hp]; rfl) (fun _ => rfl) rfl rfl rfl (.inl rfl)
  | parallelEvents g waiting running =>
    dsimp only
    split_ifs
    · cases g <;> exact h.still (.inl rfl) (by rw [runningTask, runningTask, hp]; rfl)
        (by rw [unprocessed, unprocessed, hp]; rfl) (fun _ => rfl) rfl rfl rfl (.inl rfl)
    · exact h
  | scheduledEvents i => exact queue_executeScheduledEvents h hp
  | scheduledRuns i => exact queue_afterScheduled h hp

theorem queue_step (h : Queue threads s) (a : Action) : Queue threads (step threads s a) := by
  have hcount : ∀ thread, mayCall threads s thread → thread < threads.count := fun thread hm => by
    simp only [mayCall, decide_eq_true_eq] at hm
    exact hm.1
  cases a with
  | addEvent thread ms =>
    dsimp only [step]
    split_ifs
    · exact queue_emplace h thread .Serial ms
    · exact h
  | addWalkEvent thread ms =>
    dsimp only [step]
    split_ifs
    · exact queue_emplace h thread .Walk ms
    · exact h
  | asyncEvent thread group =>
    dsimp only [step]
    split_ifs
    · exact queue_emplace h thread group 0
    · exact h
  | scheduleEvent thread utime delay cycle =>
    dsimp only [step]
    split_ifs with hm
    · exact queue_scheduleEvent h (hcount thread hm) utime delay cycle
    · exact h
  | stopEvent id => exact queue_stopEvent h id
  | advance time => exact queue_advance h time
  | startParallel n =>
    dsimp only [step, startParallel]
    split
    · rename_i g waiting running hp
      split
      · exact h
      · rename_i e _
        obtain ⟨o, ho, hexec⟩ := execute_eq s g e
        have hstill : o.Still := by
          rcases ho with rfl | ⟨now, -, rfl⟩ <;> trivial
        rw [hexec]
        exact h.still (.inr ⟨o, hstill, rfl⟩) (by rw [runningTask, runningTask, hp]; rfl)
          (by rw [unprocessed, unprocessed, hp]; rfl) (fun _ => rfl) rfl rfl rfl (.inl rfl)
    · exact h
  | finishParallel n =>
    dsimp only [step, finishParallel]
    split
    · rename_i g waiting running hp
      exact h.still (.inl rfl) (by rw [runningTask, runningTask, hp]; rfl) (by rw [unprocessed, unprocessed, hp]; rfl)
        (fun _ => rfl) rfl rfl rfl (.inl rfl)
    · exact h

theorem queue_run (threads : Threads) (ops : List Action) : Queue threads (Lib.run (step threads) start ops) :=
  Lib.run_induction (Queue threads) (fun _ a hs => queue_step hs a) ops (queue_start threads)

/-- At the end of a round no task of the set is due. -/
def Punctual (s : State) : Prop := s.place = .readPending → ∀ id ∈ s.scheduledTasks, s.now < (s.task id).utime

/-- The set, the times in it and the clock are as before, or the round does not end here. -/
theorem Punctual.of_same (h : Punctual s) (hset : s'.place = .readPending → s.place = .readPending ∧
    s'.scheduledTasks = s.scheduledTasks ∧ s'.now = s.now ∧
    ∀ id ∈ s.scheduledTasks, (s'.task id).utime = (s.task id).utime) : Punctual s' := by
  intro hp id hid
  obtain ⟨hplace, hset, hnow, htime⟩ := hset hp
  rw [hset] at hid
  rw [hnow, htime id hid]
  exact h hplace id hid

theorem punctual_executeScheduledEvents (h : Queue threads s) {i : Nat} (hplace : s.place = .scheduledEvents i) :
    Punctual (executeScheduledEvents s i) := by
  unfold executeScheduledEvents
  split
  · rename_i hi
    intro _ id hid
    have hid : id ∈ s.scheduledTasks.drop i := hid
    rw [List.drop_eq_nil_of_le (List.getElem?_eq_none_iff.mp hi)] at hid
    exact absurd hid List.not_mem_nil
  · rename_i id hi
    split_ifs with htime
    · intro _ k hk
      have hk : k ∈ s.scheduledTasks.drop i := hk
      have hcons := unprocessed_cons hplace hi
      have hsorted := h.sorted
      have hrun : runningTask s = none := by rw [runningTask, hplace]
      have hun : unprocessed s = s.scheduledTasks.drop i := by rw [unprocessed, hplace]
      rw [hrun, hcons] at hsorted
      rw [← hun, hcons] at hk
      rcases List.mem_cons.mp hk with rfl | hk
      · exact htime
      · exact Int.lt_of_lt_of_le htime ((List.pairwise_cons.mp hsorted).1 k hk)
    · exact nofun
    · exact nofun

/-- A notification finds the loop elsewhere, or leaves it elsewhere. -/
theorem Punctual.notify (hp : Punctual s) : Punctual (notify s) := by
  obtain ⟨place, heq, hplace⟩ := notify_eq s
  rw [heq]
  rcases hplace with rfl | ⟨-, rfl⟩
  · exact hp
  · exact nofun

theorem punctual_step (h : Queue threads s) (hp : Punctual s) (a : Action) : Punctual (step threads s a) := by
  cases a with
  | addEvent thread ms =>
    dsimp only [step]
    split_ifs
    · exact Punctual.notify hp
    · exact hp
  | addWalkEvent thread ms =>
    dsimp only [step]
    split_ifs
    · exact Punctual.notify hp
    · exact hp
  | asyncEvent thread group =>
    dsimp only [step]
    split_ifs
    · exact Punctual.notify hp
    · exact hp
  | scheduleEvent thread utime delay cycle =>
    dsimp only [step]
    split_ifs
    · refine Punctual.notify (hp.of_same fun hplace => ⟨hplace, rfl, rfl, fun id hid => ?_⟩)
      have hplace : s.place = .readPending := hplace
      have hmem : id ∈ owed threads s := by
        rw [owed, queued, unprocessed, hplace]
        exact List.mem_append_right _ (List.mem_append_right _ hid)
      obtain ⟨t, task, hlog⟩ := h.known id hmem
      exact congrArg Task.utime (Function.update_of_ne (h.ids t id task hlog).ne ..)
    · exact hp
  | stopEvent id =>
    refine hp.of_same fun hplace => ?_
    obtain ⟨hsame, -, hset, -, hnow, -⟩ := stopEvent_rest s id
    refine ⟨hsame.symm.trans hplace, hset, hnow, fun k _ => ?_⟩
    rcases stopEvent_task s id k with heq | ⟨-, -, heq⟩ <;> exact heq ▸ rfl
  | advance time =>
    dsimp only [step, advance]
    cases hplace : s.place with
    | scheduledEvents i => exact punctual_executeScheduledEvents h hplace
    | parallelEvents g waiting running =>
      dsimp only
      split_ifs
      · cases g <;> rintro ⟨⟩
      · exact hp
    | mergeEvents k =>
      dsimp only
      split_ifs <;> rintro ⟨⟩
    | executeEvents g =>
      dsimp only [executeEvents]
      split_ifs
      · cases g <;> rintro ⟨⟩
      · rintro ⟨⟩
      · rintro ⟨⟩
    | serialEvents g i =>
      dsimp only [executeSerialEvents]
      split
      · cases g <;> rintro ⟨⟩
      · rename_i e _
        cases he : e.hasExpired s.now <;> simp [Punctual, State.goTo]
    | scheduledRuns i =>
      dsimp only [afterScheduled]
      split
      · rintro ⟨⟩
      · split_ifs <;> rintro ⟨⟩
    | readPending =>
      dsimp only
      split_ifs <;> rintro ⟨⟩
    | updateTime | checkPendingTasks | serialRuns | enterWait | waits => rintro ⟨⟩
  | startParallel n =>
    dsimp only [step, startParallel]
    split
    · split
      · exact hp
      · rintro ⟨⟩
    · exact hp
  | finishParallel n =>
    dsimp only [step, finishParallel]
    split
    · rintro ⟨⟩
    · exact hp

/-- Every event is done once, after a merge, in the order of its thread, or has expired. Every scheduled task runs in
    its time, by the order of the times, and is neither lost nor run once it was stopped. -/
structure Dispatches (threads : Threads) (s : State) : Prop where
  events : ∀ l o l', s.log = l ++ o :: l' → EventTurn l o
  finished : s.place = .updateTime → ∀ t g, ∀ e ∈ added t g (beforeMerge t s.log), e ∈ done t g s.log
  tasks : ∀ l o l', s.log = l ++ o :: l' → TaskTurn l o
  inOrder : ∀ i id, s.place = .scheduledRuns i → s.scheduledTasks[i]? = some id →
    ∀ k ∈ s.scheduledTasks.drop (i + 1), (s.task id).utime ≤ (s.task k).utime
  due : Punctual s
  kept : ∀ t id task, .scheduled t id task ∈ s.log → .stopped id ∉ s.log → (task.cycle ∨ ∀ n, .ran id n ∉ s.log) →
    id ∈ owed threads s

theorem dispatches (threads : Threads) (ops : List Action) : Dispatches threads (Lib.run (step threads) start ops) := by
  have hflow := flow_run threads ops
  have hqueue := queue_run threads ops
  have hdue : Punctual (Lib.run (step threads) start ops) :=
    (Lib.run_induction (fun s => Queue threads s ∧ Punctual s)
      (fun s a hs => ⟨queue_step hs.1 a, punctual_step hs.1 hs.2 a⟩) ops ⟨queue_start threads, nofun⟩).2
  refine ⟨hflow.turns, fun hp t g e => hflow.finished hp, hqueue.turns, fun i id hp hi k hk => ?_, hdue,
    fun t id task hmem hns hr => ?_⟩
  · have hsorted := hqueue.sorted
    have hrun : runningTask (Lib.run (step threads) start ops) = some id := by rw [runningTask, hp]; exact hi
    have hun : unprocessed (Lib.run (step threads) start ops)
        = (Lib.run (step threads) start ops).scheduledTasks.drop (i + 1) := by rw [unprocessed, hp]
    rw [hrun, hun] at hsorted
    exact (List.pairwise_cons.mp hsorted).1 k hk
  · refine (hqueue.kept t id task hmem fun hc => hns (hqueue.canceled t id task hmem hc)).resolve_right ?_
    rintro ⟨hcycle, n, hn⟩
    rcases hr with hr | hr
    · exact hcycle hr
    · exact hr n hn

end Dispatcher
end CrystalServer
