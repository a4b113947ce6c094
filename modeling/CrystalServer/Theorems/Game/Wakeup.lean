import CrystalServer.Lib.Run
import CrystalServer.Game.Dispatcher
import Mathlib.Data.List.DropRight

/-! # The dispatcher: sleep

The flag is cleared after the lists were merged, and read before the wait begins. A call in between is not noticed. -/

namespace CrystalServer
namespace Dispatcher

/-! ### What waits for a merge -/

/-- What has been seen since the lists of the thread were last merged. -/
def sinceMerge (thread : Nat) (log : List Output) : List Output := log.rtakeWhile fun o => o ≠ .merged thread

/-- The end of a call that left something in the lists of the thread. -/
def Output.calledBy (thread : Nat) : Output → Prop
  | .added _ e => e.thread = thread
  | .scheduled t _ _ => t = thread
  | _ => False

/-- A call is over, and what it left is not merged. -/
def Unmerged (log : List Output) : Prop := ∃ thread, ∃ o ∈ sinceMerge thread log, o.calledBy thread

/-- The loop does not sleep on what is not merged, unless it has been notified. -/
def Awake (s : State) : Prop := ∀ notified, s.place = .waits notified → Unmerged s.log → notified = true

variable {log : List Output} {o : Output} {thread : Nat}

theorem sinceMerge_concat (h : o ≠ .merged thread) : sinceMerge thread (log ++ [o]) = sinceMerge thread log ++ [o] :=
  List.rtakeWhile_concat_pos _ _ _ (by simpa using h)

theorem unmerged_of_call (h : o.calledBy thread) : Unmerged (log ++ [o]) := by
  have hne : o ≠ .merged thread := by
    rintro rfl
    exact h
  exact ⟨thread, o, by simp [sinceMerge_concat hne], h⟩

/-- What is no call leaves nothing. -/
theorem Unmerged.of_concat (ho : ∀ thread, ¬o.calledBy thread) (h : Unmerged (log ++ [o])) : Unmerged log := by
  obtain ⟨thread, o', ho', hcall⟩ := h
  by_cases hm : o = .merged thread
  · rw [sinceMerge, List.rtakeWhile_concat_neg _ _ _ (by simp [hm])] at ho'
    exact absurd ho' List.not_mem_nil
  · rw [sinceMerge_concat hm] at ho'
    rcases List.mem_append.mp ho' with ho' | ho'
    · exact ⟨thread, o', ho', hcall⟩
    · rw [List.mem_singleton.mp ho'] at hcall
      exact absurd hcall (ho thread)

/-! ### Calls -/

/-- What a call does to the flag and to a loop that waits. -/
structure Notifies (s s' : State) : Prop where
  hasPendingTasks : s'.hasPendingTasks = true
  place : s'.place = s.place ∨ (∃ notified, s.place = .waits notified) ∧ s'.place = .waits true
  wakes : s.place = .waits false → ¬s.hasPendingTasks → s'.place = .waits true
  log : ∃ thread o, s'.log = s.log ++ [o] ∧ o.calledBy thread

theorem notify_spec {s s' : State} (hp : s'.hasPendingTasks = s.hasPendingTasks) (hs : s'.place = s.place)
    (hlog : ∃ thread o, s'.log = s.log ++ [o] ∧ o.calledBy thread) : Notifies s (notify s') := by
  unfold notify
  split
  · rename_i h
    exact ⟨h, .inl hs, fun _ hn => absurd (hp ▸ h) hn, hlog⟩
  · dsimp only
    split
    · rename_i notified hw
      exact ⟨rfl, .inr ⟨⟨notified, hs.symm.trans hw⟩, rfl⟩, fun _ _ => rfl, hlog⟩
    · rename_i hw
      exact ⟨rfl, .inl hs, fun hf _ => absurd (hs.trans hf) (hw false), hlog⟩

theorem notifies_emplace (s : State) (thread : Nat) (group : TaskGroup) (expiresAfterMs : UInt32) :
    Notifies s (emplace s thread group expiresAfterMs) :=
  notify_spec rfl rfl ⟨thread, _, rfl, rfl⟩

theorem notifies_scheduleEvent (s : State) (thread : Nat) (utime : Int) (delay : UInt32) (cycle : Bool) :
    Notifies s (scheduleEvent s thread utime delay cycle) :=
  notify_spec rfl rfl ⟨thread, _, rfl, rfl⟩

/-- The thread of a call that leaves something in its lists. -/
def Action.thread? : Action → Option Nat
  | .addEvent thread _ | .addWalkEvent thread _ | .asyncEvent thread _ | .scheduleEvent thread _ _ _ => some thread
  | .stopEvent _ | .advance _ | .startParallel _ | .finishParallel _ => none

theorem notifies_step {threads : Threads} {s : State} {a : Action} (ha : a.thread? = some thread)
    (h : mayCall threads s thread) : Notifies s (step threads s a) := by
  cases a with
  | addEvent t ms =>
    cases ha
    rw [step, if_pos h]
    exact notifies_emplace s thread .Serial ms
  | addWalkEvent t ms =>
    cases ha
    rw [step, if_pos h]
    exact notifies_emplace s thread .Walk ms
  | asyncEvent t group =>
    cases ha
    rw [step, if_pos h]
    exact notifies_emplace s thread group 0
  | scheduleEvent t utime delay cycle =>
    cases ha
    rw [step, if_pos h]
    exact notifies_scheduleEvent s thread utime delay cycle
  | stopEvent | advance | startParallel | finishParallel => exact nomatch ha

theorem step_of_not_mayCall {threads : Threads} {s : State} {a : Action} (ha : a.thread? = some thread)
    (h : ¬mayCall threads s thread) : step threads s a = s := by
  cases a with
  | addEvent | addWalkEvent | asyncEvent | scheduleEvent =>
    cases ha
    exact if_neg h
  | stopEvent | advance | startParallel | finishParallel => exact nomatch ha

/-! ### The loop -/

variable {threads : Threads} {s : State}

/-- The loop is about to sleep, or sleeps and has not been notified. -/
def Sleepy (s : State) : Prop := s.place = .enterWait ∨ s.place = .waits false

theorem not_sleepy_afterGroup (s : State) (group : TaskGroup) : ¬Sleepy (afterGroup s group) := by
  cases group <;> exact (·.elim nofun nofun)

theorem not_sleepy_executeSerialEvents (group : TaskGroup) (i : Nat) : ¬Sleepy (executeSerialEvents s group i) := by
  unfold executeSerialEvents
  split
  · exact not_sleepy_afterGroup _ group
  · rename_i e _
    cases he : e.hasExpired s.now <;> simp [Sleepy, State.goTo]

theorem not_sleepy_executeEvents (group : TaskGroup) : ¬Sleepy (executeEvents threads s group) := by
  unfold executeEvents
  split_ifs
  · exact not_sleepy_afterGroup s group
  · exact (·.elim nofun nofun)
  · exact (·.elim nofun nofun)

theorem not_sleepy_executeScheduledEvents (i : Nat) : ¬Sleepy (executeScheduledEvents s i) := by
  unfold executeScheduledEvents
  split
  · exact (·.elim nofun nofun)
  · split_ifs <;> exact (·.elim nofun nofun)

theorem not_sleepy_afterScheduled (i : Nat) : ¬Sleepy (afterScheduled threads s i) := by
  unfold afterScheduled
  dsimp only
  split
  · exact (·.elim nofun nofun)
  · split_ifs <;> exact (·.elim nofun nofun)

/-- The loop falls asleep only after it has read the flag. -/
theorem advance_sleepy {time : Int} (h : Sleepy (advance threads s time)) :
    (s.place = .readPending ∧ ¬s.hasPendingTasks ∨ s.place = .enterWait) ∧
      (advance threads s time).log = s.log ∧ (advance threads s time).hasPendingTasks = s.hasPendingTasks := by
  unfold advance at h ⊢
  cases hp : s.place with
  | readPending =>
    rw [hp] at h
    dsimp only at h ⊢
    by_cases hf : s.hasPendingTasks
    · rw [if_pos hf] at h
      exact absurd h (·.elim nofun nofun)
    · exact ⟨.inl ⟨rfl, hf⟩, rfl, rfl⟩
  | enterWait => exact ⟨.inr rfl, rfl, rfl⟩
  | updateTime | checkPendingTasks | serialRuns | waits =>
    rw [hp] at h
    exact absurd h (·.elim nofun nofun)
  | mergeEvents k =>
    rw [hp] at h
    dsimp only at h
    split at h
    · exact absurd h (·.elim nofun nofun)
    · exact absurd h (·.elim nofun nofun)
  | parallelEvents group waiting running =>
    rw [hp] at h
    dsimp only at h
    split at h
    · exact absurd h (not_sleepy_afterGroup _ group)
    · rw [Sleepy, hp] at h
      exact absurd h (·.elim nofun nofun)
  | executeEvents group =>
    rw [hp] at h
    exact absurd h (not_sleepy_executeEvents group)
  | serialEvents group i =>
    rw [hp] at h
    exact absurd h (not_sleepy_executeSerialEvents group i)
  | scheduledEvents i =>
    rw [hp] at h
    exact absurd h (not_sleepy_executeScheduledEvents i)
  | scheduledRuns i =>
    rw [hp] at h
    exact absurd h (not_sleepy_afterScheduled i)

theorem startParallel_sleepy {n : Nat} (h : Sleepy (startParallel s n)) : startParallel s n = s := by
  unfold startParallel at h ⊢
  split at h
  · split at h
    · rfl
    · exact absurd h (·.elim nofun nofun)
  · rfl

theorem finishParallel_sleepy {n : Nat} (h : Sleepy (finishParallel s n)) : finishParallel s n = s := by
  unfold finishParallel at h ⊢
  split at h
  · exact absurd h (·.elim nofun nofun)
  · rfl

/-! ### Runs -/

/-- The flag is read as false only when everything is merged, and no call comes before the wait has begun. -/
structure Timely (threads : Threads) (s : State) (a : Action) : Prop where
  read : s.place = .readPending → (∃ time, a = .advance time) → ¬s.hasPendingTasks → ¬Unmerged s.log
  enter : s.place = .enterWait → ∀ thread, a.thread? = some thread → ¬mayCall threads s thread

/-- A loop that sleeps has everything merged, and its flag is not set. -/
def Idle (s : State) : Prop := Sleepy s → ¬s.hasPendingTasks ∧ ¬Unmerged s.log

theorem Idle.awake (h : Idle s) : Awake s := fun notified hp hu => by
  cases notified with
  | true => rfl
  | false => exact absurd hu (h (.inr hp)).2

theorem idle_step {a : Action} (h : Idle s) (ht : Timely threads s a) : Idle (step threads s a) := by
  intro hs
  cases ha : a.thread? with
  | some thread =>
    by_cases hm : mayCall threads s thread
    · obtain ⟨-, hplace, hwakes, -⟩ := notifies_step ha hm
      rcases hplace with hplace | ⟨-, hplace⟩
      · rw [Sleepy, hplace] at hs
        rcases hs with hs | hs
        · exact absurd hm (ht.enter hs thread ha)
        · have := hwakes hs (h (.inr hs)).1
          rw [hplace, hs] at this
          exact nomatch this
      · rw [Sleepy, hplace] at hs
        exact absurd hs (·.elim nofun nofun)
    · rw [step_of_not_mayCall ha hm] at hs ⊢
      exact h hs
  | none =>
    cases a with
    | addEvent | addWalkEvent | asyncEvent | scheduleEvent => exact nomatch ha
    | stopEvent id =>
      have hsame : (stopEvent s id).place = s.place ∧ (stopEvent s id).hasPendingTasks = s.hasPendingTasks ∧
          (stopEvent s id).log = s.log ++ [.stopped id] := by
        unfold stopEvent
        dsimp only
        split_ifs <;> exact ⟨rfl, rfl, rfl⟩
      obtain ⟨hplace, hflag, hlog⟩ := hsame
      simp only [step, Sleepy, hplace, hflag, hlog] at hs ⊢
      obtain ⟨hf, hu⟩ := h hs
      exact ⟨hf, fun hu' => hu (Unmerged.of_concat (o := .stopped id) (fun _ ho => ho) hu')⟩
    | advance time =>
      obtain ⟨hplace, hlog, hflag⟩ := advance_sleepy hs
      simp only [step, hlog, hflag]
      rcases hplace with ⟨hplace, hf⟩ | hplace
      · exact ⟨hf, ht.read hplace ⟨time, rfl⟩ hf⟩
      · exact h (.inl hplace)
    | startParallel n =>
      simp only [step, startParallel_sleepy hs] at hs ⊢
      exact h hs
    | finishParallel n =>
      simp only [step, finishParallel_sleepy hs] at hs ⊢
      exact h hs

theorem idle_start : Idle start := (·.elim nofun nofun)

/-- After a step that is not timely the loop goes to sleep on what is not merged. -/
theorem not_awake_of_not_timely {a : Action} (h : ¬Timely threads s a) (time : Int) :
    ¬Awake (advance threads (step threads s a) time) := by
  intro hawake
  refine h ⟨fun hp ha hf hu => ?_, fun hp thread ha hm => ?_⟩
  · obtain ⟨time', rfl⟩ := ha
    have hstep : step threads s (.advance time') = s.goTo .enterWait := by
      rw [step, advance, hp]
      exact congrArg s.goTo (if_neg hf)
    rw [hstep] at hawake
    exact absurd (hawake false rfl hu) Bool.false_ne_true
  · obtain ⟨-, hplace, -, t, o, hlog, ho⟩ := notifies_step ha hm
    have hplace : (step threads s a).place = .enterWait := by
      rcases hplace with hplace | ⟨⟨notified, hw⟩, -⟩
      · exact hplace.trans hp
      · rw [hp] at hw
        exact nomatch hw
    have hadv : advance threads (step threads s a) time = (step threads s a).goTo (.waits false) := by
      rw [advance, hplace]
    rw [hadv] at hawake
    refine absurd (hawake false rfl ?_) Bool.false_ne_true
    change Unmerged (step threads s a).log
    rw [hlog]
    exact unmerged_of_call ho

/-- The steps of a run are timely just when the loop never sleeps on what is not merged, in no state of the run and not
    if it goes on from one. -/
theorem timely_iff_awake (threads : Threads) (ops : List Action) :
    Lib.Meets (step threads) (Timely threads) start ops ↔
      ∀ xs, xs <+: ops → Awake (Lib.run (step threads) start xs) ∧
        ∀ time, Awake (advance threads (Lib.run (step threads) start xs) time) := by
  constructor
  · rintro h xs ⟨ys, rfl⟩
    have hidle := Lib.run_invariant Idle (fun s a hs ha => idle_step hs ha) idle_start h.of_append
    refine ⟨hidle.awake, fun time notified hp hu => ?_⟩
    cases notified with
    | true => rfl
    | false =>
      obtain ⟨hplace, hlog, -⟩ := advance_sleepy (.inr hp)
      rcases hplace with ⟨hplace, hf⟩ | hplace
      · rw [advance, hplace] at hp
        simp only [hf, State.goTo] at hp
        exact nomatch hp
      · rw [hlog] at hu
        exact absurd hu (hidle (.inl hplace)).2
  · intro h
    refine Lib.meets_of_forall_split fun xs a ys hops => ?_
    refine of_not_not fun hn => not_awake_of_not_timely hn 0 ?_
    have := (h (xs ++ [a]) ⟨ys, by simp [hops]⟩).2 0
    rwa [Lib.run_concat] at this

/-! ### A call between the merge and the flag -/

/-- The main loop on thread 0, and another thread. -/
def twoThreads : Threads := ⟨2, 0, by decide, 1, by decide⟩

/-- Thread 1 adds an event after its lists were merged and before the flag is cleared. -/
def lateEvent : List Action :=
  List.replicate 3 (.advance 0) ++ .addEvent 1 0 :: List.replicate 9 (.advance 0)

/-- The loop goes to sleep on the event. -/
theorem sleeps_on_late_event : ¬∀ (threads : Threads) (ops : List Action), Awake (Lib.run (step threads) start ops) := by
  intro h
  have hlog : (Lib.run (step twoThreads) start lateEvent).log = [.merged 0, .merged 1, .added .Serial ⟨0, 1, 0⟩] := by decide
  have hu : Unmerged (Lib.run (step twoThreads) start lateEvent).log := by
    rw [hlog]
    exact ⟨1, .added .Serial ⟨0, 1, 0⟩, by decide, rfl⟩
  exact absurd (h twoThreads lateEvent false (by decide) hu) Bool.false_ne_true

end Dispatcher
end CrystalServer
