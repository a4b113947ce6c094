import CrystalServer.Theorems.Game.Wakeup
import Mathlib.Data.List.Nodup
import Mathlib.Data.List.Perm.Basic

/-! # The dispatcher: events

An event that was added is in the list of its thread, among those of the loop that are still to come, or done. Merges
and groups move it from one to the next, and in a serial group they keep the order of each thread. -/

namespace CrystalServer
namespace Dispatcher

/-! ### The blocks of a parallel group -/

/-- The first block and the loop over the others make one call for each index. -/
theorem asyncWait_eq {threadCount size : Nat} (ht : 0 < threadCount) (hs : 0 < size) :
    asyncWait threadCount size = List.range size := by
  unfold asyncWait generatePartition
  dsimp only
  have hblock : 0 < (size + threadCount - 1) / threadCount := Nat.div_pos (by omega) ht
  generalize (size + threadCount - 1) / threadCount = b at hblock
  have hn : 0 < (size + b - 1) / b := Nat.div_pos (by omega) hblock
  have hlow : size ≤ (size + b - 1) / b * b := by
    have := Nat.lt_div_mul_add (a := size + b - 1) hblock
    omega
  have hhigh : ((size + b - 1) / b - 1) * b < size := by
    have := Nat.div_mul_le_self (size + b - 1) b
    rw [Nat.sub_mul]
    omega
  generalize (size + b - 1) / b = n at hn hlow hhigh
  match n with
  | 1 =>
    simp only [List.range_one, List.map_cons, List.map_nil, Nat.zero_mul, Nat.zero_add, Nat.sub_zero]
    rw [Nat.min_eq_left (by omega), List.range_eq_range']
  | n + 2 =>
    have hfirst : min size b = b := Nat.min_eq_right (by
      have : b ≤ (n + 2 - 1) * b := Nat.le_mul_of_pos_left b (by omega)
      omega)
    have hlast : min size ((n + 1) * b + b) = size := Nat.min_eq_left (by
      have : (n + 2) * b = (n + 1) * b + b := Nat.succ_mul (n + 1) b
      omega)
    have hrange : List.range (n + 2) = 0 :: 1 :: (List.range n).map (· + 2) := by
      rw [List.range_succ_eq_map, List.range_succ_eq_map, List.map_cons, List.map_map]
      rfl
    have hgetLast : ∀ f : Nat → Nat × Nat,
        ((f 1 :: ((List.range n).map (· + 2)).map f).getLast (List.cons_ne_nil _ _)) = f (n + 1) := fun f => by
      cases n with
      | zero => rfl
      | succ n => simp [List.range_succ]
    simp only [hrange, List.map_cons]
    rw [hgetLast fun k => (k * b, min size (k * b + b)), hlast]
    simp only [Nat.zero_mul, Nat.zero_add, hfirst, Nat.sub_zero, Nat.one_mul]
    have : size = b + (size - b) := by omega
    rw [this, Nat.add_sub_cancel_left, List.range_eq_range', ← List.range'_append]
    simp

/-! ### What the log says of a thread -/

/-- The event of the thread that was added to the group. -/
def Output.added? (thread : Nat) (group : TaskGroup) : Output → Option Event
  | .added g e => if g = group ∧ e.thread = thread then some e else none
  | _ => none

/-- The event of the thread in the group that was executed or found expired. -/
def Output.done? (thread : Nat) (group : TaskGroup) : Output → Option Event
  | .executed g e | .expired g e _ => if g = group ∧ e.thread = thread then some e else none
  | _ => none

def added (thread : Nat) (group : TaskGroup) (log : List Output) : List Event := log.filterMap (·.added? thread group)

def done (thread : Nat) (group : TaskGroup) (log : List Output) : List Event := log.filterMap (·.done? thread group)

/-- What was seen up to the last merge of the lists of the thread. -/
def beforeMerge (thread : Nat) (log : List Output) : List Output := log.rdropWhile fun o => o ≠ .merged thread

/-- The turn of an event: it came before a merge, is not done, and in a serial group it is the next one of its thread. -/
structure Turn (log : List Output) (group : TaskGroup) (e : Event) : Prop where
  merged : e ∈ added e.thread group (beforeMerge e.thread log)
  first : e ∉ done e.thread group log
  next : group.isSerial → ∃ rest, added e.thread group log = done e.thread group log ++ e :: rest

/-- What may be seen of events after the log. -/
def EventTurn (log : List Output) : Output → Prop
  | .executed group e => Turn log group e
  | .expired group e now => Turn log group e ∧ e.hasExpired now
  | _ => True

section
variable {thread t : Nat} {group g : TaskGroup} {log : List Output} {o : Output} {e : Event}

theorem added_append (log log' : List Output) : added thread group (log ++ log') =
    added thread group log ++ added thread group log' :=
  List.filterMap_append

theorem added_concat (h : o.added? thread group = none) : added thread group (log ++ [o]) = added thread group log := by
  simp [added, List.filterMap_append, h]

theorem done_concat (h : o.done? thread group = none) : done thread group (log ++ [o]) = done thread group log := by
  simp [done, List.filterMap_append, h]

theorem added_concat_some (h : o.added? thread group = some e) : added thread group (log ++ [o]) =
    added thread group log ++ [e] := by
  simp [added, List.filterMap_append, h]

theorem done_concat_some (h : o.done? thread group = some e) : done thread group (log ++ [o]) =
    done thread group log ++ [e] := by
  simp [done, List.filterMap_append, h]

theorem before_since (thread : Nat) (log : List Output) : beforeMerge thread log ++ sinceMerge thread log = log := by
  simp [beforeMerge, sinceMerge, List.rdropWhile, List.rtakeWhile, ← List.reverse_append, List.takeWhile_append_dropWhile]

theorem sinceMerge_merged : sinceMerge thread (log ++ [.merged thread]) = [] :=
  List.rtakeWhile_concat_neg _ _ _ (by simp)

theorem mem_added (h : e ∈ added thread group log) : e.thread = thread := by
  obtain ⟨o, -, ho⟩ := List.mem_filterMap.mp h
  cases o with
  | added g e' =>
    obtain ⟨⟨-, ht⟩, he⟩ := Option.ite_none_right_eq_some.mp ho
    cases he
    exact ht
  | merged | executed | expired | scheduled | ran | stopped => exact nomatch ho

end

/-! ### Where an event is -/

/-- The events of a group that the loop has yet to come to. -/
def remaining (s : State) (group : TaskGroup) : List Event :=
  match s.place with
  | .serialEvents g i => if group = g then (s.m_tasks group).drop i else s.m_tasks group
  | .serialRuns g i => if group = g then (s.m_tasks group).drop (i + 1) else s.m_tasks group
  | .parallelEvents g waiting _ => if group = g then waiting else s.m_tasks group
  | _ => s.m_tasks group

/-- The place of a group in `executeEvents`. -/
def TaskGroup.rank : TaskGroup → Nat
  | .Walk => 0
  | .WalkParallel => 1
  | .Serial => 2
  | .GenericParallel => 3

/-- `executeEvents` is done with the group. -/
def Place.past (group : TaskGroup) : Place → Prop
  | .executeEvents g | .serialEvents g _ | .serialRuns g _ | .parallelEvents g _ _ => group.rank < g.rank
  | .mergeEvents _ | .checkPendingTasks => False
  | .updateTime | .scheduledEvents _ | .scheduledRuns _ | .readPending | .enterWait | .waits _ => True

/-- The same events, and in a serial group in the same order. -/
def Same (group : TaskGroup) (l l' : List Event) : Prop := l.Perm l' ∧ (group.isSerial → l = l')

namespace Same
variable {group : TaskGroup} {l l' l'' k : List Event}

theorem of_eq (h : l = l') : Same group l l' := ⟨h ▸ .refl l, fun _ => h⟩

theorem trans (h : Same group l l') (h' : Same group l' l'') : Same group l l'' :=
  ⟨h.1.trans h'.1, fun hs => (h.2 hs).trans (h'.2 hs)⟩

theorem append_right (h : Same group l l') (k : List Event) : Same group (l ++ k) (l' ++ k) :=
  ⟨h.1.append_right k, fun hs => congrArg (· ++ k) (h.2 hs)⟩

end Same

/-- What holds of the events in every state that is reached. -/
structure Flow (s : State) : Prop where
  same : ∀ t g, Same g (added t g s.log)
    (done t g s.log ++ (remaining s g).filter (·.thread = t) ++ (s.threads t).tasks g)
  unmerged : ∀ t g, (s.threads t).tasks g = added t g (sinceMerge t s.log)
  fresh : ∀ t g, ∀ e ∈ added t g s.log, e.number < s.nextNumber
  nodup : ∀ t g, (added t g s.log).Nodup
  past : ∀ g, s.place.past g → s.m_tasks g = []
  merging : ∀ k, s.place = .mergeEvents k → ∀ g, ∀ e ∈ s.m_tasks g, e.thread < k
  turns : ∀ l o l', s.log = l ++ o :: l' → EventTurn l o

theorem flow_start : Flow start where
  same _ _ := .of_eq rfl
  unmerged _ _ := rfl
  fresh _ _ _ h := absurd h List.not_mem_nil
  nodup _ _ := List.nodup_nil
  past _ _ := rfl
  merging _ h := nomatch h
  turns _ _ _ h := absurd h (by simp [start])

/-- What is seen of no event and no merge. -/
def Output.Quiet : Output → Prop
  | .scheduled _ _ _ | .ran _ _ | .stopped _ => True
  | _ => False

variable {s s' : State}

/-- A step that events have no part in. -/
theorem Flow.quiet (h : Flow s) (hlog : s'.log = s.log ∨ ∃ o : Output, o.Quiet ∧ s'.log = s.log ++ [o])
    (hrem : ∀ g, remaining s' g = remaining s g) (hthreads : ∀ t, (s'.threads t).tasks = (s.threads t).tasks)
    (hnumber : s'.nextNumber = s.nextNumber) (hpast : ∀ g, s'.place.past g → s'.m_tasks g = [])
    (hmerging : ∀ k, s'.place = .mergeEvents k → ∀ g, ∀ e ∈ s'.m_tasks g, e.thread < k) : Flow s' := by
  have hadded : ∀ t g, added t g s'.log = added t g s.log := fun t g => by
    rcases hlog with hlog | ⟨o, ho, hlog⟩
    · rw [hlog]
    · rw [hlog]
      exact added_concat (by cases o <;> first | rfl | exact absurd ho id)
  have hdone : ∀ t g, done t g s'.log = done t g s.log := fun t g => by
    rcases hlog with hlog | ⟨o, ho, hlog⟩
    · rw [hlog]
    · rw [hlog]
      exact done_concat (by cases o <;> first | rfl | exact absurd ho id)
  have hsince : ∀ t g, added t g (sinceMerge t s'.log) = added t g (sinceMerge t s.log) := fun t g => by
    rcases hlog with hlog | ⟨o, ho, hlog⟩
    · rw [hlog]
    · have hne : o ≠ .merged t := by
        rintro rfl
        exact ho
      rw [hlog, sinceMerge_concat hne]
      exact added_concat (by cases o <;> first | rfl | exact absurd ho id)
  refine ⟨fun t g => ?_, fun t g => ?_, fun t g => ?_, fun t g => ?_, hpast, hmerging, ?_⟩
  · rw [hadded, hdone, hrem, hthreads]
    exact h.same t g
  · rw [hthreads, hsince]
    exact h.unmerged t g
  · rw [hadded, hnumber]
    exact h.fresh t g
  · rw [hadded]
    exact h.nodup t g
  · rcases hlog with hlog | ⟨o, ho, hlog⟩
    · rw [hlog]
      exact h.turns
    · rw [hlog]
      refine Lib.splits_concat h.turns ?_
      cases o <;> trivial

/-! ### Calls -/

/-- What a notification changes. -/
theorem notify_eq (s : State) : ∃ place, notify s = { s with hasPendingTasks := true, place := place } ∧
    (place = s.place ∨ (∃ notified, s.place = .waits notified) ∧ place = .waits true) := by
  unfold notify
  split
  · rename_i h
    exact ⟨s.place, by simp [← h], .inl rfl⟩
  · dsimp only
    split
    · rename_i notified hw
      exact ⟨.waits true, rfl, .inr ⟨⟨notified, hw⟩, rfl⟩⟩
    · exact ⟨s.place, rfl, .inl rfl⟩

theorem remaining_waits {notified : Bool} (h : s.place = .waits notified) (group : TaskGroup) :
    remaining s group = s.m_tasks group := by
  rw [remaining, h]

/-- What a notification leaves of the events. -/
theorem Flow.notify (h : Flow s) : Flow (notify s) := by
  obtain ⟨place, heq, hplace⟩ := notify_eq s
  rw [heq]
  rcases hplace with rfl | ⟨⟨notified, hw⟩, rfl⟩
  · exact h.quiet (.inl rfl) (fun _ => rfl) (fun _ => rfl) rfl h.past h.merging
  · refine h.quiet (.inl rfl) (fun g => ?_) (fun _ => rfl) rfl (fun g _ => ?_) nofun
    · rw [remaining_waits hw]
      rfl
    · exact h.past g (hw ▸ trivial)

theorem flow_emplace (h : Flow s) (thread : Nat) (group : TaskGroup) (expiresAfterMs : UInt32) :
    Flow (emplace s thread group expiresAfterMs) := by
  unfold emplace
  dsimp only
  refine Flow.notify ?_
  generalize (if expiresAfterMs > 0 then s.now + expiresAfterMs.toNat else 0) = expiration
  generalize he : Event.mk s.nextNumber thread expiration = e
  have hthread : e.thread = thread := by rw [← he]
  have hnumber : e.number = s.nextNumber := by rw [← he]
  -- the entry is one of the thread's events in the group and of no other
  have hadded : ∀ t g log, added t g (log ++ [.added group e]) =
      if group = g ∧ thread = t then added t g log ++ [e] else added t g log := fun t g log => by
    split_ifs with hc
    · exact added_concat_some (if_pos (hthread ▸ hc))
    · exact added_concat (if_neg (hthread ▸ hc))
  have hlists : ∀ t g, ((State.setThread s thread { s.threads thread with
      tasks := Function.update (s.threads thread).tasks group ((s.threads thread).tasks group ++ [e]) }).threads t).tasks g =
      if group = g ∧ thread = t then (s.threads t).tasks g ++ [e] else (s.threads t).tasks g := fun t g => by
    by_cases ht : thread = t
    · subst ht
      by_cases hg : group = g
      · subst hg
        simp [State.setThread]
      · simp [State.setThread, hg, Function.update_of_ne (Ne.symm hg)]
    · simp [State.setThread, ht, Function.update_of_ne (Ne.symm ht)]
  refine ⟨fun t g => ?_, fun t g => ?_, fun t g => ?_, fun t g => ?_, h.past, h.merging, Lib.splits_concat h.turns trivial⟩
  · change Same g (added t g (s.log ++ [.added group e])) (done t g (s.log ++ [.added group e]) ++ _ ++ _)
    rw [hadded, done_concat rfl]
    refine Same.trans ?_ (.of_eq (congrArg (_ ++ ·) (hlists t g).symm))
    split_ifs
    · have := (h.same t g).append_right [e]
      rwa [List.append_assoc] at this
    · exact h.same t g
  · refine (hlists t g).trans ?_
    change _ = added t g (sinceMerge t (s.log ++ [.added group e]))
    rw [sinceMerge_concat (show Output.added group e ≠ .merged t from nofun), hadded, h.unmerged]
  · change ∀ e' ∈ added t g (s.log ++ [.added group e]), e'.number < s.nextNumber + 1
    rw [hadded]
    intro e' he'
    have hold := fun hm => Nat.lt_succ_of_lt (h.fresh t g e' hm)
    split_ifs at he'
    · rcases List.mem_append.mp he' with he' | he'
      · exact hold he'
      · rw [List.mem_singleton.mp he', hnumber]
        exact Nat.lt_succ_self _
    · exact hold he'
  · change (added t g (s.log ++ [.added group e])).Nodup
    rw [hadded]
    split_ifs
    · refine List.nodup_append.mpr ⟨h.nodup t g, List.nodup_singleton e, fun a ha b hb heq => ?_⟩
      rw [List.mem_singleton.mp hb] at heq
      have := h.fresh t g a ha
      rw [heq, hnumber] at this
      exact lt_irrefl _ this
    · exact h.nodup t g

theorem flow_scheduleEvent (h : Flow s) (thread : Nat) (utime : Int) (delay : UInt32) (cycle : Bool) :
    Flow (scheduleEvent s thread utime delay cycle) := by
  unfold scheduleEvent
  dsimp only
  refine Flow.notify (h.quiet (.inr ⟨.scheduled thread s.nextId ⟨utime, delay, cycle, false⟩, trivial, rfl⟩) (fun _ => rfl) (fun t => ?_) rfl h.past h.merging)
  by_cases ht : t = thread
  · subst ht
    simp [State.emit, State.setThread, State.setTask]
  · simp [State.emit, State.setThread, State.setTask, Function.update_of_ne ht]

theorem flow_stopEvent (h : Flow s) (id : Nat) : Flow (stopEvent s id) := by
  unfold stopEvent
  dsimp only
  split_ifs
  · exact h.quiet (.inr ⟨.stopped id, trivial, rfl⟩) (fun _ => rfl) (fun _ => rfl) rfl h.past h.merging
  · exact h.quiet (.inr ⟨.stopped id, trivial, rfl⟩) (fun _ => rfl) (fun _ => rfl) rfl h.past h.merging

/-! ### Merges -/

theorem mem_mergeGroup {l k : List Event} {e : Event} : e ∈ mergeGroup l k ↔ e ∈ l ∨ e ∈ k := by
  unfold mergeGroup
  split_ifs
  · rw [List.mem_append, or_comm]
  · exact List.mem_append

/-- Where one of two lists has nothing of a thread, it does not matter which one comes first. -/
theorem filter_mergeGroup {l k : List Event} {t : Nat}
    (h : l.filter (·.thread = t) = [] ∨ k.filter (·.thread = t) = []) :
    (mergeGroup l k).filter (·.thread = t) = l.filter (·.thread = t) ++ k.filter (·.thread = t) := by
  unfold mergeGroup
  split_ifs
  · rw [List.filter_append]
    rcases h with h | h <;> simp [h]
  · exact List.filter_append ..

theorem Flow.thread_eq (h : Flow s) {t : Nat} {g : TaskGroup} {e : Event} (he : e ∈ (s.threads t).tasks g) :
    e.thread = t := by
  rw [h.unmerged] at he
  exact mem_added he

theorem flow_mergeThread (h : Flow s) {k : Nat} (hplace : s.place = .mergeEvents k) :
    Flow ((mergeThread s k).goTo (.mergeEvents (k + 1))) := by
  have hrem : ∀ g, remaining s g = s.m_tasks g := fun g => by rw [remaining, hplace]
  have hfilter : ∀ t g, ((s.m_tasks g).filter (·.thread = t) = [] ∨ ((s.threads k).tasks g).filter (·.thread = t) = []) := by
    intro t g
    by_cases ht : t = k
    · refine .inl (List.filter_eq_nil_iff.mpr fun e he => ?_)
      have := h.merging k hplace g e he
      simp
      omega
    · refine .inr (List.filter_eq_nil_iff.mpr fun e he => ?_)
      simp [h.thread_eq he, Ne.symm ht]
  refine ⟨fun t g => ?_, fun t g => ?_, fun t g => ?_, fun t g => ?_, fun g hg => absurd hg id, fun k' hk' g e he => ?_, ?_⟩
  · change Same g (added t g (s.log ++ [.merged k])) (done t g (s.log ++ [.merged k]) ++
      (mergeGroup (s.m_tasks g) ((s.threads k).tasks g)).filter _ ++
      (Function.update s.threads k ⟨fun _ => [], []⟩ t).tasks g)
    rw [added_concat rfl, done_concat rfl, filter_mergeGroup (hfilter t g), ← hrem]
    by_cases ht : t = k
    · subst ht
      have hall : ((s.threads t).tasks g).filter (·.thread = t) = (s.threads t).tasks g :=
        List.filter_eq_self.mpr fun e he => by simp [h.thread_eq he]
      rw [Function.update_self, hall, List.append_nil, ← List.append_assoc]
      exact h.same t g
    · have hnone : ((s.threads k).tasks g).filter (·.thread = t) = [] :=
        List.filter_eq_nil_iff.mpr fun e he => by simp [h.thread_eq he, Ne.symm ht]
      rw [Function.update_of_ne ht, hnone, List.append_nil]
      exact h.same t g
  · change (Function.update s.threads k ⟨fun _ => [], []⟩ t).tasks g = added t g (sinceMerge t (s.log ++ [.merged k]))
    by_cases ht : t = k
    · subst ht
      rw [Function.update_self, sinceMerge_merged]
      rfl
    · rw [Function.update_of_ne ht, sinceMerge_concat (by simpa using Ne.symm ht), added_concat rfl, h.unmerged]
  · change ∀ e ∈ added t g (s.log ++ [.merged k]), e.number < s.nextNumber
    rw [added_concat rfl]
    exact h.fresh t g
  · change (added t g (s.log ++ [.merged k])).Nodup
    rw [added_concat rfl]
    exact h.nodup t g
  · cases hk'
    rcases mem_mergeGroup.mp he with he | he
    · exact Nat.lt_succ_of_lt (h.merging k hplace g e he)
    · rw [h.thread_eq he]
      exact Nat.lt_succ_self k
  · exact Lib.splits_concat h.turns trivial

/-! ### Execution -/

theorem mem_of_remaining {g : TaskGroup} {e : Event} (h : Flow s) (he : e ∈ remaining s g) :
    e ∈ added e.thread g (beforeMerge e.thread s.log) := by
  have hsplit : added e.thread g s.log = added e.thread g (beforeMerge e.thread s.log) ++
      (s.threads e.thread).tasks g := by
    rw [h.unmerged, ← added_append, before_since]
  have hperm := (h.same e.thread g).1
  rw [hsplit] at hperm
  refine (List.perm_append_right_iff _).mp hperm |>.mem_iff.mpr ?_
  exact List.mem_append_right _ (List.mem_filter.mpr ⟨he, by simp⟩)

/-- The turn of an event that remains, and that is the next one of its group if that is serial. -/
theorem Flow.turn (h : Flow s) {g : TaskGroup} {e : Event} {l₁ l₂ : List Event} (hrem : remaining s g = l₁ ++ e :: l₂)
    (hserial : g.isSerial → l₁ = []) : Turn s.log g e := by
  have hsame := h.same e.thread g
  have he : e ∈ remaining s g := by simp [hrem]
  refine ⟨mem_of_remaining h he, fun hdone => ?_, fun hs => ?_⟩
  · have hnodup := hsame.1.nodup_iff.mp (h.nodup e.thread g)
    rw [List.append_assoc] at hnodup
    exact List.disjoint_of_nodup_append hnodup hdone
      (List.mem_append_left _ (List.mem_filter.mpr ⟨he, by simp⟩))
  · refine ⟨l₂.filter (·.thread = e.thread) ++ (s.threads e.thread).tasks g, (hsame.2 hs).trans ?_⟩
    rw [hrem, hserial hs]
    simp

/-- An event that remains is done. -/
theorem Flow.takes (h : Flow s) {g : TaskGroup} {e : Event} {l₁ l₂ : List Event} {o : Output}
    (hrem : remaining s g = l₁ ++ e :: l₂) (hserial : g.isSerial → l₁ = [])
    (ho : o = .executed g e ∨ ∃ now, e.hasExpired now ∧ o = .expired g e now) (hlog : s'.log = s.log ++ [o])
    (hrem' : remaining s' g = l₁ ++ l₂) (hothers : ∀ g', g' ≠ g → remaining s' g' = remaining s g')
    (hthreads : s'.threads = s.threads) (hnumber : s'.nextNumber = s.nextNumber)
    (hpast : ∀ g, s'.place.past g → s'.m_tasks g = []) (hmerging : ∀ k, s'.place ≠ .mergeEvents k) : Flow s' := by
  have hadded : ∀ t g', o.added? t g' = none := fun t g' => by
    rcases ho with rfl | ⟨now, -, rfl⟩ <;> rfl
  have hdone : ∀ t g', o.done? t g' = if g = g' ∧ e.thread = t then some e else none := fun t g' => by
    rcases ho with rfl | ⟨now, -, rfl⟩ <;> rfl
  have hmerged : ∀ t, o ≠ .merged t := fun t => by
    rcases ho with rfl | ⟨now, -, rfl⟩ <;> exact nofun
  refine ⟨fun t g' => ?_, fun t g' => ?_, fun t g' => ?_, fun t g' => ?_, hpast, fun k hk => absurd hk (hmerging k), ?_⟩
  · rw [hlog, added_concat (hadded t g'), hthreads]
    refine (h.same t g').trans (Same.append_right ?_ _)
    by_cases hg : g' = g
    · subst hg
      rw [hrem, hrem', List.filter_append, List.filter_append, List.filter_cons]
      by_cases ht : e.thread = t
      · rw [done_concat_some ((hdone t g').trans (if_pos ⟨rfl, ht⟩))]
        simp only [ht, decide_true, if_true]
        refine ⟨?_, fun hs => ?_⟩
        · rw [List.append_assoc]
          exact List.perm_middle.append_left _
        · rw [hserial hs]
          simp
      · rw [done_concat ((hdone t g').trans (if_neg fun hc => ht hc.2))]
        simp only [ht, decide_false, Bool.false_eq_true, if_false]
        exact .of_eq rfl
    · rw [hothers g' hg, done_concat ((hdone t g').trans (if_neg fun hc => hg hc.1.symm))]
      exact .of_eq rfl
  · rw [hlog, hthreads, sinceMerge_concat (hmerged t), added_concat (hadded t g')]
    exact h.unmerged t g'
  · rw [hlog, added_concat (hadded t g'), hnumber]
    exact h.fresh t g'
  · rw [hlog, added_concat (hadded t g')]
    exact h.nodup t g'
  · rw [hlog]
    refine Lib.splits_concat h.turns ?_
    rcases ho with rfl | ⟨now, hnow, rfl⟩
    · exact h.turn hrem hserial
    · exact ⟨h.turn hrem hserial, hnow⟩

/-- What `execute` writes to the log. -/
theorem execute_eq (s : State) (g : TaskGroup) (e : Event) : ∃ o : Output,
    (o = .executed g e ∨ ∃ now, e.hasExpired now ∧ o = .expired g e now) ∧ execute s g e = s.emit o := by
  unfold execute
  split_ifs with he
  · exact ⟨_, .inr ⟨s.now, he, rfl⟩, rfl⟩
  · exact ⟨_, .inl rfl, rfl⟩

theorem past_afterGroup (s : State) (g : TaskGroup) {g' : TaskGroup} (h : (afterGroup s g).place.past g') :
    g'.rank ≤ g.rank := by
  revert h
  cases g <;> cases g' <;> simp [afterGroup, TaskGroup.next, State.goTo, Place.past, TaskGroup.rank]

/-- The loop leaves a group that it is done with. -/
theorem flow_afterGroup (h : Flow s) {g : TaskGroup} {m : TaskGroup → List Event} (hm : m g = [])
    (hrem : ∀ g', remaining s g' = m g') (hpast : ∀ g', g'.rank < g.rank → m g' = []) :
    Flow (afterGroup { s with m_tasks := m } g) := by
  have hfields : (afterGroup { s with m_tasks := m } g).log = s.log ∧
      (afterGroup { s with m_tasks := m } g).m_tasks = m ∧ (afterGroup { s with m_tasks := m } g).threads = s.threads ∧
      (afterGroup { s with m_tasks := m } g).nextNumber = s.nextNumber ∧
      (∀ g', remaining (afterGroup { s with m_tasks := m } g) g' = m g') ∧
      ∀ k, (afterGroup { s with m_tasks := m } g).place ≠ .mergeEvents k := by
    cases g <;> exact ⟨rfl, rfl, rfl, rfl, fun _ => rfl, nofun⟩
  obtain ⟨hlog, htasks, hthreads, hnumber, hrem', hmerging⟩ := hfields
  refine h.quiet (.inl hlog) (fun g' => (hrem' g').trans (hrem g').symm) (fun t => congrArg (fun f => (f t).tasks) hthreads)
    hnumber (fun g' hg' => ?_) fun k hk => absurd hk (hmerging k)
  rw [htasks]
  rcases (past_afterGroup _ g hg').lt_or_eq with hlt | heq
  · exact hpast g' hlt
  · have : g' = g := by cases g <;> cases g' <;> first | rfl | exact absurd heq (by decide)
    rw [this, hm]

/-- The group in which the loop is. -/
theorem flow_clearGroup (h : Flow s) {g : TaskGroup} (hg : remaining s g = [])
    (hothers : ∀ g', g' ≠ g → remaining s g' = s.m_tasks g') (hpast : ∀ g', s.place.past g' ↔ g'.rank < g.rank) :
    Flow (clearGroup s g) := by
  refine flow_afterGroup h (Function.update_self ..) (fun g' => ?_) fun g' hlt => ?_
  · by_cases hgg : g' = g
    · subst hgg
      rw [hg, Function.update_self]
    · rw [hothers g' hgg, Function.update_of_ne hgg]
  · have hne : g' ≠ g := by
      rintro rfl
      exact lt_irrefl _ hlt
    rw [Function.update_of_ne hne]
    exact h.past g' ((hpast g').mpr hlt)

theorem flow_executeSerialEvents (h : Flow s) {g : TaskGroup} {i : Nat} (hplace : s.place = .serialEvents g i) :
    Flow (executeSerialEvents s g i) := by
  have hrem : remaining s g = (s.m_tasks g).drop i := by rw [remaining, hplace]; exact if_pos rfl
  have hothers : ∀ g', g' ≠ g → remaining s g' = s.m_tasks g' := fun g' hg' => by
    rw [remaining, hplace]
    exact if_neg hg'
  have hpast : ∀ g', s.place.past g' ↔ g'.rank < g.rank := fun g' => by rw [hplace]; rfl
  unfold executeSerialEvents
  split
  · rename_i hi
    refine flow_clearGroup h ?_ hothers hpast
    rw [hrem]
    exact List.drop_eq_nil_of_le (List.getElem?_eq_none_iff.mp hi)
  · rename_i e hi
    obtain ⟨hlt, hget⟩ := List.getElem?_eq_some_iff.mp hi
    have hsplit : remaining s g = [] ++ e :: (s.m_tasks g).drop (i + 1) := by
      rw [hrem, ← hget]
      exact List.drop_eq_getElem_cons hlt
    obtain ⟨o, ho, hexec⟩ := execute_eq s g e
    rw [hexec]
    by_cases he : e.hasExpired s.now
    · rw [if_pos he]
      exact h.takes hsplit (fun _ => rfl) ho rfl (if_pos rfl)
        (fun g' hg' => (if_neg hg').trans (hothers g' hg').symm) rfl rfl
        (fun g' hg' => h.past g' ((hpast g').mpr hg')) nofun
    · rw [if_neg he]
      exact h.takes hsplit (fun _ => rfl) ho rfl (if_pos rfl)
        (fun g' hg' => (if_neg hg').trans (hothers g' hg').symm) rfl rfl
        (fun g' hg' => h.past g' ((hpast g').mpr hg')) nofun

theorem filterMap_range_getElem? {α : Type} (l : List α) : (List.range l.length).filterMap (fun i => l[i]?) = l := by
  induction l with
  | nil => rfl
  | cons x l ih =>
    have hhead : (fun i => (x :: l)[i]?) 0 = some x := rfl
    rw [List.length_cons, List.range_succ_eq_map, List.filterMap_cons_some hhead, List.filterMap_map]
    exact congrArg (x :: ·) ih

theorem flow_executeEvents (h : Flow s) (threads : Threads) {g : TaskGroup} (hplace : s.place = .executeEvents g) :
    Flow (executeEvents threads s g) := by
  have hrem : ∀ g', remaining s g' = s.m_tasks g' := fun g' => by rw [remaining, hplace]
  have hpast : ∀ g', s.place.past g' ↔ g'.rank < g.rank := fun g' => by rw [hplace]; rfl
  unfold executeEvents
  dsimp only
  split_ifs with hnil
  · exact flow_afterGroup h hnil hrem fun g' hlt => h.past g' ((hpast g').mpr hlt)
  · refine h.quiet (.inl rfl) (fun g' => ?_) (fun _ => rfl) rfl (fun g' hg' => h.past g' ((hpast g').mpr hg')) nofun
    rw [hrem]
    change (if g' = g then (s.m_tasks g').drop 0 else s.m_tasks g') = _
    rw [List.drop_zero, ite_self]
  · refine h.quiet (.inl rfl) (fun g' => ?_) (fun _ => rfl) rfl (fun g' hg' => h.past g' ((hpast g').mpr hg')) nofun
    rw [hrem, asyncWait_eq threads.get_thread_count_pos (List.length_pos_of_ne_nil hnil), filterMap_range_getElem?]
    change (if g' = g then s.m_tasks g else s.m_tasks g') = _
    split_ifs with hg
    · rw [hg]
    · rfl

theorem flow_startParallel (h : Flow s) (n : Nat) (hg : ∀ g w r, s.place = .parallelEvents g w r → ¬g.isSerial) :
    Flow (startParallel s n) := by
  unfold startParallel
  split
  · rename_i g waiting running hplace
    split
    · exact h
    · rename_i e hn
      obtain ⟨hlt, hget⟩ := List.getElem?_eq_some_iff.mp hn
      have hsplit : remaining s g = waiting.take n ++ e :: waiting.drop (n + 1) := by
        rw [remaining, hplace, ← hget, ← List.drop_eq_getElem_cons hlt, List.take_append_drop]
        exact if_pos rfl
      have hothers : ∀ g', g' ≠ g → remaining s g' = s.m_tasks g' := fun g' hg' => by
        rw [remaining, hplace]
        exact if_neg hg'
      obtain ⟨o, ho, hexec⟩ := execute_eq s g e
      rw [hexec]
      exact h.takes hsplit (fun hs => absurd hs (hg g waiting running hplace)) ho rfl
        ((if_pos rfl).trans (List.eraseIdx_eq_take_drop_succ ..))
        (fun g' hg' => (if_neg hg').trans (hothers g' hg').symm) rfl rfl
        (fun g' hg' => h.past g' (hplace ▸ hg')) nofun
  · exact h

theorem flow_finishParallel (h : Flow s) (n : Nat) : Flow (finishParallel s n) := by
  unfold finishParallel
  split
  · rename_i g waiting running hplace
    exact h.quiet (.inl rfl) (fun g' => by rw [remaining, remaining, hplace]; rfl) (fun _ => rfl) rfl
      (fun g' hg' => h.past g' (hplace ▸ hg')) nofun
  · exact h

/-! ### Steps -/

/-- Only groups that are not serial run on several threads. -/
def Parallel (s : State) : Prop := ∀ g w r, s.place = .parallelEvents g w r → ¬g.isSerial

theorem parallel_of_ne (h : ∀ g w r, s.place ≠ .parallelEvents g w r) : Parallel s := fun g w r hp => absurd hp (h g w r)

theorem parallel_afterGroup (s : State) (g : TaskGroup) : Parallel (afterGroup s g) :=
  parallel_of_ne (by cases g <;> exact nofun)

theorem parallel_advance (h : Parallel s) (threads : Threads) (time : Int) : Parallel (advance threads s time) := by
  unfold advance
  cases hp : s.place with
  | executeEvents g =>
    dsimp only [executeEvents]
    split_ifs with hnil hserial
    · exact parallel_afterGroup s g
    · exact parallel_of_ne (by rintro _ _ _ ⟨⟩)
    · rintro g' w r hg
      cases hg
      exact hserial
  | parallelEvents g w r =>
    dsimp only
    split_ifs
    · exact parallel_afterGroup _ g
    · exact h
  | serialEvents g i =>
    dsimp only [executeSerialEvents]
    split
    · exact parallel_afterGroup _ g
    · rename_i e _
      cases he : e.hasExpired s.now <;> exact parallel_of_ne (by simp [State.goTo])
  | mergeEvents k =>
    dsimp only
    split_ifs <;> exact parallel_of_ne (by rintro _ _ _ ⟨⟩)
  | scheduledEvents i =>
    dsimp only [executeScheduledEvents]
    split
    · exact parallel_of_ne (by rintro _ _ _ ⟨⟩)
    · split_ifs <;> exact parallel_of_ne (by rintro _ _ _ ⟨⟩)
  | scheduledRuns i =>
    dsimp only [afterScheduled]
    split
    · exact parallel_of_ne (by rintro _ _ _ ⟨⟩)
    · split_ifs <;> exact parallel_of_ne (by rintro _ _ _ ⟨⟩)
  | readPending =>
    dsimp only
    split_ifs <;> exact parallel_of_ne (by rintro _ _ _ ⟨⟩)
  | updateTime | checkPendingTasks | serialRuns | enterWait | waits => exact parallel_of_ne (by rintro _ _ _ ⟨⟩)

theorem flow_advance (h : Flow s) (threads : Threads) (time : Int) : Flow (advance threads s time) := by
  unfold advance
  cases hp : s.place with
  | updateTime =>
    have hnil : ∀ g, s.m_tasks g = [] := fun g => h.past g (hp ▸ trivial)
    refine h.quiet (.inl rfl) (fun g => by rw [remaining, remaining, hp]; rfl) (fun _ => rfl) rfl
      (fun g hg => absurd hg id) fun k _ g e he => ?_
    have he : e ∈ s.m_tasks g := he
    rw [hnil g] at he
    exact absurd he List.not_mem_nil
  | mergeEvents k =>
    dsimp only
    split_ifs
    · exact flow_mergeThread h hp
    · exact h.quiet (.inl rfl) (fun g => by rw [remaining, remaining, hp]; rfl) (fun _ => rfl) rfl
        (fun g hg => absurd hg id) (by rintro _ ⟨⟩)
  | checkPendingTasks =>
    refine h.quiet (.inl rfl) (fun g => by rw [remaining, remaining, hp]; rfl) (fun _ => rfl) rfl (fun g hg => ?_) (by rintro _ ⟨⟩)
    exact absurd hg (Nat.not_lt_zero _)
  | executeEvents g => exact flow_executeEvents h threads hp
  | serialEvents g i => exact flow_executeSerialEvents h hp
  | serialRuns g i =>
    exact h.quiet (.inl rfl) (fun g' => by rw [remaining, remaining, hp]; rfl) (fun _ => rfl) rfl
      (fun g' hg => h.past g' (hp ▸ hg)) (by rintro _ ⟨⟩)
  | parallelEvents g waiting running =>
    dsimp only
    split_ifs with hdone
    · refine flow_clearGroup h ?_ (fun g' hg' => ?_) fun g' => by rw [hp]; rfl
      · rw [remaining, hp]
        exact (if_pos rfl).trans hdone.1
      · rw [remaining, hp]
        exact if_neg hg'
    · exact h
  | scheduledEvents i =>
    have hnil : ∀ g, s.m_tasks g = [] := fun g => h.past g (hp ▸ trivial)
    have hrem : ∀ g, remaining s g = s.m_tasks g := fun g => by rw [remaining, hp]
    dsimp only [executeScheduledEvents]
    split
    · exact h.quiet (.inl rfl) (fun g => (hrem g).symm) (fun _ => rfl) rfl (fun g _ => hnil g) (by rintro _ ⟨⟩)
    · rename_i id _
      split_ifs
      · exact h.quiet (.inl rfl) (fun g => (hrem g).symm) (fun _ => rfl) rfl (fun g _ => hnil g) (by rintro _ ⟨⟩)
      · exact h.quiet (.inl rfl) (fun g => (hrem g).symm) (fun _ => rfl) rfl (fun g _ => hnil g) (by rintro _ ⟨⟩)
      · exact h.quiet (.inr ⟨.ran id s.now, trivial, rfl⟩) (fun g => (hrem g).symm) (fun _ => rfl) rfl
          (fun g _ => hnil g) (by rintro _ ⟨⟩)
  | scheduledRuns i =>
    have hnil : ∀ g, s.m_tasks g = [] := fun g => h.past g (hp ▸ trivial)
    have hrem : ∀ g, remaining s g = s.m_tasks g := fun g => by rw [remaining, hp]
    dsimp only [afterScheduled]
    split
    · exact h.quiet (.inl rfl) (fun g => (hrem g).symm) (fun _ => rfl) rfl (fun g _ => hnil g) (by rintro _ ⟨⟩)
    · split_ifs
      · refine h.quiet (.inl rfl) (fun g => (hrem g).symm) (fun t => ?_) rfl (fun g _ => hnil g) (by rintro _ ⟨⟩)
        by_cases ht : t = threads.own
        · subst ht
          simp [State.setThread, State.goTo, State.setTask]
        · simp [State.setThread, State.goTo, State.setTask, Function.update_of_ne ht]
      · exact h.quiet (.inl rfl) (fun g => (hrem g).symm) (fun _ => rfl) rfl (fun g _ => hnil g) (by rintro _ ⟨⟩)
  | readPending =>
    have hnil : ∀ g, s.m_tasks g = [] := fun g => h.past g (hp ▸ trivial)
    have hrem : ∀ g, remaining s g = s.m_tasks g := fun g => by rw [remaining, hp]
    dsimp only
    split_ifs
    · exact h.quiet (.inl rfl) (fun g => (hrem g).symm) (fun _ => rfl) rfl (fun g _ => hnil g) (by rintro _ ⟨⟩)
    · exact h.quiet (.inl rfl) (fun g => (hrem g).symm) (fun _ => rfl) rfl (fun g _ => hnil g) (by rintro _ ⟨⟩)
  | enterWait | waits =>
    have hnil : ∀ g, s.m_tasks g = [] := fun g => h.past g (hp ▸ trivial)
    exact h.quiet (.inl rfl) (fun g => by rw [remaining, remaining, hp]; rfl) (fun _ => rfl) rfl (fun g _ => hnil g) (by rintro _ ⟨⟩)

theorem flow_step (h : Flow s) (hpar : Parallel s) (threads : Threads) (a : Action) :
    Flow (step threads s a) ∧ Parallel (step threads s a) := by
  have hcall : ∀ s' : State, Flow s' → s'.place = s.place ∨ (∃ n, s'.place = .waits n) → Flow s' ∧ Parallel s' := by
    rintro s' h' (hplace | ⟨n, hplace⟩)
    · refine ⟨h', fun g w r hg => hpar g w r (hplace ▸ hg)⟩
    · exact ⟨h', parallel_of_ne (hplace ▸ nofun)⟩
  have hnotifies : ∀ {s' : State}, Notifies s s' → s'.place = s.place ∨ ∃ n, s'.place = .waits n := fun hn =>
    hn.place.imp id fun hw => ⟨true, hw.2⟩
  cases a with
  | addEvent thread ms =>
    dsimp only [step]
    split_ifs
    · exact hcall _ (flow_emplace h thread .Serial ms) (hnotifies (notifies_emplace s thread .Serial ms))
    · exact ⟨h, hpar⟩
  | addWalkEvent thread ms =>
    dsimp only [step]
    split_ifs
    · exact hcall _ (flow_emplace h thread .Walk ms) (hnotifies (notifies_emplace s thread .Walk ms))
    · exact ⟨h, hpar⟩
  | asyncEvent thread group =>
    dsimp only [step]
    split_ifs
    · exact hcall _ (flow_emplace h thread group 0) (hnotifies (notifies_emplace s thread group 0))
    · exact ⟨h, hpar⟩
  | scheduleEvent thread utime delay cycle =>
    dsimp only [step]
    split_ifs
    · exact hcall _ (flow_scheduleEvent h thread utime delay cycle)
        (hnotifies (notifies_scheduleEvent s thread utime delay cycle))
    · exact ⟨h, hpar⟩
  | stopEvent id =>
    refine hcall _ (flow_stopEvent h id) (.inl ?_)
    dsimp only [step, stopEvent]
    split_ifs <;> rfl
  | advance time => exact ⟨flow_advance h threads time, parallel_advance hpar threads time⟩
  | startParallel n =>
    refine ⟨flow_startParallel h n hpar, ?_⟩
    dsimp only [step, startParallel]
    split
    · rename_i g w r hp
      split
      · exact hpar
      · rintro g' w' r' hg
        cases hg
        exact hpar g w r hp
    · exact hpar
  | finishParallel n =>
    refine ⟨flow_finishParallel h n, ?_⟩
    dsimp only [step, finishParallel]
    split
    · rename_i g w r hp
      rintro g' w' r' hg
      cases hg
      exact hpar g w r hp
    · exact hpar

theorem flow_run (threads : Threads) (ops : List Action) : Flow (Lib.run (step threads) start ops) :=
  (Lib.run_induction (fun s => Flow s ∧ Parallel s) (fun _ a hs => flow_step hs.1 hs.2 threads a) ops
    ⟨flow_start, parallel_of_ne nofun⟩).1

/-- Between two rounds everything that was merged is done. -/
theorem Flow.finished (h : Flow s) (hplace : s.place = .updateTime) {t : Nat} {g : TaskGroup} {e : Event}
    (he : e ∈ added t g (beforeMerge t s.log)) : e ∈ done t g s.log := by
  have hnil : remaining s g = [] := by
    rw [remaining, hplace]
    exact h.past g (hplace ▸ trivial)
  have hperm := (h.same t g).1
  rw [hnil, h.unmerged, ← before_since t s.log, added_append, before_since, List.filter_nil, List.append_nil] at hperm
  exact ((List.perm_append_right_iff _).mp hperm).mem_iff.mp he

end Dispatcher
end CrystalServer
