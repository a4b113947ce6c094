import CrystalServer.Game.SaveManager

/-! # No scheduled save is lost

As long as a player was not saved after the last request for him, some request is left that will save him: one that has
passed its check, or one whose time stands in `m_playerMap`. -/

namespace CrystalServer.SaveManager
open Lib

/-- Each request for the player was followed by a save of him. -/
def SavedSince (log : List Entry) (player : UInt32) : Prop :=
  ∀ xs ys, log = xs ++ .schedulePlayer player :: ys → .savePlayer player ∈ ys

/-- The request has passed its check, or would pass it now. -/
def Covers (s : State) (player : UInt32) (j : Job) : Prop :=
  j.player = player ∧
    (j.stage = .checked ∨ (j.stage = .scheduled ∨ j.stage = .detached) ∧ s.m_playerMap player = some j.scheduledAt)

/-- The player was saved after the last request, or a request is left that will save him. -/
def Covered (s : State) (player : UInt32) : Prop :=
  SavedSince s.log player ∨ ∃ j ∈ s.jobs, Covers s player j

/-- The task would skip: its own time does not stand in `m_playerMap`. -/
def Skips (s : State) (j : Job) : Prop := j.stage = .detached ∧ s.m_playerMap j.player ≠ some j.scheduledAt

variable {s : State} {log : List Entry} {player p : UInt32}

theorem savedSince_save (log : List Entry) (p : UInt32) : SavedSince (log ++ [.savePlayer p]) p := by
  intro xs ys h
  rcases List.append_eq_append_iff.mp h with ⟨zs, -, hzs⟩ | ⟨zs, -, hzs⟩
  · rcases zs with - | ⟨z, zs⟩
    · cases hzs
    · obtain ⟨-, hzs⟩ := List.cons.inj hzs
      cases zs <;> cases hzs
  · rcases zs with - | ⟨z, zs⟩
    · cases hzs
    · obtain ⟨rfl, rfl⟩ := List.cons.inj hzs
      simp

/-- What is entered of others changes nothing. -/
theorem savedSince_append {e : Entry} (h : SavedSince log p) (he : e ≠ .schedulePlayer p) :
    SavedSince (log ++ [e]) p := by
  intro xs ys heq
  rcases List.eq_nil_or_concat' ys with rfl | ⟨ys, y, rfl⟩
  · obtain ⟨-, hlast⟩ := List.append_inj' heq rfl
    exact absurd (List.cons.inj hlast).1 he
  · rw [← List.cons_append, ← List.append_assoc] at heq
    obtain ⟨hlog, -⟩ := List.append_inj' heq rfl
    exact List.mem_append_left _ (h xs ys hlog)

theorem savedSince_save_append (h : SavedSince log p) (player : UInt32) :
    SavedSince (log ++ [.savePlayer player]) p := savedSince_append h nofun

/-! ### What a step keeps -/

/-- A save settles what was requested for its player and leaves the others alone. -/
theorem Covered.save {jobs : List Job} (h : Covered s p) (player : UInt32)
    (hjobs : ∀ j ∈ s.jobs, j.player = p → p ≠ player → j ∈ jobs) :
    Covered { doSavePlayer s player with jobs := jobs } p := by
  by_cases hp : p = player
  · subst hp
    exact Or.inl (savedSince_save s.log p)
  · rcases h with h | ⟨j, hj, hplayer, hc⟩
    · exact Or.inl (savedSince_save_append h player)
    · refine Or.inr ⟨j, hjobs j hj hplayer hp, hplayer, ?_⟩
      rcases hc with hc | ⟨hc, hmap⟩
      · exact Or.inl hc
      · exact Or.inr ⟨hc, (if_neg hp).trans hmap⟩

theorem mem_set_of_ne {l : List Job} {i : Nat} {j j' k : Job} (hi : l[i]? = some j) (hk : k ∈ l) (hne : k ≠ j) :
    k ∈ l.set i j' := by
  obtain ⟨m, hm⟩ := List.mem_iff_getElem?.mp hk
  refine List.mem_iff_getElem?.mpr ⟨m, ?_⟩
  rw [List.getElem?_set_ne, hm]
  rintro rfl
  exact hne (Option.some.inj (hm.symm.trans hi))

theorem mem_eraseIdx_of_ne {l : List Job} {i : Nat} {j k : Job} (hi : l[i]? = some j) (hk : k ∈ l) (hne : k ≠ j) :
    k ∈ l.eraseIdx i := by
  obtain ⟨m, hm⟩ := List.mem_iff_getElem?.mp hk
  refine List.mem_eraseIdx_iff_getElem?.mpr ⟨m, ?_, hm⟩
  rintro rfl
  exact hne (Option.some.inj (hm.symm.trans hi))

theorem mem_set_self {l : List Job} {i : Nat} {j j' : Job} (hi : l[i]? = some j) : j' ∈ l.set i j' := by
  obtain ⟨hlt, -⟩ := List.getElem?_eq_some_iff.mp hi
  exact List.mem_set hlt j'

/-- Where a request moves on and still covers its player, every player stays covered. -/
theorem Covered.advance {i : Nat} {j j' : Job} (h : Covered s p) (hi : s.jobs[i]? = some j)
    (hj : Covers s p j → Covers s p j') : Covered { s with jobs := s.jobs.set i j' } p := by
  rcases h with h | ⟨k, hk, hc⟩
  · exact Or.inl h
  · by_cases hkj : k = j
    · subst hkj
      exact Or.inr ⟨j', mem_set_self hi, hj hc⟩
    · exact Or.inr ⟨k, mem_set_of_ne hi hk hkj, hc⟩

/-- A task that skips was not the one that covers its player. -/
theorem Covered.skip {i : Nat} {j : Job} (h : Covered s p) (hi : s.jobs[i]? = some j) (hj : Skips s j) :
    Covered { s with jobs := s.jobs.eraseIdx i } p := by
  rcases h with h | ⟨k, hk, hc⟩
  · exact Or.inl h
  · refine Or.inr ⟨k, mem_eraseIdx_of_ne hi hk ?_, hc⟩
    rintro rfl
    obtain ⟨rfl, hc | ⟨-, hmap⟩⟩ := hc
    · rw [hj.1] at hc
      cases hc
    · exact hj.2 hmap

/-- The request that writes the map covers its player; another player's entries stay. -/
theorem Covered.schedule {i : Nat} {j : Job} (h : Covered s p) (hi : s.jobs[i]? = some j) (hj : j.stage = .clocked) :
    Covered (proceed s i) p := by
  unfold proceed
  rw [hi]
  dsimp only
  rw [hj]
  dsimp only
  by_cases hp : p = j.player
  · subst hp
    exact Or.inr ⟨_, mem_set_self hi, rfl, Or.inr ⟨Or.inl rfl, if_pos rfl⟩⟩
  · rcases h with h | ⟨k, hk, hplayer, hc⟩
    · refine Or.inl (savedSince_append h fun he => hp ?_)
      cases he
      rfl
    · have hkj : k ≠ j := by
        rintro rfl
        exact hp hplayer.symm
      refine Or.inr ⟨k, mem_set_of_ne hi hk hkj, hplayer, ?_⟩
      rcases hc with hc | ⟨hc, hmap⟩
      · exact Or.inl hc
      · exact Or.inr ⟨hc, (if_neg hp).trans hmap⟩

theorem Covered.proceed (h : Covered s p) (i : Nat) : Covered (proceed s i) p := by
  cases hi : s.jobs[i]? with
  | none =>
    unfold SaveManager.proceed
    rwa [hi]
  | some j =>
    cases hj : j.stage with
    | clocked => exact h.schedule hi hj
    | scheduled =>
      unfold SaveManager.proceed
      rw [hi]
      dsimp only
      rw [hj]
      refine h.advance hi fun ⟨hplayer, hc⟩ => ⟨hplayer, Or.inr ⟨Or.inr rfl, ?_⟩⟩
      rcases hc with hc | ⟨-, hmap⟩
      · rw [hj] at hc
        cases hc
      · exact hmap
    | detached =>
      unfold SaveManager.proceed
      rw [hi]
      dsimp only
      rw [hj]
      dsimp only
      split_ifs with hmap
      · exact h.advance hi fun hc => ⟨hc.1, Or.inl rfl⟩
      · exact h.skip hi ⟨hj, hmap⟩
    | checked =>
      unfold SaveManager.proceed
      rw [hi]
      dsimp only
      rw [hj]
      refine h.save j.player fun k hk hplayer hp => mem_eraseIdx_of_ne hi hk ?_
      rintro rfl
      exact hp hplayer.symm

theorem covered_step (async : Bool) (e : Event) (h : Covered s p) : Covered (step async s e) p := by
  cases e with
  | wait ticks => exact h
  | schedulePlayer player =>
    unfold step
    dsimp only
    split_ifs
    · by_cases hp : p = player
      · subst hp
        exact Or.inl (savedSince_save _ p)
      · have hlog : Covered { s with log := s.log ++ [.schedulePlayer player] } p := by
          refine h.imp_left fun h => savedSince_append h fun he => hp ?_
          cases he
          rfl
        exact hlog.save player fun j hj _ _ => hj
    · rcases h with h | ⟨j, hj, hc⟩
      · exact Or.inl h
      · exact Or.inr ⟨j, List.mem_append_left _ hj, hc⟩
  | doSavePlayer player => exact h.save player fun j hj _ _ => hj
  | proceed i => exact h.proceed i

/-- In every run, each player is covered. -/
theorem covered_run (async : Bool) (now : Nat) (events : List Event) (p : UInt32) :
    Covered (run (step async) (State.init now) events) p := by
  refine run_induction (fun s => Covered s p) (fun _ e h => covered_step async e h) events (Or.inl fun xs ys h => ?_)
  cases xs <;> cases h

/-- In every run of `schedulePlayer`, `doSavePlayer` and the tasks: once no request is left, each request for a player
was followed by a save of him; and when a task skips, its player was saved after his last request or another request is
left that will save him. -/
theorem schedulePlayer_saved (async : Bool) (now : Nat) (events : List Event) :
    ((run (step async) (State.init now) events).jobs = [] →
      ∀ player, SavedSince (run (step async) (State.init now) events).log player) ∧
    ∀ i j, (run (step async) (State.init now) events).jobs[i]? = some j →
      Skips (run (step async) (State.init now) events) j →
      SavedSince (run (step async) (State.init now) events).log j.player ∨
        ∃ k ∈ (run (step async) (State.init now) events).jobs.eraseIdx i,
          Covers (run (step async) (State.init now) events) j.player k := by
  constructor
  · intro hjobs player
    rcases covered_run async now events player with h | ⟨j, hj, -⟩
    · exact h
    · rw [hjobs] at hj
      cases hj
  · intro i j hi hj
    exact (covered_run async now events j.player).skip hi hj

/-- Two requests at one time, the first task run after both: the second task skips. -/
theorem schedulePlayer_saved_twice :
    SavedSince (run (step true) (State.init 5) [.schedulePlayer 7, .proceed 0, .proceed 0, .schedulePlayer 7, .proceed 1,
      .proceed 0, .proceed 0, .proceed 0, .proceed 0]).log 7 :=
  (schedulePlayer_saved true 5 _).1 (by decide) 7

end CrystalServer.SaveManager
