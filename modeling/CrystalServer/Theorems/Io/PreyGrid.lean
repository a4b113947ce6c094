import CrystalServer.Theorems.Io.Prey
import Mathlib.Data.List.GetD

/-! # Whether a list can be filled

Every creature that is drawn is put on the black list, chosen or not, so those that are left get fewer. What is left and
what is chosen tell whether some way to draw still ends the loop. -/

namespace CrystalServer.Prey
open Lib (run run_append run_induction)

variable {env : PreyEnv} {g g' : Grid} {blackList : List UInt16} {raceId : UInt16} {draws rest : List Nat}

/-- A creature that may come to a list. -/
def PreyEnv.eligible (env : PreyEnv) (raceId : UInt16) : Bool :=
  (env.getMonsterTypeByRaceId raceId).any fun mtype =>
    mtype.experience ≠ 0 && mtype.isPreyable && !mtype.isPreyExclusive

/-- Nine creatures, none of them twice and none of the black list. -/
structure Complete (blackList raceIdList : List UInt16) : Prop where
  length : raceIdList.length = 9
  nodup : raceIdList.Nodup
  new : ∀ raceId ∈ raceIdList, raceId ∉ blackList

namespace Grid

/-- One pass of the loop, with the number that was drawn. -/
def draw (env : PreyEnv) (g : Grid) (draw : Nat) : Grid :=
  g.next env (env.bestiary.getD (uniformRandom 0 (env.bestiary.length - 1) draw) 0)

/-- The creatures that can still be chosen. -/
def fresh (env : PreyEnv) (g : Grid) : List UInt16 :=
  env.bestiary.filter fun raceId => env.eligible raceId && raceId ∉ g.blackList

/-- No stage is used up. -/
def Open (g : Grid) : Prop := g.stageOne ≠ 0 ∧ g.stageTwo ≠ 0 ∧ g.stageThree ≠ 0 ∧ g.stageFour ≠ 0

/-! ### One pass -/

/-- A creature of the black list is passed over, any other one comes on it. If it may be chosen it is, unless its stage is
    used up and the last one was let in less than ten tries ago. -/
inductive Drawn (env : PreyEnv) (g : Grid) (raceId : UInt16) : Grid → Prop
  | again (black : raceId ∈ g.blackList) : Drawn env g raceId { g with tries := g.tries + 1 }
  | passed {g' : Grid} (new : raceId ∉ g.blackList) (blackList : g'.blackList = g.blackList ++ [raceId])
      (raceIdList : g'.raceIdList = g.raceIdList)
      (why : env.eligible raceId = true → ¬g.Open ∧ ¬g.tries + 1 ≥ 10) : Drawn env g raceId g'
  | chosen {g' : Grid} (new : raceId ∉ g.blackList) (eligible : env.eligible raceId = true)
      (blackList : g'.blackList = g.blackList ++ [raceId]) (raceIdList : g'.raceIdList = g.raceIdList ++ [raceId]) :
      Drawn env g raceId g'

theorem next_drawn (env : PreyEnv) (g : Grid) (raceId : UInt16) : g.Drawn env raceId (g.next env raceId) := by
  unfold next
  dsimp only
  by_cases hblack : raceId ∈ g.blackList
  · rw [if_pos (List.count_pos_iff.mpr hblack).ne']
    exact .again hblack
  · rw [if_neg fun hne => hne (List.count_eq_zero.mpr hblack)]
    cases hm : env.getMonsterTypeByRaceId raceId with
    | none => exact .passed hblack rfl rfl fun he => by simp [PreyEnv.eligible, hm] at he
    | some mtype =>
      dsimp only
      by_cases hskip : mtype.experience = 0 ∨ !mtype.isPreyable ∨ mtype.isPreyExclusive
      · rw [if_pos hskip]
        refine .passed hblack rfl rfl fun he => ?_
        simp only [PreyEnv.eligible, hm, Option.any_some, Bool.and_eq_true, Bool.not_eq_true', decide_eq_true_eq] at he
        obtain ⟨⟨hexp, hprey⟩, hexcl⟩ := he
        simp [hexp, hprey, hexcl] at hskip
      · rw [if_neg hskip]
        have he : env.eligible raceId = true := by
          simp only [not_or, Bool.not_eq_true', Bool.not_eq_false, Bool.not_eq_true] at hskip
          simp [PreyEnv.eligible, hm, hskip]
        split_ifs with h₁ h₂ h₃ h₄ htries
        · exact .chosen hblack he rfl rfl
        · exact .chosen hblack he rfl rfl
        · exact .chosen hblack he rfl rfl
        · exact .chosen hblack he rfl rfl
        · exact .chosen hblack he rfl rfl
        · refine .passed hblack rfl rfl fun _ => ⟨fun hopen => ?_, htries⟩
          -- one of the four stages would have taken it
          obtain ⟨ho₁, ho₂, ho₃, ho₄⟩ := hopen
          have hs₁ := fun h => h₁ ⟨ho₁, h⟩
          have hs₂ := fun h => h₂ ⟨ho₂, h⟩
          have hs₃ := fun h => h₃ ⟨ho₃, h⟩
          have hs₄ := fun h => h₄ ⟨ho₄, h⟩
          simp only [UInt8.le_iff_toNat_le, ← UInt8.toNat_inj, ge_iff_le] at hs₁ hs₂ hs₃ hs₄
          change ¬_ ≤ 1 at hs₁
          change ¬_ = 2 at hs₂
          change ¬_ = 3 at hs₃
          change ¬4 ≤ _ at hs₄
          omega

theorem start_open (blackList : List UInt16) (level : UInt32) : (start blackList level).Open := by
  unfold start Open
  dsimp only
  split_ifs <;> simp

theorem start_eq (blackList : List UInt16) (level : UInt32) :
    (start blackList level).raceIdList = [] ∧ (start blackList level).blackList = blackList := by
  unfold start
  dsimp only
  split_ifs <;> exact ⟨rfl, rfl⟩

/-- What is put on the black list is not fresh any more. -/
theorem fresh_of_blackList (hn : env.bestiary.Nodup) (h : g'.blackList = g.blackList ++ [raceId]) :
    g'.fresh env = (g.fresh env).erase raceId := by
  unfold fresh
  rw [(hn.filter _).erase_eq_filter, List.filter_filter, h]
  refine List.filter_congr fun x _ => ?_
  by_cases hx : x = raceId <;> simp [hx]

/-- Of those chosen and those left there are never more than before. -/
theorem Drawn.count_le (hn : env.bestiary.Nodup) (hmem : raceId ∈ env.bestiary) (h : g.Drawn env raceId g') :
    g'.raceIdList.length + (g'.fresh env).length ≤ g.raceIdList.length + (g.fresh env).length := by
  cases h with
  | again black => exact le_rfl
  | passed new hblack hlist why =>
    rw [fresh_of_blackList hn hblack, hlist]
    exact Nat.add_le_add_left (List.length_erase_le ..) _
  | chosen new eligible hblack hlist =>
    have hm : raceId ∈ g.fresh env := List.mem_filter.mpr ⟨hmem, by simp [eligible, new]⟩
    have hpos := List.length_pos_of_mem hm
    rw [fresh_of_blackList hn hblack, hlist, List.length_append, List.length_singleton, List.length_erase_of_mem hm]
    omega

theorem Drawn.length_le (h : g.Drawn env raceId g') :
    g.raceIdList.length ≤ g'.raceIdList.length ∧ g'.raceIdList.length ≤ g.raceIdList.length + 1 := by
  cases h with
  | again black => exact ⟨le_rfl, Nat.le_succ _⟩
  | passed new hblack hlist why =>
    rw [hlist]
    exact ⟨le_rfl, Nat.le_succ _⟩
  | chosen new eligible hblack hlist =>
    rw [hlist, List.length_append, List.length_singleton]
    exact ⟨Nat.le_succ _, le_rfl⟩

/-- A number draws a creature of the bestiary. -/
theorem draw_eq (hpos : 0 < env.bestiary.length) (n : Nat) : ∃ raceId ∈ env.bestiary, ∀ g : Grid,
    g.draw env n = g.next env raceId := by
  have hlt : uniformRandom 0 (env.bestiary.length - 1) n < env.bestiary.length := by
    unfold uniformRandom
    have := Nat.mod_lt n (show 0 < env.bestiary.length - 1 + 1 - 0 by omega)
    omega
  refine ⟨_, List.getElem_mem hlt, fun g => ?_⟩
  unfold draw
  rw [List.getD_eq_getElem _ _ hlt]

/-- Every creature of the bestiary is drawn by some number. -/
theorem exists_draw (hmem : raceId ∈ env.bestiary) : ∃ n, ∀ g : Grid, g.draw env n = g.next env raceId := by
  obtain ⟨n, hlt, rfl⟩ := List.mem_iff_getElem.mp hmem
  refine ⟨n, fun g => ?_⟩
  unfold draw uniformRandom
  rw [Nat.zero_add, Nat.mod_eq_of_lt (by omega), List.getD_eq_getElem _ _ hlt]

/-! ### The loop -/

/-- What the loop keeps while it chooses from what was not black-listed at first. -/
structure Filling (blackList : List UInt16) (g : Grid) : Prop where
  distinct : g.Distinct
  kept : ∀ raceId ∈ blackList, raceId ∈ g.blackList
  new : ∀ raceId ∈ g.raceIdList, raceId ∉ blackList

theorem Filling.next (h : Filling blackList g) (raceId : UInt16) : Filling blackList (g.next env raceId) := by
  have hd : (g.next env raceId).Distinct := h.distinct.next raceId
  have hdrawn := next_drawn env g raceId
  generalize g.next env raceId = g' at hd hdrawn
  cases hdrawn with
  | again black => exact ⟨hd, h.kept, h.new⟩
  | passed new hblack hlist why =>
    refine ⟨hd, fun x hx => ?_, fun x hx => ?_⟩
    · rw [hblack]
      exact List.mem_append_left _ (h.kept x hx)
    · rw [hlist] at hx
      exact h.new x hx
  | chosen new eligible hblack hlist =>
    refine ⟨hd, fun x hx => ?_, fun x hx => ?_⟩
    · rw [hblack]
      exact List.mem_append_left _ (h.kept x hx)
    · rw [hlist] at hx
      rcases List.mem_append.mp hx with hx | hx
      · exact h.new x hx
      · obtain rfl := List.mem_singleton.mp hx
        exact fun hb => new (h.kept _ hb)

theorem filling_start (blackList : List UInt16) (level : UInt32) : Filling blackList (start blackList level) := by
  obtain ⟨hlist, hblack⟩ := start_eq blackList level
  refine ⟨⟨?_, ?_⟩, ?_, ?_⟩
  · rw [hlist]
    exact List.nodup_nil
  · rw [hlist]
    exact nofun
  · rw [hblack]
    exact fun _ h => h
  · rw [hlist]
    exact nofun

/-- Where the loop ends there were nine creatures chosen or left. -/
theorem enough_of_loop (hn : env.bestiary.Nodup) (hpos : 0 < env.bestiary.length) {l : List UInt16}
    (h : g.loop env draws = some (l, rest)) : 9 ≤ g.raceIdList.length + (g.fresh env).length := by
  induction draws generalizing g with
  | nil =>
    rw [loop] at h
    by_cases hlt : g.raceIdList.length < 9
    · rw [if_pos hlt] at h
      cases h
    · omega
  | cons n draws ih =>
    rw [loop] at h
    by_cases hlt : g.raceIdList.length < 9
    · rw [if_pos hlt] at h
      obtain ⟨raceId, hmem, hdraw⟩ := draw_eq hpos n
      have hnext := ih (g := g.draw env n) h
      rw [hdraw] at hnext
      exact hnext.trans ((next_drawn env g raceId).count_le hn hmem)
    · omega

/-- A list that the loop ends with has nine creatures, and what the loop keeps. -/
theorem Filling.loop {l : List UInt16} (h : Filling blackList g) (hle : g.raceIdList.length ≤ 9)
    (hl : g.loop env draws = some (l, rest)) : Complete blackList l := by
  induction draws generalizing g with
  | nil =>
    rw [Grid.loop] at hl
    by_cases hlt : g.raceIdList.length < 9
    · rw [if_pos hlt] at hl
      cases hl
    · rw [if_neg hlt] at hl
      cases hl
      exact ⟨by omega, h.distinct.nodup, h.new⟩
  | cons n draws ih =>
    rw [Grid.loop] at hl
    by_cases hlt : g.raceIdList.length < 9
    · rw [if_pos hlt] at hl
      have hlength := (next_drawn env g (env.bestiary.getD (uniformRandom 0 (env.bestiary.length - 1) n) 0)).length_le
      exact ih (h.next _) (by omega) hl
    · rw [if_neg hlt] at hl
      cases hl
      exact ⟨by omega, h.distinct.nodup, h.new⟩

theorem length_le_run (env : PreyEnv) (g : Grid) (draws : List Nat) :
    g.raceIdList.length ≤ (run (draw env) g draws).raceIdList.length := by
  induction draws generalizing g with
  | nil => exact le_rfl
  | cons n draws ih => exact (next_drawn env g _).length_le.1.trans (ih _)

/-- The loop goes on from where some draws have led. -/
theorem loop_append {drawn : List Nat} (h : (run (draw env) g drawn).raceIdList.length < 9) (draws : List Nat) :
    g.loop env (drawn ++ draws) = (run (draw env) g drawn).loop env draws := by
  induction drawn generalizing g with
  | nil => rfl
  | cons n drawn ih =>
    have hlt : g.raceIdList.length < 9 := (length_le_run env g (n :: drawn)).trans_lt h
    rw [List.cons_append, loop, if_pos hlt]
    exact ih h

/-- Draws that choose nine creatures end the loop. -/
theorem loop_of_run (h : 9 ≤ (run (draw env) g draws).raceIdList.length) :
    ∃ l rest, g.loop env draws = some (l, rest) := by
  induction draws generalizing g with
  | nil => exact ⟨_, _, if_neg (Nat.not_lt.mpr h)⟩
  | cons n draws ih =>
    rw [loop]
    by_cases hlt : g.raceIdList.length < 9
    · rw [if_pos hlt]
      exact ih h
    · rw [if_neg hlt]
      exact ⟨_, _, rfl⟩

/-! ### A way to draw -/

/-- Some creature of the bestiary can be drawn in vain, or every stage takes more. -/
def Ready (env : PreyEnv) (g : Grid) : Prop := (∃ raceId ∈ env.bestiary, raceId ∈ g.blackList) ∨ g.Open

theorem Ready.run (hpos : 0 < env.bestiary.length) (h : g.Ready env) (draws : List Nat) :
    (run (draw env) g draws).Ready env := by
  refine run_induction (fun g : Grid => g.Ready env) (fun g n _ => ?_) draws h
  obtain ⟨raceId, hmem, hdraw⟩ := draw_eq hpos n
  have hdrawn := next_drawn env g raceId
  rw [hdraw]
  refine Or.inl ⟨raceId, hmem, ?_⟩
  generalize g.next env raceId = g' at hdrawn
  cases hdrawn with
  | again black => exact black
  | passed new hblack hlist why =>
    rw [hblack]
    exact List.mem_append_right _ (List.mem_singleton_self raceId)
  | chosen new eligible hblack hlist =>
    rw [hblack]
    exact List.mem_append_right _ (List.mem_singleton_self raceId)

/-- Draws in vain only count the tries. -/
theorem run_vain (hblack : raceId ∈ g.blackList) {n : Nat} (hn : ∀ g : Grid, g.draw env n = g.next env raceId) (k : Nat) :
    run (draw env) g (List.replicate k n) = { g with tries := g.tries + .ofNat k } := by
  induction k generalizing g with
  | zero => simp
  | succ k ih =>
    have hnext : g.next env raceId = { g with tries := g.tries + 1 } := by
      have hdrawn := next_drawn env g raceId
      generalize g.next env raceId = g' at hdrawn
      cases hdrawn with
      | again black => rfl
      | passed new _ _ _ => exact absurd hblack new
      | chosen new _ _ _ => exact absurd hblack new
    rw [List.replicate_succ, Lib.run_cons, hn, hnext, ih (g := { g with tries := g.tries + 1 }) hblack]
    simp [UInt8.ofNat_add, UInt8.add_assoc, UInt8.add_comm]

/-- While a creature is fresh there is a way to choose it. -/
theorem exists_chosen (hn : env.bestiary.Nodup) (h : g.Ready env) (hfresh : 0 < (g.fresh env).length) :
    ∃ drawn, (run (draw env) g drawn).raceIdList.length = g.raceIdList.length + 1 ∧
      ((run (draw env) g drawn).fresh env).length + 1 = (g.fresh env).length := by
  obtain ⟨raceId, hm⟩ := List.exists_mem_of_length_pos hfresh
  obtain ⟨hmem, hcond⟩ := List.mem_filter.mp hm
  simp only [Bool.and_eq_true, decide_eq_true_eq] at hcond
  obtain ⟨heligible, hnew⟩ := hcond
  obtain ⟨n, hdraw⟩ := exists_draw hmem
  have hchosen : ∀ g₁ : Grid, g₁.blackList = g.blackList → g₁.raceIdList = g.raceIdList →
      g₁.Open ∨ g₁.tries + 1 ≥ 10 → (g₁.next env raceId).raceIdList.length = g.raceIdList.length + 1 ∧
        ((g₁.next env raceId).fresh env).length + 1 = (g.fresh env).length := by
    intro g₁ hblack₁ hlist₁ hwhy
    have hdrawn := next_drawn env g₁ raceId
    generalize g₁.next env raceId = g' at hdrawn
    cases hdrawn with
    | again black => exact absurd (hblack₁ ▸ black) hnew
    | passed new hblack hlist why =>
      obtain ⟨hopen, htries⟩ := why heligible
      exact (hwhy.elim hopen htries).elim
    | chosen new eligible hblack hlist =>
      rw [hlist, hlist₁, List.length_append, List.length_singleton]
      rw [hblack₁] at hblack
      rw [fresh_of_blackList hn hblack, List.length_erase_of_mem hm]
      exact ⟨rfl, by omega⟩
  rcases h with ⟨x, hx, hblack⟩ | hopen
  · -- drawn in vain until the next creature is let in
    obtain ⟨m, hdraw'⟩ := exists_draw hx
    refine ⟨List.replicate (9 - g.tries).toNat m ++ [n], ?_⟩
    rw [run_append, run_vain hblack hdraw', Lib.run_cons, Lib.run_nil, hdraw]
    have htries : g.tries + (9 - g.tries) = 9 := by rw [UInt8.add_comm, UInt8.sub_add_cancel]
    refine hchosen _ rfl rfl (Or.inr ?_)
    rw [UInt8.ofNat_toNat]
    dsimp only
    rw [htries]
    decide
  · refine ⟨[n], ?_⟩
    rw [Lib.run_cons, Lib.run_nil, hdraw]
    exact hchosen g rfl rfl (Or.inl hopen)

/-- While nine creatures are chosen or fresh, some way to draw chooses nine. -/
theorem exists_finish (hn : env.bestiary.Nodup) (hpos : 0 < env.bestiary.length) (h : g.Ready env)
    (henough : 9 ≤ g.raceIdList.length + (g.fresh env).length) :
    ∃ drawn, 9 ≤ (run (draw env) g drawn).raceIdList.length := by
  generalize hk : 9 - g.raceIdList.length = k
  induction k generalizing g with
  | zero => exact ⟨[], by rw [Lib.run_nil]; omega⟩
  | succ k ih =>
    obtain ⟨drawn, hlist, hfresh⟩ := exists_chosen hn h (by omega)
    obtain ⟨more, hmore⟩ := ih (h.run hpos drawn) (by omega) (by omega)
    exact ⟨drawn ++ more, by rw [run_append]; exact hmore⟩

end Grid

/-- After some draws the loop can still end exactly where those chosen and those still fresh are nine. -/
theorem loop_finishes_iff (hn : env.bestiary.Nodup) (hpos : 0 < env.bestiary.length) (level : UInt32) {drawn : List Nat}
    (hopen : (run (Grid.draw env) (Grid.start blackList level) drawn).raceIdList.length < 9) :
    (∃ draws l rest, (Grid.start blackList level).loop env (drawn ++ draws) = some (l, rest) ∧ Complete blackList l) ↔
      9 ≤ (run (Grid.draw env) (Grid.start blackList level) drawn).raceIdList.length +
        ((run (Grid.draw env) (Grid.start blackList level) drawn).fresh env).length := by
  constructor
  · rintro ⟨draws, l, rest, hl, -⟩
    rw [Grid.loop_append hopen] at hl
    exact Grid.enough_of_loop hn hpos hl
  · intro henough
    have hready := Grid.Ready.run hpos (Or.inr (Grid.start_open blackList level)) drawn
    obtain ⟨draws, hdraws⟩ := Grid.exists_finish hn hpos hready henough
    obtain ⟨l, rest, hl⟩ := Grid.loop_of_run hdraws
    rw [← Grid.loop_append hopen] at hl
    refine ⟨draws, l, rest, hl, (Grid.filling_start blackList level).loop ?_ hl⟩
    rw [(Grid.start_eq blackList level).1]
    exact Nat.zero_le 9

/-- A slot with the list that the loop ends with. -/
theorem exists_slot_iff {α : Type} {o : Option (List UInt16 × List Nat)} {P : List UInt16 → Prop} (put : List UInt16 → α)
    (raceIdList : α → List UInt16) (hput : ∀ l, raceIdList (put l) = l) :
    (∃ slot rest, o.map (fun r => (put r.1, r.2)) = some (slot, rest) ∧ P (raceIdList slot)) ↔
      ∃ l rest, o = some (l, rest) ∧ P l := by
  constructor
  · rintro ⟨slot, rest, h, hP⟩
    obtain ⟨⟨l, rest'⟩, ho, heq⟩ := Option.map_eq_some_iff.mp h
    cases heq
    exact ⟨l, rest', ho, hput l ▸ hP⟩
  · rintro ⟨l, rest, rfl, hP⟩
    exact ⟨put l, rest, rfl, (hput l).symm ▸ hP⟩

/-- The list of a prey slot or of a hunting task can still be filled, whatever was drawn so far, exactly where those
    chosen and those still fresh are nine. -/
theorem finishes_iff (env : TaskHuntingEnv) (hn : env.bestiary.Nodup) (hsize : 36 ≤ env.bestiary.length)
    (blackList : List UInt16) (level : UInt32) (drawn : List Nat)
    (hopen : (run (Grid.draw env.toPreyEnv) (Grid.start blackList level) drawn).raceIdList.length < 9) :
    let g := run (Grid.draw env.toPreyEnv) (Grid.start blackList level) drawn
    let enough := 9 ≤ g.raceIdList.length + (g.fresh env.toPreyEnv).length
    (env.PREY_ENABLED = true → ∀ slot : PreySlot,
      ((∃ draws slot' rest, slot.reloadMonsterGrid env.toPreyEnv blackList level (drawn ++ draws) = some (slot', rest) ∧
        Complete blackList slot'.raceIdList) ↔ enough)) ∧
    (env.TASK_HUNTING_ENABLED = true → ∀ slot : TaskHuntingSlot,
      ((∃ draws slot' rest, slot.reloadMonsterGrid env blackList level (drawn ++ draws) = some (slot', rest) ∧
        Complete blackList slot'.raceIdList) ↔ enough)) := by
  have hiff := loop_finishes_iff hn (by omega) level hopen
  refine ⟨fun henabled slot => ?_, fun henabled slot => ?_⟩
  · have hreload : ∀ draws, slot.reloadMonsterGrid env.toPreyEnv blackList level draws =
        ((Grid.start blackList level).loop env.toPreyEnv draws).map fun r => ({ slot with raceIdList := r.1 }, r.2) :=
      fun draws => if_neg (by simp [henabled, hsize])
    rw [← hiff]
    refine exists_congr fun draws => ?_
    rw [hreload]
    exact exists_slot_iff (fun l => { slot with raceIdList := l }) PreySlot.raceIdList fun _ => rfl
  · have hreload : ∀ draws, slot.reloadMonsterGrid env blackList level draws =
        ((Grid.start blackList level).loop env.toPreyEnv draws).map fun r => ({ slot with raceIdList := r.1 }, r.2) :=
      fun draws => if_neg (by simp [henabled, hsize])
    rw [← hiff]
    refine exists_congr fun draws => ?_
    rw [hreload]
    exact exists_slot_iff (fun l => { slot with raceIdList := l }) TaskHuntingSlot.raceIdList fun _ => rfl

/-! ### Creatures of one star -/

/-- Thirty-six creatures, all of them of one star. -/
def oneStar : TaskHuntingEnv where
  toPreyEnv :=
    { configured 7200 with
      bestiary := (List.range 36).map fun n => .ofNat (n + 1)
      getMonsterTypeByRaceId := fun _ => some ⟨100, true, false, 1⟩ }
  TASK_HUNTING_ENABLED := true

theorem oneStar_nodup : oneStar.bestiary.Nodup := by decide

/-- A new player at the first draw. -/
theorem finishes_oneStar : ∃ draws slot' rest,
    PreySlot.reloadMonsterGrid oneStar.toPreyEnv {} (getPreyBlackList newPlayer) 8 ([] ++ draws) = some (slot', rest) ∧
      Complete (getPreyBlackList newPlayer) slot'.raceIdList :=
  ((finishes_iff oneStar oneStar_nodup (by decide) (getPreyBlackList newPlayer) 8 [] (by decide)).1 rfl {}).mpr
    (by decide +kernel)

/-- Each of the thirty-six was drawn once: six are chosen, and no creature is left. -/
theorem oneStar_stuck (draws : List Nat) : (Grid.start [] 8).loop oneStar.toPreyEnv (List.range 36 ++ draws) = none := by
  rw [Grid.loop_append (by decide +kernel)]
  refine Option.eq_none_iff_forall_ne_some.mpr fun r hr => ?_
  have henough := Grid.enough_of_loop oneStar_nodup (by decide) hr
  revert henough
  decide +kernel

/-- The first list of a new player need not come to an end, neither for prey nor for a hunting task. -/
theorem not_finishes :
    (¬∀ (env : PreyEnv) (level : UInt32) (slot : PreySlot) (drawn : List Nat), env.PREY_ENABLED = true →
      env.bestiary.Nodup → 36 ≤ env.bestiary.length → (∀ raceId ∈ env.bestiary, env.eligible raceId = true) →
      (run (Grid.draw env) (Grid.start (getPreyBlackList newPlayer) level) drawn).raceIdList.length < 9 →
      ∃ draws slot' rest,
        slot.reloadMonsterGrid env (getPreyBlackList newPlayer) level (drawn ++ draws) = some (slot', rest) ∧
          Complete (getPreyBlackList newPlayer) slot'.raceIdList) ∧
    ¬∀ (env : TaskHuntingEnv) (level : UInt32) (slot : TaskHuntingSlot) (drawn : List Nat),
      env.TASK_HUNTING_ENABLED = true → env.bestiary.Nodup → 36 ≤ env.bestiary.length →
      (∀ raceId ∈ env.bestiary, env.eligible raceId = true) →
      (run (Grid.draw env.toPreyEnv) (Grid.start (getTaskHuntingBlackList []) level) drawn).raceIdList.length < 9 →
      ∃ draws slot' rest,
        slot.reloadMonsterGrid env (getTaskHuntingBlackList []) level (drawn ++ draws) = some (slot', rest) ∧
          Complete (getTaskHuntingBlackList []) slot'.raceIdList := by
  have hall : ∀ raceId ∈ oneStar.bestiary, oneStar.eligible raceId = true := fun _ _ => rfl
  constructor
  · intro h
    obtain ⟨draws, slot', rest, hreload, -⟩ := h oneStar.toPreyEnv 8 {} (List.range 36) rfl oneStar_nodup (by decide) hall
      (by decide +kernel)
    have hgrid := congrArg (Option.map fun r => (({ raceIdList := r.1 } : PreySlot), r.2)) (oneStar_stuck draws)
    exact Option.some_ne_none _ (hreload.symm.trans hgrid)
  · intro h
    obtain ⟨draws, slot', rest, hreload, -⟩ := h oneStar 8 {} (List.range 36) rfl oneStar_nodup (by decide) hall
      (by decide +kernel)
    have hgrid := congrArg (Option.map fun r => (({ raceIdList := r.1 } : TaskHuntingSlot), r.2)) (oneStar_stuck draws)
    exact Option.some_ne_none _ (hreload.symm.trans hgrid)

end CrystalServer.Prey
