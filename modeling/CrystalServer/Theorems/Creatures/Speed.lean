import CrystalServer.Creatures.Combat.Condition
import CrystalServer.Lib.SumBy

/-! # When the speed returns to normal

`changeSpeed` reads the speed back to find the variable part. What it reads is that part as long as the speed is neither
clamped nor at its maximum, and then each change adds its delta. -/

namespace CrystalServer.Speed
open Lib

/-- The speed is what the base and the variable part come to, below the maximum. -/
def Exact (s : Speed) : Prop :=
  0 ≤ s.baseSpeed.toNat + s.varSpeed.toInt ∧ s.baseSpeed.toNat + s.varSpeed.toInt < PLAYER_MAX_SPEED

instance (s : Speed) : Decidable s.Exact := inferInstanceAs (Decidable (_ ∧ _))

/-- The speed is exact where the event changes it. -/
def Meets (formula : Formula) (s : Speed) : Event → Prop
  | .startCondition _ _ _ deflects => deflects = false → s.Exact
  | .addCondition i c uniform_random OTSYS_TIME deflects =>
    ∀ prevCond, s.conditions[i]? = some prevCond →
      (prevCond.addCondition formula uniform_random c s.baseSpeed OTSYS_TIME deflects).2 ≠ 0 → s.Exact
  | .endCondition i => i < s.conditions.length → s.Exact
  | .changeSpeed _ => s.Exact

/-- The sum of the deltas of conditions. -/
def sum (l : List ConditionSpeed) : Int32 := l.foldr (fun c n => c.speedDelta + n) 0

/-- What the events add to the speed beside the conditions. -/
def changed : List Event → Int
  | [] => 0
  | .changeSpeed varSpeedDelta :: events => varSpeedDelta.toInt + changed events
  | _ :: events => changed events

/-- The variable part without the conditions. -/
def own (s : Speed) : Int32 := s.varSpeed - sum s.conditions

variable {s : Speed} {l : List ConditionSpeed} {c c' : ConditionSpeed} {i : Nat}

theorem sum_append (l : List ConditionSpeed) (c : ConditionSpeed) : sum (l ++ [c]) = sum l + c.speedDelta :=
  sumBy_concat ConditionSpeed.speedDelta l c

theorem sum_eraseIdx (h : l[i]? = some c) : sum l = c.speedDelta + sum (l.eraseIdx i) := sumBy_eraseIdx h ConditionSpeed.speedDelta

theorem sum_set (h : l[i]? = some c) (c' : ConditionSpeed) :
    sum (l.set i c') + c.speedDelta = sum l + c'.speedDelta :=
  sumBy_set h ConditionSpeed.speedDelta c'

/-- A change of an exact speed adds its delta. -/
theorem Exact.changeSpeed (h : s.Exact) (delta : Int32) :
    s.changeSpeed delta = { s with varSpeed := s.varSpeed + delta } := by
  obtain ⟨hpos, hlt⟩ := h
  unfold PLAYER_MAX_SPEED at hlt
  have hspeed : s.getSpeed = s.baseSpeed.toNat + s.varSpeed.toInt := by
    unfold getSpeed
    omega
  have hvar : s.getSpeed - s.baseSpeed.toNat = s.varSpeed.toInt := by omega
  unfold Speed.changeSpeed setSpeed
  dsimp only
  rw [hvar, Int32.ofInt_toInt, if_neg]
  unfold PLAYER_MAX_SPEED
  omega

theorem Exact.congr {s' : Speed} (h : s.Exact) (hbase : s'.baseSpeed = s.baseSpeed) (hvar : s'.varSpeed = s.varSpeed) :
    s'.Exact := by
  unfold Exact at h ⊢
  rwa [hbase, hvar]

theorem changeSpeed_baseSpeed (s : Speed) (delta : Int32) : (s.changeSpeed delta).baseSpeed = s.baseSpeed := by
  unfold Speed.changeSpeed setSpeed
  dsimp only
  split_ifs <;> rfl

theorem step_baseSpeed (formula : Formula) (s : Speed) (e : Event) : (step formula s e).baseSpeed = s.baseSpeed := by
  cases e with
  | startCondition c uniform_random OTSYS_TIME deflects =>
    unfold step
    dsimp only
    split
    · rfl
    · exact changeSpeed_baseSpeed s _
  | addCondition i c uniform_random OTSYS_TIME deflects =>
    unfold step
    dsimp only
    split
    · rfl
    · split_ifs
      · exact changeSpeed_baseSpeed _ _
      · rfl
  | endCondition i =>
    unfold step
    dsimp only
    split
    · rfl
    · exact changeSpeed_baseSpeed _ _
  | changeSpeed varSpeedDelta => exact changeSpeed_baseSpeed s _

theorem addCondition_snd (formula : Formula) (uniform_random : Draw) (c d : ConditionSpeed) (baseSpeed : UInt16)
    (OTSYS_TIME : Int64) (deflects : Bool) :
    (c.addCondition formula uniform_random d baseSpeed OTSYS_TIME deflects).2 =
      (c.addCondition formula uniform_random d baseSpeed OTSYS_TIME deflects).1.speedDelta - c.speedDelta := by
  unfold ConditionSpeed.addCondition
  split_ifs
  · exact (Int32.sub_self _).symm
  · exact (Int32.sub_self _).symm
  · exact (Int32.sub_self _).symm
  · rfl

/-- Conditions leave the rest of the variable part alone, and other changes add to it. -/
theorem own_step (formula : Formula) (e : Event) (h : Meets formula s e) :
    own (step formula s e) = own s + .ofInt (changed [e]) := by
  have hzero : Int32.ofInt (changed []) = 0 := rfl
  cases e with
  | startCondition c uniform_random OTSYS_TIME deflects =>
    change _ = own s + .ofInt (changed [])
    rw [hzero]
    cases deflects with
    | true => exact (Int32.add_zero _).symm
    | false =>
      unfold step
      dsimp only
      split
      · exact (Int32.add_zero _).symm
      · rename_i c' _
        rw [(h rfl).changeSpeed]
        unfold own
        dsimp only
        rw [sum_append]
        grind
  | addCondition i c uniform_random OTSYS_TIME deflects =>
    change _ = own s + .ofInt (changed [])
    rw [hzero]
    unfold step
    dsimp only
    cases hi : s.conditions[i]? with
    | none => exact (Int32.add_zero _).symm
    | some prevCond =>
      have hsum := sum_set hi (prevCond.addCondition formula uniform_random c s.baseSpeed OTSYS_TIME deflects).1
      have hsnd := addCondition_snd formula uniform_random prevCond c s.baseSpeed OTSYS_TIME deflects
      have hexact := h prevCond hi
      dsimp only
      generalize prevCond.addCondition formula uniform_random c s.baseSpeed OTSYS_TIME deflects = p at hsum hsnd hexact ⊢
      split_ifs with hne
      · have hexact' : Exact { s with conditions := s.conditions.set i p.1 } := (hexact hne).congr rfl rfl
        rw [hexact'.changeSpeed]
        unfold own
        dsimp only
        grind
      · have hzero' : p.2 = 0 := not_not.mp hne
        unfold own
        dsimp only
        grind
  | endCondition i =>
    change _ = own s + .ofInt (changed [])
    rw [hzero]
    unfold step
    dsimp only
    cases hi : s.conditions[i]? with
    | none => exact (Int32.add_zero _).symm
    | some c =>
      have hsum := sum_eraseIdx hi
      obtain ⟨hlt, -⟩ := List.getElem?_eq_some_iff.mp hi
      have hexact : Exact { s with conditions := s.conditions.eraseIdx i } := (h hlt).congr rfl rfl
      dsimp only
      rw [hexact.changeSpeed]
      unfold own
      dsimp only
      grind
  | changeSpeed varSpeedDelta =>
    have hchanged : changed [.changeSpeed varSpeedDelta] = varSpeedDelta.toInt := Int.add_zero _
    change own (s.changeSpeed varSpeedDelta) = _
    rw [Exact.changeSpeed h, hchanged, Int32.ofInt_toInt]
    unfold own
    dsimp only
    grind

theorem changed_cons (e : Event) (events : List Event) : changed (e :: events) = changed [e] + changed events := by
  cases e <;> simp [changed]

/-- After a run whose steps all change an exact speed. -/
theorem own_run (formula : Formula) {events : List Event} (h : Lib.Meets (step formula) (Meets formula) s events) :
    own (run (step formula) s events) = own s + .ofInt (changed events) := by
  induction events generalizing s with
  | nil => exact (Int32.add_zero _).symm
  | cons e events ih =>
    rw [run_cons, ih h.2, own_step formula e h.1, changed_cons e events, Int32.ofInt_add, Int32.add_assoc]

theorem run_baseSpeed (formula : Formula) (s : Speed) (events : List Event) :
    (run (step formula) s events).baseSpeed = s.baseSpeed :=
  run_induction (fun t => t.baseSpeed = s.baseSpeed) (fun t e h => (step_baseSpeed formula t e).trans h) events rfl

/-- A run that starts and ends without conditions, whose other changes come to nothing, and whose steps change the speed
only where it is exact, leaves the creature as it was. -/
theorem speed_restored (formula : Formula) (s : Speed) (events : List Event) (hs : s.conditions = [])
    (hend : (run (step formula) s events).conditions = []) (hchanged : changed events = 0)
    (h : Lib.Meets (step formula) (Meets formula) s events) :
    run (step formula) s events = s ∧ (run (step formula) s events).getSpeed = s.getSpeed := by
  have hown := own_run formula h
  have hbase := run_baseSpeed formula s events
  unfold own at hown
  rw [hend, hs, hchanged] at hown
  have hvar : (run (step formula) s events).varSpeed = s.varSpeed := by
    simpa [sum] using hown
  have hall : run (step formula) s events = s := by
    rcases hrun : run (step formula) s events with ⟨baseSpeed, varSpeed, conditions⟩
    rcases s with ⟨baseSpeed₀, varSpeed₀, conditions₀⟩
    rw [hrun] at hbase hvar hend
    dsimp only at hbase hvar hend hs
    rw [hbase, hvar, hend, hs]
  exact ⟨hall, congrArg getSpeed hall⟩

/-- A condition of a type, with its delta. -/
def ofDelta (type : ConditionType_t) (speedDelta : Int32) : ConditionSpeed :=
  { drainBodyStage := 0, endTime := 0, subId := 0, ticks := 10000, conditionType := type, id := 0, isBuff := false,
    m_isPersistent := false, tickSound := 0, addSound := 0, speedDelta, mina := 0, minb := 0, maxa := 0, maxb := 0 }

/-- Two conditions that overlap, one of them replaced, and a change that is taken back. -/
def overlapping : List Event :=
  [.startCondition (ofDelta .HASTE 80) (fun min _ => min) 1000 false,
    .startCondition (ofDelta .PARALYZE (-100)) (fun min _ => min) 1500 false, .changeSpeed 20,
    .addCondition 0 (ofDelta .HASTE 60) (fun min _ => min) 2000 false, .endCondition 1, .changeSpeed (-20), .endCondition 0]

theorem speed_restored_overlapping :
    run (step fun _ _ _ _ base => (base, base)) ⟨220, 0, []⟩ overlapping = ⟨220, 0, []⟩ ∧
      (run (step fun _ _ _ _ base => (base, base)) ⟨220, 0, []⟩ overlapping).getSpeed = getSpeed ⟨220, 0, []⟩ := by
  refine speed_restored _ ⟨220, 0, []⟩ overlapping rfl (by decide) (by decide) ?_
  simp only [overlapping, Lib.Meets, Meets]
  refine ⟨fun _ => by decide, fun _ => by decide, by decide, fun prevCond _ _ => by decide, fun _ => by decide,
    by decide, fun _ => by decide, trivial⟩

/-- A creature of base speed 200 that is paralyzed by 300 and freed again has a speed of 300. -/
theorem not_speed_restored_paralyzed :
    let events := [Event.startCondition (ofDelta .PARALYZE (-300)) (fun min _ => min) 1000 false, .endCondition 0]
    (run (step fun _ _ _ _ base => (base, base)) ⟨200, 0, []⟩ events).conditions = [] ∧ changed events = 0 ∧
      (run (step fun _ _ _ _ base => (base, base)) ⟨200, 0, []⟩ events).getSpeed = 300 ∧
      getSpeed ⟨200, 0, []⟩ = 200 := by
  decide

end CrystalServer.Speed
