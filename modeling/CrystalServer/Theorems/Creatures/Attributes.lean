import CrystalServer.Lib.SumBy
import CrystalServer.Creatures.Appearance
import Mathlib.Algebra.Group.Prod
import Mathlib.Tactic.Abel

/-! # What attribute conditions leave behind

As long as every condition that is applied is also taken off, the modifiers are those that the creature has of its own
plus the values of the conditions that are active. A condition is taken off where its increases are not negative, and its
charm chance is that of a player. -/

namespace CrystalServer
open Lib

/-- The modifiers of 32 bits. -/
inductive Modifier
  | skill (i : Fin SKILL_COUNT)
  | stat (i : Fin STAT_COUNT)
  | buff (i : Fin BUFF_COUNT)
  | absorb (i : Fin COMBAT_COUNT)
  | increase (i : Fin COMBAT_COUNT)

def Modifiers.get (m : Modifiers) : Modifier → Int32
  | .skill i => m.varSkills i
  | .stat i => m.varStats i
  | .buff i => m.varBuffs i
  | .absorb i => m.absorbPercent i
  | .increase i => m.increasePercent i

theorem Modifiers.eq_of_get {m m' : Modifiers} (h : ∀ k, m.get k = m'.get k)
    (hcharm : m.charmChanceModifier = m'.charmChanceModifier) (huse : m.canUseDefense = m'.canUseDefense) : m = m' :=
  Modifiers.ext (funext fun i => h (.skill i)) (funext fun i => h (.stat i)) (funext fun i => h (.buff i))
    (funext fun i => h (.absorb i)) (funext fun i => h (.increase i)) hcharm huse

namespace ConditionAttributes
variable {n : Nat} {c : ConditionAttributes} {m : Modifiers} {isPlayer : Bool}

/-- What a condition adds to each modifier; skills and stats are those of players. -/
def value (isPlayer : Bool) (c : ConditionAttributes) : Modifier → Int32
  | .skill i => if isPlayer then c.skills i else 0
  | .stat i => if isPlayer then c.stats i else 0
  | .buff i => c.buffs i
  | .absorb i => c.absorbs i
  | .increase i => c.increases i

/-- The condition is taken off as it was applied. -/
structure Undone (isPlayer : Bool) (c : ConditionAttributes) : Prop where
  increases : ∀ i, 0 ≤ c.increases i
  charm : isPlayer = true ∨ c.charmChanceModifier = 0

theorem addNonzero_apply (values modifiers : Fin n → Int32) (i : Fin n) :
    addNonzero values modifiers i = modifiers i + values i := by
  unfold addNonzero
  split_ifs with h
  · rfl
  · rw [not_not.mp h, Int32.add_zero]

theorem takeIf_apply {p : Fin n → Prop} [DecidablePred p] {values : Fin n → Int32} {i : Fin n}
    (h : values i ≠ 0 → p i) (modifiers : Fin n → Int32) : takeIf p values modifiers i = modifiers i - values i := by
  unfold takeIf
  split_ifs with ht
  · grind
  · rw [not_not.mp fun hne => ht (h hne), Int32.sub_zero]

variable (f : Percent) (c : ConditionAttributes) (m : Modifiers) (getPlayer : Option PlayerGetters)

/-- A condition that is applied adds its values. -/
theorem get_update (k : Modifier) :
    (c.update f m getPlayer).2.get k = m.get k + (c.update f m getPlayer).1.value getPlayer.isSome k := by
  unfold update
  cases getPlayer with
  | none =>
    cases k with
    | skill i =>
      change m.varSkills i = m.varSkills i + 0
      exact (Int32.add_zero _).symm
    | stat i =>
      change m.varStats i = m.varStats i + 0
      exact (Int32.add_zero _).symm
    | buff i => exact addNonzero_apply _ _ i
    | absorb i => exact addNonzero_apply _ _ i
    | increase i => exact addNonzero_apply _ _ i
  | some player =>
    cases k with
    | skill i => exact addNonzero_apply _ _ i
    | stat i => exact addNonzero_apply _ _ i
    | buff i => exact addNonzero_apply _ _ i
    | absorb i => exact addNonzero_apply _ _ i
    | increase i => exact addNonzero_apply _ _ i

theorem update_others :
    (c.update f m getPlayer).2.charmChanceModifier = m.charmChanceModifier + c.charmChanceModifier ∧
      (c.update f m getPlayer).2.canUseDefense = m.canUseDefense ∧
      (c.update f m getPlayer).1.charmChanceModifier = c.charmChanceModifier ∧
      (c.update f m getPlayer).1.disableDefense = c.disableDefense ∧
      (c.update f m getPlayer).1.increases =
        recompute c.increasesPercent c.increases fun i => f.round (100 - m.increasePercent i) (c.increasesPercent i) := by
  unfold update
  cases getPlayer <;> simp only [updatePercentSkills, updatePercentStats, updatePercentBuffs, updatePercentAbsorbs,
    updatePercentIncreases, updateSkills, updateStats, updateBuffs, updateAbsorbs, updateIncreases,
    updateCharmChanceModifier, and_self]

variable {c}

/-- A condition that ends takes its values off. -/
theorem get_endCondition (h : c.Undone isPlayer) (k : Modifier) :
    (c.endCondition m isPlayer).get k = m.get k - c.value isPlayer k := by
  have htake : (c.endCondition m isPlayer).get k = (c.takeOff m isPlayer).get k := by
    unfold endCondition
    dsimp only
    split_ifs
    · cases k <;> rfl
    · rfl
  rw [htake]
  cases isPlayer with
  | false =>
    cases k with
    | skill i => exact (Int32.sub_zero _).symm
    | stat i => exact (Int32.sub_zero _).symm
    | buff i => exact takeIf_apply (p := fun j => c.buffs j ≠ 0) (fun hne => hne) _
    | absorb i => exact takeIf_apply (p := fun j => c.absorbs j ≠ 0) (fun hne => hne) _
    | increase i => exact takeIf_apply (p := fun j => c.increases j > 0) (fun hne => Int32.lt_of_le_of_ne (h.increases i) hne.symm) _
  | true =>
    cases k with
    | skill i => exact takeIf_apply (p := fun j => c.skills j ≠ 0 ∨ c.skillsPercent j ≠ 0) (fun hne => Or.inl hne) _
    | stat i => exact takeIf_apply (p := fun j => c.stats j ≠ 0) (fun hne => hne) _
    | buff i => exact takeIf_apply (p := fun j => c.buffs j ≠ 0) (fun hne => hne) _
    | absorb i => exact takeIf_apply (p := fun j => c.absorbs j ≠ 0) (fun hne => hne) _
    | increase i => exact takeIf_apply (p := fun j => c.increases j > 0) (fun hne => Int32.lt_of_le_of_ne (h.increases i) hne.symm) _

theorem endCondition_others (h : c.Undone isPlayer) :
    (c.endCondition m isPlayer).charmChanceModifier = m.charmChanceModifier - c.charmChanceModifier ∧
      (c.endCondition m isPlayer).canUseDefense = (m.canUseDefense || c.disableDefense) := by
  have hcharm : isPlayer = false → c.charmChanceModifier = 0 := fun hp => h.charm.resolve_left (by simp [hp])
  unfold endCondition takeOff
  cases isPlayer with
  | false =>
    rw [hcharm rfl]
    cases c.disableDefense <;> simp
  | true => cases c.disableDefense <;> simp

end ConditionAttributes

namespace Attributed
open ConditionAttributes
variable {f : Percent} {isPlayer : Bool} {s : Attributed} {c : ConditionAttributes} {i : Nat}

/-- What the condition adds to the increases, on top of those that the creature has then, is not negative, and a charm chance
is that of a player. -/
def Takes (f : Percent) (isPlayer : Bool) (increasePercent : Fin COMBAT_COUNT → Int32) (c : ConditionAttributes) : Prop :=
  (∀ i, 0 ≤ if c.increasesPercent i = 0 then c.increases i else f.round (100 - increasePercent i) (c.increasesPercent i)) ∧
    (isPlayer = true ∨ c.charmChanceModifier = 0)

/-- The condition that the event applies can be taken off again. -/
def Meets (f : Percent) (isPlayer : Bool) (s : Attributed) : Event → Prop
  | .startCondition c _ _ deflects => deflects = false → Takes f isPlayer s.modifiers.increasePercent c
  | .addCondition i c _ OTSYS_TIME deflects =>
    ∀ prevCond, s.conditions[i]? = some prevCond →
      prevCond.updateCondition c.toCondition OTSYS_TIME deflects = true →
      Takes f isPlayer (fun j => s.modifiers.increasePercent j - prevCond.increases j) c
  | .endCondition _ => True

/-- The creature without its conditions has the given modifiers, and can use its defense unless one of them forbids it. -/
structure Inv (isPlayer : Bool) (own : Modifiers) (s : Attributed) : Prop where
  undone : ∀ c ∈ s.conditions, c.Undone isPlayer
  get : ∀ k, s.modifiers.get k = own.get k + sumBy (fun c => c.value isPlayer k) s.conditions
  charm : s.modifiers.charmChanceModifier = own.charmChanceModifier + sumBy (·.charmChanceModifier) s.conditions
  defense : s.modifiers.canUseDefense = false → ∃ c ∈ s.conditions, c.disableDefense = true

variable {own : Modifiers}

theorem isSome_player (isPlayer : Bool) (getters : PlayerGetters) : (player isPlayer getters).isSome = isPlayer := by
  cases isPlayer <;> rfl

theorem undone_update {m : Modifiers} {getPlayer : Option PlayerGetters} (h : Takes f isPlayer m.increasePercent c) :
    (c.update f m getPlayer).1.Undone isPlayer := by
  obtain ⟨-, -, hcharm, -, hincreases⟩ := update_others f c m getPlayer
  refine ⟨fun i => ?_, hcharm ▸ h.2⟩
  rw [hincreases]
  exact h.1 i

theorem Inv.startCondition (h : Inv isPlayer own s) {getPlayer : PlayerGetters} {OTSYS_TIME : Int64} {deflects : Bool}
    (hc : deflects = false → Takes f isPlayer s.modifiers.increasePercent c) :
    Inv isPlayer own (step f isPlayer s (.startCondition c getPlayer OTSYS_TIME deflects)) := by
  unfold step
  dsimp only
  cases hstart : c.startCondition f s.modifiers (player isPlayer getPlayer) OTSYS_TIME deflects with
  | none => exact h
  | some p =>
    obtain ⟨base, hbase, rfl⟩ := Option.map_eq_some_iff.mp hstart
    have hdeflects : deflects = false := by
      cases deflects with
      | false => rfl
      | true => cases hbase
    generalize hd : ({ c with toCondition := base } : ConditionAttributes) = d
    have htakes : Takes f isPlayer s.modifiers.increasePercent d := hd ▸ hc hdeflects
    have hdisable : d.disableDefense = c.disableDefense := hd ▸ rfl
    generalize hm : ({ s.modifiers with canUseDefense := !c.disableDefense } : Modifiers) = m
    have hget : ∀ k, m.get k = s.modifiers.get k := fun k => by cases k <;> exact hm ▸ rfl
    obtain ⟨hcharm, huse, hcharm', hdisable', -⟩ := update_others f d m (player isPlayer getPlayer)
    refine ⟨fun e he => ?_, fun k => ?_, ?_, fun hfalse => ?_⟩
    · rcases List.mem_append.mp he with he | he
      · exact h.undone e he
      · obtain rfl := List.mem_singleton.mp he
        exact undone_update (hm ▸ htakes)
    · have hk := get_update f d m (player isPlayer getPlayer) k
      rw [isSome_player, hget, h.get] at hk
      dsimp only
      rw [hk, sumBy_concat]
      grind
    · have hsame : m.charmChanceModifier = s.modifiers.charmChanceModifier := hm ▸ rfl
      have := h.charm
      dsimp only
      rw [hcharm, hsame, sumBy_concat, hcharm']
      grind
    · refine ⟨_, List.mem_append_right _ (List.mem_singleton_self _), ?_⟩
      have hflag : m.canUseDefense = !c.disableDefense := hm ▸ rfl
      dsimp only at hfalse
      rw [huse, hflag] at hfalse
      rw [hdisable', hdisable]
      simpa using hfalse

theorem Inv.endCondition (h : Inv isPlayer own s) (i : Nat) : Inv isPlayer own (step f isPlayer s (.endCondition i)) := by
  unfold step
  dsimp only
  cases hi : s.conditions[i]? with
  | none => exact h
  | some c =>
    have hundone := h.undone c (List.mem_of_getElem? hi)
    obtain ⟨hcharm, huse⟩ := endCondition_others s.modifiers hundone
    refine ⟨fun e he => h.undone e (List.mem_of_mem_eraseIdx he), fun k => ?_, ?_, fun hfalse => ?_⟩
    · have hsum := sumBy_eraseIdx hi fun c => c.value isPlayer k
      have hk := h.get k
      dsimp only
      rw [get_endCondition s.modifiers hundone]
      grind
    · have hsum := sumBy_eraseIdx hi fun c => c.charmChanceModifier
      have := h.charm
      dsimp only
      rw [hcharm]
      grind
    · -- A condition that forbids the defense gives it back, so another one forbids it.
      dsimp only at hfalse
      rw [huse, Bool.or_eq_false_iff] at hfalse
      obtain ⟨d, hd, hdisable⟩ := h.defense hfalse.1
      obtain ⟨j, hj⟩ := List.mem_iff_getElem?.mp hd
      have hne : j ≠ i := by
        rintro rfl
        rw [hi] at hj
        rw [Option.some.inj hj, hdisable] at hfalse
        cases hfalse.2
      exact ⟨d, List.mem_eraseIdx_iff_getElem?.mpr ⟨j, hne, hj⟩, hdisable⟩

theorem Inv.addCondition (h : Inv isPlayer own s) {getPlayer : PlayerGetters} {OTSYS_TIME : Int64} {deflects : Bool}
    (hc : ∀ prevCond, s.conditions[i]? = some prevCond →
      prevCond.updateCondition c.toCondition OTSYS_TIME deflects = true →
      Takes f isPlayer (fun j => s.modifiers.increasePercent j - prevCond.increases j) c) :
    Inv isPlayer own (step f isPlayer s (.addCondition i c getPlayer OTSYS_TIME deflects)) := by
  unfold step
  dsimp only
  cases hi : s.conditions[i]? with
  | none => exact h
  | some prevCond =>
    have hundone := h.undone prevCond (List.mem_of_getElem? hi)
    obtain ⟨hlt, hat⟩ := List.getElem?_eq_some_iff.mp hi
    dsimp only
    unfold ConditionAttributes.addCondition
    split_ifs with hupdate
    · rw [isSome_player]
      obtain ⟨hcharmEnd, huseEnd⟩ := endCondition_others s.modifiers hundone
      have hgetEnd := get_endCondition s.modifiers hundone
      generalize prevCond.endCondition s.modifiers isPlayer = m at hcharmEnd huseEnd hgetEnd
      generalize hd : ({ c with toCondition := prevCond.setTicks OTSYS_TIME c.ticks } : ConditionAttributes) = d
      have htakes : Takes f isPlayer m.increasePercent d := by
        have hsame : m.increasePercent = fun j => s.modifiers.increasePercent j - prevCond.increases j :=
          funext fun j => hgetEnd (.increase j)
        rw [hsame]
        exact hd ▸ hc prevCond hi hupdate
      obtain ⟨hcharm, huse, hcharm', hdisable', -⟩ := update_others f d m (player isPlayer getPlayer)
      refine ⟨fun e he => ?_, fun k => ?_, ?_, fun hfalse => ?_⟩
      · rcases List.mem_or_eq_of_mem_set he with he | rfl
        · exact h.undone e he
        · exact undone_update htakes
      · have hk := get_update f d m (player isPlayer getPlayer) k
        have hsum := sumBy_set hi (fun c => c.value isPlayer k) (d.update f m (player isPlayer getPlayer)).1
        rw [isSome_player, hgetEnd, h.get] at hk
        dsimp only
        rw [hk]
        grind
      · have hsum := sumBy_set hi (·.charmChanceModifier) (d.update f m (player isPlayer getPlayer)).1
        have := h.charm
        dsimp only
        rw [hcharm, hcharmEnd]
        grind
      · dsimp only at hfalse
        rw [huse, huseEnd, Bool.or_eq_false_iff] at hfalse
        obtain ⟨e, he, hdisable⟩ := h.defense hfalse.1
        obtain ⟨j, hj⟩ := List.mem_iff_getElem?.mp he
        have hne : i ≠ j := by
          rintro rfl
          rw [hi] at hj
          rw [Option.some.inj hj, hdisable] at hfalse
          cases hfalse.2
        exact ⟨e, List.mem_of_getElem? ((List.getElem?_set_ne hne).trans hj), hdisable⟩
    · have hset : s.conditions.set i prevCond = s.conditions := by rw [← hat, List.set_getElem_self]
      rw [hset]
      exact h

theorem inv_step (h : Inv isPlayer own s) (e : Event) (hmeets : Meets f isPlayer s e) : Inv isPlayer own (step f isPlayer s e) := by
  cases e with
  | startCondition c getPlayer OTSYS_TIME deflects => exact h.startCondition hmeets
  | addCondition i c getPlayer OTSYS_TIME deflects => exact h.addCondition hmeets
  | endCondition i => exact h.endCondition i

/-- A run that starts and ends without conditions, and whose steps apply only what can be taken off, leaves the modifiers
as they were. -/
theorem modifiers_restored (f : Percent) (isPlayer : Bool) (s : Attributed) (events : List Event) (hs : s.conditions = [])
    (hdefense : s.modifiers.canUseDefense = true) (hend : (run (step f isPlayer) s events).conditions = [])
    (h : Lib.Meets (step f isPlayer) (Meets f isPlayer) s events) :
    (run (step f isPlayer) s events).modifiers = s.modifiers := by
  have hstart : Inv isPlayer s.modifiers s := by
    refine ⟨fun c hc => ?_, fun k => ?_, ?_, fun hfalse => ?_⟩
    · rw [hs] at hc
      cases hc
    · rw [hs]
      exact (Int32.add_zero _).symm
    · rw [hs]
      exact (Int8.add_zero _).symm
    · rw [hdefense] at hfalse
      cases hfalse
  have hrun := run_invariant (Inv isPlayer s.modifiers) (fun t e ht he => inv_step ht e he) hstart h
  refine Modifiers.eq_of_get (fun k => ?_) ?_ ?_
  · rw [hrun.get, hend]
    exact Int32.add_zero _
  · rw [hrun.charm, hend]
    exact Int8.add_zero _
  · rw [hdefense]
    by_contra hfalse
    obtain ⟨c, hc, -⟩ := hrun.defense (by simpa using hfalse)
    rw [hend] at hc
    cases hc

/-- The percentages without the rounding of `float`. -/
def exactly : Percent where
  above n percent := .ofInt ((n * (percent.toInt - 100)).tdiv 100)
  share n percent := .ofInt ((n * percent.toInt).tdiv 100)
  round n percent := .ofInt ((n * percent).toInt.tdiv 100)

def knightGetters : PlayerGetters := ⟨1000, 300, 5, 60000, fun _ => 90⟩

def noAttributes : ConditionAttributes :=
  { drainBodyStage := 0, endTime := 0, subId := 0, ticks := 10000, conditionType := .ATTRIBUTES, id := 0, isBuff := false,
    m_isPersistent := false, tickSound := 0, addSound := 0, skills := 0, skillsPercent := 0, stats := 0, statsPercent := 0,
    buffsPercent := 0, buffs := 0, charmChanceModifier := 0, absorbs := 0, absorbsPercent := 0, increases := 0,
    increasesPercent := 0, disableDefense := false }

def unmodified : Attributed := ⟨⟨0, 0, fun _ => 100, 0, 0, 0, true⟩, []⟩

/-- A percentage of all skills without the defense, one of the health that replaces another, and a charm chance. -/
def bloodRage : List Event :=
  [.startCondition { noAttributes with skillsPercent := fun _ => 135, disableDefense := true } knightGetters 1000 false,
    .startCondition { noAttributes with statsPercent := fun _ => 120, charmChanceModifier := 100 } knightGetters 2000 false,
    .addCondition 1 { noAttributes with statsPercent := fun _ => 80, increasesPercent := fun _ => 10 } knightGetters 3000 false,
    .endCondition 0, .endCondition 0]

theorem modifiers_restored_bloodRage : (run (step exactly true) unmodified bloodRage).modifiers = unmodified.modifiers := by
  refine modifiers_restored exactly true unmodified bloodRage rfl rfl rfl ?_
  simp only [bloodRage, Lib.Meets, Meets]
  refine ⟨fun _ => ⟨by decide, by decide⟩, fun _ => ⟨by decide, by decide⟩, fun prevCond hp _ => ?_, trivial, trivial, trivial⟩
  obtain rfl := Option.some.inj hp
  exact ⟨by decide, by decide⟩

/-- A decrease of the physical damage stays after the condition. -/
theorem not_modifiers_restored_decrease :
    let events := [Event.startCondition { noAttributes with increasesPercent := fun i => if i = 0 then -10 else 0 }
      knightGetters 1000 false, .endCondition 0]
    (run (step exactly true) unmodified events).conditions = [] ∧
      (run (step exactly true) unmodified events).modifiers.increasePercent 0 = -10 ∧
      unmodified.modifiers.increasePercent 0 = 0 :=
  ⟨rfl, by decide, rfl⟩

end Attributed
end CrystalServer

/-! ## What mounts and outfits give

The attributes of a mount or an outfit change skills, stats and conditions by what they give, and taking them off undoes
exactly that. `Carries` says what a player has beside what he started with. -/

namespace CrystalServer.Appearance
open Lib

/-- Speed, skills and stats. -/
abbrev Bonus := ℤ × (Fin SKILL_COUNT → Int32) × (Fin STAT_COUNT → Int32)

/-! ### Attributes -/

namespace Attributes
variable {a : Attributes} {id : ConditionId_t} {p : Player}

/-- What `imbuing` adds to a skill. -/
def imbued (l : List (Fin SKILL_COUNT × Int32)) (i : Fin SKILL_COUNT) : Int32 :=
  (l.map fun x => if x.2 > 0 ∧ x.1 = i then x.2 else 0).sum

/-- The skills and stats. -/
def given (a : Attributes) : (Fin SKILL_COUNT → Int32) × (Fin STAT_COUNT → Int32) :=
  (fun i => a.skills i + imbued a.imbuing i, a.stats)

/-- The condition of a type. -/
def condition (a : Attributes) : ConditionType_t → Option Regeneration
  | .MANASHIELD => if a.manaShield then some {} else none
  | .INVISIBLE => if a.invisible then some {} else none
  | .REGENERATION => if a.regeneration then some a.regenerationOf else none
  | _ => none

theorem setVarSkill_apply (s i : Fin SKILL_COUNT) (x : Int32) (v : Fin SKILL_COUNT → Int32) :
    setVarSkill s x v i = v i + if s = i then x else 0 := by
  unfold setVarSkill
  by_cases h : s = i
  · subst h
    simp
  · simp [h, Function.update_of_ne (Ne.symm h)]

theorem addImbuing_apply (l : List (Fin SKILL_COUNT × Int32)) (v : Fin SKILL_COUNT → Int32) (i : Fin SKILL_COUNT) :
    addImbuing l v i = v i + imbued l i := by
  induction l generalizing v with
  | nil => simp [addImbuing, imbued]
  | cons x l ih =>
    have hl := ih (if x.2 > 0 then setVarSkill x.1 x.2 v else v)
    simp only [addImbuing, imbued, List.foldl_cons, List.map_cons, List.sum_cons] at hl ⊢
    rw [hl]
    by_cases h : x.2 > 0
    · rw [if_pos h, setVarSkill_apply]
      simp only [h, true_and]
      abel
    · simp [h]

theorem removeImbuing_apply (l : List (Fin SKILL_COUNT × Int32)) (v : Fin SKILL_COUNT → Int32) (i : Fin SKILL_COUNT) :
    removeImbuing l v i = v i - imbued l i := by
  induction l generalizing v with
  | nil => simp [removeImbuing, imbued]
  | cons x l ih =>
    have hl := ih (if x.2 > 0 then setVarSkill x.1 (-x.2) v else v)
    simp only [removeImbuing, imbued, List.foldl_cons, List.map_cons, List.sum_cons] at hl ⊢
    rw [hl]
    by_cases h : x.2 > 0
    · rw [if_pos h, setVarSkill_apply]
      by_cases hi : x.1 = i
      · simp only [h, hi, if_true, and_self]
        abel
      · simp [hi]
    · simp [h]

theorem add_given (a : Attributes) (id : ConditionId_t) (p : Player) :
    ((a.add id p).varSkills, (a.add id p).varStats) = (p.varSkills, p.varStats) + a.given := by
  refine Prod.ext (funext fun i => ?_) (funext fun i => ConditionAttributes.addNonzero_apply ..)
  calc (a.add id p).varSkills i = p.varSkills i + a.skills i + imbued a.imbuing i := by
        simp only [add, addImbuing_apply, ConditionAttributes.addNonzero_apply]
    _ = _ := by simp only [given, Prod.fst_add, Pi.add_apply]; abel

theorem takeNonzero_apply {n : Nat} (values modifiers : Fin n → Int32) (i : Fin n) :
    ConditionAttributes.takeIf (fun i => values i ≠ 0) values modifiers i = modifiers i - values i :=
  ConditionAttributes.takeIf_apply (p := fun i => values i ≠ 0) (fun h => h) modifiers

theorem remove_given (a : Attributes) (id : ConditionId_t) (p : Player) :
    ((a.remove id p).varSkills, (a.remove id p).varStats) = (p.varSkills, p.varStats) - a.given := by
  refine Prod.ext (funext fun i => ?_) (funext fun i => takeNonzero_apply ..)
  calc (a.remove id p).varSkills i = p.varSkills i - a.skills i - imbued a.imbuing i := by
        simp only [remove, removeImbuing_apply, takeNonzero_apply]
    _ = _ := by simp only [given, Prod.fst_sub, Pi.sub_apply]; abel

theorem addConditions_apply (a : Attributes) (id : ConditionId_t) (c : Conditions) (k : ConditionId_t × ConditionType_t) :
    a.addConditions id c k = if k.1 = id then (a.condition k.2).or (c k) else c k := by
  obtain ⟨j, type⟩ := k
  by_cases hj : j = id
  · subst hj
    cases type <;> simp [addConditions, addCondition, condition, ite_apply] <;> split <;> rfl
  · have hne : ∀ type', (j, type) ≠ (id, type') := fun _ h => hj (congrArg Prod.fst h)
    simp only [addConditions, addCondition, hj, if_false]
    split_ifs <;> simp [Function.update_of_ne (hne _)]

theorem removeConditions_apply (a : Attributes) (id : ConditionId_t) (c : Conditions)
    (k : ConditionId_t × ConditionType_t) :
    a.removeConditions id c k = if k.1 = id ∧ (a.condition k.2).isSome then none else c k := by
  obtain ⟨j, type⟩ := k
  by_cases hj : j = id
  · subst hj
    cases type <;> simp [removeConditions, removeCondition, condition, ite_apply]
  · have hne : ∀ type', (j, type) ≠ (id, type') := fun _ h => hj (congrArg Prod.fst h)
    simp only [removeConditions, removeCondition, hj, false_and, if_false]
    split_ifs <;> simp [Function.update_of_ne (hne _)]

end Attributes

/-! ### What the player carries -/

/-- Besides what he started with, the player has so much speed and what the attributes under each id give. -/
structure Carries (start p : Player) (speed : ℤ) (m o : Option Attributes) : Prop where
  baseSpeed : p.baseSpeed = start.baseSpeed
  speed : p.varSpeed = start.varSpeed + speed
  given : (p.varSkills, p.varStats) =
    (start.varSkills, start.varStats) + m.elim 0 Attributes.given + o.elim 0 Attributes.given
  mount : ∀ type, p.conditions (.MOUNT, type) = m.bind (·.condition type)
  outfit : ∀ type, p.conditions (.OUTFIT, type) = o.bind (·.condition type)
  others : ∀ id type, id ≠ .MOUNT → id ≠ .OUTFIT → p.conditions (id, type) = start.conditions (id, type)

/-- No sum of the speeds of a mount and an outfit is clamped. -/
def Unclamped (env : Env) (start : Player) : Prop :=
  ∀ a b, (a = 0 ∨ ∃ m ∈ env.mounts, m.speed = a) → (b = 0 ∨ ∃ o ∈ env.outfits, o.speed = b) →
    0 ≤ start.baseSpeed.toNat + start.varSpeed + (a + b) ∧
      start.baseSpeed.toNat + start.varSpeed + (a + b) < Player.PLAYER_MAX_SPEED

section
variable {env : Env} {now : Now} {start p q : Player} {v : ℤ} {m o : Option Attributes} {a : Attributes}

/-- The condition types of an id that has none are those of the attributes. -/
theorem add_conditions_self {id : ConditionId_t} (hc : ∀ type, p.conditions (id, type) = none) (a : Attributes)
    (type : ConditionType_t) : (a.add id p).conditions (id, type) = a.condition type := by
  simp [Attributes.add, Attributes.addConditions_apply, hc type]

theorem add_conditions_of_ne {id j : ConditionId_t} (hj : j ≠ id) (a : Attributes) (type : ConditionType_t) :
    (a.add id p).conditions (j, type) = p.conditions (j, type) := by
  simp [Attributes.add, Attributes.addConditions_apply, hj]

theorem remove_conditions_self {id : ConditionId_t} (hc : ∀ type, p.conditions (id, type) = a.condition type)
    (type : ConditionType_t) : (a.remove id p).conditions (id, type) = none := by
  simp only [Attributes.remove, Attributes.removeConditions_apply, true_and]
  rw [hc type]
  cases a.condition type <;> rfl

theorem remove_conditions_of_ne {id j : ConditionId_t} (hj : j ≠ id) (a : Attributes) (type : ConditionType_t) :
    (a.remove id p).conditions (j, type) = p.conditions (j, type) := by
  simp [Attributes.remove, Attributes.removeConditions_apply, hj]

theorem Carries.addMount (h : Carries start p v none o) (a : Attributes) :
    Carries start (a.add .MOUNT p) v (some a) o where
  baseSpeed := h.baseSpeed
  speed := h.speed
  given := by
    rw [Attributes.add_given, h.given]
    simp only [Option.elim_none, Option.elim_some]
    abel
  mount := add_conditions_self h.mount a
  outfit type := (add_conditions_of_ne (by decide) a type).trans (h.outfit type)
  others id type hm ho := (add_conditions_of_ne hm a type).trans (h.others id type hm ho)

theorem Carries.removeMount (h : Carries start p v (some a) o) : Carries start (a.remove .MOUNT p) v none o where
  baseSpeed := h.baseSpeed
  speed := h.speed
  given := by
    rw [Attributes.remove_given, h.given]
    simp only [Option.elim_none, Option.elim_some]
    abel
  mount := remove_conditions_self h.mount
  outfit type := (remove_conditions_of_ne (by decide) a type).trans (h.outfit type)
  others id type hm ho := (remove_conditions_of_ne hm a type).trans (h.others id type hm ho)

theorem Carries.addOutfit (h : Carries start p v m none) (a : Attributes) :
    Carries start (a.add .OUTFIT p) v m (some a) where
  baseSpeed := h.baseSpeed
  speed := h.speed
  given := by
    rw [Attributes.add_given, h.given]
    simp only [Option.elim_none, Option.elim_some]
    abel
  mount type := (add_conditions_of_ne (by decide) a type).trans (h.mount type)
  outfit := add_conditions_self h.outfit a
  others id type hm ho := (add_conditions_of_ne ho a type).trans (h.others id type hm ho)

theorem Carries.removeOutfit (h : Carries start p v m (some a)) : Carries start (a.remove .OUTFIT p) v m none where
  baseSpeed := h.baseSpeed
  speed := h.speed
  given := by
    rw [Attributes.remove_given, h.given]
    simp only [Option.elim_none, Option.elim_some]
    abel
  mount type := (remove_conditions_of_ne (by decide) a type).trans (h.mount type)
  outfit := remove_conditions_self h.outfit
  others id type hm ho := (remove_conditions_of_ne ho a type).trans (h.others id type hm ho)

/-- The speed is not clamped before the change. -/
theorem Carries.changeSpeed (h : Carries start p v m o)
    (hv : 0 ≤ start.baseSpeed.toNat + start.varSpeed + v ∧
      start.baseSpeed.toNat + start.varSpeed + v < Player.PLAYER_MAX_SPEED) (d : ℤ) :
    Carries start (p.changeSpeed d) (v + d) m o := by
  have hspeed : p.getSpeed = p.baseSpeed.toNat + p.varSpeed := by
    have hb := h.baseSpeed
    have hs := h.speed
    unfold Player.PLAYER_MAX_SPEED at hv
    unfold Player.getSpeed
    rw [hb, hs]
    omega
  have heq : p.changeSpeed d = { p with varSpeed := p.varSpeed + d } := by
    unfold Player.changeSpeed Player.setSpeed
    rw [if_neg (by rw [hspeed, h.baseSpeed, h.speed]; omega), hspeed]
    congr 1
    omega
  rw [heq]
  refine ⟨h.baseSpeed, ?_, h.given, h.mount, h.outfit, h.others⟩
  show p.varSpeed + d = start.varSpeed + (v + d)
  rw [h.speed]
  omega

/-- A change that is left out is one by nothing. -/
theorem Carries.changeSpeedIf {c : Prop} [Decidable c] {d : ℤ} (h : Carries start p v m o)
    (hv : 0 ≤ start.baseSpeed.toNat + start.varSpeed + v ∧
      start.baseSpeed.toNat + start.varSpeed + v < Player.PLAYER_MAX_SPEED) (hc : ¬c → d = 0) :
    Carries start (if c then p.changeSpeed d else p) (v + d) m o := by
  by_cases hd : c
  · rw [if_pos hd]
    exact h.changeSpeed hv d
  · rw [if_neg hd, hc hd, add_zero]
    exact h

theorem changeSpeed_eq (d : ℤ) (p : Player) : ∃ varSpeed, p.changeSpeed d = { p with varSpeed } := by
  unfold Player.changeSpeed Player.setSpeed
  split
  · exact ⟨p.varSpeed, rfl⟩
  · exact ⟨_, rfl⟩

theorem changeSpeedIf_eq (c : Prop) [Decidable c] (d : ℤ) (p : Player) :
    ∃ varSpeed, (if c then p.changeSpeed d else p) = { p with varSpeed } := by
  split
  · exact changeSpeed_eq d p
  · exact ⟨p.varSpeed, rfl⟩

end

end CrystalServer.Appearance
