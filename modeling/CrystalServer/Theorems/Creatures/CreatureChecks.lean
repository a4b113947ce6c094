import Mathlib.Algebra.BigOperators.Fin
import Mathlib.Algebra.Order.BigOperators.Group.Finset
import CrystalServer.Creatures.CreatureChecks

/-! # Every creature stands in one list

A creature stands in one place at most, an event or a list, and in one exactly where its flag says so. -/

namespace CrystalServer.CreatureChecks
open Lib
variable {Creature : Type*} [DecidableEq Creature] {s : CreatureChecks Creature} {c : Creature}

/-- How many events hold the creature. -/
def posted (s : CreatureChecks Creature) (c : Creature) : Nat := (s.events.map Prod.snd).count c

/-- How often the creature stands in the lists. -/
def listed (s : CreatureChecks Creature) (c : Creature) : Nat := ∑ i, (s.checkCreatureLists i).count c

/-- Each creature stands in one place at most; `n` counts the places other than the events. -/
def Placed (s : CreatureChecks Creature) (n : Creature → Nat) : Prop :=
  ∀ c, s.posted c + n c ≤ 1 ∧ (s.expired c = false → s.posted c + n c = if s.inCheckCreaturesVector c then 1 else 0)

/-! ### Calls -/

theorem call_same (s : CreatureChecks Creature) (x : Call Creature) : (s.call x).checkCreatureLists = s.checkCreatureLists ∧
    (s.call x).index = s.index := by
  unfold call
  split
  · exact ⟨rfl, rfl⟩
  · cases x with
    | addCreatureCheck creature index =>
      dsimp only [addCreatureCheck]
      split
      · exact ⟨rfl, rfl⟩
      · split <;> exact ⟨rfl, rfl⟩
    | removeCreatureCheck creature =>
      dsimp only [removeCreatureCheck]
      split <;> exact ⟨rfl, rfl⟩
    | setHealth creature isAlive => exact ⟨rfl, rfl⟩
    | setRemoved creature => exact ⟨rfl, rfl⟩
    | expire creature =>
      dsimp only [expire]
      split <;> exact ⟨rfl, rfl⟩

theorem foldl_call_same (xs : List (Call Creature)) (s : CreatureChecks Creature) :
    (xs.foldl call s).checkCreatureLists = s.checkCreatureLists ∧ (xs.foldl call s).index = s.index := by
  induction xs generalizing s with
  | nil => exact ⟨rfl, rfl⟩
  | cons x xs ih =>
    obtain ⟨hl, hi⟩ := ih (s.call x)
    obtain ⟨hl', hi'⟩ := call_same s x
    exact ⟨hl.trans hl', hi.trans hi'⟩

theorem Placed.addCreatureCheck {n : Creature → Nat} (h : Placed s n) (x : Creature) (hx : s.expired x = false)
    (index : Fin EVENT_CREATURECOUNT) : Placed (s.addCreatureCheck x index) n := by
  unfold CreatureChecks.addCreatureCheck
  split
  · exact h
  · dsimp only
    split
    · exact h
    · rename_i hout
      intro c
      obtain ⟨hone, hin⟩ := h c
      by_cases hc : c = x
      · subst hc
        have hzero := hin hx
        rw [if_neg hout] at hzero
        simp only [posted, List.map_append, List.map_cons, List.map_nil, List.count_append, List.count_singleton_self,
          Function.update_self, if_true]
        unfold posted at hzero
        omega
      · simp only [posted, List.map_append, List.map_cons, List.map_nil, List.count_append, Function.update_of_ne hc,
          List.count_singleton, beq_iff_eq, Ne.symm hc, if_false, Nat.add_zero]
        exact ⟨hone, hin⟩

theorem Placed.call {n : Creature → Nat} (h : Placed s n) (x : Call Creature) : Placed (s.call x) n := by
  unfold CreatureChecks.call
  split
  · exact h
  · rename_i hx
    cases x with
    | addCreatureCheck creature index => exact h.addCreatureCheck creature (Bool.not_eq_true _ ▸ hx) index
    | removeCreatureCheck creature =>
      dsimp only [removeCreatureCheck]
      split <;> exact h
    | setHealth creature isAlive => exact h
    | setRemoved creature => exact h
    | expire creature =>
      dsimp only [expire]
      split
      · exact h
      · intro c
        obtain ⟨hone, hin⟩ := h c
        refine ⟨hone, fun hc => hin ?_⟩
        by_cases heq : c = creature
        · rw [heq] at hc
          simp at hc
        · simpa only [Function.update_of_ne heq] using hc

theorem Placed.foldl_call {n : Creature → Nat} (xs : List (Call Creature)) (h : Placed s n) : Placed (xs.foldl CreatureChecks.call s) n := by
  induction xs generalizing s with
  | nil => exact h
  | cons x xs ih => exact ih (h.call x)

/-! ### A turn of a list -/

theorem checkCreature_same (onThink : Creature → List (Call Creature)) (x : Creature) (s : CreatureChecks Creature) :
    (s.checkCreature onThink x).2.checkCreatureLists = s.checkCreatureLists ∧ (s.checkCreature onThink x).2.index = s.index := by
  unfold checkCreature
  split
  · exact ⟨rfl, rfl⟩
  · split
    · exact foldl_call_same (onThink x) s
    · exact ⟨rfl, rfl⟩

theorem eraseIf_same (onThink : Creature → List (Call Creature)) (xs : List Creature) (s : CreatureChecks Creature) :
    (eraseIf onThink xs s).2.checkCreatureLists = s.checkCreatureLists ∧ (eraseIf onThink xs s).2.index = s.index := by
  induction xs generalizing s with
  | nil => exact ⟨rfl, rfl⟩
  | cons x xs ih =>
    obtain ⟨hl, hi⟩ := ih (s.checkCreature onThink x).2
    obtain ⟨hl', hi'⟩ := checkCreature_same onThink x s
    exact ⟨hl.trans hl', hi.trans hi'⟩

theorem count_cons_split (x : Creature) (xs : List Creature) (c : Creature) :
    (x :: xs).count c = [x].count c + xs.count c := by
  rw [← List.count_append, List.singleton_append]

/-- A creature that is erased has no place any more, and one that is kept still has its own. -/
theorem Placed.checkCreature {n : Creature → Nat} (onThink : Creature → List (Call Creature)) (x : Creature)
    (h : Placed s fun c => n c + [x].count c) :
    Placed (s.checkCreature onThink x).2 fun c => n c + if (s.checkCreature onThink x).1 then 0 else [x].count c := by
  unfold CreatureChecks.checkCreature
  by_cases hx : s.expired x = true
  · rw [if_pos hx]
    intro c
    obtain ⟨hone, hin⟩ := h c
    beta_reduce at hone hin
    simp only [if_true, Nat.add_zero]
    refine ⟨by omega, fun hc => ?_⟩
    have hne : c ≠ x := fun heq => by rw [heq, hx] at hc; cases hc
    have hcount : [x].count c = 0 := List.count_eq_zero.mpr (by simpa using hne)
    rw [← hin hc, hcount, Nat.add_zero]
  · rw [if_neg hx]
    by_cases hthinks : (s.creatureCheck x && s.isAlive x) = true
    · simp only [if_pos hthinks, Bool.false_eq_true, if_false]
      exact Placed.foldl_call (onThink x) h
    · simp only [if_neg hthinks, if_true, Nat.add_zero]
      intro c
      obtain ⟨hone, hin⟩ := h c
      beta_reduce at hone hin
      refine ⟨Nat.le_trans (Nat.add_le_add_left (Nat.le_add_right _ _) _) hone, fun hc => ?_⟩
      by_cases heq : c = x
      · subst heq
        rw [List.count_singleton_self] at hone
        simp only [Function.update_self, Bool.false_eq_true, if_false]
        change s.posted c + n c = 0
        omega
      · have hcount : [x].count c = 0 := List.count_eq_zero.mpr (by simpa using heq)
        simp only [Function.update_of_ne heq]
        rw [hcount, Nat.add_zero] at hin
        exact hin hc

theorem Placed.eraseIf {n : Creature → Nat} (onThink : Creature → List (Call Creature)) (xs : List Creature)
    (h : Placed s fun c => n c + xs.count c) :
    Placed (eraseIf onThink xs s).2 fun c => n c + (eraseIf onThink xs s).1.count c := by
  induction xs generalizing s n with
  | nil => exact h
  | cons x xs ih =>
    have hsplit : (fun c => n c + (x :: xs).count c) = fun c => (n c + xs.count c) + [x].count c := by
      funext c
      rw [count_cons_split]
      omega
    rw [hsplit] at h
    have hx := h.checkCreature onThink x
    have hswap : (fun c => n c + xs.count c + if (s.checkCreature onThink x).1 then 0 else [x].count c) =
        fun c => (n c + if (s.checkCreature onThink x).1 then 0 else [x].count c) + xs.count c := by
      funext c
      omega
    rw [hswap] at hx
    have hxs := ih hx
    rw [CreatureChecks.eraseIf]
    generalize s.checkCreature onThink x = r at hxs ⊢
    have hkept : (fun c => (n c + if r.1 then 0 else [x].count c) + (CreatureChecks.eraseIf onThink xs r.2).1.count c) =
        fun c => n c + (if r.1 then (CreatureChecks.eraseIf onThink xs r.2).1
          else x :: (CreatureChecks.eraseIf onThink xs r.2).1).count c := by
      funext c
      split
      · rfl
      · rw [count_cons_split x (CreatureChecks.eraseIf onThink xs r.2).1, Nat.add_assoc]
    rwa [hkept] at hxs

/-! ### Runs -/

/-- One list more, one list less. -/
theorem sum_update (lists : Fin EVENT_CREATURECOUNT → List Creature) (i : Fin EVENT_CREATURECOUNT) (l : List Creature)
    (c : Creature) : (∑ j, (Function.update lists i l j).count c) + (lists i).count c = (∑ j, (lists j).count c) + l.count c := by
  have hold := Finset.sum_erase_add Finset.univ (fun j => (lists j).count c) (Finset.mem_univ i)
  have hnew := Finset.sum_erase_add Finset.univ (fun j => (Function.update lists i l j).count c) (Finset.mem_univ i)
  have hsame : ∑ j ∈ Finset.univ.erase i, (Function.update lists i l j).count c = ∑ j ∈ Finset.univ.erase i, (lists j).count c :=
    Finset.sum_congr rfl fun j hj => by rw [Function.update_of_ne (Finset.ne_of_mem_erase hj)]
  rw [hsame, Function.update_self] at hnew
  omega

/-- Each creature stands in one event or list at most, and in one exactly where its flag says so. -/
def Inv (s : CreatureChecks Creature) : Prop := Placed s s.listed

theorem inv_start (isAlive : Creature → Bool) : Inv (start isAlive) := fun c => by
  simp [posted, listed, start]

theorem Inv.call (h : Inv s) (x : Call Creature) : Inv (s.call x) := by
  have hcall := Placed.call h x
  unfold Inv listed at *
  rwa [(call_same s x).1]

theorem Inv.runEvent (h : Inv s) : Inv s.runEvent := by
  unfold CreatureChecks.runEvent
  split
  · exact h
  · rename_i index x events hevents
    intro c
    obtain ⟨hone, hin⟩ := h c
    have hsum := sum_update s.checkCreatureLists index (s.checkCreatureLists index ++ [x]) c
    have hsplit : s.posted c = [x].count c + (events.map Prod.snd).count c := by
      rw [posted, hevents, List.map_cons, count_cons_split]
    have hsame : (events.map Prod.snd).count c +
        (∑ j, (Function.update s.checkCreatureLists index (s.checkCreatureLists index ++ [x]) j).count c) =
          s.posted c + s.listed c := by
      rw [List.count_append] at hsum
      unfold listed
      omega
    rw [← hsame] at hone hin
    exact ⟨hone, hin⟩

theorem Inv.checkCreatures (h : Inv s) (onThink : Creature → List (Call Creature)) : Inv (s.checkCreatures onThink) := by
  have hrest : Placed s fun c => (s.listed c - (s.checkCreatureLists s.index).count c) + (s.checkCreatureLists s.index).count c := by
    intro c
    have hle : (s.checkCreatureLists s.index).count c ≤ s.listed c :=
      Finset.single_le_sum (f := fun j => (s.checkCreatureLists j).count c) (fun _ _ => Nat.zero_le _) (Finset.mem_univ _)
    have hc := h c
    beta_reduce
    rwa [Nat.sub_add_cancel hle]
  have hturn := Placed.eraseIf onThink (s.checkCreatureLists s.index) hrest
  obtain ⟨hlists, hindex⟩ := eraseIf_same onThink (s.checkCreatureLists s.index) s
  intro c
  have hc := hturn c
  have hsum := sum_update s.checkCreatureLists s.index (eraseIf onThink (s.checkCreatureLists s.index) s).1 c
  have hle : (s.checkCreatureLists s.index).count c ≤ s.listed c :=
    Finset.single_le_sum (f := fun j => (s.checkCreatureLists j).count c) (fun _ _ => Nat.zero_le _) (Finset.mem_univ _)
  have hsame : (s.checkCreatures onThink).listed c =
      (s.listed c - (s.checkCreatureLists s.index).count c) + (eraseIf onThink (s.checkCreatureLists s.index) s).1.count c := by
    simp only [listed, CreatureChecks.checkCreatures, hlists, hindex]
    unfold listed at hle
    omega
  rw [hsame]
  exact hc

theorem Inv.step (h : Inv s) (e : Event Creature) : Inv (s.step e) := by
  cases e with
  | call x => exact h.call x
  | runEvent => exact h.runEvent
  | checkCreatures onThink => exact h.checkCreatures onThink

/-- However calls, events and turns follow each other, and whatever the creatures do while they think: each creature stands in one
    event or list at most, and in one exactly where `inCheckCreaturesVector` says so. -/
theorem placed_once (isAlive : Creature → Bool) (es : List (Event Creature)) (c : Creature) :
    let s := run step (start isAlive) es
    s.posted c + s.listed c ≤ 1 ∧
      (s.expired c = false → s.posted c + s.listed c = if s.inCheckCreaturesVector c then 1 else 0) :=
  run_induction Inv (fun _ e h => h.step e) es (inv_start isAlive) c

end CrystalServer.CreatureChecks
