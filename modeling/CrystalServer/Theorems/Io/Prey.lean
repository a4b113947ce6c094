import CrystalServer.Io.Prey
import CrystalServer.Theorems.Market.Items

/-! # Prey slots stay consistent

What each request and each check of the time does to a slot, said once. From it follow what every run keeps of the slots,
and what it takes of cards and gold. -/

namespace CrystalServer.Prey
open Lib (run run_induction)

variable {env : PreyEnv} {s s' : State} {slot slot' : PreySlot} {id : PreySlotId} {draws rest : List Nat} {m : Moment}

/-! ### What the draws give -/

theorem drawBonus_ne_none (draw : Nat) : PreySlot.drawBonus draw ≠ .None := by
  unfold PreySlot.drawBonus
  split <;> nofun

theorem reloadBonusType_eq (h : slot.reloadBonusType draws = some (slot', rest)) :
    ∃ bonus, bonus ≠ .None ∧ slot' = { slot with bonus } := by
  induction draws with
  | nil => cases h
  | cons draw draws ih =>
    rw [PreySlot.reloadBonusType] at h
    split at h
    · exact ih h
    · cases h
      exact ⟨_, drawBonus_ne_none draw, rfl⟩

theorem reloadBonusValue_eq (h : slot.reloadBonusValue draws = some (slot', rest)) :
    ∃ rarity, slot' = slot.setRarity rarity := by
  unfold PreySlot.reloadBonusValue at h
  split at h
  · cases h
    exact ⟨_, rfl⟩
  · cases draws with
    | nil => cases h
    | cons draw draws =>
      cases h
      exact ⟨_, rfl⟩

/-- A new bonus changes the bonus and its value, and is one. -/
theorem reloadBonus_eq (h : slot.reloadBonus draws = some (slot', rest)) :
    ∃ bonus bonusRarity bonusPercentage, bonus ≠ .None ∧ slot' = { slot with bonus, bonusRarity, bonusPercentage } := by
  obtain ⟨⟨slot₁, draws₁⟩, h₁, h₂⟩ := Option.bind_eq_some_iff.mp h
  obtain ⟨bonus, hb, rfl⟩ := reloadBonusType_eq h₁
  obtain ⟨rarity, rfl⟩ := reloadBonusValue_eq h₂
  exact ⟨bonus, _, _, hb, rfl⟩

/-- The list holds no creature twice, and all of it is on the black list. -/
structure Grid.Distinct (g : Grid) : Prop where
  nodup : g.raceIdList.Nodup
  black : ∀ raceId ∈ g.raceIdList, raceId ∈ g.blackList

theorem Grid.Distinct.next {g : Grid} (h : g.Distinct) (raceId : UInt16) : (g.next env raceId).Distinct := by
  unfold Grid.next
  dsimp only
  by_cases hcount : g.blackList.count raceId ≠ 0
  · rw [if_pos hcount]
    exact ⟨h.nodup, h.black⟩
  · rw [if_neg hcount]
    have hnew : raceId ∉ g.blackList := fun hm => hcount (List.count_pos_iff.mpr hm).ne'
    have hskip : ({ g with tries := g.tries + 1, blackList := g.blackList ++ [raceId] } : Grid).Distinct :=
      ⟨h.nodup, fun x hx => List.mem_append_left _ (h.black x hx)⟩
    have hnodup : (g.raceIdList ++ [raceId]).Nodup :=
      List.nodup_append.mpr ⟨h.nodup, List.nodup_singleton raceId, fun x hx y hy hxy =>
        hnew (List.mem_singleton.mp hy ▸ hxy ▸ h.black x hx)⟩
    have hblack : ∀ x ∈ g.raceIdList ++ [raceId], x ∈ g.blackList ++ [raceId] := fun x hx =>
      (List.mem_append.mp hx).elim (fun hx => List.mem_append_left _ (h.black x hx)) (List.mem_append_right _)
    cases env.getMonsterTypeByRaceId raceId with
    | none => exact hskip
    | some mtype =>
      dsimp only
      split_ifs <;> first | exact hskip | exact ⟨hnodup, hblack⟩

theorem Grid.Distinct.loop {g : Grid} (h : g.Distinct) {l : List UInt16} (hl : g.loop env draws = some (l, rest)) :
    l.Nodup := by
  induction draws generalizing g with
  | nil =>
    rw [Grid.loop] at hl
    split at hl
    · cases hl
    · cases hl
      exact h.nodup
  | cons draw draws ih =>
    rw [Grid.loop] at hl
    split at hl
    · exact ih (h.next _) hl
    · cases hl
      exact h.nodup

/-- A new list holds no creature twice. -/
theorem reloadMonsterGrid_eq {blackList : List UInt16} {level : UInt32}
    (h : slot.reloadMonsterGrid env blackList level draws = some (slot', rest)) :
    ∃ raceIdList, raceIdList.Nodup ∧ slot' = { slot with raceIdList } := by
  unfold PreySlot.reloadMonsterGrid at h
  split at h
  · cases h
    exact ⟨[], List.nodup_nil, rfl⟩
  · obtain ⟨⟨l, rest₁⟩, hl, heq⟩ := Option.map_eq_some_iff.mp h
    cases heq
    refine ⟨l, Grid.Distinct.loop ?_ hl, rfl⟩
    unfold Grid.start
    dsimp only
    split_ifs <;> exact ⟨List.nodup_nil, nofun⟩

/-! ### What is paid -/

theorem removeMoney_paid {p : Market.Player} {money : UInt64} {useBalance : Bool}
    (h : (p.removeMoney money useBalance).2 = true) :
    (p.removeMoney money useBalance).1.worth + money.toNat = p.worth := by
  by_cases hle : money ≤ p.money + if useBalance then p.bankBalance else 0
  · exact Market.worth_removeMoney p money useBalance hle
  · have hpos : money ≠ 0 := by
      rintro rfl
      exact hle UInt64.zero_le
    have hlt := UInt64.not_le.mp hle
    unfold Market.Player.removeMoney at h
    dsimp only at h
    rw [if_neg hpos, if_pos hlt] at h
    cases h

theorem usePreyCards_eq {amount : UInt16} (h : usePreyCards s amount = some s') :
    s' = { s with preyCards := s'.preyCards } ∧ s'.preyCards.toNat + amount.toNat = s.preyCards.toNat := by
  unfold usePreyCards at h
  split at h
  · cases h
  · rename_i hlt
    cases h
    have hle := UInt64.not_lt.mp hlt
    have hsub := UInt64.toNat_sub_of_le _ _ hle
    have hle' := UInt64.le_iff_toNat_le.mp hle
    simp only [UInt16.toNat_toUInt64] at hsub hle'
    exact ⟨rfl, by simp only; omega⟩

/-- The cards that an action costs. -/
def cardPrice (env : PreyEnv) : PreyAction → UInt16
  | .ListAll_Cards => toUInt16 env.PREY_SELECTION_LIST_PRICE
  | .BonusReroll => toUInt16 env.PREY_BONUS_REROLL_PRICE
  | _ => 0

/-- The gold that an action costs: a new list is free once the time has come. -/
def goldPrice (env : PreyEnv) (m : Moment) (slot : PreySlot) : PreyAction → UInt64
  | .ListReroll => if slot.freeRerollTimeStamp > m.now₁ then (getPreyRerollPrice env m).toUInt64 else 0
  | _ => 0

/-! ### What a request does -/

/-- A creature is selected that no slot has. -/
structure Selected (env : PreyEnv) (s : State) (slot slot' : PreySlot) (raceId : UInt16) : Prop where
  unoccupied : slot.isOccupied = false
  free : getPreyWithMonster env s raceId = false
  state : slot'.state = .Active
  selectedRaceId : slot'.selectedRaceId = raceId
  raceIdList : slot'.raceIdList = slot.raceIdList.filter (· ≠ raceId)
  bonus : slot'.bonus ≠ .None
  bonusTimeLeft : slot'.bonusTimeLeft = toUInt16 env.PREY_BONUS_TIME

/-- What an action does to its slot when it takes effect. -/
def Effect (env : PreyEnv) (s : State) (slot slot' : PreySlot) (r : Request) : Prop :=
  match r.action with
  | .ListReroll => slot'.state ≠ .Active ∧ slot'.selectedRaceId = 0 ∧ slot'.bonusTimeLeft = 0 ∧
      slot'.bonus = slot.bonus ∧ slot'.raceIdList.Nodup
  | .ListAll_Cards => slot' = { slot with bonusTimeLeft := 0, selectedRaceId := 0, state := .ListSelection }
  | .ListAll_Selection => Selected env s slot slot' r.raceId
  | .MonsterSelection => ∃ raceId ∈ slot.raceIdList, Selected env s slot slot' raceId
  | .BonusReroll => slot.isOccupied ∧ ∃ bonus bonusRarity bonusPercentage, bonus ≠ .None ∧ slot' = { slot with
      bonus, bonusRarity, bonusPercentage, bonusTimeLeft := toUInt16 env.PREY_BONUS_TIME }
  | .Option => slot' = { slot with option := r.option }
  | .unknown _ => False

/-- A request is refused and changes nothing, or it takes effect on its slot and takes its price. -/
inductive Answered (env : PreyEnv) (m : Moment) (s : State) (r : Request) : State → Reply → Prop
  | refused {reply : Reply} (h : reply ≠ .reloadPreySlot) : Answered env m s r s reply
  | done {id : PreySlotId} {s' : State} {slot' : PreySlot} (hid : r.slotId = some id)
      (heffect : Effect env s (s.preys id) slot' r) (hpreys : s'.preys = Function.update s.preys id slot')
      (hcards : s'.preyCards.toNat + (cardPrice env r.action).toNat = s.preyCards.toNat)
      (hgold : s'.player.worth + (goldPrice env m (s.preys id) r.action).toNat = s.player.worth) :
      Answered env m s r s' .reloadPreySlot

variable {r : Request} {reply : Reply}

theorem reroll_eq (env : PreyEnv) (m : Moment) (slot : PreySlot) : (slot.reroll env m).state ≠ .Active ∧
    (slot.reroll env m).selectedRaceId = 0 ∧ (slot.reroll env m).bonusTimeLeft = 0 ∧
      (slot.reroll env m).bonus = slot.bonus := by
  have herase : ∀ slot : PreySlot, slot.eraseBonus true =
      { slot with state := .Selection, option := .None, selectedRaceId := 0, bonusTimeLeft := 0 } := fun _ => rfl
  unfold PreySlot.reroll
  simp only [herase]
  split_ifs <;> exact ⟨nofun, rfl, rfl, rfl⟩

theorem payReroll_paid {player : Market.Player} (h : (payReroll env m player slot).2 = true) :
    (payReroll env m player slot).1.worth + (goldPrice env m slot .ListReroll).toNat = player.worth := by
  unfold payReroll goldPrice at *
  split_ifs at h ⊢
  · exact removeMoney_paid h
  · rfl

theorem answered_listReroll (hid : r.slotId = some id) (hr : r.action = .ListReroll)
    (h : listReroll env m s id draws = some (s', reply)) : Answered env m s r s' reply := by
  unfold listReroll at h
  dsimp only at h
  split at h
  · cases h
    exact .refused nofun
  · rename_i hpaid
    obtain ⟨⟨slot₁, rest₁⟩, hgrid, heq⟩ := Option.map_eq_some_iff.mp h
    obtain ⟨l, hl, rfl⟩ := reloadMonsterGrid_eq hgrid
    cases heq
    obtain ⟨hstate, hid₀, htime, hbonus⟩ := reroll_eq env m (s.preys id)
    refine .done hid ?_ (Function.update_idem ..) (by rw [hr]; rfl) ?_
    · rw [Effect, hr]
      exact ⟨hstate, hid₀, htime, hbonus, hl⟩
    · rw [hr]
      exact payReroll_paid (by simpa using hpaid)

theorem answered_listAllCards (hid : r.slotId = some id) (hr : r.action = .ListAll_Cards)
    (h : listAllCards env s id = (s', reply)) : Answered env m s r s' reply := by
  unfold listAllCards at h
  split at h
  · cases h
    exact .refused nofun
  · rename_i s₁ hcards
    obtain ⟨hs₁, hprice⟩ := usePreyCards_eq hcards
    cases h
    rw [hs₁]
    refine .done hid ?_ rfl ?_ ?_
    · rw [Effect, hr]
    · rw [hr]
      exact hprice
    · rw [hr]
      rfl

/-- Both ways of selecting a creature end in the same way. -/
theorem select_eq {raceId : UInt16} (hocc : ¬(s.preys id).isOccupied = true)
    (hfree : getPreyWithMonster env s raceId = false) (h : select env s id raceId draws = some (s', reply)) :
    reply = .reloadPreySlot ∧ ∃ slot', s' = s.setSlot id slot' ∧ Selected env s (s.preys id) slot' raceId := by
  unfold select at h
  dsimp only at h
  obtain ⟨slot₁, hslot₁, heq⟩ := Option.map_eq_some_iff.mp h
  cases heq
  refine ⟨rfl, _, rfl, ?_⟩
  split at hslot₁
  · obtain ⟨⟨slot₂, rest₂⟩, hbonus, rfl⟩ := Option.map_eq_some_iff.mp hslot₁
    obtain ⟨bonus, _, _, hb, rfl⟩ := reloadBonus_eq hbonus
    exact ⟨by simpa using hocc, hfree, rfl, rfl, rfl, hb, rfl⟩
  · rename_i hb
    cases hslot₁
    exact ⟨by simpa using hocc, hfree, rfl, rfl, rfl, hb, rfl⟩

theorem answered_listAllSelection (hid : r.slotId = some id) (hr : r.action = .ListAll_Selection)
    (h : listAllSelection env s id r.raceId draws = some (s', reply)) : Answered env m s r s' reply := by
  unfold listAllSelection at h
  dsimp only at h
  split at h
  · cases h
    exact .refused nofun
  rename_i hocc
  split at h
  · cases h
    exact .refused nofun
  split at h
  · cases h
    exact .refused nofun
  rename_i hfree
  split at h
  · cases h
    exact .refused nofun
  obtain ⟨rfl, slot', rfl, hsel⟩ := select_eq hocc (by simpa using hfree) h
  refine .done hid ?_ rfl (by rw [hr]; rfl) (by rw [hr]; rfl)
  rw [Effect, hr]
  exact hsel

theorem answered_bonusReroll (hid : r.slotId = some id) (hr : r.action = .BonusReroll)
    (h : bonusReroll env s id draws = some (s', reply)) : Answered env m s r s' reply := by
  unfold bonusReroll at h
  split at h
  · cases h
    exact .refused nofun
  rename_i hocc
  split at h
  · cases h
    exact .refused nofun
  rename_i s₁ hcards
  obtain ⟨hs₁, hprice⟩ := usePreyCards_eq hcards
  obtain ⟨⟨slot₁, rest₁⟩, hbonus, heq⟩ := Option.map_eq_some_iff.mp h
  obtain ⟨bonus, rarity, percentage, hb, rfl⟩ := reloadBonus_eq hbonus
  cases heq
  rw [hs₁]
  refine .done hid ?_ rfl ?_ ?_
  · rw [Effect, hr]
    exact ⟨by simpa using hocc, bonus, rarity, percentage, hb, rfl⟩
  · rw [hr]
    exact hprice
  · rw [hr]
    rfl

theorem answered_monsterSelection (hid : r.slotId = some id) (hr : r.action = .MonsterSelection)
    (h : monsterSelection env s id r.index draws = some (s', reply)) : Answered env m s r s' reply := by
  unfold monsterSelection at h
  dsimp only at h
  split at h
  · cases h
    exact .refused nofun
  rename_i hocc
  split at h
  · cases h
    exact .refused nofun
  split at h
  · cases h
    exact .refused nofun
  rename_i raceId hindex
  split at h
  · cases h
    exact .refused nofun
  rename_i hfree
  obtain ⟨rfl, slot', rfl, hsel⟩ := select_eq hocc (by simpa using hfree) h
  refine .done hid ?_ rfl (by rw [hr]; rfl) (by rw [hr]; rfl)
  rw [Effect, hr]
  exact ⟨raceId, List.mem_of_getElem? hindex, hsel⟩

theorem answered_setOption (hid : r.slotId = some id) (hr : r.action = .Option)
    (h : setOption env s id r.option = (s', reply)) : Answered env m s r s' reply := by
  unfold setOption at h
  split at h
  · cases h
    exact .refused nofun
  split at h
  · cases h
    exact .refused nofun
  cases h
  refine .done hid ?_ rfl (by rw [hr]; rfl) (by rw [hr]; rfl)
  rw [Effect, hr]

/-- Every request is refused, or takes effect. -/
theorem parsePreyAction_answered (h : parsePreyAction env m s r draws = some (s', reply)) :
    Answered env m s r s' reply := by
  unfold parsePreyAction at h
  dsimp only at h
  split at h
  · cases h
    exact .refused nofun
  rename_i id hid
  split at h
  · cases h
    exact .refused nofun
  unfold act at h
  split at h
  · exact answered_listReroll hid ‹_› h
  · exact answered_listAllCards hid ‹_› (Option.some.inj h)
  · exact answered_listAllSelection hid ‹_› h
  · exact answered_bonusReroll hid ‹_› h
  · exact answered_monsterSelection hid ‹_› h
  · exact answered_setOption hid ‹_› (Option.some.inj h)
  · cases h
    exact .refused nofun

/-! ### What a check of the time does -/

/-- The cards that the slots of an option cost when they are renewed. -/
def renewalPrice (env : PreyEnv) : PreyOption → UInt16
  | .AutomaticReroll => toUInt16 env.PREY_BONUS_REROLL_PRICE
  | .Locked => toUInt16 env.PREY_SELECTION_LIST_PRICE
  | _ => 0

/-- The time of an occupied slot ends within the amount. -/
def PreySlot.Due (slot : PreySlot) (amount : UInt8) : Prop := slot.isOccupied ∧ slot.bonusTimeLeft ≤ amount.toUInt16

/-- What a check does to a slot, and the cards that it takes for it. -/
inductive Checked (env : PreyEnv) (amount : UInt8) (slot : PreySlot) : PreySlot → UInt16 → Prop
  | free (h : slot.isOccupied = false) : Checked env amount slot slot 0
  | running (h : slot.isOccupied) (ht : amount.toUInt16 < slot.bonusTimeLeft) :
      Checked env amount slot { slot with bonusTimeLeft := slot.bonusTimeLeft - amount.toUInt16 } 0
  | renewed (bonus : PreyBonus) (bonusRarity bonusPercentage : Nat) (h : slot.Due amount)
      (hb : slot.bonus ≠ .None → bonus ≠ .None) (hoption : slot.option = .AutomaticReroll ∨ slot.option = .Locked) :
      Checked env amount slot { slot with
        bonus, bonusRarity, bonusPercentage, bonusTimeLeft := toUInt16 env.PREY_BONUS_TIME } (renewalPrice env slot.option)
  | erased (raceIdList : List UInt16) (h : slot.Due amount) (hl : slot.raceIdList.Nodup → raceIdList.Nodup) :
      Checked env amount slot ({ slot with raceIdList }.eraseBonus false) 0

theorem checkSlot_checked {amount : UInt8} {c c' : Check} (h : checkSlot env m amount c id = some c') :
    ∃ slot' price, Checked env amount (c.state.preys id) slot' price ∧
      c'.state.preys = Function.update c.state.preys id slot' ∧
      c'.state.preyCards.toNat + price.toNat = c.state.preyCards.toNat ∧ c'.state.player = c.state.player := by
  unfold checkSlot at h
  dsimp only at h
  split at h
  · rename_i hocc
    cases h
    exact ⟨_, 0, .free (by simpa using hocc), (Function.update_eq_self ..).symm, rfl, rfl⟩
  rename_i hocc
  replace hocc : (c.state.preys id).isOccupied = true := by simpa using hocc
  split at h
  · rename_i htime
    have hdue : (c.state.preys id).Due amount := ⟨hocc, htime⟩
    split at h
    · rename_i hoption
      split at h
      · rename_i s₁ hcards
        obtain ⟨hs₁, hprice⟩ := usePreyCards_eq hcards
        obtain ⟨⟨slot₁, rest₁⟩, hbonus, rfl⟩ := Option.map_eq_some_iff.mp h
        obtain ⟨bonus, rarity, percentage, hb, rfl⟩ := reloadBonus_eq hbonus
        refine ⟨_, _, .renewed bonus rarity percentage hdue (fun _ => hb) (.inl hoption), ?_, ?_, ?_⟩
        · rw [hs₁]
          rfl
        · rw [hoption]
          exact hprice
        · rw [hs₁]
          rfl
      · cases h
        exact ⟨_, 0, .erased _ hdue fun hl => hl, rfl, rfl, rfl⟩
    · split at h
      · rename_i hoption
        split at h
        · rename_i s₁ hcards
          obtain ⟨hs₁, hprice⟩ := usePreyCards_eq hcards
          cases h
          refine ⟨_, _, .renewed (c.state.preys id).bonus (c.state.preys id).bonusRarity (c.state.preys id).bonusPercentage hdue
            (fun hb => hb) (.inr hoption), ?_, ?_, ?_⟩
          · rw [hs₁]
            rfl
          · rw [hoption]
            exact hprice
          · rw [hs₁]
            rfl
        · cases h
          exact ⟨_, 0, .erased _ hdue fun hl => hl, rfl, rfl, rfl⟩
      · obtain ⟨⟨slot₁, rest₁⟩, hgrid, rfl⟩ := Option.map_eq_some_iff.mp h
        obtain ⟨l, hl, rfl⟩ := reloadMonsterGrid_eq hgrid
        refine ⟨_, 0, .erased _ hdue fun _ => hl, ?_, rfl, rfl⟩
        simp [Check.erase, State.setSlot]
  · rename_i htime
    cases h
    exact ⟨_, 0, .running hocc (UInt16.not_le.mp htime), rfl, rfl, rfl⟩

/-! ### Consistent slots -/

/-- The slot is active exactly when it has a creature, and then the creature has time, a bonus and no place in the list,
    which holds no creature twice. -/
structure PreySlot.Sound (slot : PreySlot) : Prop where
  active : slot.state = .Active ↔ slot.selectedRaceId ≠ 0
  time : slot.selectedRaceId ≠ 0 → slot.bonusTimeLeft > 0
  bonus : slot.selectedRaceId ≠ 0 → slot.bonus ≠ .None
  notListed : slot.selectedRaceId ≠ 0 → slot.selectedRaceId ∉ slot.raceIdList
  nodup : slot.raceIdList.Nodup

/-- All slots are sound, and no two have the same creature. -/
structure Consistent (s : State) : Prop where
  sound : ∀ id, (s.preys id).Sound
  distinct : ∀ id id', (s.preys id).selectedRaceId ≠ 0 → (s.preys id).selectedRaceId = (s.preys id').selectedRaceId →
    id = id'

theorem PreySlot.sound_of_free (hstate : slot.state ≠ .Active) (hid : slot.selectedRaceId = 0) (hl : slot.raceIdList.Nodup) :
    slot.Sound :=
  ⟨iff_of_false hstate (not_not_intro hid), fun h => absurd hid h, fun h => absurd hid h, fun h => absurd hid h, hl⟩

/-- One slot changes, and has no creature that another slot has. -/
theorem Consistent.update (h : Consistent s) (hs : slot'.Sound)
    (hfree : slot'.selectedRaceId ≠ 0 → ∀ id', id' ≠ id → (s.preys id').selectedRaceId ≠ slot'.selectedRaceId)
    (hpreys : s'.preys = Function.update s.preys id slot') : Consistent s' := by
  constructor
  · intro i
    rw [hpreys]
    by_cases hi : i = id
    · subst hi
      rwa [Function.update_self]
    · rw [Function.update_of_ne hi]
      exact h.sound i
  · intro i j hpos heq
    rw [hpreys] at hpos heq
    by_cases hi : i = id <;> by_cases hj : j = id
    · rw [hi, hj]
    · subst hi
      rw [Function.update_self] at hpos heq
      rw [Function.update_of_ne hj] at heq
      exact absurd heq.symm (hfree hpos j hj)
    · subst hj
      rw [Function.update_of_ne hi] at hpos heq
      rw [Function.update_self] at heq
      exact absurd heq (hfree (heq ▸ hpos) i hi)
    · rw [Function.update_of_ne hi] at hpos heq
      rw [Function.update_of_ne hj] at heq
      exact h.distinct i j hpos heq

/-- A slot that keeps its creature, or has none afterwards. -/
theorem Consistent.update_same (h : Consistent s) (hs : slot'.Sound)
    (hsame : slot'.selectedRaceId = (s.preys id).selectedRaceId ∨ slot'.selectedRaceId = 0)
    (hpreys : s'.preys = Function.update s.preys id slot') : Consistent s' := by
  refine h.update hs (fun hpos i hi heq => hi ?_) hpreys
  have hsel := hsame.resolve_right hpos
  exact h.distinct i id (heq ▸ hpos) (heq.trans hsel)

theorem PreySlot.ne_zero_of_isOccupied (h : slot.isOccupied = true) : slot.selectedRaceId ≠ 0 := by
  simp only [PreySlot.isOccupied, decide_eq_true_eq] at h
  exact h.1

theorem PreySlot.Sound.eq_zero_of_unoccupied (hs : slot.Sound) (h : slot.isOccupied = false) : slot.selectedRaceId = 0 := by
  by_contra hid
  have htime := hs.time hid
  simp [PreySlot.isOccupied, hid, htime] at h

theorem PreySlot.Sound.selected (hs : slot.Sound) (htime : toUInt16 env.PREY_BONUS_TIME ≠ 0) {raceId : UInt16}
    (hid : raceId ≠ 0) (h : Selected env s slot slot' raceId) : slot'.Sound where
  active := iff_of_true h.state (h.selectedRaceId ▸ hid)
  time _ := h.bonusTimeLeft ▸ UInt16.pos_iff_ne_zero.mpr htime
  bonus _ := h.bonus
  notListed _ := by
    rw [h.selectedRaceId, h.raceIdList]
    simp
  nodup := h.raceIdList ▸ hs.nodup.filter _

theorem Selected.ne {raceId : UInt16} (henabled : env.PREY_ENABLED = true) (h : Selected env s slot slot' raceId)
    (id : PreySlotId) : (s.preys id).selectedRaceId ≠ raceId := by
  have hfree := h.free
  simp only [getPreyWithMonster, henabled, Bool.true_and, List.any_eq_false, decide_eq_true_eq] at hfree
  exact hfree id (by cases id <;> simp [PreySlotId.all])

theorem Consistent.answered (henabled : env.PREY_ENABLED = true) (htime : toUInt16 env.PREY_BONUS_TIME ≠ 0)
    (h : Consistent s) (ha : Answered env m s r s' reply) : Consistent s' := by
  cases ha with
  | refused _ => exact h
  | @done id _ slot' _ heffect hpreys _ _ =>
    have hs := h.sound id
    -- a creature of race 0 is that of the slot itself, so it is not selected
    have hselected : ∀ raceId, Selected env s (s.preys id) slot' raceId → Consistent s' := fun raceId hsel => by
      have hne := hsel.ne henabled
      have hpos : raceId ≠ 0 := fun h0 => hne id (hs.eq_zero_of_unoccupied hsel.unoccupied |>.trans h0.symm)
      exact h.update (hs.selected htime hpos hsel) (fun _ i _ => hsel.selectedRaceId ▸ hne i) hpreys
    unfold Effect at heffect
    split at heffect
    · obtain ⟨hstate, hid, -, -, hl⟩ := heffect
      exact h.update_same (PreySlot.sound_of_free hstate hid hl) (.inr hid) hpreys
    · refine h.update_same ?_ (.inr ?_) hpreys <;> rw [heffect]
      exact PreySlot.sound_of_free (by simp) rfl hs.nodup
    · exact hselected _ heffect
    · obtain ⟨raceId, -, hsel⟩ := heffect
      exact hselected _ hsel
    · obtain ⟨hocc, bonus, rarity, percentage, hb, heq⟩ := heffect
      refine h.update_same ?_ (.inl ?_) hpreys <;> rw [heq]
      exact ⟨hs.active, fun _ => UInt16.pos_iff_ne_zero.mpr htime, fun _ => hb, hs.notListed, hs.nodup⟩
    · refine h.update_same ?_ (.inl ?_) hpreys <;> rw [heffect]
      exact ⟨hs.active, hs.time, hs.bonus, hs.notListed, hs.nodup⟩
    · exact heffect.elim

theorem Consistent.checked {amount : UInt8} {price : UInt16} (htime : toUInt16 env.PREY_BONUS_TIME ≠ 0)
    (h : Consistent s) (hc : Checked env amount (s.preys id) slot' price)
    (hpreys : s'.preys = Function.update s.preys id slot') : Consistent s' := by
  have hs := h.sound id
  cases hc with
  | free _ => exact h.update_same hs (.inl rfl) hpreys
  | running _ ht =>
    refine h.update_same ?_ (.inl ?_) hpreys
    · have hsub := UInt16.toNat_sub_of_le _ _ (UInt16.le_of_lt ht)
      have hlt := UInt16.lt_iff_toNat_lt.mp ht
      have hpos : 0 < (s.preys id).bonusTimeLeft - amount.toUInt16 :=
        UInt16.lt_iff_toNat_lt.mpr (by rw [hsub, UInt16.toNat_zero]; omega)
      exact ⟨hs.active, fun _ => hpos, hs.bonus, hs.notListed, hs.nodup⟩
    · rfl
  | renewed bonus rarity percentage _ hb _ =>
    refine h.update_same ?_ (.inl ?_) hpreys
    · exact ⟨hs.active, fun _ => UInt16.pos_iff_ne_zero.mpr htime, fun hid => hb (hs.bonus hid), hs.notListed, hs.nodup⟩
    · rfl
  | erased l _ hl =>
    refine h.update_same ?_ (.inr rfl) hpreys
    exact PreySlot.sound_of_free nofun rfl (hl hs.nodup)

/-! ### Whole checks -/

instance (slot : PreySlot) (amount : UInt8) : Decidable (slot.Due amount) := inferInstanceAs (Decidable (_ ∧ _))

/-- A slot that was due is renewed if it is still occupied, and then its price is taken. -/
def renewalFee (env : PreyEnv) (amount : UInt8) (slot slot' : PreySlot) : Nat :=
  if slot.Due amount ∧ slot'.isOccupied then (renewalPrice env slot.option).toNat else 0

theorem Checked.fee {amount : UInt8} {price : UInt16} (htime : toUInt16 env.PREY_BONUS_TIME ≠ 0)
    (h : Checked env amount slot slot' price) : renewalFee env amount slot slot' = price.toNat := by
  unfold renewalFee
  cases h with
  | free hocc => exact if_neg fun hdue => by simp [hocc] at hdue
  | running _ ht => exact if_neg fun hdue => UInt16.not_le.mpr ht hdue.1.2
  | renewed bonus rarity percentage hdue _ _ =>
    have hid := PreySlot.ne_zero_of_isOccupied hdue.1
    refine if_pos ⟨hdue, ?_⟩
    simp [PreySlot.isOccupied, hid, UInt16.pos_iff_ne_zero, htime]
  | erased l _ _ => exact if_neg fun hdue => by simp [PreySlot.isOccupied, PreySlot.eraseBonus] at hdue

/-- The checks of some slots, one after the other: the others stay as they are. -/
theorem foldlM_checkSlot (htime : toUInt16 env.PREY_BONUS_TIME ≠ 0) {amount : UInt8} {ids : List PreySlotId}
    (hids : ids.Nodup) {c c' : Check} (h : ids.foldlM (checkSlot env m amount) c = some c') (hc : Consistent c.state) :
    Consistent c'.state ∧ c'.state.player = c.state.player ∧
      c'.state.preyCards.toNat +
        (ids.map fun id => renewalFee env amount (c.state.preys id) (c'.state.preys id)).sum = c.state.preyCards.toNat ∧
      ∀ id, id ∉ ids → c'.state.preys id = c.state.preys id := by
  induction ids generalizing c with
  | nil =>
    cases h
    exact ⟨hc, rfl, rfl, fun _ _ => rfl⟩
  | cons id ids ih =>
    obtain ⟨hnot, hids⟩ := List.nodup_cons.mp hids
    rw [List.foldlM_cons] at h
    obtain ⟨c₁, h₁, h₂⟩ := Option.bind_eq_some_iff.mp h
    obtain ⟨slot', price, hslot, hpreys, hcards, hplayer⟩ := checkSlot_checked h₁
    obtain ⟨hcons, hplayer', hcards', hothers⟩ := ih hids h₂ (hc.checked htime hslot hpreys)
    have hself : c'.state.preys id = slot' := by rw [hothers id hnot, hpreys, Function.update_self]
    have hkept : ∀ i, i ≠ id → c₁.state.preys i = c.state.preys i := fun i hi => by
      rw [hpreys, Function.update_of_ne hi]
    refine ⟨hcons, hplayer'.trans hplayer, ?_, fun i hi => ?_⟩
    · have hfees : (ids.map fun i => renewalFee env amount (c₁.state.preys i) (c'.state.preys i)) =
          ids.map fun i => renewalFee env amount (c.state.preys i) (c'.state.preys i) :=
        List.map_congr_left fun i hi => by rw [hkept i (by rintro rfl; exact hnot hi)]
      rw [hfees] at hcards'
      rw [List.map_cons, List.sum_cons, hself, hslot.fee htime]
      omega
    · obtain ⟨hne, hi⟩ := not_or.mp fun hm => hi (List.mem_cons.mpr hm)
      rw [hothers i hi, hkept i hne]

/-! ### Runs -/

/-- An unlocked slot in the state `Selection`, with a list that `reloadMonsterGrid` made. -/
structure PreySlot.Fresh (env : PreyEnv) (slot : PreySlot) : Prop where
  state : slot.state = .Selection
  selectedRaceId : slot.selectedRaceId = 0
  raceIdList : ∃ slot₀ blackList level draws rest,
    PreySlot.reloadMonsterGrid env slot₀ blackList level draws = some (slot, rest)

/-- A call takes cards and gold exactly for what takes effect. -/
def Paid (env : PreyEnv) (s : State) : Call → Prop
  | .parsePreyAction m r draws => ∀ s' reply, parsePreyAction env m s r draws = some (s', reply) →
      Answered env m s r s' reply
  | .checkPlayerPreys m amount draws => ∀ c, checkPlayerPreys env m s amount draws = some c →
      c.state.player = s.player ∧ c.state.preyCards.toNat +
        (PreySlotId.all.map fun id => renewalFee env amount (s.preys id) (c.state.preys id)).sum = s.preyCards.toNat

theorem PreySlotId.nodup_all : PreySlotId.all.Nodup := by decide

theorem consistent_of_fresh (h : ∀ id, (s.preys id).Fresh env) : Consistent s := by
  refine ⟨fun id => ?_, fun id id' hpos _ => absurd (h id).selectedRaceId hpos⟩
  obtain ⟨slot₀, blackList, level, draws, rest, hgrid⟩ := (h id).raceIdList
  obtain ⟨l, hl, heq⟩ := reloadMonsterGrid_eq hgrid
  refine PreySlot.sound_of_free ?_ (h id).selectedRaceId (by rw [heq]; exact hl)
  rw [(h id).state]
  nofun

theorem Consistent.step (henabled : env.PREY_ENABLED = true) (htime : toUInt16 env.PREY_BONUS_TIME ≠ 0)
    (h : Consistent s) (call : Call) : Consistent (step env s call) := by
  unfold Prey.step
  cases hp : perform env s call with
  | none => exact h
  | some s' =>
    cases call with
    | parsePreyAction m r draws =>
      obtain ⟨⟨s₁, reply⟩, ha, rfl⟩ := Option.map_eq_some_iff.mp hp
      exact h.answered henabled htime (parsePreyAction_answered ha)
    | checkPlayerPreys m amount draws =>
      obtain ⟨c, hc, rfl⟩ := Option.map_eq_some_iff.mp hp
      exact (foldlM_checkSlot htime PreySlotId.nodup_all hc h).1

theorem paid_of_consistent (htime : toUInt16 env.PREY_BONUS_TIME ≠ 0) (h : Consistent s) (call : Call) :
    Paid env s call := by
  cases call with
  | parsePreyAction m r draws => exact fun s' reply ha => parsePreyAction_answered ha
  | checkPlayerPreys m amount draws =>
    intro c hc
    obtain ⟨-, hplayer, hcards, -⟩ := foldlM_checkSlot htime PreySlotId.nodup_all hc h
    exact ⟨hplayer, hcards⟩

/-- Where the time of a bonus is not zero in 16 bits, the slots stay consistent, and every call takes what it costs. -/
theorem consistent_and_paid (henabled : env.PREY_ENABLED = true) (htime : toUInt16 env.PREY_BONUS_TIME ≠ 0)
    (h : ∀ id, (s.preys id).Fresh env) (calls : List Call) : Consistent (run (step env) s calls) ∧
      ∀ before call rest, calls = before ++ call :: rest → Paid env (run (step env) s before) call := by
  have hrun : ∀ calls, Consistent (run (step env) s calls) := fun calls =>
    run_induction Consistent (fun _ call hs => hs.step henabled htime call) calls (consistent_of_fresh h)
  exact ⟨hrun calls, fun before call _ _ => paid_of_consistent htime (hrun before) call⟩

/-! ### A configuration -/

/-- The configuration with a time of the bonus, and no creatures to choose from. -/
def configured (time : Int32) : PreyEnv where
  PREY_ENABLED := true
  PREY_BONUS_REROLL_PRICE := 1
  PREY_SELECTION_LIST_PRICE := 5
  PREY_BONUS_TIME := time
  PREY_FREE_REROLL_TIME := 72000
  PREY_REROLL_PRICE_LEVEL := 200
  bestiary := []
  getMonsterTypeByRaceId := fun _ => none

/-- Ten cards, and no list. -/
def newPlayer : State where
  player :=
    { bankBalance := 0, money := 0, stash := fun _ => 0, locker := [], account := { id := 1, m_accLoaded := true } }
  preyCards := 10
  preys := fun _ => { state := .Selection }

theorem newPlayer_fresh (time : Int32) (id : PreySlotId) : (newPlayer.preys id).Fresh (configured time) :=
  ⟨rfl, rfl, newPlayer.preys id, [], 0, [], [], rfl⟩

/-- A creature is chosen with cards. -/
def choose : List Call :=
  let m : Moment := { level := 8, now₁ := 0, now₂ := 0, now₃ := 0 }
  [.parsePreyAction m { slotId := some .One, action := .ListAll_Cards, option := .None, index := -1, raceId := 0 } [],
    .parsePreyAction m { slotId := some .One, action := .ListAll_Selection, option := .None, index := -1, raceId := 21 }
      [0, 0]]

theorem consistent_and_paid_choose : Consistent (run (step (configured 7200)) newPlayer choose) ∧
    ∀ before call rest, choose = before ++ call :: rest → Paid (configured 7200) (run (step (configured 7200)) newPlayer before)
      call :=
  consistent_and_paid rfl (by decide) (newPlayer_fresh 7200) choose

/-- A time of 65536 seconds is none in 16 bits. -/
theorem not_consistent_choose : ¬∀ env s calls, env.PREY_ENABLED = true → (∀ id, (s.preys id).Fresh env) →
    Consistent (run (step env) s calls) := by
  intro h
  have hs := (h (configured 65536) newPlayer choose rfl (newPlayer_fresh 65536)).sound .One
  exact absurd (hs.time (by decide +kernel)) (by decide +kernel)

end CrystalServer.Prey
