import CrystalServer.Creatures.WheelBonus
import CrystalServer.Theorems.Creatures.WheelSlots

/-! # What the wheel gives depends on the wheel

A load builds the bonuses anew from the slots, the gems and the grades. The specialised magic of Positional Tactics is
not among what it resets, and stays as the last check left it. -/

namespace CrystalServer.WheelBonus
open Lib
open WheelSlots (WheelSlot SlotInfo WheelFragmentType getMaxPointsPerSlot canOpenWheel)
open WheelGems (WheelGemAffinity PlayerWheelGem)

variable {player : Player} {sort : List SlotInfo → List SlotInfo} {s t : State} {think : Think} {force : Bool}

/-! ### Thinking -/

/-- What a think leaves alone. -/
structure Kept (s t : State) : Prop where
  slots : t.slots = s.slots
  gems : t.gems = s.gems
  context : t.m_modifierContext = s.m_modifierContext
  bonuses : t.bonuses = s.bonuses
  spells : t.spells = s.spells
  instant : t.m_instant = s.m_instant

theorem Kept.trans {u : State} (h : Kept s t) (h' : Kept t u) : Kept s u :=
  ⟨h'.slots.trans h.slots, h'.gems.trans h.gems, h'.context.trans h.context, h'.bonuses.trans h.bonuses,
    h'.spells.trans h.spells, h'.instant.trans h.instant⟩

theorem setOnThinkTimer_kept (s : State) (type : WheelOnThink) (time : Int) : Kept s (setOnThinkTimer s type time) :=
  ⟨rfl, rfl, rfl, rfl, rfl, rfl⟩

theorem Kept.setMajorStat (h : Kept s t) (type : WheelMajor) (value : Int32) : Kept s (setMajorStat t type value) :=
  h.trans ⟨rfl, rfl, rfl, rfl, rfl, rfl⟩

theorem Kept.setSpecializedMagic (h : Kept s t) (type : CombatType) (value : Int32) :
    Kept s (setSpecializedMagic t type value) :=
  h.trans ⟨rfl, rfl, rfl, rfl, rfl, rfl⟩

theorem checkBattleInstinct_kept (s : State) (think : Think) : Kept s (checkBattleInstinct s think) :=
  ((setOnThinkTimer_kept s ..).setMajorStat ..).setMajorStat ..

theorem checkPositionalTactics_kept (s : State) (think : Think) : Kept s (checkPositionalTactics s think) := by
  rw [checkPositionalTactics]
  split <;> exact (((setOnThinkTimer_kept s ..).setMajorStat ..).setSpecializedMagic ..).setSpecializedMagic ..

theorem checkBallisticMastery_kept (s : State) (think : Think) : Kept s (checkBallisticMastery s think) :=
  (((setOnThinkTimer_kept s ..).setMajorStat ..).setMajorStat ..).setMajorStat ..

theorem checkCombatMastery_kept (s : State) (think : Think) : Kept s (checkCombatMastery s think) := by
  have htimer := setOnThinkTimer_kept s .COMBAT_MASTERY (think.now + 2000)
  rw [checkCombatMastery]
  split
  · exact (htimer.setMajorStat ..).setMajorStat ..
  · dsimp only
    split
    · exact (htimer.setMajorStat ..).setMajorStat ..
    · exact htimer.setMajorStat ..

theorem checkDivineEmpowerment_kept (s : State) (think : Think) : Kept s (checkDivineEmpowerment s think) := by
  rw [checkDivineEmpowerment]
  split
  · exact setOnThinkTimer_kept s ..
  · exact (setOnThinkTimer_kept s ..).setMajorStat ..

theorem checkWhen_kept {check : State → Think → State} (h : ∀ s think, Kept s (check s think)) (s : State)
    (think : Think) (isOn : State → Bool) (timer : WheelOnThink) (force : Bool) :
    Kept s (checkWhen s think isOn timer check force) := by
  rw [checkWhen]
  split
  · exact h s think
  · exact ⟨rfl, rfl, rfl, rfl, rfl, rfl⟩

theorem checks_kept (s : State) (think : Think) (force : Bool) : Kept s (checks s think force) := by
  rw [checks]
  refine Kept.trans ?_ (checkWhen_kept checkDivineEmpowerment_kept _ think _ _ force)
  refine Kept.trans ?_ (checkWhen_kept checkCombatMastery_kept _ think _ _ force)
  refine Kept.trans ?_ (checkWhen_kept checkBallisticMastery_kept _ think _ _ force)
  refine Kept.trans ?_ (checkWhen_kept checkPositionalTactics_kept _ think _ _ force)
  exact checkWhen_kept checkBattleInstinct_kept s think _ _ force

/-- The gift of life, at the start of a think. -/
def giftOfLife (s : State) (think : Think) : State :=
  if getGiftOfCooldown s > 0 ∧ s.m_onThink .GIFT_OF_LIFE ≤ think.now then decreaseGiftOfCooldown s think else s

theorem giftOfLife_kept (s : State) (think : Think) : Kept s (giftOfLife s think) := by
  rw [giftOfLife]
  split
  · rw [decreaseGiftOfCooldown]
    dsimp only
    split <;> exact ⟨rfl, rfl, rfl, rfl, rfl, rfl⟩
  · exact ⟨rfl, rfl, rfl, rfl, rfl, rfl⟩

theorem onThink_kept (s : State) (think : Think) (force : Bool) : Kept s (onThink s think force) := by
  have hgift := giftOfLife_kept s think
  rw [onThink, ← giftOfLife]
  dsimp only
  split
  · have hreset : Kept s { giftOfLife s think with m_majorStats := fun _ => 0 } :=
      hgift.trans ⟨rfl, rfl, rfl, rfl, rfl, rfl⟩
    split
    · exact hreset.trans (checks_kept _ think force)
    · exact hreset
  · exact hgift.trans (checks_kept _ think force)

/-! ### Positional Tactics -/

/-- A think gets to the check of Positional Tactics. -/
def Reaches (s : State) (think : Think) (force : Bool) : Prop :=
  s.m_instant .POSITIONAL_TACTICS = true ∧ (force = true ∨
    (think.infight = true ∧ think.protectionZone = false ∧ s.m_onThink .POSITIONAL_TACTICS < think.now))

/-- The specialised magic that the check gives beside monsters, or without them. -/
def tacticsMagic (crowded : Bool) (m : CombatType → Int32) : CombatType → Int32 :=
  let value := if crowded then 3 else 0
  Function.update (Function.update m .HOLYDAMAGE value) .HEALING value

theorem checkPositionalTactics_magic (s : State) (think : Think) :
    (checkPositionalTactics s think).m_specializedMagic =
      tacticsMagic (think.creaturesNearby ≠ 0) s.m_specializedMagic := by
  rw [checkPositionalTactics]
  split
  next h => simp [h, tacticsMagic, setSpecializedMagic, setMajorStat, setOnThinkTimer]
  next h => simp [h, tacticsMagic, setSpecializedMagic, setMajorStat, setOnThinkTimer]

theorem checkWhen_magic {check : State → Think → State}
    (h : ∀ s think, (check s think).m_specializedMagic = s.m_specializedMagic) (s : State) (think : Think)
    (isOn : State → Bool) (timer : WheelOnThink) (force : Bool) :
    (checkWhen s think isOn timer check force).m_specializedMagic = s.m_specializedMagic := by
  rw [checkWhen]
  split
  · exact h s think
  · rfl

theorem checkBattleInstinct_magic (s : State) (think : Think) :
    (checkBattleInstinct s think).m_specializedMagic = s.m_specializedMagic :=
  rfl

theorem checkBallisticMastery_magic (s : State) (think : Think) :
    (checkBallisticMastery s think).m_specializedMagic = s.m_specializedMagic :=
  rfl

theorem checkCombatMastery_magic (s : State) (think : Think) :
    (checkCombatMastery s think).m_specializedMagic = s.m_specializedMagic := by
  rw [checkCombatMastery]
  split
  · rfl
  · dsimp only
    split <;> rfl

theorem checkDivineEmpowerment_magic (s : State) (think : Think) :
    (checkDivineEmpowerment s think).m_specializedMagic = s.m_specializedMagic := by
  rw [checkDivineEmpowerment]
  split <;> rfl

theorem checkBattleInstinct_timer (s : State) (think : Think) :
    (checkBattleInstinct s think).m_onThink .POSITIONAL_TACTICS = s.m_onThink .POSITIONAL_TACTICS := by
  simp [checkBattleInstinct, setMajorStat, setOnThinkTimer]

/-- Of the checks, that of Positional Tactics alone touches the specialised magic. -/
theorem checks_magic (s : State) (think : Think) (force : Bool) :
    (checks s think force).m_specializedMagic =
      if s.m_instant .POSITIONAL_TACTICS && (force || s.m_onThink .POSITIONAL_TACTICS < think.now) then
        tacticsMagic (think.creaturesNearby ≠ 0) s.m_specializedMagic
      else s.m_specializedMagic := by
  rw [checks, checkWhen_magic checkDivineEmpowerment_magic, checkWhen_magic checkCombatMastery_magic,
    checkWhen_magic checkBallisticMastery_magic]
  -- The first check leaves all that the second one looks at.
  generalize ht : checkWhen s think (·.m_instant .BATTLE_INSTINCT) .BATTLE_INSTINCT checkBattleInstinct force = t
  have hinstant : t.m_instant = s.m_instant := by
    rw [← ht]
    exact (checkWhen_kept checkBattleInstinct_kept s think _ _ force).instant
  have hmagic : t.m_specializedMagic = s.m_specializedMagic := by
    rw [← ht]
    exact checkWhen_magic checkBattleInstinct_magic s think _ _ force
  have htimer : t.m_onThink .POSITIONAL_TACTICS = s.m_onThink .POSITIONAL_TACTICS := by
    rw [← ht, checkWhen]
    split
    · exact checkBattleInstinct_timer s think
    · rfl
  rw [checkWhen, hinstant, htimer]
  split
  · rw [checkPositionalTactics_magic, hmagic]
  · exact hmagic

theorem giftOfLife_magic (s : State) (think : Think) :
    (giftOfLife s think).m_specializedMagic = s.m_specializedMagic ∧
      (giftOfLife s think).m_onThink .POSITIONAL_TACTICS = s.m_onThink .POSITIONAL_TACTICS := by
  rw [giftOfLife]
  split
  · rw [decreaseGiftOfCooldown]
    dsimp only
    split <;> simp [setOnThinkTimer]
  · exact ⟨rfl, rfl⟩

theorem idle_eq_false (h : s.m_instant .POSITIONAL_TACTICS = true) : idle s = false := by
  simp [idle, h]

theorem onThink_magic_of_reaches (h : Reaches s think force) :
    (onThink s think force).m_specializedMagic = tacticsMagic (think.creaturesNearby ≠ 0) s.m_specializedMagic := by
  obtain ⟨hmagic, htimer⟩ := giftOfLife_magic s think
  have hinstant := (giftOfLife_kept s think).instant
  obtain ⟨hon, hdue⟩ := h
  rw [onThink, ← giftOfLife]
  rcases hdue with rfl | ⟨hfight, hzone, hnow⟩
  · simp only [if_true]
    split
    · rw [checks_magic]
      simp [hinstant, hon, hmagic]
    · rw [checks_magic]
      simp [hinstant, hon, hmagic]
  · have hidle : idle (giftOfLife s think) = false := idle_eq_false (by rw [hinstant]; exact hon)
    simp only [hfight, hzone, hidle, Bool.not_true, Bool.or_false, Bool.false_eq_true, if_false]
    rw [checks_magic, hinstant, htimer, hmagic]
    simp [hon, hnow]

theorem onThink_magic_of_not_reaches (h : ¬Reaches s think force) :
    (onThink s think force).m_specializedMagic = s.m_specializedMagic := by
  obtain ⟨hmagic, htimer⟩ := giftOfLife_magic s think
  have hinstant := (giftOfLife_kept s think).instant
  rw [onThink, ← giftOfLife]
  split
  next hcalm =>
    split
    next hforce =>
      have hoff : s.m_instant .POSITIONAL_TACTICS = false := by
        simpa [Reaches, hforce] using h
      rw [checks_magic]
      simp [hinstant, hoff, hmagic]
    next => exact hmagic
  next hcalm =>
    rw [checks_magic, hinstant, htimer, hmagic]
    have hnot : ¬(s.m_instant .POSITIONAL_TACTICS && (force || s.m_onThink .POSITIONAL_TACTICS < think.now)) := by
      intro hdue
      simp only [Bool.and_eq_true, Bool.or_eq_true, decide_eq_true_eq] at hdue
      refine h ⟨hdue.1, hdue.2.imp id fun hnow => ?_⟩
      simp only [Bool.or_eq_true, Bool.not_eq_true', not_or, Bool.not_eq_true, Bool.not_eq_false] at hcalm
      exact ⟨hcalm.1.1, hcalm.1.2, hnow⟩
    rw [if_neg hnot]

/-! ### The rebuilt state -/

/-- What the load collects, and registers. -/
def collected (player : Player) (m_vocation : UInt16) (slots : WheelSlots.State)
    (m_activeGems : WheelGemAffinity → Option PlayerWheelGem) : Bonuses :=
  let b := loadDedicationAndConvictionPerks player slots.m_wheelSlots .empty
  let b := processActiveGems m_vocation ⟨slots.m_basicGrades, slots.m_supremeGrades⟩ m_activeGems b
  registerStats (applyStageBonuses player.vocation slots.m_wheelSlots slots.m_modsMaxGrade b)

theorem setSpellInstant_rest (s : State) (instant : WheelInstant) (value : Bool) :
    (setSpellInstant s instant value).slots = s.slots ∧ (setSpellInstant s instant value).gems = s.gems ∧
      (setSpellInstant s instant value).m_modifierContext = s.m_modifierContext ∧
      (setSpellInstant s instant value).bonuses = s.bonuses ∧ (setSpellInstant s instant value).spells = s.spells ∧
      (setSpellInstant s instant value).m_specializedMagic = s.m_specializedMagic := by
  rw [setSpellInstant]
  split <;> exact ⟨rfl, rfl, rfl, rfl, rfl, rfl⟩

theorem setSpellInstant_instant (s : State) (instant : WheelInstant) (value : Bool) :
    (setSpellInstant s instant value).m_instant = Function.update s.m_instant instant value := by
  rw [setSpellInstant]
  split <;> rfl

/-- The instants of the list are set as the bonus data has them, and the rest of the wheel stays. -/
theorem foldl_setSpellInstant (l : List WheelInstant) (s : State) :
    let t := l.foldl (fun s instant => setSpellInstant s instant (s.bonuses.m_playerBonusData.instant instant)) s
    (t.slots = s.slots ∧ t.gems = s.gems ∧ t.m_modifierContext = s.m_modifierContext ∧ t.bonuses = s.bonuses ∧
      t.spells = s.spells ∧ t.m_specializedMagic = s.m_specializedMagic) ∧
      ∀ instant, t.m_instant instant =
        if instant ∈ l then s.bonuses.m_playerBonusData.instant instant else s.m_instant instant := by
  induction l generalizing s with
  | nil => exact ⟨⟨rfl, rfl, rfl, rfl, rfl, rfl⟩, fun instant => by simp⟩
  | cons i l ih =>
    obtain ⟨hslots, hgems, hcontext, hbonuses, hspells, hmagic⟩ :=
      setSpellInstant_rest s i (s.bonuses.m_playerBonusData.instant i)
    obtain ⟨⟨h1, h2, h3, h4, h5, h6⟩, hinstant⟩ :=
      ih (setSpellInstant s i (s.bonuses.m_playerBonusData.instant i))
    refine ⟨⟨h1.trans hslots, h2.trans hgems, h3.trans hcontext, h4.trans hbonuses, h5.trans hspells,
      h6.trans hmagic⟩, fun instant => ?_⟩
    rw [List.foldl_cons, hinstant, hbonuses, setSpellInstant_instant]
    by_cases hi : instant = i
    · subst hi
      simp
    · simp [hi]

theorem mem_registeredInstants (instant : WheelInstant) : instant ∈ registeredInstants := by
  cases instant <;> decide

/-- A rebuilt wheel: the bonuses and the instants depend on its slots and gems alone, the specialised magic stays. -/
structure Rebuilt (player : Player) (s t : State) : Prop where
  slots : t.slots = s.slots
  gems : t.gems = s.gems
  context : t.m_modifierContext = some (s.m_modifierContext.getD player.fromVocation)
  bonuses : t.bonuses = registeredStages.foldl registerStage
    (collected player (s.m_modifierContext.getD player.fromVocation) s.slots s.gems.m_activeGems)
  spells : t.spells = t.bonuses.m_playerBonusData.spells.foldl (upgradeSpell player) (s.spells.reset player)
  instant : t.m_instant =
    (collected player (s.m_modifierContext.getD player.fromVocation) s.slots
      s.gems.m_activeGems).m_playerBonusData.instant
  magic : t.m_specializedMagic = s.m_specializedMagic

theorem registerBonuses_spec (player : Player) (s : State) :
    let t := registerBonuses player s
    t.slots = s.slots ∧ t.gems = s.gems ∧ t.m_modifierContext = s.m_modifierContext ∧
      t.bonuses = registeredStages.foldl registerStage (registerStats s.bonuses) ∧
      t.spells = t.bonuses.m_playerBonusData.spells.foldl (upgradeSpell player) s.spells ∧
      t.m_instant = (registerStats s.bonuses).m_playerBonusData.instant ∧
      t.m_specializedMagic = s.m_specializedMagic := by
  obtain ⟨⟨h1, h2, h3, h4, h5, h6⟩, hinstant⟩ := foldl_setSpellInstant registeredInstants
    { s with bonuses := registerStats s.bonuses }
  rw [registerBonuses]
  generalize registeredInstants.foldl _ _ = t at h1 h2 h3 h4 h5 h6 hinstant ⊢
  dsimp only at h1 h2 h3 h4 h5 h6 hinstant ⊢
  refine ⟨h1, h2, h3, by rw [h4], by rw [h5], funext fun instant => ?_, h6⟩
  rw [hinstant, if_pos (mem_registeredInstants instant)]

theorem resetPlayerData_bonuses (player : Player) (s : State) : (resetPlayerData player s).bonuses = .empty := rfl

theorem rebuild_rebuilt (player : Player) (s : State) : Rebuilt player s (rebuild player s) := by
  have hbonuses := resetPlayerData_bonuses player s
  have hslots : (resetPlayerData player s).slots = s.slots := rfl
  have hgems : (resetPlayerData player s).gems = s.gems := rfl
  have hspells : (resetPlayerData player s).spells = s.spells.reset player := rfl
  have hmagic : (resetPlayerData player s).m_specializedMagic = s.m_specializedMagic := rfl
  have hcontext : (resetPlayerData player s).m_modifierContext =
    some (s.m_modifierContext.getD player.fromVocation) := rfl
  rw [rebuild]
  generalize resetPlayerData player s = u at hbonuses hslots hgems hspells hmagic hcontext ⊢
  generalize hb : applyStageBonuses _ _ _ _ = b
  rw [hbonuses, hslots, hgems, hcontext, Option.getD_some] at hb
  obtain ⟨h1, h2, h3, h4, h5, h6, h7⟩ := registerBonuses_spec player { u with bonuses := b }
  generalize registerBonuses player _ = t at h1 h2 h3 h4 h5 h6 h7 ⊢
  dsimp only at h1 h2 h3 h4 h5 h6 h7
  rw [← hb] at h4 h6
  exact ⟨h1.trans hslots, h2.trans hgems, h3.trans hcontext, h4, by rw [h5, hspells], h6, h7.trans hmagic⟩

/-! ### The taught spells -/

/-- The names of spells as the player's list has them. -/
def lowered (names : List String) : Finset String := (names.map String.toLower).toFinset

/-- Without the spells of the wheel, the player has learned `learned`; of a player who may not use spells nothing is
    said. -/
def Own (player : Player) (learned : Finset String) (spells : Spells) : Prop :=
  player.cannotUseSpells = false → spells.learnedInstantSpellList \ lowered spells.m_learnedSpellsSelected = learned

theorem foldl_forget (hp : player.cannotUseSpells = false) (names : List String) (spells : Spells) :
    (names.foldl (fun s spell => if hasLearnedInstantSpell player s spell then forgetInstantSpell s spell else s)
        spells).learnedInstantSpellList = spells.learnedInstantSpellList \ lowered names := by
  induction names generalizing spells with
  | nil => simp [lowered]
  | cons name names ih =>
    have hone : (if hasLearnedInstantSpell player spells name then forgetInstantSpell spells name
        else spells).learnedInstantSpellList = spells.learnedInstantSpellList.erase name.toLower := by
      split
      next => rfl
      next h =>
        have hnot : name.toLower ∉ spells.learnedInstantSpellList := by
          simp only [hasLearnedInstantSpell, hp, Bool.false_eq_true, if_false] at h
          split at h <;> simp_all
        exact (Finset.erase_eq_of_notMem hnot).symm
    rw [List.foldl_cons, ih, hone]
    simp only [lowered, List.map_cons, List.toFinset_cons]
    rw [Finset.erase_sdiff_comm, Finset.sdiff_insert]

/-- After the reset the player has his own spells only. -/
theorem reset_learned {learned : Finset String} {spells : Spells} (hp : player.cannotUseSpells = false)
    (h : Own player learned spells) : (spells.reset player).learnedInstantSpellList = learned :=
  (foldl_forget hp _ _).trans (h hp)

theorem Own.reset {learned : Finset String} {spells : Spells} (h : Own player learned spells) :
    Own player learned (spells.reset player) := by
  intro hp
  have hnil : lowered (spells.reset player).m_learnedSpellsSelected = ∅ := rfl
  rw [hnil, Finset.sdiff_empty]
  exact reset_learned hp h

theorem Own.upgradeSpell {learned : Finset String} {spells : Spells} (h : Own player learned spells) (name : String) :
    Own player learned (upgradeSpell player spells name) := by
  intro hp
  have hown := h hp
  rw [WheelBonus.upgradeSpell]
  dsimp only
  by_cases hhas : hasLearnedInstantSpell player spells name = true
  · rw [if_pos hhas]
    exact hown
  · have hnot : name.toLower ∉ spells.learnedInstantSpellList := by
      simp only [hasLearnedInstantSpell, hp, Bool.false_eq_true, if_false] at hhas
      split at hhas <;> simp_all
    have hhas' : hasLearnedInstantSpell player
        { spells with m_learnedSpellsSelected := spells.m_learnedSpellsSelected ++ [name] } name ≠ true := hhas
    rw [if_neg hhas, learnInstantSpell, if_neg hhas']
    have hlearned : name.toLower ∉ learned := fun hmem => hnot (Finset.sdiff_subset (hown.symm ▸ hmem))
    have hlow : lowered (spells.m_learnedSpellsSelected ++ [name]) =
        insert name.toLower (lowered spells.m_learnedSpellsSelected) := by
      ext x
      simp [lowered]
    dsimp only
    rw [hlow, Finset.insert_sdiff_insert, Finset.sdiff_insert, hown, Finset.erase_eq_of_notMem hlearned]

theorem Own.foldl {learned : Finset String} (names : List String) {spells : Spells} (h : Own player learned spells) :
    Own player learned (names.foldl (WheelBonus.upgradeSpell player) spells) := by
  induction names generalizing spells with
  | nil => exact h
  | cons name names ih => exact ih (h.upgradeSpell name)

/-- The grades and the taught spells are the same, and so are the learned ones of a player who may use spells. -/
structure SameSpells (player : Player) (a b : Spells) : Prop where
  selected : a.m_spellsSelected = b.m_spellsSelected
  taught : a.m_learnedSpellsSelected = b.m_learnedSpellsSelected
  learned : player.cannotUseSpells = false → a.learnedInstantSpellList = b.learnedInstantSpellList

theorem SameSpells.upgradeSpell {a b : Spells} (h : SameSpells player a b) (name : String) :
    SameSpells player (upgradeSpell player a name) (upgradeSpell player b name) := by
  obtain ⟨hselected, htaught, hlearned⟩ := h
  cases hp : player.cannotUseSpells with
  | true =>
    have hhas (s : Spells) (x : String) : hasLearnedInstantSpell player s x = false := by
      simp [hasLearnedInstantSpell, hp]
    refine ⟨?_, ?_, fun hp' => absurd (hp.symm.trans hp') (by decide)⟩
    · simp [WheelBonus.upgradeSpell, learnInstantSpell, hhas, hselected]
    · simp [WheelBonus.upgradeSpell, learnInstantSpell, hhas, htaught]
  | false =>
    obtain ⟨aselected, ataught, alearned⟩ := a
    obtain ⟨bselected, btaught, blearned⟩ := b
    obtain rfl : aselected = bselected := hselected
    obtain rfl : ataught = btaught := htaught
    obtain rfl : alearned = blearned := hlearned hp
    exact ⟨rfl, rfl, fun _ => rfl⟩

theorem SameSpells.foldl (names : List String) {a b : Spells} (h : SameSpells player a b) :
    SameSpells player (names.foldl (WheelBonus.upgradeSpell player) a)
      (names.foldl (WheelBonus.upgradeSpell player) b) := by
  induction names generalizing a b with
  | nil => exact h
  | cons name names ih => exact ih (h.upgradeSpell name)

theorem sameSpells_reset {learned : Finset String} {a b : Spells} (ha : Own player learned a)
    (hb : Own player learned b) : SameSpells player (a.reset player) (b.reset player) :=
  ⟨rfl, rfl, fun hp => (reset_learned hp ha).trans (reset_learned hp hb).symm⟩

/-! ### The grades -/

theorem maxGrades_update (grades : UInt8 → UInt8) (pos grade : UInt8) :
    maxGrades (Function.update grades pos grade) + (if grades pos = 3 then 1 else 0) =
      maxGrades grades + if grade = 3 then 1 else 0 := by
  have hpos : UInt8.ofNat pos.toNat = pos := UInt8.ofNat_toNat
  have hsum := sumBy_update (f := fun n => if grades (UInt8.ofNat n) = 3 then (1 : UInt8) else 0)
    (g := fun n => if Function.update grades pos grade (UInt8.ofNat n) = 3 then 1 else 0) (a := pos.toNat)
    (l := List.range 256) List.nodup_range (List.mem_range.mpr pos.toNat_lt) fun n hn hne => by
      have hne' : UInt8.ofNat n ≠ pos := by
        rintro rfl
        exact hne (UInt8.toNat_ofNat_of_lt' (List.mem_range.mp hn)).symm
      rw [Function.update_of_ne hne']
  rw [hpos, Function.update_self] at hsum
  exact hsum

/-- The grades of 3 are counted. -/
def Counted (slots : WheelSlots.State) : Prop :=
  slots.m_modsMaxGrade = maxGrades slots.m_basicGrades + maxGrades slots.m_supremeGrades

theorem Counted.improveGemGrade {slots : WheelSlots.State} (h : Counted slots) (fragmentType : WheelFragmentType)
    (pos : UInt8) (paid : Bool) : Counted (WheelSlots.improveGemGrade slots fragmentType pos paid) := by
  -- A grade that goes up to 3 or less was not 3.
  have hold {grade : UInt8} (h : ¬(grade + 1 = 0 ∨ grade + 1 > 3 ∨ (!paid) = true)) : grade ≠ 3 := by
    rintro rfl
    exact h (.inr (.inl (by decide)))
  cases fragmentType with
  | Lesser =>
    unfold WheelSlots.improveGemGrade
    dsimp only
    split
    next => exact h
    next hgrade =>
      have hsum := maxGrades_update slots.m_basicGrades pos (slots.m_basicGrades pos + 1)
      rw [if_neg (hold hgrade), add_zero] at hsum
      rw [Counted] at h ⊢
      rw [hsum, h, add_right_comm]
  | Greater =>
    unfold WheelSlots.improveGemGrade
    dsimp only
    split
    next => exact h
    next hgrade =>
      have hsum := maxGrades_update slots.m_supremeGrades pos (slots.m_supremeGrades pos + 1)
      rw [if_neg (hold hgrade), add_zero] at hsum
      rw [Counted] at h ⊢
      rw [hsum, h, add_assoc]

/-! ### The run -/

/-- What holds of a wheel in the course of a history. -/
structure Good (player : Player) (learned : Finset String) (s : State) : Prop where
  context : s.m_modifierContext.getD player.fromVocation = player.fromVocation
  counted : Counted s.slots
  own : Own player learned s.spells

variable {learned : Finset String}

theorem Kept.good (h : Kept s t) (hs : Good player learned s) : Good player learned t where
  context := by rw [h.context, hs.context]
  counted := by rw [h.slots]; exact hs.counted
  own := by rw [h.spells]; exact hs.own

theorem Rebuilt.good (h : Rebuilt player s t) (hs : Good player learned s) : Good player learned t where
  context := by rw [h.context, Option.getD_some, hs.context]
  counted := by rw [h.slots]; exact hs.counted
  own := by rw [h.spells]; exact hs.own.reset.foldl _

theorem Good.load (hs : Good player learned s) (think : Think) :
    Good player learned (loadPlayerBonusData player s think) := by
  rw [loadPlayerBonusData]
  split
  · exact hs
  · exact (onThink_kept _ think false).good ((rebuild_rebuilt player s).good hs)

theorem Good.withSlots (hs : Good player learned s) {slots : WheelSlots.State} (h : Counted slots)
    (gems : WheelGems.State) : Good player learned { s with slots := slots, gems := gems } :=
  ⟨hs.context, h, hs.own⟩

theorem Good.step (hs : Good player learned s) (op : Op) : Good player learned (step player sort s op) := by
  cases op with
  | saveSlotPointsOnPressSaveButton message vessels think =>
    have hcounted : Counted (WheelSlots.saveSlotPointsOnPressSaveButton sort s.slots message) := by
      have hsame := WheelSlots.sameWheel_save sort s.slots message
      rw [WheelSlots.SameWheel] at hsame
      rw [hsame]
      exact hs.counted
    rw [WheelBonus.step, WheelBonus.saveSlotPointsOnPressSaveButton]
    split
    · exact hs
    · split
      · exact hs
      · exact (hs.withSlots hcounted _).load think
  | revealGem gem paid => exact hs.withSlots hs.counted _
  | destroyGem index received => exact hs.withSlots hs.counted _
  | switchGemDomain index paid => exact hs.withSlots hs.counted _
  | toggleGemLock index => exact hs.withSlots hs.counted _
  | improveGemGrade fragmentType pos paid think =>
    rw [WheelBonus.step, WheelBonus.improveGemGrade]
    split
    · exact hs
    · exact (hs.withSlots (hs.counted.improveGemGrade fragmentType pos paid) s.gems).load think
  | unlockScroll scrollName =>
    refine hs.withSlots ?_ s.gems
    rw [WheelSlots.unlockScroll]
    split
    · exact hs.counted
    · split <;> exact hs.counted
  | setLevel level => exact hs.withSlots (show Counted { s.slots with level := level } from hs.counted) s.gems
  | setMayOpen mayOpen => exact hs.withSlots (show Counted { s.slots with mayOpen := mayOpen } from hs.counted) s.gems
  | loadPlayerBonusData think => exact hs.load think
  | onThink think force => exact (onThink_kept s think force).good hs

theorem start_good (player : Player) (slots : WheelSlots.State) (gems : WheelGems.State) (grades : Grades)
    (learned : Finset String) (giftOfLifeCooldown : Int) :
    Good player learned (.start slots gems grades learned giftOfLifeCooldown) where
  context := rfl
  counted := rfl
  own _ := Finset.sdiff_empty

theorem run_good (hs : Good player learned s) (ops : List Op) : Good player learned (run (step player sort) s ops) :=
  run_induction (Good player learned) (fun _ op h => h.step op) ops hs

/-! ### What is left of Positional Tactics -/

/-- The state in which a load thinks. -/
def loading (player : Player) (s : State) (think : Think) : Option (State × Think × Bool) :=
  if !canOpenWheel s.slots then none else some (rebuild player s, think, false)

/-- The state in which an operation thinks, with what its think finds and whether it is forced. -/
def thinking (player : Player) (sort : List SlotInfo → List SlotInfo) (s : State) :
    Op → Option (State × Think × Bool)
  | .saveSlotPointsOnPressSaveButton message vessels think =>
    if !canOpenWheel s.slots then none
    else if WheelSlots.enum_values.any fun slot => message slot > getMaxPointsPerSlot slot then none
    else
      loading player
        { s with
            slots := WheelSlots.saveSlotPointsOnPressSaveButton sort s.slots message
            gems := setVessels s.gems vessels } think
  | .improveGemGrade fragmentType pos paid think =>
    let grade := nextGrade s.slots fragmentType pos
    if grade = 0 ∨ grade > 3 ∨ !paid then none
    else loading player { s with slots := WheelSlots.improveGemGrade s.slots fragmentType pos paid } think
  | .loadPlayerBonusData think => loading player s think
  | .onThink think force => some (s, think, force)
  | _ => none

/-- The operation's think checks Positional Tactics, beside monsters or without them. -/
def Checks (player : Player) (sort : List SlotInfo → List SlotInfo) (crowded : Bool) (s : State) (op : Op) : Prop :=
  ∃ s' think force, thinking player sort s op = some (s', think, force) ∧ Reaches s' think force ∧
    decide (think.creaturesNearby ≠ 0) = crowded

theorem load_thinking (player : Player) (s : State) (think : Think) :
    match loading player s think with
    | none => (loadPlayerBonusData player s think).m_specializedMagic = s.m_specializedMagic
    | some (s', think', force) =>
      loadPlayerBonusData player s think = onThink s' think' force ∧ s'.m_specializedMagic = s.m_specializedMagic := by
  rw [loading, loadPlayerBonusData]
  split
  next h => 
    split at h
    next hopen => rw [if_pos hopen]
    next hopen => cases h
  next h =>
    split at h
    next hopen => cases h
    next hopen =>
      cases h
      rw [if_neg hopen]
      exact ⟨rfl, (rebuild_rebuilt player s).magic⟩

/-- An operation is its think, or leaves the specialised magic alone. -/
theorem step_thinking (player : Player) (sort : List SlotInfo → List SlotInfo) (s : State) (op : Op) :
    match thinking player sort s op with
    | none => (step player sort s op).m_specializedMagic = s.m_specializedMagic
    | some (s', think, force) =>
      step player sort s op = onThink s' think force ∧ s'.m_specializedMagic = s.m_specializedMagic := by
  cases op with
  | saveSlotPointsOnPressSaveButton message vessels think =>
    rw [thinking, step, saveSlotPointsOnPressSaveButton]
    by_cases hopen : (!canOpenWheel s.slots) = true
    · rw [if_pos hopen, if_pos hopen]
    · rw [if_neg hopen, if_neg hopen]
      by_cases hmax : (WheelSlots.enum_values.any fun slot => message slot > getMaxPointsPerSlot slot) = true
      · rw [if_pos hmax, if_pos hmax]
      · rw [if_neg hmax, if_neg hmax]
        exact load_thinking player { s with
          slots := WheelSlots.saveSlotPointsOnPressSaveButton sort s.slots message
          gems := setVessels s.gems vessels } think
  | improveGemGrade fragmentType pos paid think =>
    rw [thinking, step, improveGemGrade]
    by_cases hgrade : nextGrade s.slots fragmentType pos = 0 ∨ nextGrade s.slots fragmentType pos > 3 ∨
        (!paid) = true
    · rw [if_pos hgrade, if_pos hgrade]
    · rw [if_neg hgrade, if_neg hgrade]
      exact load_thinking player
        { s with slots := WheelSlots.improveGemGrade s.slots fragmentType pos paid } think
  | loadPlayerBonusData think => exact load_thinking player s think
  | onThink think force => exact ⟨rfl, rfl⟩
  | revealGem gem paid => rfl
  | destroyGem index received => rfl
  | switchGemDomain index paid => rfl
  | toggleGemLock index => rfl
  | unlockScroll scrollName => rfl
  | setLevel level => rfl
  | setMayOpen mayOpen => rfl

theorem step_magic_of_checks {crowded : Bool} {op : Op} (h : Checks player sort crowded s op) :
    (step player sort s op).m_specializedMagic = tacticsMagic crowded s.m_specializedMagic := by
  obtain ⟨s', think, force, hthink, hreach, rfl⟩ := h
  have hstep := step_thinking player sort s op
  rw [hthink] at hstep
  obtain ⟨hstep, hmagic⟩ := hstep
  rw [hstep, onThink_magic_of_reaches hreach, hmagic]

theorem step_magic_of_not_checks {op : Op} (h : ∀ crowded, ¬Checks player sort crowded s op) :
    (step player sort s op).m_specializedMagic = s.m_specializedMagic := by
  have hstep := step_thinking player sort s op
  cases hthink : thinking player sort s op with
  | none => rwa [hthink] at hstep
  | some x =>
    obtain ⟨s', think, force⟩ := x
    rw [hthink] at hstep
    obtain ⟨hstep, hmagic⟩ := hstep
    have hreach : ¬Reaches s' think force := fun hr => h _ ⟨s', think, force, hthink, hr, rfl⟩
    rw [hstep, onThink_magic_of_not_reaches hreach, hmagic]

/-- The last check of Positional Tactics in a history found monsters. -/
def Crowded (player : Player) (sort : List SlotInfo → List SlotInfo) : State → List Op → Prop :=
  Last (step player sort) (Checks player sort true) (Checks player sort false)

variable (player sort) in
/-- The specialised magic that a history leaves. -/
theorem run_magic (hs : s.m_specializedMagic = fun _ => 0) (ops : List Op) :
    (Crowded player sort s ops →
      (run (step player sort) s ops).m_specializedMagic = tacticsMagic true fun _ => 0) ∧
    (¬Crowded player sort s ops → (run (step player sort) s ops).m_specializedMagic = fun _ => 0) := by
  -- Both values that the magic can have become the same in a check.
  have hcheck (a b : Bool) : tacticsMagic a (tacticsMagic b fun _ => 0) = tacticsMagic a fun _ => 0 := by
    funext type
    cases type <;> rfl
  have hzero : tacticsMagic false (fun _ => 0) = fun _ => 0 := by
    funext type
    cases type <;> rfl
  induction ops using List.reverseRecOn with
  | nil => exact ⟨fun h => absurd h (not_last_nil s), fun _ => hs⟩
  | append_singleton ops op ih =>
    obtain ⟨ihc, ihn⟩ := ih
    have hmagic (a : Bool) : tacticsMagic a (run (step player sort) s ops).m_specializedMagic =
        tacticsMagic a fun _ => 0 := by
      by_cases hc : Crowded player sort s ops
      · rw [ihc hc, hcheck]
      · rw [ihn hc]
    rw [run_concat, Crowded, last_concat]
    by_cases ht : Checks player sort true (run (step player sort) s ops) op
    · refine ⟨fun _ => ?_, fun h => absurd (.inl ht) h⟩
      rw [step_magic_of_checks ht, hmagic]
    · by_cases hf : Checks player sort false (run (step player sort) s ops) op
      · refine ⟨fun h => ?_, fun _ => ?_⟩
        · rcases h with h | ⟨h, -⟩
          · exact absurd h ht
          · exact absurd hf h
        · rw [step_magic_of_checks hf, hmagic, hzero]
      · have hnone (crowded : Bool) : ¬Checks player sort crowded (run (step player sort) s ops) op := by
          cases crowded <;> assumption
        rw [step_magic_of_not_checks hnone]
        refine ⟨fun h => ?_, fun h => ihn fun hc => h (.inr ⟨hf, hc⟩)⟩
        rcases h with h | ⟨-, h⟩
        · exact absurd h ht
        · exact ihc h

/-! ### The load -/

/-- What the wheel gives to its player. -/
structure Derived where
  m_stats : WheelStat → Int32
  m_resistance : CombatType → Int32
  m_specializedMagic : CombatType → Int32
  m_stages : WheelStage → UInt8
  m_instant : WheelInstant → Bool
  m_bonusRevelationPoints : WheelGemAffinity → UInt16
  m_spellsSelected : String → Option WheelSpellGrade
  m_spellsBonuses : String → Option Bonus
  m_beamMasterySpells : Finset String
  m_learnedSpellsSelected : List String

def derived (s : State) : Derived where
  m_stats := s.bonuses.m_stats
  m_resistance := s.bonuses.m_resistance
  m_specializedMagic := s.m_specializedMagic
  m_stages := s.bonuses.m_stages
  m_instant := s.m_instant
  m_bonusRevelationPoints := s.bonuses.m_bonusRevelationPoints
  m_spellsSelected := s.spells.m_spellsSelected
  m_spellsBonuses := s.bonuses.m_spellsBonuses
  m_beamMasterySpells := s.bonuses.m_beamMasterySpells
  m_learnedSpellsSelected := s.spells.m_learnedSpellsSelected

/-- The same slot points, active gems and grades. -/
structure Alike (s t : State) : Prop where
  slots : s.slots.m_wheelSlots = t.slots.m_wheelSlots
  gems : s.gems.m_activeGems = t.gems.m_activeGems
  basic : s.slots.m_basicGrades = t.slots.m_basicGrades
  supreme : s.slots.m_supremeGrades = t.slots.m_supremeGrades

variable (player) in
/-- A load out of a fight is a rebuild, but for timers and major stats. -/
theorem load_kept (hopen : canOpenWheel s.slots = true) (hfight : think.infight = false) :
    Kept (rebuild player s) (loadPlayerBonusData player s think) ∧
      (loadPlayerBonusData player s think).m_specializedMagic = s.m_specializedMagic := by
  have hreach : ¬Reaches (rebuild player s) think false := by
    rintro ⟨-, h | ⟨h, -⟩⟩
    · cases h
    · exact absurd (hfight.symm.trans h) (by decide)
  rw [loadPlayerBonusData, if_neg (by simp [hopen])]
  exact ⟨onThink_kept _ think false,
    (onThink_magic_of_not_reaches hreach).trans (rebuild_rebuilt player s).magic⟩

variable (player) in
theorem Alike.collected (h : Alike s t) (hs : Counted s.slots) (ht : Counted t.slots) (m_vocation : UInt16) :
    collected player m_vocation s.slots s.gems.m_activeGems =
      collected player m_vocation t.slots t.gems.m_activeGems := by
  have hmax : s.slots.m_modsMaxGrade = t.slots.m_modsMaxGrade := by
    rw [hs, ht, h.basic, h.supreme]
  rw [WheelBonus.collected, WheelBonus.collected, h.slots, h.gems, h.basic, h.supreme, hmax]

/-- Loads of the same wheel give the same, but for the specialised magic, which stays as it was. -/
theorem derived_load_iff {think' : Think} (hs : Good player learned s) (ht : Good player learned t) (h : Alike s t)
    (hopen : canOpenWheel s.slots = true) (hopen' : canOpenWheel t.slots = true) (hfight : think.infight = false)
    (hfight' : think'.infight = false) :
    derived (loadPlayerBonusData player s think) = derived (loadPlayerBonusData player t think') ↔
      s.m_specializedMagic = t.m_specializedMagic := by
  obtain ⟨hkept, hmagic⟩ := load_kept player hopen hfight
  obtain ⟨hkept', hmagic'⟩ := load_kept player hopen' hfight'
  have hr := rebuild_rebuilt player s
  have hr' := rebuild_rebuilt player t
  have hcollected := h.collected player hs.counted ht.counted player.fromVocation
  have hbonuses : (rebuild player s).bonuses = (rebuild player t).bonuses := by
    rw [hr.bonuses, hr'.bonuses, hs.context, ht.context, hcollected]
  have hinstant : (rebuild player s).m_instant = (rebuild player t).m_instant := by
    rw [hr.instant, hr'.instant, hs.context, ht.context, hcollected]
  have hspells : SameSpells player (rebuild player s).spells (rebuild player t).spells := by
    rw [hr.spells, hr'.spells, hbonuses]
    exact (sameSpells_reset hs.own ht.own).foldl _
  constructor
  · intro hd
    rw [← hmagic, ← hmagic']
    exact congrArg Derived.m_specializedMagic hd
  · intro hm
    rw [derived, derived, hmagic, hmagic', hm, hkept.bonuses, hkept'.bonuses, hbonuses, hkept.instant, hkept'.instant,
      hinstant, hkept.spells, hkept'.spells, hspells.selected, hspells.taught]

/-- A second load gives nothing more. -/
theorem load_twice {think' : Think} (hs : Good player learned s) (hopen : canOpenWheel s.slots = true)
    (hfight : think.infight = false) (hfight' : think'.infight = false) :
    derived (loadPlayerBonusData player (loadPlayerBonusData player s think) think') =
      derived (loadPlayerBonusData player s think) := by
  obtain ⟨hkept, hmagic⟩ := load_kept player hopen hfight
  have hr := rebuild_rebuilt player s
  have hslots := hkept.slots.trans hr.slots
  have hgems := hkept.gems.trans hr.gems
  refine (derived_load_iff (hs.load think) hs ⟨?_, ?_, ?_, ?_⟩ ?_ hopen hfight' hfight).mpr hmagic
  · rw [hslots]
  · rw [hgems]
  · rw [hslots]
  · rw [hslots]
  · rwa [hslots]

/-- A player who has learned `learned` just logged in. -/
def Started (learned : Finset String) (s : State) : Prop :=
  ∃ slots gems grades giftOfLifeCooldown, s = .start slots gems grades learned giftOfLifeCooldown

/-- Two histories that end with a load of the same wheel give the same where their last checks of Positional Tactics
    left the same behind. -/
theorem derived_iff_crowded {s t : State} (hs : Started learned s) (ht : Started learned t) {ops ops' : List Op}
    {think think' : Think} (halike : Alike (run (step player sort) s ops) (run (step player sort) t ops'))
    (hopen : canOpenWheel (run (step player sort) s ops).slots = true)
    (hopen' : canOpenWheel (run (step player sort) t ops').slots = true) (hfight : think.infight = false)
    (hfight' : think'.infight = false) :
    derived (run (step player sort) s (ops ++ [.loadPlayerBonusData think])) =
        derived (run (step player sort) t (ops' ++ [.loadPlayerBonusData think'])) ↔
      (Crowded player sort s ops ↔ Crowded player sort t ops') := by
  obtain ⟨slots, gems, grades, cooldown, rfl⟩ := hs
  obtain ⟨slots', gems', grades', cooldown', rfl⟩ := ht
  obtain ⟨hc, hn⟩ := run_magic player sort
    (rfl : (State.start slots gems grades learned cooldown).m_specializedMagic = fun _ => 0) ops
  obtain ⟨hc', hn'⟩ := run_magic player sort
    (rfl : (State.start slots' gems' grades' learned cooldown').m_specializedMagic = fun _ => 0) ops'
  have hne : tacticsMagic true (fun _ => 0) ≠ fun _ => 0 := fun h => absurd (congrFun h .HEALING) (by decide)
  rw [run_concat, run_concat]
  refine (derived_load_iff (run_good (start_good ..) ops) (run_good (start_good ..) ops') halike hopen hopen' hfight
    hfight').trans ?_
  constructor
  · intro hm
    constructor
    · intro h
      by_contra h'
      rw [hc h, hn' h'] at hm
      exact hne hm
    · intro h'
      by_contra h
      rw [hn h, hc' h'] at hm
      exact hne hm.symm
  · intro h
    by_cases hcr : Crowded player sort (.start slots gems grades learned cooldown) ops
    · rw [hc hcr, hc' (h.mp hcr)]
    · rw [hn hcr, hn' fun h' => hcr (h.mpr h')]

/-! ### A paladin -/

def paladin : Player := ⟨.PALADIN, VOCATION_PALADIN, false, false⟩

/-- A paladin of level 300 with 200 points in the slot of Positional Tactics, who may open the wheel. -/
def paladinSlots : WheelSlots.State where
  m_wheelSlots slot := if slot = .GREEN_200 then 200 else 0
  m_pointsPerLevel := 1
  m_unlockedScrolls := []
  m_basicGrades _ := 0
  m_supremeGrades _ := 0
  m_modsMaxGrade := 0
  level := 300
  mayOpen := true
  hasMonkQuest := false

def paladinWheel : State := .start paladinSlots .start ⟨fun _ => 0, fun _ => 0⟩ ∅ 0

/-- Nobody is near, and there is no fight. -/
def calm : Think := ⟨0, false, false, 0, none, none⟩

/-- A monster is near, in a fight. -/
def beside : Think := ⟨1, true, false, 1, none, none⟩

theorem paladin_load : (loadPlayerBonusData paladin paladinWheel calm).slots = paladinWheel.slots ∧
    (loadPlayerBonusData paladin paladinWheel calm).gems = paladinWheel.gems := by
  have hopen : canOpenWheel paladinWheel.slots = true := by decide
  obtain ⟨hkept, -⟩ := load_kept paladin hopen (rfl : calm.infight = false)
  have hr := rebuild_rebuilt paladin paladinWheel
  exact ⟨hkept.slots.trans hr.slots, hkept.gems.trans hr.gems⟩

theorem derived_iff_crowded_paladin :
    derived (run (step paladin id) paladinWheel ([] ++ [.loadPlayerBonusData calm])) =
      derived (run (step paladin id) paladinWheel ([.loadPlayerBonusData calm] ++ [.loadPlayerBonusData calm])) ↔
    (Crowded paladin id paladinWheel [] ↔ Crowded paladin id paladinWheel [.loadPlayerBonusData calm]) := by
  have hstarted : Started ∅ paladinWheel := ⟨_, _, _, _, rfl⟩
  have hslots : (run (step paladin id) paladinWheel [.loadPlayerBonusData calm]).slots = paladinWheel.slots :=
    paladin_load.1
  have hgems : (run (step paladin id) paladinWheel [.loadPlayerBonusData calm]).gems = paladinWheel.gems :=
    paladin_load.2
  refine derived_iff_crowded hstarted hstarted ⟨?_, ?_, ?_, ?_⟩ (by decide) ?_ rfl rfl
  · rw [hslots, run_nil]
  · rw [hgems, run_nil]
  · rw [hslots, run_nil]
  · rw [hslots, run_nil]
  · rw [hslots]
    decide

theorem load_twice_paladin : derived (loadPlayerBonusData paladin (loadPlayerBonusData paladin paladinWheel calm) calm) =
    derived (loadPlayerBonusData paladin paladinWheel calm) :=
  load_twice (start_good ..) (by decide) rfl rfl

/-- The think beside a monster gives magic levels that a load out of the fight does not take away. -/
theorem tactics_left : ¬∀ (player : Player) (sort : List SlotInfo → List SlotInfo) (learned : Finset String)
    (s t : State) (ops ops' : List Op) (think think' : Think),
    (∀ l, (sort l).Perm l ∧ (sort l).Pairwise fun a b => a.order ≤ b.order) → Started learned s → Started learned t →
    Alike (run (step player sort) s ops) (run (step player sort) t ops') →
    canOpenWheel (run (step player sort) s ops).slots = true →
    canOpenWheel (run (step player sort) t ops').slots = true → think.infight = false → think'.infight = false →
    derived (run (step player sort) s (ops ++ [.loadPlayerBonusData think])) =
      derived (run (step player sort) t (ops' ++ [.loadPlayerBonusData think'])) := by
  intro h
  have hstarted : Started ∅ paladinWheel := ⟨_, _, _, _, rfl⟩
  have hthink := onThink_kept (loadPlayerBonusData paladin paladinWheel calm) beside false
  have hopen : canOpenWheel (loadPlayerBonusData paladin paladinWheel calm).slots = true := by
    rw [paladin_load.1]
    decide
  have hopen' : canOpenWheel (onThink (loadPlayerBonusData paladin paladinWheel calm) beside false).slots = true := by
    rw [hthink.slots]
    exact hopen
  have halike : Alike (onThink (loadPlayerBonusData paladin paladinWheel calm) beside false)
      (loadPlayerBonusData paladin paladinWheel calm) :=
    ⟨by rw [hthink.slots], by rw [hthink.gems], by rw [hthink.slots], by rw [hthink.slots]⟩
  have hsame := h paladin WheelSlots.sortByOrder ∅ paladinWheel paladinWheel
    [.loadPlayerBonusData calm, .onThink beside false] [.loadPlayerBonusData calm] calm calm
    WheelSlots.sortByOrder_spec hstarted hstarted
  simp only [run_cons, run_nil, step, List.cons_append, List.nil_append] at hsame
  have hhealing := congrFun (congrArg Derived.m_specializedMagic (hsame halike hopen' hopen rfl rfl)) .HEALING
  revert hhealing
  decide +kernel

end CrystalServer.WheelBonus
