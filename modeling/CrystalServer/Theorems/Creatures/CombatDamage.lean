import CrystalServer.Creatures.Combat.CombatDamage

/-! # Each cast deals its own damage

`applyExtensions` leaves what it computes with each target of a player, and only the area form looks at it and clears it.
So a target that a cast for one target has left something with is hit by it in the next area where nothing is computed for
this target. -/

namespace CrystalServer.Combat
open Lib (run Meets run_append)

/-- What `applyExtensions` computes from a damage for a creature. -/
def extended (call : Call) (damage : CombatDamage) (c : CreatureRef) : Option CombatDamage :=
  if damage.extension ∨ damage.primary.type = .HEALING then none
  else match call.caster with
    | some (_, .player p) => targetDamage p call damage c
    | some (_, .monster m) => some (monsterDamage m call.rolls damage)
    | _ => none

/-- `tmpDamage` and `beamAffectedTotal` after a number of beam updates. -/
def beamUpdates (call : Call) (s : CombatDamage × Nat) (n : Nat) : CombatDamage × Nat :=
  (updateBeamMasteryDamage call)^[n] s

/-- The damage is that of the call, or what was computed from it for the creature. -/
def OwnOf (call : Call) (own damage : CombatDamage) (x : CreatureRef × CombatDamage) : Prop :=
  x.2 = own ∨ extended call damage x.1 = some x.2

/-- The cast hands on its own damage only. -/
def Own (fields : Fields) (cast : Cast) : Prop :=
  ∀ before x rest, (doCombatHealth fields cast).2 = before ++ x :: rest →
    match cast with
    | .target call _ _ damage => OwnOf call damage damage x
    | .area call tiles _ damage =>
      OwnOf call (beamUpdates call (areaDamage call tiles damage, getBeamAffectedTotal call damage)
        (before.length + 1)).1 (areaDamage call tiles damage) x

/-- The call leaves a damage with the creature: the creature is among the targets of a player who attacks, and not a
    monster without a type. -/
def Extends (call : Call) (targets : List CreatureRef) (damage : CombatDamage) (c : CreatureRef) : Prop :=
  c ∈ targets ∧ call.caster.any (fun k => k.2 matches .player _) ∧ ¬(damage.extension ∨ damage.primary.type = .HEALING) ∧
    call.targetKind c ≠ .monster none

/-- Nothing is left with the creatures that an area cast comes to, unless the cast leaves its own damage with them. -/
def Clean (fields : Fields) : Cast → Prop
  | .target .. => True
  | .area call tiles tilesThen damage =>
    ∀ c ∈ tilesThen.flatMap (hitsOf call),
      (fields c).isEmpty ∨ Extends call (tiles.flatMap (targetsOf call)) damage c

/-! ### What the extensions leave -/

theorem targetDamage_isSome (p : PlayerCaster) {call : Call} (damage : CombatDamage) {c : CreatureRef}
    (h : call.targetKind c ≠ .monster none) : ∃ d, targetDamage p call damage c = some d := by
  unfold targetDamage
  dsimp only
  split
  · rename_i hk
    exact absurd hk h
  · exact ⟨_, rfl⟩
  · exact ⟨_, rfl⟩

/-- With more than one target, each finds the damage as it was. -/
theorem extendTargets_foldl (p : PlayerCaster) (call : Call) (damage : CombatDamage) (targets : List CreatureRef)
    (fields : Fields) : targets.foldl (extendTargets p call false) (fields, damage) =
      (fun c => (if c ∈ targets then targetDamage p call damage c else none).getD (fields c), damage) := by
  induction targets generalizing fields with
  | nil => rfl
  | cons t targets ih =>
    rw [List.foldl_cons]
    cases hd : targetDamage p call damage t with
    | none =>
      have hstep : extendTargets p call false (fields, damage) t = (fields, damage) := by simp [extendTargets, hd]
      rw [hstep, ih]
      refine Prod.ext (funext fun c => ?_) rfl
      by_cases hc : c = t
      · subst hc
        simp [hd]
      · simp [hc]
    | some d =>
      have hstep : extendTargets p call false (fields, damage) t = (setCombatDamage fields t d, damage) := by
        simp [extendTargets, hd]
      rw [hstep, ih]
      refine Prod.ext (funext fun c => ?_) rfl
      by_cases hc : c = t
      · subst hc
        by_cases hmem : c ∈ targets <;> simp [hd, setCombatDamage, hmem]
      · simp [hc, setCombatDamage]

/-- What is left with each creature, by any number of targets. -/
theorem extendTargets_fields (p : PlayerCaster) (call : Call) (damage : CombatDamage) (targets : List CreatureRef)
    (fields : Fields) (c : CreatureRef) :
    (targets.foldl (extendTargets p call (targets.length = 1)) (fields, damage)).1 c =
      (if c ∈ targets then targetDamage p call damage c else none).getD (fields c) := by
  by_cases hone : targets.length = 1
  · obtain ⟨t, rfl⟩ := List.length_eq_one_iff.mp hone
    by_cases hc : c = t
    · subst hc
      cases hd : targetDamage p call damage c <;> simp [extendTargets, hd, setCombatDamage]
    · cases hd : targetDamage p call damage t <;> simp [extendTargets, hd, setCombatDamage, hc]
  · simp [hone, extendTargets_foldl]

theorem applyExtensions_fields (call : Call) (fields : Fields) (targets : List CreatureRef) (damage : CombatDamage)
    (c : CreatureRef) :
    (applyExtensions call fields targets damage).1 c = fields c ∨
      extended call damage c = some ((applyExtensions call fields targets damage).1 c) := by
  unfold applyExtensions
  split
  · exact .inl rfl
  · rename_i h
    rw [not_or, not_or] at h
    split
    · rename_i p hcaster
      rw [extendTargets_fields]
      by_cases hc : c ∈ targets
      · cases hd : targetDamage p call damage c with
        | none => simp
        | some d => exact .inr (by simp [extended, h.1, h.2.2, hcaster, hd, hc])
      · simp [hc]
    · exact .inl rfl
    · exact .inl rfl

theorem extended_of_extends {call : Call} {fields : Fields} {targets : List CreatureRef} {damage : CombatDamage}
    {c : CreatureRef} (h : Extends call targets damage c) :
    extended call damage c = some ((applyExtensions call fields targets damage).1 c) := by
  obtain ⟨hmem, hcaster, hd, hkind⟩ := h
  obtain ⟨⟨ref, kind⟩, hk, hplayer⟩ := (Option.any_eq_true _ _).mp hcaster
  cases kind with
  | player p =>
    obtain ⟨d, htd⟩ := targetDamage_isSome p damage hkind
    unfold applyExtensions
    rw [if_neg (by simpa [hk] using hd), hk]
    simp only
    rw [extendTargets_fields]
    simp [extended, hd, hk, hmem, htd]
  | monster m => cases hplayer
  | npc => cases hplayer

theorem applyExtensions_of_not_extends {call : Call} {fields : Fields} {targets : List CreatureRef} {damage : CombatDamage}
    {c : CreatureRef} (h : ¬Extends call targets damage c) : (applyExtensions call fields targets damage).1 c = fields c := by
  unfold applyExtensions
  split
  · rfl
  · rename_i hd
    rw [not_or, not_or] at hd
    split
    · rename_i p hcaster
      rw [extendTargets_fields]
      by_cases hc : c ∈ targets
      · have hkind : call.targetKind c = .monster none := by
          by_contra hk
          exact h ⟨hc, by simp [hcaster], by simp [hd.1, hd.2.2], hk⟩
        simp [targetDamage, hkind]
      · simp [hc]
    · rfl
    · rfl

/-- What one target is hit by. -/
theorem applyExtensions_damage (call : Call) (fields : Fields) (target : CreatureRef) (damage : CombatDamage) :
    OwnOf call damage damage (target, (applyExtensions call fields [target] damage).2) := by
  unfold applyExtensions
  split
  · exact .inl rfl
  · rename_i h
    rw [not_or, not_or] at h
    split
    · rename_i p hcaster
      cases hd : targetDamage p call damage target with
      | none => exact .inl (by simp [extendTargets, hd])
      | some d => exact .inr (by simp [extended, h.1, h.2.2, hcaster, extendTargets, hd])
    · rename_i m hcaster
      exact .inr (by simp [extended, h.1, h.2.2, hcaster])
    · exact .inl rfl

/-! ### The second loop -/

theorem CombatDamage.isEmpty_new : ({} : CombatDamage).isEmpty = true := by decide

/-- One creature of the loop. -/
theorem hitLoop_cons (call : Call) (fields : Fields) (s : CombatDamage × Nat) (c : CreatureRef)
    (hits : List CreatureRef) : ∃ fields' : Fields,
      (fields' c).isEmpty ∧ (∀ x, x ≠ c → fields' x = fields x) ∧
      (hitLoop call fields s (c :: hits)).2 =
        (c, if (fields c).isEmpty then (updateBeamMasteryDamage call s).1 else fields c) ::
          (hitLoop call fields' (updateBeamMasteryDamage call s) hits).2 := by
  rw [hitLoop]
  by_cases h : (fields c).isEmpty
  · exact ⟨fields, h, fun _ _ => rfl, by simp [h]⟩
  · refine ⟨setCombatDamage fields c {}, ?_, fun x hx => Function.update_of_ne hx _ _, by simp [h]⟩
    simp [setCombatDamage, CombatDamage.isEmpty_new]

/-- The first time that the loop comes to a creature, it hands on what is left with it. -/
theorem hitLoop_left {call : Call} {fields : Fields} {s : CombatDamage × Nat} {hits : List CreatureRef}
    {c : CreatureRef} (hc : c ∈ hits) (h : ¬(fields c).isEmpty) : (c, fields c) ∈ (hitLoop call fields s hits).2 := by
  induction hits generalizing fields s with
  | nil => cases hc
  | cons t hits ih =>
    obtain ⟨fields', -, hothers, heq⟩ := hitLoop_cons call fields s t hits
    rw [heq]
    by_cases ht : c = t
    · subst ht
      rw [if_neg h]
      exact List.mem_cons_self
    · rw [← hothers c ht] at h ⊢
      exact List.mem_cons_of_mem _ (ih ((List.mem_cons.mp hc).resolve_left ht) h)

/-- Where nothing is left but what was computed in this call, the loop hands on nothing else. -/
theorem hitLoop_own {call : Call} {damage : CombatDamage} {fields : Fields} {s : CombatDamage × Nat}
    {hits : List CreatureRef} (h : ∀ c ∈ hits, (fields c).isEmpty ∨ extended call damage c = some (fields c))
    {before rest : List (CreatureRef × CombatDamage)} {x : CreatureRef × CombatDamage}
    (hx : (hitLoop call fields s hits).2 = before ++ x :: rest) :
    OwnOf call (beamUpdates call s (before.length + 1)).1 damage x := by
  induction hits generalizing fields s before with
  | nil => exact absurd hx.symm (List.append_ne_nil_of_right_ne_nil _ (List.cons_ne_nil _ _))
  | cons c hits ih =>
    obtain ⟨fields', hempty, hothers, heq⟩ := hitLoop_cons call fields s c hits
    rw [heq] at hx
    cases before with
    | nil =>
      obtain ⟨rfl, -⟩ := List.cons.inj hx
      by_cases he : (fields c).isEmpty
      · exact .inl (by rw [if_pos he]; rfl)
      · rw [if_neg he]
        exact .inr ((h c List.mem_cons_self).resolve_left he)
    | cons _ before =>
      have hx := (List.cons.inj hx).2
      change OwnOf call (beamUpdates call (updateBeamMasteryDamage call s) (before.length + 1)).1 damage x
      refine ih (fun t ht => ?_) hx
      by_cases htc : t = c
      · subst htc
        exact .inl hempty
      · rw [hothers t htc]
        exact h t (List.mem_cons_of_mem _ ht)

/-! ### Casts -/

theorem own_target (fields : Fields) (call : Call) (canDoCombat : CreatureRef → Bool) (target : CreatureRef)
    (damage : CombatDamage) : Own fields (.target call canDoCombat target damage) := by
  intro before x rest hx
  change (doCombatHealthTarget call canDoCombat fields target damage).2 = _ at hx
  have hmem : x ∈ (doCombatHealthTarget call canDoCombat fields target damage).2 := hx ▸ by simp
  unfold doCombatHealthTarget at hmem
  split at hmem
  · cases hmem
  · dsimp only at hmem
    split at hmem
    · rw [List.mem_singleton.mp hmem]
      exact applyExtensions_damage call fields target damage
    · cases hmem

theorem own_area {fields : Fields} {call : Call} {tiles tilesThen : List AreaTile} {damage : CombatDamage}
    (h : Clean fields (.area call tiles tilesThen damage)) : Own fields (.area call tiles tilesThen damage) := by
  intro before x rest hx
  change (doCombatHealthArea call fields tiles tilesThen damage).2 = _ at hx
  unfold doCombatHealthArea at hx
  split at hx
  · exact absurd hx.symm (List.append_ne_nil_of_right_ne_nil _ (List.cons_ne_nil _ _))
  · refine hitLoop_own (fun c hc => ?_) hx
    rcases h c hc with he | he
    · rcases applyExtensions_fields call fields (tiles.flatMap (targetsOf call)) (areaDamage call tiles damage) c with hf | hf
      · exact .inl (hf ▸ he)
      · exact .inr hf
    · exact .inr (extended_of_extends he)

theorem own_of_clean {fields : Fields} {cast : Cast} (h : Clean fields cast) : Own fields cast := by
  cases cast with
  | target call canDoCombat target damage => exact own_target fields call canDoCombat target damage
  | area call tiles tilesThen damage => exact own_area h

/-- In every run of casts that find the creatures clean, each cast hands on its own damage only. -/
theorem own_of_meets_clean {casts : List Cast} (h : Meets step Clean start casts) :
    ∀ before cast rest, casts = before ++ cast :: rest → Own (run step start before) cast := by
  rintro before cast rest rfl
  exact own_of_clean h.at

/-- Where something is left with a creature and the cast leaves nothing of its own with it, the area hands on what was
    left. -/
theorem left_of_not_extends {fields : Fields} {call : Call} {tiles tilesThen : List AreaTile} {damage : CombatDamage}
    (hback : turnsBack call tiles = false) {c : CreatureRef} (hc : c ∈ tilesThen.flatMap (hitsOf call))
    (hleft : ¬(fields c).isEmpty) (hext : ¬Extends call (tiles.flatMap (targetsOf call)) damage c) :
    (c, fields c) ∈ (doCombatHealth fields (.area call tiles tilesThen damage)).2 := by
  change _ ∈ (doCombatHealthArea call fields tiles tilesThen damage).2
  unfold doCombatHealthArea
  rw [if_neg (by simp [hback])]
  have hsame : (applyExtensions call fields (tiles.flatMap (targetsOf call)) (areaDamage call tiles damage)).1 c = fields c :=
    applyExtensions_of_not_extends hext
  change _ ∈ (hitLoop call (applyExtensions call fields (tiles.flatMap (targetsOf call)) (areaDamage call tiles damage)).1
    (areaDamage call tiles damage, getBeamAffectedTotal call damage) (tilesThen.flatMap (hitsOf call))).2
  rw [← hsame] at hleft ⊢
  exact hitLoop_left hc hleft

/-! ### Two casts at one creature -/

/-- A player without bonuses. -/
def plainPlayer : PlayerCaster where
  criticalHitChance := 0
  criticalHitDamage := 0
  lowBlowCharmRaceId := 0
  lowBlowChance := none
  savageBlowCharmRaceId := 0
  savageBlowChance := none
  attackedCreature := some 2
  proficiencyPerk :=
    { critHitChanceForAutoAttack := 0
      critHitChanceForOffensiveRunes := 0
      critHitChanceForElementIdToSpellsAndRunes := fun _ => 0
      critExtraDamageForAutoAttack := 0
      critExtraDamageForOffensiveRunes := 0
      critExtraDamageForElementIdToSpellsAndRunes := fun _ => 0 }
  isAttackRune := fun _ => false
  beamMasterySpells := fun _ => false
  beamMastery := false
  checkBeamMasteryDamage := 0
  isFirstOnStack := true

/-- An attack without luck, among players. -/
def attackBy (caster : Option (CreatureRef × CasterKind)) : Call where
  caster
  targetKind := fun _ => .other
  rolls := { rand := 100, canApplyFatal := false, multiply := fun v _ => v, sixTenths := fun _ => 0 }
  aggressive := true
  isHealing := false
  targetCasterOrTopMost := false

def attack (type : CombatType) (value : Int) : CombatDamage := { primary := { type, value } }

/-- A tile with the second creature. -/
def secondTile : AreaTile where
  isOpen := true
  canDoCombat := fun _ => true
  creatures := [2]
  topCreature := some 2
  hasCaster := false
  isPeacefulOrigin := false

/-- The first creature strikes the second, a player. -/
def strike : Cast := .target (attackBy (some (1, .player plainPlayer))) (fun _ => true) 2 (attack .PHYSICALDAMAGE (-100))

/-- Fire on the tile of the second creature. -/
def fire (caster : Option (CreatureRef × CasterKind)) : Cast :=
  .area (attackBy caster) [secondTile] [secondTile] (attack .FIREDAMAGE (-20))

theorem own_of_meets_clean_fire : Own (run step start [fire (some (1, .player plainPlayer))]) (fire none) := by
  have hmeets : Meets step Clean start [fire (some (1, .player plainPlayer)), fire none] :=
    ⟨fun _ _ => .inl CombatDamage.isEmpty_new, fun c hc => .inl (by
      have h : c = 2 := by simpa [hitsOf, targetsOf, attackBy, secondTile, canCombat, isCaster] using hc
      subst h
      decide +kernel), trivial⟩
  exact own_of_meets_clean hmeets [fire (some (1, .player plainPlayer))] (fire none) [] rfl

/-- The fire after the strike strikes once more. -/
theorem not_own_fire_after_strike :
    ¬∀ casts before cast rest, casts = before ++ cast :: rest → Own (run step start before) cast := by
  intro h
  have hown := h [strike, fire none] [strike] (fire none) [] rfl [] (2, attack .PHYSICALDAMAGE (-100)) []
    (by decide +kernel)
  change OwnOf _ _ _ _ at hown
  revert hown
  unfold OwnOf
  decide +kernel

end CrystalServer.Combat
