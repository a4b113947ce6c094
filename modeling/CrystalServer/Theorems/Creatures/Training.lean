import CrystalServer.Theorems.Creatures.Death

/-! # Training is exact

The loop pays an amount level by level, so that the total over the whole career rises by just the amount. As long as a level
asks for more than the one below, a total has one level and one rest only: how an amount is split does not matter. -/

namespace CrystalServer.Training
open Death
variable {env : Death.Env} {req : Nat → UInt64} {width base max n : Nat} {p q r : Progress}

/-- What the levels above the first one ask for, up to a level. -/
def asked (req : Nat → UInt64) (base level : Nat) : Nat :=
  ((List.range' (base + 1) (level - base)).map fun l => (req l).toNat).sum

/-- What is spent over the whole career. -/
def career (req : Nat → UInt64) (base : Nat) (p : Progress) : Nat := asked req base p.level + p.spent.toNat

/-- From the first level on each level asks for more than the one below, up to a highest one. -/
structure Grows (req : Nat → UInt64) (width base max : Nat) : Prop where
  fits : max < width
  strict : ∀ l, base ≤ l → l < max → req l < req (l + 1)
  highest : req (levelAfter width max) ≤ req max

/-- The highest level is not reached, and less is spent than the next level asks for. -/
structure Below (req : Nat → UInt64) (base max : Nat) (p : Progress) : Prop where
  base : base ≤ p.level
  level : p.level < max
  spent : p.spent < req (p.level + 1)

/-- Where so much training leads: to the same total and as much, or to the highest level, where nothing changes. -/
inductive Leads (req : Nat → UInt64) (base max : Nat) (p : Progress) (total : Nat) : Progress → Prop where
  | stays : p.level = max → Leads req base max p total p
  | rises {q : Progress} : Below req base max p → Below req base max q →
      career req base q = career req base p + total → Leads req base max p total q
  | ends : Below req base max p → asked req base max ≤ career req base p + total → Leads req base max p total ⟨max, 0⟩

/-! ### Totals -/

theorem asked_succ {level : Nat} (h : base ≤ level) :
    asked req base (level + 1) = asked req base level + (req (level + 1)).toNat := by
  have hlast : level + 1 - base = level - base + 1 := by omega
  have hlevel : base + 1 + (level - base) = level + 1 := by omega
  unfold asked
  rw [hlast, List.range'_concat, List.map_append, List.sum_append, Nat.one_mul, hlevel]
  rfl

theorem asked_mono {l m : Nat} (hl : base ≤ l) (h : l ≤ m) : asked req base l ≤ asked req base m := by
  induction h with
  | refl => exact le_rfl
  | step hm ih =>
    rw [asked_succ (hl.trans hm)]
    exact ih.trans (Nat.le_add_right ..)

/-- Less is spent than all levels up to the next one ask for. -/
theorem Below.career_lt (h : Below req base max p) : career req base p < asked req base (p.level + 1) := by
  rw [asked_succ h.base]
  exact Nat.add_lt_add_left (UInt64.lt_iff_toNat_lt.mp h.spent) _

theorem Below.career_lt_max (h : Below req base max p) : career req base p < asked req base max :=
  h.career_lt.trans_le (asked_mono (h.base.trans (Nat.le_succ _)) h.level)

theorem Below.level_le (hq : Below req base max q) (h : career req base p ≤ career req base q) : p.level ≤ q.level := by
  by_contra hlt
  have hle : asked req base (q.level + 1) ≤ asked req base p.level :=
    asked_mono (hq.base.trans (Nat.le_succ _)) (Nat.not_le.mp hlt)
  have hq' := hq.career_lt
  unfold career at h hq'
  omega

/-- A total has one level and one rest. -/
theorem Below.unique (hp : Below req base max p) (hq : Below req base max q) (h : career req base p = career req base q) :
    p = q := by
  have hlevel := le_antisymm (hq.level_le h.le) (hp.level_le h.ge)
  unfold career at h
  rw [hlevel] at h
  rcases p with ⟨level, spent⟩
  cases hlevel
  exact congrArg _ (UInt64.toNat_inj.mp (Nat.add_left_cancel h))

/-! ### Where training leads -/

theorem Leads.unique {total : Nat} (hq : Leads req base max p total q) (hr : Leads req base max p total r) : q = r := by
  cases hq with
  | stays hmax =>
    cases hr with
    | stays => rfl
    | rises hp => exact absurd hmax hp.level.ne
    | ends hp => exact absurd hmax hp.level.ne
  | rises hp hq hsum =>
    cases hr with
    | stays hmax => exact absurd hmax hp.level.ne
    | rises _ hr hsum' => exact hq.unique hr (hsum.trans hsum'.symm)
    | ends _ hle => exact absurd hq.career_lt_max (by omega)
  | ends hp hle =>
    cases hr with
    | stays hmax => exact absurd hmax hp.level.ne
    | rises _ hr hsum => exact absurd hr.career_lt_max (by omega)
    | ends => rfl

theorem Leads.trans {a b : Nat} (hq : Leads req base max p a q) (hr : Leads req base max q b r) :
    Leads req base max p (a + b) r := by
  cases hq with
  | stays hmax =>
    cases hr with
    | stays => exact .stays hmax
    | rises hq => exact absurd hmax hq.level.ne
    | ends hq => exact absurd hmax hq.level.ne
  | rises hp hq hsum =>
    cases hr with
    | stays hmax => exact absurd hmax hq.level.ne
    | rises _ hr hsum' => exact .rises hp hr (by omega)
    | ends _ hle => exact .ends hp (by omega)
  | ends hp hle =>
    cases hr with
    | stays => exact .ends hp (by omega)
    | rises hq => exact absurd rfl hq.level.ne
    | ends hq => exact absurd rfl hq.level.ne

/-- The states that training keeps: at the highest level, or below. -/
def Well (req : Nat → UInt64) (base max : Nat) (p : Progress) : Prop := p.level = max ∨ Below req base max p

theorem Leads.well {total : Nat} (h : Leads req base max p total q) : Well req base max q := by
  cases h with
  | stays hmax => exact .inl hmax
  | rises _ hq => exact .inr hq
  | ends => exact .inl rfl

/-- No more is spent afterwards than before, with the amount. -/
theorem Leads.spent_le {total : Nat} (h : Leads req base max p total q) : q.spent.toNat ≤ p.spent.toNat + total := by
  cases h with
  | stays => exact Nat.le_add_right ..
  | rises hp hq hsum =>
    have hle : asked req base p.level ≤ asked req base q.level := asked_mono hp.base (hq.level_le (by omega))
    unfold career at hsum
    omega
  | ends => exact Nat.zero_le _

/-! ### The loop -/

theorem levelAfter_of_lt {level : Nat} (hg : Grows req width base max) (h : level < max) :
    levelAfter width level = level + 1 :=
  Nat.mod_eq_of_lt (Nat.succ_lt_succ h |>.trans_le hg.fits)

/-- The loop pays the amount, in no more rounds than there are levels left. -/
theorem levelLoop_spec (hg : Grows req width base max) (hp : Below req base max p) {amount : UInt64}
    (hsum : p.spent.toNat + amount.toNat < 2 ^ 64) (hn : max - p.level ≤ n) :
    ∃ q rest highest, levelLoop req width n p amount = some (q, rest, highest) ∧
      Leads req base max p amount.toNat ⟨q.level, if highest then q.spent else q.spent + rest⟩ := by
  induction n generalizing p amount with
  | zero =>
    have hlevel := hp.level
    omega
  | succ n ih =>
    have hadd : (p.spent + amount).toNat = p.spent.toNat + amount.toNat := by
      rw [UInt64.toNat_add, Nat.mod_eq_of_lt hsum]
    have hspent := UInt64.lt_iff_toNat_lt.mp hp.spent
    have hasked : asked req base (p.level + 1) = asked req base p.level + (req (p.level + 1)).toNat := asked_succ hp.base
    unfold levelLoop
    dsimp only
    rw [levelAfter_of_lt hg hp.level]
    by_cases hpays : p.spent + amount ≥ req (p.level + 1)
    · have hge := UInt64.le_iff_toNat_le.mp hpays
      have hcost : (req (p.level + 1) - p.spent).toNat = (req (p.level + 1)).toNat - p.spent.toNat :=
        UInt64.toNat_sub_of_le _ _ (UInt64.le_of_lt hp.spent)
      have hrest : (amount - (req (p.level + 1) - p.spent)).toNat =
          amount.toNat - ((req (p.level + 1)).toNat - p.spent.toNat) := by
        rw [UInt64.toNat_sub_of_le _ _ (UInt64.le_iff_toNat_le.mpr (by omega)), hcost]
      rw [if_pos hpays]
      by_cases hhighest : req (p.level + 1) ≥ req (levelAfter width (p.level + 1))
      · -- the level that is gained is the highest one
        have hmax : p.level + 1 = max := by
          by_contra hne
          have hlt : p.level + 1 < max := by have hlevel := hp.level; omega
          rw [levelAfter_of_lt hg hlt] at hhighest
          exact absurd (hg.strict _ (hp.base.trans (Nat.le_succ _)) hlt) (UInt64.not_lt.mpr hhighest)
        rw [if_pos hhighest]
        refine ⟨_, _, _, rfl, ?_⟩
        dsimp only
        rw [if_pos rfl, hmax]
        refine .ends hp ?_
        rw [← hmax]
        unfold career
        omega
      · have hlt : p.level + 1 < max := by
          refine lt_of_le_of_ne hp.level fun hmax => hhighest ?_
          rw [hmax]
          exact hg.highest
        have hgrows := hg.strict _ (hp.base.trans (Nat.le_succ _)) hlt
        have hnext : Below req base max ⟨p.level + 1, 0⟩ :=
          ⟨hp.base.trans (Nat.le_succ _), hlt, UInt64.lt_of_le_of_lt (UInt64.zero_le) hgrows⟩
        have hgain : Leads req base max p ((req (p.level + 1)).toNat - p.spent.toNat) ⟨p.level + 1, 0⟩ := by
          refine .rises hp hnext ?_
          change asked req base (p.level + 1) + 0 = asked req base p.level + _ + _
          omega
        rw [if_neg hhighest]
        have hless : (0 : UInt64).toNat + (amount - (req (p.level + 1) - p.spent)).toNat < 2 ^ 64 := by
          rw [hrest, UInt64.toNat_zero]
          omega
        obtain ⟨q, rest, highest, hloop, hleads⟩ := ih hnext hless (by dsimp only; omega)
        refine ⟨q, rest, highest, hloop, ?_⟩
        have htotal := hgain.trans hleads
        rwa [hrest, show (req (p.level + 1)).toNat - p.spent.toNat +
          (amount.toNat - ((req (p.level + 1)).toNat - p.spent.toNat)) = amount.toNat by omega] at htotal
    · rw [if_neg hpays]
      refine ⟨_, _, _, rfl, .rises hp ⟨hp.base, hp.level, UInt64.not_le.mp hpays⟩ ?_⟩
      dsimp only [career]
      rw [if_neg Bool.false_ne_true, hadd]
      omega

/-- At the highest level neither function gets to its loop, and below it both do. -/
theorem guard_iff (hg : Grows req width base max) (hp : Well req base max p) :
    req p.level ≥ req (levelAfter width p.level) ↔ p.level = max := by
  constructor
  · intro hge
    refine hp.resolve_right fun hp => ?_
    rw [levelAfter_of_lt hg hp.level] at hge
    exact absurd (hg.strict _ hp.base hp.level) (UInt64.not_lt.mpr hge)
  · intro hmax
    rw [hmax]
    exact hg.highest

theorem Well.leads_zero (hp : Well req base max p) : Leads req base max p 0 p :=
  hp.elim .stays fun hp => .rises hp hp rfl

/-! ### The functions -/

section Calls
variable {s : State} {i : SkillId}

def mana (s : State) : Progress := ⟨s.magLevel, s.manaSpent⟩

def putMana (s : State) (p : Progress) : State := { s with magLevel := p.level, manaSpent := p.spent }

def tries (i : SkillId) (s : State) : Progress := ⟨(s.skills i).level, (s.skills i).tries⟩

def putTries (i : SkillId) (s : State) (p : Progress) : State :=
  { s with skills := Function.update s.skills i ⟨p.level, p.spent⟩ }

theorem putTries_tries (i : SkillId) (s : State) : putTries i s (tries i s) = s := by
  unfold putTries tries
  rw [Function.update_eq_self_iff.mpr rfl]

theorem get_putTries (i : SkillId) (s : State) (p : Progress) : tries i (putTries i s p) = p := by
  unfold putTries tries
  simp only [Function.update_self]

theorem putTries_putTries (i : SkillId) (s : State) (p q : Progress) : putTries i (putTries i s p) q = putTries i s q := by
  unfold putTries
  simp only [Function.update_idem]

theorem addManaSpent_leads (hg : Grows (getReqMana env) magWidth 0 max) (hs : Well (getReqMana env) 0 max (mana s))
    {amount : UInt64} (hsum : s.manaSpent.toNat + amount.toNat < 2 ^ 64) :
    ∃ q, addManaSpent env false amount s = some (putMana s q) ∧
      Leads (getReqMana env) 0 max (mana s) amount.toNat q := by
  have hguard : getReqMana env s.magLevel ≥ getReqMana env (levelAfter magWidth s.magLevel) ↔ s.magLevel = max :=
    guard_iff hg hs
  unfold addManaSpent
  rw [if_neg Bool.false_ne_true]
  by_cases hmax : s.magLevel = max
  · exact ⟨mana s, if_pos (hguard.mpr hmax), .stays hmax⟩
  · rw [if_neg (mt hguard.mp hmax)]
    by_cases h0 : amount = 0
    · subst h0
      exact ⟨mana s, if_pos rfl, hs.leads_zero⟩
    · obtain ⟨q, rest, highest, hloop, hleads⟩ := levelLoop_spec hg (hs.resolve_left hmax) (n := magWidth) hsum
        ((Nat.sub_le ..).trans hg.fits.le)
      refine ⟨_, ?_, hleads⟩
      rw [if_neg h0]
      change Option.map _ (levelLoop _ _ _ (mana s) _) = _
      rw [hloop]
      rfl

theorem addOfflineTrainingTries_leads (hg : Grows (getReqMana env) magWidth 0 max)
    (hs : Well (getReqMana env) 0 max (mana s)) {amount : UInt64}
    (hsum : s.manaSpent.toNat + amount.toNat < 2 ^ 64) :
    ∃ q, addOfflineTrainingTries env .magLevel amount s = some (putMana s q) ∧
      Leads (getReqMana env) 0 max (mana s) amount.toNat q := by
  have hguard : getReqMana env s.magLevel ≥ getReqMana env (levelAfter magWidth s.magLevel) ↔ s.magLevel = max :=
    guard_iff hg hs
  unfold addOfflineTrainingTries
  by_cases h0 : amount = 0
  · subst h0
    exact ⟨mana s, if_pos rfl, hs.leads_zero⟩
  · rw [if_neg h0]
    dsimp only
    by_cases hmax : s.magLevel = max
    · exact ⟨mana s, if_pos (hguard.mpr hmax), .stays hmax⟩
    · obtain ⟨q, rest, highest, hloop, hleads⟩ := levelLoop_spec hg (hs.resolve_left hmax) (n := magWidth) hsum
        ((Nat.sub_le ..).trans hg.fits.le)
      refine ⟨_, ?_, hleads⟩
      rw [if_neg (mt hguard.mp hmax)]
      change Option.map _ (levelLoop _ _ _ (mana s) _) = _
      rw [hloop]
      cases highest
      · rfl
      · change some _ = some _
        simp [putMana]

theorem addOfflineTrainingTries_skill (hg : Grows (getReqSkillTries env i) skillWidth 10 max)
    (hs : Well (getReqSkillTries env i) 10 max (tries i s)) {amount : UInt64}
    (hsum : (s.skills i).tries.toNat + amount.toNat < 2 ^ 64) :
    ∃ q, addOfflineTrainingTries env (.skill i) amount s = some (putTries i s q) ∧
      Leads (getReqSkillTries env i) 10 max (tries i s) amount.toNat q := by
  have hguard : getReqSkillTries env i (s.skills i).level ≥
      getReqSkillTries env i (levelAfter skillWidth (s.skills i).level) ↔ (s.skills i).level = max := guard_iff hg hs
  unfold addOfflineTrainingTries
  by_cases h0 : amount = 0
  · subst h0
    exact ⟨tries i s, (if_pos rfl).trans (congrArg some (putTries_tries i s).symm), hs.leads_zero⟩
  · rw [if_neg h0]
    dsimp only
    by_cases hmax : (s.skills i).level = max
    · exact ⟨tries i s, (if_pos (hguard.mpr hmax)).trans (congrArg some (putTries_tries i s).symm), .stays hmax⟩
    · obtain ⟨q, rest, highest, hloop, hleads⟩ := levelLoop_spec hg (hs.resolve_left hmax) (n := skillWidth) hsum
        ((Nat.sub_le ..).trans hg.fits.le)
      refine ⟨_, ?_, hleads⟩
      rw [if_neg (mt hguard.mp hmax)]
      change Option.map _ (levelLoop _ _ _ (tries i s) _) = _
      rw [hloop]
      cases highest
      · rfl
      · change some _ = some _
        simp [putTries]

/-- A sequence of calls that each lead on by an amount leads on by all of them. -/
theorem foldlM_leads {α : Type} (worth : α → UInt64) {step : State → α → Option State} (get : State → Progress)
    (put : State → Progress → State) (hget : ∀ s q, get (put s q) = q) (hput : ∀ s q r, put (put s q) r = put s r)
    (hself : ∀ s, put s (get s) = s)
    (hstep : ∀ s a, Well req base max (get s) → (get s).spent.toNat + (worth a).toNat < 2 ^ 64 →
      ∃ q, step s a = some (put s q) ∧ Leads req base max (get s) (worth a).toNat q)
    (calls : List α) {s : State} (hs : Well req base max (get s))
    (hsum : (get s).spent.toNat + (calls.map fun a => (worth a).toNat).sum < 2 ^ 64) :
    ∃ q, calls.foldlM step s = some (put s q) ∧
      Leads req base max (get s) (calls.map fun a => (worth a).toNat).sum q := by
  induction calls generalizing s with
  | nil => exact ⟨get s, congrArg some (hself s).symm, hs.leads_zero⟩
  | cons a calls ih =>
    rw [List.map_cons, List.sum_cons] at hsum ⊢
    obtain ⟨q, hcall, hq⟩ := hstep s a hs (by omega)
    have hspent := hq.spent_le
    obtain ⟨r, hcalls, hr⟩ := ih (s := put s q) (by rw [hget]; exact hq.well) (by rw [hget]; omega)
    rw [hget] at hr
    refine ⟨r, ?_, hq.trans hr⟩
    rw [List.foldlM_cons, hcall]
    exact hcalls.trans (congrArg some (hput s q r))

/-- A call that trains the magic level. -/
inductive MagicCall where
  | addManaSpent (amount : UInt64)
  | addOfflineTrainingTries (tries : UInt64)

def MagicCall.amount : MagicCall → UInt64
  | addManaSpent amount => amount
  | addOfflineTrainingTries tries => tries

/-- A call for a player without the flag `NotGainMana`. -/
def MagicCall.run (env : Death.Env) (s : State) : MagicCall → Option State
  | addManaSpent amount => Training.addManaSpent env false amount s
  | addOfflineTrainingTries tries => Training.addOfflineTrainingTries env .magLevel tries s

def MagicCall.total (calls : List MagicCall) : Nat := (calls.map fun call => call.amount.toNat).sum

/-- Offline training of a skill, in so many parts. -/
def trainSkill (env : Death.Env) (i : SkillId) (s : State) (tries : UInt64) : Option State :=
  addOfflineTrainingTries env (.skill i) tries s

theorem well_of_lt (hg : Grows req width base max) (hmax : p.level ≤ max) (hspent : p.spent < req (levelAfter width p.level))
    (hbase : p.spent < req (p.level + 1) → base ≤ p.level) : Well req base max p := by
  rcases hmax.eq_or_lt with hmax | hlt
  · exact .inl hmax
  · rw [levelAfter_of_lt hg hlt] at hspent
    exact .inr ⟨hbase hspent, hlt, hspent⟩

end Calls

/-- For a player without the flag, every sequence of calls leads to where its total amount leads, whatever the calls are: the
    total rises by just the amount and stays below what the next level asks for, up to the highest level. -/
theorem training_exact (env : Death.Env) :
    (∀ max, Grows (getReqMana env) magWidth 0 max → ∀ s, s.magLevel ≤ max →
      s.manaSpent < getReqMana env (levelAfter magWidth s.magLevel) →
      ∀ calls, s.manaSpent.toNat + MagicCall.total calls < 2 ^ 64 →
        ∃ q, Leads (getReqMana env) 0 max (mana s) (MagicCall.total calls) q ∧
          ∀ calls', MagicCall.total calls' = MagicCall.total calls →
            calls'.foldlM (MagicCall.run env) s = some (putMana s q)) ∧
    ∀ i max, Grows (getReqSkillTries env i) skillWidth 10 max → ∀ s, (s.skills i).level ≤ max →
      (s.skills i).tries < getReqSkillTries env i (levelAfter skillWidth (s.skills i).level) →
      ∀ amounts : List UInt64, (s.skills i).tries.toNat + (amounts.map UInt64.toNat).sum < 2 ^ 64 →
        ∃ q, Leads (getReqSkillTries env i) 10 max (tries i s) (amounts.map UInt64.toNat).sum q ∧
          ∀ amounts' : List UInt64, (amounts'.map UInt64.toNat).sum = (amounts.map UInt64.toNat).sum →
            amounts'.foldlM (trainSkill env i) s = some (putTries i s q) := by
  constructor
  · intro max hg s hmax hspent calls hsum
    have hs : Well (getReqMana env) 0 max (mana s) := well_of_lt hg hmax hspent fun _ => Nat.zero_le _
    have hrun (calls : List MagicCall) (hsum : s.manaSpent.toNat + MagicCall.total calls < 2 ^ 64) :
        ∃ q, calls.foldlM (MagicCall.run env) s = some (putMana s q) ∧
          Leads (getReqMana env) 0 max (mana s) (MagicCall.total calls) q := by
      refine foldlM_leads MagicCall.amount mana putMana (fun _ _ => rfl) (fun _ _ _ => rfl) (fun _ => rfl) ?_ calls hs
        hsum
      rintro s (amount | amount) hs hsum
      · exact addManaSpent_leads hg hs hsum
      · exact addOfflineTrainingTries_leads hg hs hsum
    obtain ⟨q, -, hq⟩ := hrun calls hsum
    refine ⟨q, hq, fun calls' heq => ?_⟩
    obtain ⟨q', hcalls, hq'⟩ := hrun calls' (heq ▸ hsum)
    rw [heq] at hq'
    rw [hcalls, hq'.unique hq]
  · intro i max hg s hmax hspent amounts hsum
    have hbase : (tries i s).spent < getReqSkillTries env i ((tries i s).level + 1) → 10 ≤ (tries i s).level := by
      intro hlt
      by_contra hlow
      rw [getReqSkillTries, if_pos (show (tries i s).level + 1 ≤ minSkillLevel from Nat.not_le.mp hlow)] at hlt
      exact absurd hlt (UInt64.not_lt.mpr UInt64.zero_le)
    have hs : Well (getReqSkillTries env i) 10 max (tries i s) := well_of_lt hg hmax hspent hbase
    have hrun (amounts : List UInt64) (hsum : (s.skills i).tries.toNat + (amounts.map UInt64.toNat).sum < 2 ^ 64) :
        ∃ q, amounts.foldlM (trainSkill env i) s = some (putTries i s q) ∧
          Leads (getReqSkillTries env i) 10 max (tries i s) (amounts.map UInt64.toNat).sum q :=
      foldlM_leads id (tries i) (putTries i) (get_putTries i) (putTries_putTries i)
        (putTries_tries i) (fun s a hs hsum => addOfflineTrainingTries_skill hg hs hsum) amounts hs hsum
    obtain ⟨q, -, hq⟩ := hrun amounts hsum
    refine ⟨q, hq, fun amounts' heq => ?_⟩
    obtain ⟨q', hcalls, hq'⟩ := hrun amounts' (heq ▸ hsum)
    rw [heq] at hq'
    rw [hcalls, hq'.unique hq]

/-! An apprentice can reach magic level 1 only. -/

def apprenticeEnv : Death.Env :=
  { rookEnv with powMana := fun magLevel => if magLevel = 1 then 1600 else 0 }

def apprentice : State := { clubFighter 10 with magLevel := 0, manaSpent := 100 }

theorem apprenticeEnv_grows : Grows (getReqMana apprenticeEnv) magWidth 0 1 where
  fits := by decide
  strict l _ hl := by
    obtain rfl : l = 0 := by omega
    decide
  highest := by decide

theorem training_exact_apprentice : ∃ q, Leads (getReqMana apprenticeEnv) 0 1 (mana apprentice) 600 q ∧
    ∀ calls, MagicCall.total calls = 600 → calls.foldlM (MagicCall.run apprenticeEnv) apprentice = some (putMana apprentice q) :=
  (training_exact apprenticeEnv).1 1 apprenticeEnv_grows apprentice (by decide) (by decide)
    [.addManaSpent 500, .addOfflineTrainingTries 100] (by decide)

/-- With the flag only one of the functions trains; and the highest level that is reached asks for nothing more. -/
theorem training_not_exact : Grows (getReqMana apprenticeEnv) magWidth 0 1 ∧
    (addManaSpent apprenticeEnv true 5 apprentice).map mana ≠
      (addOfflineTrainingTries apprenticeEnv .magLevel 5 apprentice).map mana ∧
    ∃ s, addOfflineTrainingTries apprenticeEnv .magLevel 1500 apprentice = some s ∧
      ¬s.manaSpent < getReqMana apprenticeEnv (levelAfter magWidth s.magLevel) :=
  ⟨apprenticeEnv_grows, by decide +kernel, _, rfl, by decide +kernel⟩

end CrystalServer.Training
