import CrystalServer.Lib.SumBy
import CrystalServer.Io.Bestiary
import CrystalServer.Lib.Run

/-! # Charm points and the charms that are set

Points, maxima, tiers, used bits and races in step, over all kills and purchases. Two steps break them: a kill count
that no longer fits the signed storage, and a charm set while it is locked or on the race id 0. -/

namespace CrystalServer.Bestiary
open Lib

/-- A sum over the charms of what each counts for at its tier. -/
def total (env : Env) (a : CharmRune → CharmInfo) (g : Charm → Nat → Nat) : Nat :=
  sumBy (fun c => g c (a c.id).tier.toNat) env.charmList

/-- The prices of the tiers owned in the charms of a category. -/
def prices (env : Env) (p : Player) (category : CharmCategory) : Nat :=
  total env p.charmsArray fun c tier => if c.category = category then sumBy UInt16.toNat (c.points.take tier) else 0

/-- What the first tiers of a major charm pay in echoes. -/
def tierEchoes : Nat → Nat
  | 0 => 0
  | tier + 1 => tierEchoes tier + (25 * tier * tier + 25 * tier + 50)

def majorEchoes (env : Env) (p : Player) : Nat :=
  total env p.charmsArray fun c tier => if c.category = .CHARM_MAJOR then tierEchoes tier else 0

def creaturePoints (env : Env) (raceid : UInt16) : Nat :=
  (env.getMonsterTypeByRaceId raceid).elim 0 fun m => m.bestiaryCharmsPoints.toNat

def Player.isUsed (p : Player) (c : Charm) : Bool := p.UsedRunesBit.getLsbD c.id.val

/-- Points, echoes, grants, bits and races agree. That the sums are those of numbers says that nothing wrapped. -/
structure Agrees (env : Env) (p : Player) : Prop where
  points : p.charmPoints.toNat + prices env p .CHARM_MAJOR = p.maxCharmPoints.toNat
  echoes : p.minorCharmEchoes.toNat + prices env p .CHARM_MINOR = p.maxMinorCharmEchoes.toNat
  paid : p.maxCharmPoints.toNat = sumBy (creaturePoints env) p.granted
  paidEchoes : ∃ base ∈ [0, 100], p.maxMinorCharmEchoes.toNat = base + majorEchoes env p
  once : p.granted.Nodup
  granted_iff : ∀ r, r ∈ p.granted ↔ r ≠ 0 ∧ ∃ m, env.getMonsterTypeByRaceId r = some m ∧
    0 < (p.getBestiaryKillCount r).toNat ∧ m.bestiaryToUnlock.toNat ≤ (p.getBestiaryKillCount r).toNat
  used_iff : ∀ c ∈ env.charmList, p.isUsed c ↔ p.parseRacebyCharm c.id ≠ 0
  unlocked : ∀ c ∈ env.charmList, p.isUsed c → 1 ≤ (p.getCharmTier c.id).toNat
  alone : ∀ r m, env.getMonsterTypeByRaceId r = some m → ∀ c ∈ env.charmList, ∀ c' ∈ env.charmList,
    p.isUsed c → p.isUsed c' → p.parseRacebyCharm c.id = r → p.parseRacebyCharm c'.id = r →
      c.category = c'.category → c = c'

/-- The same, and an assignment, if one is made next, keeps to the limit. -/
structure Consistent (env : Env) (p : Player) : Prop extends Agrees env p where
  limit : ∀ call : Call, call.action = 1 → sendBuyCharmRune env p call = p ∨
    (getCharmUsedRuneBitAll (sendBuyCharmRune env p call)).length ≤ limitRunes call

/-- The same, and what the steps need beside. -/
structure Good (env : Env) (p : Player) : Prop extends Agrees env p where
  tier_le : ∀ c ∈ env.charmList, (p.getCharmTier c.id).toNat ≤ 3
  neither : ∀ c ∈ env.charmList, c.category = .CHARM_ALL → (p.getCharmTier c.id).toNat = 0
  bits : ∀ i, p.UsedRunesBit.getLsbD i → ∃ c ∈ env.charmList, c.id.val = i

variable {env : Env} {p : Player} {c c' : Charm} {r : UInt16} {amount : UInt32} {m : MonsterType}

/-! ### Charms of the list -/

theorem Env.charm_inj (env : Env) (hc : c ∈ env.charmList) (hc' : c' ∈ env.charmList) (h : c.id = c'.id) : c = c' :=
  List.inj_on_of_nodup_map env.nodup hc hc' h

theorem getBestiaryCharm_of_mem (hc : c ∈ env.charmList) : getBestiaryCharm env c.id.val = some c := by
  cases h : getBestiaryCharm env c.id.val with
  | none =>
    have := List.find?_eq_none.mp h c hc
    simp at this
  | some c' =>
    have hid := List.find?_some h
    have := env.charm_inj (List.mem_of_find?_eq_some h) hc (Fin.ext (by simpa using hid))
    rw [this]

theorem mem_of_getBestiaryCharm {n : Nat} (h : getBestiaryCharm env n = some c) : c ∈ env.charmList :=
  List.mem_of_find?_eq_some h

/-- The sum after one charm changed its tier. -/
theorem total_update (hc : c ∈ env.charmList) (a : CharmRune → CharmInfo) (i : CharmInfo) (g : Charm → Nat → Nat) :
    total env (Function.update a c.id i) g + g c (a c.id).tier.toNat = total env a g + g c i.tier.toNat := by
  have h := sumBy_update (f := fun b => g b (a b.id).tier.toNat) (g := fun b => g b (Function.update a c.id i b.id).tier.toNat)
    (List.Nodup.of_map _ env.nodup) hc fun b hb hne => ?_
  · simpa [total] using h
  · have : b.id ≠ c.id := fun h => hne (env.charm_inj hb hc h)
    simp only [Function.update_of_ne this]

/-! ### Bits -/

theorem binary_getLsbD (c : Charm) (i : Nat) : c.binary.getLsbD i = decide (i = c.id.val) := by
  have := c.id.isLt
  simp only [Charm.binary, BitVec.getLsbD_shiftLeft, BitVec.getLsbD_one]
  by_cases hi : i = c.id.val
  · subst hi
    simp
    omega
  · simp [hi]
    omega

theorem bitToggle_true_getLsbD (b : BitVec 32) (c : Charm) (i : Nat) :
    (bitToggle b c true).getLsbD i = (b.getLsbD i || decide (i = c.id.val)) := by
  simp [bitToggle, binary_getLsbD]

theorem bitToggle_false_getLsbD (b : BitVec 32) (c : Charm) (i : Nat) :
    (bitToggle b c false).getLsbD i = (b.getLsbD i && !decide (i = c.id.val)) := by
  simp only [bitToggle, Bool.false_eq_true, if_false, BitVec.getLsbD_and, BitVec.getLsbD_not, binary_getLsbD]
  by_cases hi : i < 32
  · simp [hi]
  · rw [BitVec.getLsbD_of_ge b i (by omega)]
    rfl

/-- The loop lists the set bits, highest first. -/
theorem usedLoop_eq (fuel : Nat) {b : BitVec 32} (hb : b.msb = false) (i : Nat) (rtn : List Nat) :
    usedLoop fuel b i rtn = (((List.range fuel).filter b.getLsbD).map (i + ·)).reverse ++ rtn := by
  induction fuel generalizing b i rtn with
  | zero => rfl
  | succ fuel ih =>
    rw [usedLoop]
    split
    · rename_i h0
      rw [h0]
      simp
    · have hshift : b.sshiftRight 1 = b >>> 1 := BitVec.sshiftRight_eq_of_msb_false hb
      have hmsb : (b >>> 1).msb = false := by simp [BitVec.msb_eq_getLsbD_last]
      have hlow : (b &&& 1 = 1) ↔ b.getLsbD 0 = true := by
        have : b &&& 1 = BitVec.setWidth 32 (BitVec.ofBool (b.getLsbD 0)) := BitVec.and_one_eq_setWidth_ofBool_getLsbD
        rw [this]
        cases b.getLsbD 0 <;> decide
      have hnext : (b >>> 1).getLsbD = b.getLsbD ∘ Nat.succ := by
        funext j
        rw [BitVec.getLsbD_ushiftRight, Nat.add_comm]
        rfl
      have hadd : (fun j => i + j) ∘ Nat.succ = fun j => i + 1 + j := by
        funext j
        exact Nat.add_right_comm i j 1 |>.trans rfl
      rw [hshift, ih hmsb, List.range_succ_eq_map, List.filter_cons, List.filter_map, hnext]
      by_cases h0 : b.getLsbD 0 = true
      · rw [if_pos (hlow.mpr h0), if_pos h0, List.map_cons, List.map_map, hadd, List.reverse_cons, List.append_assoc]
        rfl
      · rw [if_neg (mt hlow.mp h0), if_neg h0, List.map_map, hadd]

theorem Good.msb (h : Good env p) : p.UsedRunesBit.msb = false := by
  rw [BitVec.msb_eq_getLsbD_last, Bool.eq_false_iff]
  intro hb
  obtain ⟨c, -, hc⟩ := h.bits _ hb
  omega

theorem used_eq (hb : p.UsedRunesBit.msb = false) :
    getCharmUsedRuneBitAll p = ((List.range 32).filter p.UsedRunesBit.getLsbD).reverse := by
  rw [getCharmUsedRuneBitAll, usedLoop_eq 32 hb, List.append_nil]
  congr 1
  exact (List.map_congr_left fun j _ => Nat.zero_add j).trans (List.map_id _)

theorem mem_used (hb : p.UsedRunesBit.msb = false) {i : Nat} :
    i ∈ getCharmUsedRuneBitAll p ↔ p.UsedRunesBit.getLsbD i = true := by
  rw [used_eq hb, List.mem_reverse, List.mem_filter, List.mem_range]
  exact and_iff_right_of_imp BitVec.lt_of_getLsbD

/-- One charm more is set at most. -/
theorem length_used_le {p' : Player} (hb : p.UsedRunesBit.msb = false) (hb' : p'.UsedRunesBit.msb = false)
    (h : ∀ i, p'.UsedRunesBit.getLsbD i = true → p.UsedRunesBit.getLsbD i = true ∨ i = c.id.val) :
    (getCharmUsedRuneBitAll p').length ≤ (getCharmUsedRuneBitAll p).length + 1 := by
  have hnodup : (getCharmUsedRuneBitAll p').Nodup := by
    rw [used_eq hb', List.nodup_reverse]
    exact List.nodup_range.filter _
  have hsub : getCharmUsedRuneBitAll p' ⊆ c.id.val :: getCharmUsedRuneBitAll p := by
    intro i hi
    rcases h i ((mem_used hb').mp hi) with hp | rfl
    · exact List.mem_cons_of_mem _ ((mem_used hb).mpr hp)
    · exact List.mem_cons_self
  exact (List.subperm_of_subset hnodup hsub).length_le

/-! ### Charms set on a creature -/

theorem noteCharm_keeps (r : UInt16) (acc : Option CharmRune × Option CharmRune) (it : Nat) :
    (acc.1 ≠ none → (noteCharm env p r acc it).1 ≠ none) ∧ (acc.2 ≠ none → (noteCharm env p r acc it).2 ≠ none) := by
  unfold noteCharm
  split
  · exact ⟨id, id⟩
  · split_ifs
    · split
      · exact ⟨fun _ => nofun, id⟩
      · exact ⟨id, fun _ => nofun⟩
      · exact ⟨id, id⟩
    · exact ⟨id, id⟩

theorem foldl_noteCharm_keeps (r : UInt16) (l : List Nat) (acc : Option CharmRune × Option CharmRune) :
    (acc.1 ≠ none → (l.foldl (noteCharm env p r) acc).1 ≠ none) ∧
      (acc.2 ≠ none → (l.foldl (noteCharm env p r) acc).2 ≠ none) := by
  induction l generalizing acc with
  | nil => exact ⟨id, id⟩
  | cons it l ih =>
    obtain ⟨h1, h2⟩ := @noteCharm_keeps env p r acc it
    exact ⟨fun h => (ih _).1 (h1 h), fun h => (ih _).2 (h2 h)⟩

/-- A charm that is set on a known creature is found there. -/
theorem getCharmFromTarget_some (h : Good env p) (hm : env.getMonsterTypeByRaceId r = some m) (hc : c ∈ env.charmList)
    (hu : p.isUsed c) (hr : p.parseRacebyCharm c.id = r) :
    (c.category = .CHARM_MAJOR → (getCharmFromTarget env p r).1 ≠ none) ∧
      (c.category = .CHARM_MINOR → (getCharmFromTarget env p r).2 ≠ none) := by
  obtain ⟨l₁, l₂, hl⟩ := List.append_of_mem ((mem_used h.msb).mpr hu)
  rw [getCharmFromTarget, hm]
  dsimp only
  rw [hl, List.foldl_append, List.foldl_cons]
  obtain ⟨h1, h2⟩ := @foldl_noteCharm_keeps env p r l₂
    (noteCharm env p r (l₁.foldl (noteCharm env p r) (none, none)) c.id.val)
  refine ⟨fun hcat => h1 ?_, fun hcat => h2 ?_⟩ <;> simp [noteCharm, getBestiaryCharm_of_mem hc, hr, hcat]

/-! ### Kills -/

/-- A stored count reads back while it is not negative. -/
theorem getBestiaryKillCount_of_stored {n : UInt32} (h : p.killStorage r = n.toInt32) (hn : n.toNat < 2 ^ 31) :
    p.getBestiaryKillCount r = n := by
  have hint := Lib.toInt_toInt32_of_lt hn
  simp only [Player.getBestiaryKillCount, h, Int32.lt_iff_toInt_lt, hint, Int32.toInt_zero, UInt32.toUInt32_toInt32]
  split
  · rfl
  · refine UInt32.toNat_inj.mp ?_
    rw [UInt32.toNat_zero]
    omega

theorem getBestiaryKillCount_add (h : (p.getBestiaryKillCount r).toNat + amount.toNat < 2 ^ 31) :
    (p.addBestiaryKillCount r amount).getBestiaryKillCount r = p.getBestiaryKillCount r + amount := by
  refine getBestiaryKillCount_of_stored (Function.update_self ..) ?_
  rw [UInt32.toNat_add]
  omega

theorem getBestiaryKillCount_other {r' : UInt16} (h : r' ≠ r) :
    (p.addBestiaryKillCount r amount).getBestiaryKillCount r' = p.getBestiaryKillCount r' := by
  have hstored : (p.addBestiaryKillCount r amount).killStorage r' = p.killStorage r' := Function.update_of_ne h ..
  simp only [Player.getBestiaryKillCount, hstored]

/-- A stage is reached and all stages are, exactly when the last one is reached now. -/
theorem last_stage {first second last cur now : Nat} (h₁ : first ≤ second) (h₂ : second ≤ last) :
    ((cur = 0 ∨ (cur < first ∧ first ≤ now) ∨ (cur < second ∧ second ≤ now) ∨ (cur < last ∧ last ≤ now)) ∧ last ≤ now) ↔
      (cur = 0 ∨ cur < last) ∧ last ≤ now := by
  omega

/-- A kill of a known creature grants its points when the last threshold is reached. -/
theorem addBestiaryKill_eq (hm : env.getMonsterTypeByRaceId r = some m) (hr : r ≠ 0)
    (h : (p.getBestiaryKillCount r).toNat + amount.toNat < 2 ^ 31) : addBestiaryKill env p r amount =
      if ((p.getBestiaryKillCount r).toNat = 0 ∨ (p.getBestiaryKillCount r).toNat < m.bestiaryToUnlock.toNat) ∧
          m.bestiaryToUnlock.toNat ≤ (p.getBestiaryKillCount r).toNat + amount.toNat then
        { p.addBestiaryKillCount r amount with
          charmPoints := p.charmPoints + m.bestiaryCharmsPoints.toUInt32
          maxCharmPoints := p.maxCharmPoints + m.bestiaryCharmsPoints.toUInt32
          granted := r :: p.granted }
      else p.addBestiaryKillCount r amount := by
  have hsum : (p.getBestiaryKillCount r + amount).toNat = (p.getBestiaryKillCount r).toNat + amount.toNat := by
    rw [UInt32.toNat_add]
    omega
  have hzero : p.getBestiaryKillCount r = 0 ↔ (p.getBestiaryKillCount r).toNat = 0 := UInt32.toNat_inj.symm
  rw [addBestiaryKill, hm]
  dsimp only
  rw [if_neg hr]
  simp only [UInt32.lt_iff_toNat_lt, UInt32.le_iff_toNat_le, UInt16.toNat_toUInt32, hsum, hzero]
  rw [← ite_and, if_congr (last_stage (UInt16.le_iff_toNat_le.mp m.first_le) (UInt16.le_iff_toNat_le.mp m.second_le)) rfl rfl]
  rfl

theorem creaturePoints_le (r : UInt16) : creaturePoints env r ≤ 65535 := by
  unfold creaturePoints
  cases env.getMonsterTypeByRaceId r with
  | none => exact Nat.zero_le _
  | some m =>
    have := m.bestiaryCharmsPoints.toNat_lt
    rw [Option.elim_some]
    omega

theorem sum_creaturePoints_le (l : List UInt16) : sumBy (creaturePoints env) l ≤ l.length * 65535 := by
  induction l with
  | nil => exact Nat.zero_le _
  | cons r l ih =>
    have := @creaturePoints_le env r
    rw [sumBy_cons, List.length_cons]
    omega

/-- All creatures together do not pay more than the counter holds. -/
theorem sum_granted_lt {l : List UInt16} (hl : l.Nodup) (h0 : 0 ∉ l) : sumBy (creaturePoints env) l < 2 ^ 32 := by
  have hlen : l.length ≤ 65535 := by
    have hnodup : (l.map UInt16.toNat).Nodup := hl.map fun a b h => UInt16.toNat_inj.mp h
    have hsub : l.map UInt16.toNat ⊆ List.range' 1 65535 := by
      intro n hn
      obtain ⟨r, hr, rfl⟩ := List.mem_map.mp hn
      have := r.toNat_lt
      have : r.toNat ≠ 0 := fun h => h0 ((UInt16.toNat_inj.mp h : r = 0) ▸ hr)
      rw [List.mem_range'_1]
      omega
    have := (hnodup.subperm hsub).length_le
    rwa [List.length_map, List.length_range'] at this
  have := @sum_creaturePoints_le env l
  omega

theorem Agrees.zero_notMem (h : Agrees env p) : 0 ∉ p.granted := fun hm => ((h.granted_iff 0).mp hm).1 rfl

theorem kill_good (h : Good env p) (ha : 0 < amount)
    (hfits : (p.getBestiaryKillCount r).toNat + amount.toNat < 2 ^ 31) : Good env (addBestiaryKill env p r amount) := by
  cases hm : env.getMonsterTypeByRaceId r with
  | none =>
    rw [addBestiaryKill, hm]
    exact h
  | some m =>
    by_cases hr : r = 0
    · rw [addBestiaryKill, hm]
      dsimp only
      rw [if_pos hr]
      exact h
    have hcount : ((p.addBestiaryKillCount r amount).getBestiaryKillCount r).toNat =
        (p.getBestiaryKillCount r).toNat + amount.toNat := by
      rw [getBestiaryKillCount_add hfits, UInt32.toNat_add]
      omega
    have ha : 0 < amount.toNat := UInt32.lt_iff_toNat_lt.mp ha
    have hother {r' : UInt16} (hne : r' ≠ r) := @getBestiaryKillCount_other p r amount r' hne
    have hold : r ∈ p.granted ↔ 0 < (p.getBestiaryKillCount r).toNat ∧
        m.bestiaryToUnlock.toNat ≤ (p.getBestiaryKillCount r).toNat := by
      rw [h.granted_iff, hm]
      simp [hr]
    rw [addBestiaryKill_eq hm hr hfits]
    split
    · rename_i hnow
      have hnew : r ∉ p.granted := by
        rw [hold]
        omega
      have hpaid : p.maxCharmPoints.toNat + m.bestiaryCharmsPoints.toNat =
          sumBy (creaturePoints env) (r :: p.granted) := by
        rw [sumBy_cons, creaturePoints, hm, Option.elim_some, h.paid, Nat.add_comm]
      have hlt : sumBy (creaturePoints env) (r :: p.granted) < 2 ^ 32 := by
        refine sum_granted_lt (List.nodup_cons.mpr ⟨hnew, h.once⟩) ?_
        rw [List.mem_cons, not_or]
        exact ⟨Ne.symm hr, h.zero_notMem⟩
      have hpoints := h.points
      have hmax : (p.maxCharmPoints + m.bestiaryCharmsPoints.toUInt32).toNat =
          p.maxCharmPoints.toNat + m.bestiaryCharmsPoints.toNat := by
        rw [UInt32.toNat_add, UInt16.toNat_toUInt32]
        omega
      have hcharm : (p.charmPoints + m.bestiaryCharmsPoints.toUInt32).toNat =
          p.charmPoints.toNat + m.bestiaryCharmsPoints.toNat := by
        rw [UInt32.toNat_add, UInt16.toNat_toUInt32]
        omega
      exact
        { h with
          points := by
            show _ + prices env p .CHARM_MAJOR = _
            rw [hmax, hcharm]
            omega
          paid := hmax.trans hpaid
          once := List.nodup_cons.mpr ⟨hnew, h.once⟩
          granted_iff := fun r' => by
            by_cases hr' : r' = r
            · subst hr'
              refine iff_of_true List.mem_cons_self ⟨hr, m, hm, ?_⟩
              show 0 < ((p.addBestiaryKillCount r' amount).getBestiaryKillCount r').toNat ∧
                _ ≤ ((p.addBestiaryKillCount r' amount).getBestiaryKillCount r').toNat
              rw [hcount]
              omega
            · show _ ↔ r' ≠ 0 ∧ ∃ m, _ ∧ 0 < ((p.addBestiaryKillCount r amount).getBestiaryKillCount r').toNat ∧
                _ ≤ ((p.addBestiaryKillCount r amount).getBestiaryKillCount r').toNat
              rw [hother hr', ← h.granted_iff, List.mem_cons, or_iff_right hr'] }
    · rename_i hnow
      exact
        { h with
          granted_iff := fun r' => by
            by_cases hr' : r' = r
            · subst hr'
              show r' ∈ p.granted ↔ _
              rw [hcount, hold, hm]
              simp only [hr, ne_eq, not_false_eq_true, Option.some.injEq, exists_eq_left', true_and]
              omega
            · show r' ∈ p.granted ↔ _
              rw [hother hr', ← h.granted_iff] }

/-! ### Tiers -/

@[simp] theorem setCharmTier_race (p : Player) (i j : CharmRune) (tier : UInt8) :
    (p.setCharmTier i tier).parseRacebyCharm j = p.parseRacebyCharm j := by
  simp only [Player.parseRacebyCharm, Player.setCharmTier]
  by_cases h : j = i
  · rw [h, Function.update_self]
  · rw [Function.update_of_ne h]

@[simp] theorem setRacebyCharm_tier (p : Player) (i j : CharmRune) (raceid : UInt16) :
    (p.setRacebyCharm i raceid).getCharmTier j = p.getCharmTier j := by
  simp only [Player.getCharmTier, Player.setRacebyCharm]
  by_cases h : j = i
  · rw [h, Function.update_self]
  · rw [Function.update_of_ne h]

theorem setCharmTier_self (p : Player) (i : CharmRune) (tier : UInt8) : (p.setCharmTier i tier).getCharmTier i = tier := by
  simp [Player.getCharmTier, Player.setCharmTier]

theorem setCharmTier_other (p : Player) {i j : CharmRune} (h : j ≠ i) (tier : UInt8) :
    (p.setCharmTier i tier).getCharmTier j = p.getCharmTier j := by
  simp [Player.getCharmTier, Player.setCharmTier, h]

theorem total_congr {a b : CharmRune → CharmInfo} (h : ∀ i, (a i).tier = (b i).tier) (g : Charm → Nat → Nat) :
    total env a g = total env b g :=
  sumBy_congr fun c _ => by rw [h]

theorem total_zero {a : CharmRune → CharmInfo} {g : Charm → Nat → Nat} (ha : ∀ c ∈ env.charmList, (a c.id).tier = 0)
    (hg : ∀ c, g c 0 = 0) : total env a g = 0 := by
  have : total env a g = sumBy (fun _ => 0) env.charmList :=
    sumBy_congr fun c hc => by rw [ha c hc]; exact hg c
  rw [this]
  generalize env.charmList = l
  induction l with
  | nil => rfl
  | cons c l ih => rw [sumBy_cons, ih]

theorem sum_take_succ (c : Charm) {tier : Nat} (ht : tier ≤ 2) : sumBy UInt16.toNat (c.points.take (tier + 1)) =
    sumBy UInt16.toNat (c.points.take tier) + (c.points.getD tier 0).toNat := by
  have hlt : tier < c.points.length := by rw [c.three]; omega
  rw [List.take_succ_eq_append_getElem hlt, sumBy_concat, List.getD_eq_getElem?_getD, List.getElem?_eq_getElem hlt]
  rfl

/-- The next tier of a charm, in any sum. -/
theorem total_next (hc : c ∈ env.charmList) (ht : (p.getCharmTier c.id).toNat ≤ 2) (g : Charm → Nat → Nat) :
    total env (p.setCharmTier c.id (p.getCharmTier c.id + 1)).charmsArray g + g c (p.getCharmTier c.id).toNat =
      total env p.charmsArray g + g c ((p.getCharmTier c.id).toNat + 1) := by
  have hsucc : (p.getCharmTier c.id + 1).toNat = (p.getCharmTier c.id).toNat + 1 := by
    rw [UInt8.toNat_add]
    exact Nat.mod_eq_of_lt (by simp; omega)
  have := total_update hc p.charmsArray { p.charmsArray c.id with tier := p.getCharmTier c.id + 1 } g
  rwa [hsucc] at this

theorem prices_next (hc : c ∈ env.charmList) (ht : (p.getCharmTier c.id).toNat ≤ 2) (category : CharmCategory) :
    prices env (p.setCharmTier c.id (p.getCharmTier c.id + 1)) category = prices env p category +
      if c.category = category then (c.points.getD (p.getCharmTier c.id).toNat 0).toNat else 0 := by
  have := total_next hc ht fun c tier => if c.category = category then sumBy UInt16.toNat (c.points.take tier) else 0
  unfold prices
  split_ifs at this ⊢
  · rw [sum_take_succ c ht] at this
    omega
  · omega

theorem majorEchoes_next (hc : c ∈ env.charmList) (ht : (p.getCharmTier c.id).toNat ≤ 2) :
    majorEchoes env (p.setCharmTier c.id (p.getCharmTier c.id + 1)) = majorEchoes env p +
      if c.category = .CHARM_MAJOR then
        25 * (p.getCharmTier c.id).toNat * (p.getCharmTier c.id).toNat + 25 * (p.getCharmTier c.id).toNat + 50
      else 0 := by
  have := total_next hc ht fun c tier => if c.category = .CHARM_MAJOR then tierEchoes tier else 0
  unfold majorEchoes
  split_ifs at this ⊢
  · rw [tierEchoes] at this
    omega
  · omega

theorem tierEchoes_le {tier : Nat} (h : tier ≤ 3) : tierEchoes tier ≤ 350 := by
  match tier, h with
  | 0, _ => decide
  | 1, _ => decide
  | 2, _ => decide
  | 3, _ => decide

/-- Three tiers of all charms do not pay much. -/
theorem Good.majorEchoes_le (h : Good env p) : majorEchoes env p ≤ 25 * 350 := by
  have hlen : env.charmList.length ≤ 25 := by
    have := (List.Nodup.of_map _ env.nodup).map_on fun c hc c' hc' heq => env.charm_inj hc hc' heq
    have := this.length_le_card
    rwa [List.length_map, Fintype.card_fin] at this
  have hsum : ∀ l : List Charm, (∀ c ∈ l, (p.getCharmTier c.id).toNat ≤ 3) →
      sumBy (fun c => if c.category = .CHARM_MAJOR then tierEchoes (p.charmsArray c.id).tier.toNat else 0) l ≤
        l.length * 350 := by
    intro l hl
    induction l with
    | nil => exact Nat.zero_le _
    | cons c l ih =>
      have hc : (if c.category = .CHARM_MAJOR then tierEchoes (p.charmsArray c.id).tier.toNat else 0) ≤ 350 := by
        split_ifs
        · exact tierEchoes_le (hl c List.mem_cons_self)
        · exact Nat.zero_le _
      have := ih fun c hc => hl c (List.mem_cons_of_mem _ hc)
      rw [sumBy_cons, List.length_cons]
      omega
  exact (hsum env.charmList h.tier_le).trans (Nat.mul_le_mul_right 350 hlen)

/-! ### Purchases -/

/-- A charm with its next tier, paid from the points or from the echoes. -/
theorem next_good (h : Good env p) (hc : c ∈ env.charmList) (ht : (p.getCharmTier c.id).toNat ≤ 2)
    (hcat : c.category ≠ .CHARM_ALL) {q : Player} {price echoes : Nat}
    (hprice : price = (c.points.getD (p.getCharmTier c.id).toNat 0).toNat)
    (hpay : echoes = 25 * (p.getCharmTier c.id).toNat * (p.getCharmTier c.id).toNat +
      25 * (p.getCharmTier c.id).toNat + 50)
    (harr : q.charmsArray = (p.setCharmTier c.id (p.getCharmTier c.id + 1)).charmsArray)
    (hused : q.UsedRunesBit = p.UsedRunesBit) (hkill : q.killStorage = p.killStorage) (hgranted : q.granted = p.granted)
    (hmax : q.maxCharmPoints = p.maxCharmPoints)
    (hpoints : q.charmPoints.toNat + (if c.category = .CHARM_MAJOR then price else 0) = p.charmPoints.toNat)
    (hmaxEchoes : q.maxMinorCharmEchoes.toNat =
      p.maxMinorCharmEchoes.toNat + if c.category = .CHARM_MAJOR then echoes else 0)
    (hechoes : q.minorCharmEchoes.toNat + (if c.category = .CHARM_MINOR then price else 0) =
      p.minorCharmEchoes.toNat + if c.category = .CHARM_MAJOR then echoes else 0) : Good env q := by
  have hprices (category : CharmCategory) : prices env q category = prices env p category +
      if c.category = category then price else 0 := by
    rw [hprice, ← prices_next hc ht category]
    unfold prices
    rw [harr]
  have hmajor : majorEchoes env q = majorEchoes env p + if c.category = .CHARM_MAJOR then echoes else 0 := by
    rw [hpay, ← majorEchoes_next hc ht]
    unfold majorEchoes
    rw [harr]
  have hrace (j : CharmRune) : q.parseRacebyCharm j = p.parseRacebyCharm j := by
    rw [← setCharmTier_race p c.id j (p.getCharmTier c.id + 1)]
    simp only [Player.parseRacebyCharm, harr]
  have hself : (q.getCharmTier c.id).toNat = (p.getCharmTier c.id).toNat + 1 := by
    have : q.getCharmTier c.id = p.getCharmTier c.id + 1 := by
      rw [← setCharmTier_self p c.id (p.getCharmTier c.id + 1)]
      simp only [Player.getCharmTier, harr]
    rw [this, UInt8.toNat_add]
    exact Nat.mod_eq_of_lt (by simp; omega)
  have hother {c' : Charm} (hne : c' ≠ c) (hc' : c' ∈ env.charmList) : q.getCharmTier c'.id = p.getCharmTier c'.id := by
    have : c'.id ≠ c.id := fun heq => hne (env.charm_inj hc' hc heq)
    rw [← setCharmTier_other p this (p.getCharmTier c.id + 1)]
    simp only [Player.getCharmTier, harr]
  have hisUsed (c' : Charm) : q.isUsed c' = p.isUsed c' := by simp only [Player.isUsed, hused]
  have hcount (r : UInt16) : q.getBestiaryKillCount r = p.getBestiaryKillCount r := by
    simp only [Player.getBestiaryKillCount, hkill]
  refine ⟨⟨?_, ?_, ?_, ?_, ?_, ?_, ?_, ?_, ?_⟩, ?_, ?_, ?_⟩
  · have := h.points
    rw [hprices, hmax]
    omega
  · have := h.echoes
    rw [hprices, hmaxEchoes]
    omega
  · rw [hmax, hgranted]
    exact h.paid
  · obtain ⟨base, hbase, hpaid⟩ := h.paidEchoes
    refine ⟨base, hbase, ?_⟩
    rw [hmaxEchoes, hmajor, hpaid, Nat.add_assoc]
  · rw [hgranted]
    exact h.once
  · intro r
    simp only [hgranted, hcount]
    exact h.granted_iff r
  · intro c' hc'
    rw [hisUsed, hrace]
    exact h.used_iff c' hc'
  · intro c' hc' hu
    by_cases hne : c' = c
    · rw [hne, hself]
      omega
    · rw [hother hne hc']
      exact h.unlocked c' hc' (hisUsed c' ▸ hu)
  · intro r m hm c₁ hc₁ c₂ hc₂
    simp only [hisUsed, hrace]
    exact h.alone r m hm c₁ hc₁ c₂ hc₂
  · intro c' hc'
    by_cases hne : c' = c
    · rw [hne, hself]
      omega
    · rw [hother hne hc']
      exact h.tier_le c' hc'
  · intro c' hc' hall
    have hne : c' ≠ c := fun heq => hcat (heq ▸ hall)
    rw [hother hne hc']
    exact h.neither c' hc' hall
  · rw [hused]
    exact h.bits

theorem tierPayment {tier : UInt8} (ht : tier.toNat ≤ 2) :
    (25 * tier.toUInt32 * tier.toUInt32 + 25 * tier.toUInt32 + 50 : UInt32).toNat =
      25 * tier.toNat * tier.toNat + 25 * tier.toNat + 50 := by
  have : tier = 0 ∨ tier = 1 ∨ tier = 2 := by
    simp only [← UInt8.toNat_inj, UInt8.toNat_ofNat]
    omega
  rcases this with rfl | rfl | rfl <;> rfl

theorem buyTier_good (h : Good env p) (hc : c ∈ env.charmList) : Good env (buyTier p c) := by
  unfold buyTier
  dsimp only
  have hle {tier : UInt8} (ht : ¬2 < tier) : tier.toNat ≤ 2 := by
    rw [UInt8.lt_iff_toNat_lt] at ht
    exact Nat.le_of_not_lt ht
  split
  · rename_i hcat
    split
    · exact h
    rename_i ht
    split
    · exact h
    rename_i hpay
    rw [UInt32.lt_iff_toNat_lt, UInt16.toNat_toUInt32] at hpay
    obtain ⟨base, hbase, hpaid⟩ := h.paidEchoes
    have hbase : base ≤ 100 := by
      simp only [List.mem_cons, List.not_mem_nil, or_false] at hbase
      omega
    have hmajor := h.majorEchoes_le
    have hecho := h.echoes
    have hpayment := tierPayment (hle ht)
    have hsmall : (25 * (p.getCharmTier c.id).toNat * (p.getCharmTier c.id).toNat +
        25 * (p.getCharmTier c.id).toNat + 50) ≤ 200 := by
      have := Nat.mul_le_mul (Nat.mul_le_mul_left 25 (hle ht)) (hle ht)
      have := hle ht
      omega
    refine next_good h hc (hle ht) (by rw [hcat]; exact nofun) rfl rfl rfl rfl rfl rfl rfl ?_ ?_ ?_
    · rw [if_pos hcat]
      change (p.charmPoints - _).toNat + _ = _
      rw [UInt32.toNat_sub_of_le _ _ (UInt32.le_iff_toNat_le.mpr (by rw [UInt16.toNat_toUInt32]; omega)), UInt16.toNat_toUInt32]
      omega
    · rw [if_pos hcat]
      change (p.maxMinorCharmEchoes + _).toNat = _
      rw [UInt32.toNat_add, hpayment]
      omega
    · rw [if_pos hcat, if_neg (by rw [hcat]; exact nofun)]
      change (p.minorCharmEchoes + _).toNat + 0 = _
      rw [UInt32.toNat_add, hpayment]
      omega
  · rename_i hcat
    split
    · exact h
    rename_i ht
    split
    · exact h
    rename_i hpay
    rw [UInt32.lt_iff_toNat_lt, UInt16.toNat_toUInt32] at hpay
    refine next_good h hc (hle ht) (by rw [hcat]; exact nofun) rfl rfl rfl rfl rfl rfl rfl ?_ ?_ ?_
    · rw [if_neg (by rw [hcat]; exact nofun)]
      rfl
    · rw [if_neg (by rw [hcat]; exact nofun)]
      rfl
    · rw [if_pos hcat, if_neg (by rw [hcat]; exact nofun)]
      change (p.minorCharmEchoes - _).toNat + _ = _
      rw [UInt32.toNat_sub_of_le _ _ (UInt32.le_iff_toNat_le.mpr (by rw [UInt16.toNat_toUInt32]; omega)), UInt16.toNat_toUInt32]
      omega
  · exact h

/-! ### Assignments -/

theorem setRacebyCharm_self (p : Player) (i : CharmRune) (raceid : UInt16) :
    (p.setRacebyCharm i raceid).parseRacebyCharm i = raceid := by
  simp [Player.parseRacebyCharm, Player.setRacebyCharm]

theorem setRacebyCharm_other (p : Player) {i j : CharmRune} (h : j ≠ i) (raceid : UInt16) :
    (p.setRacebyCharm i raceid).parseRacebyCharm j = p.parseRacebyCharm j := by
  simp [Player.parseRacebyCharm, Player.setRacebyCharm, h]

/-- Where the race of one charm and the bits change, the sums stay. -/
theorem race_good (h : Good env p) (i : CharmRune) (raceid : UInt16) (bits : BitVec 32) {q : Player}
    (hq : q = { p.setRacebyCharm i raceid with UsedRunesBit := bits })
    (hused : ∀ c ∈ env.charmList, q.isUsed c ↔ q.parseRacebyCharm c.id ≠ 0)
    (hunlocked : ∀ c ∈ env.charmList, q.isUsed c → 1 ≤ (p.getCharmTier c.id).toNat)
    (halone : ∀ r m, env.getMonsterTypeByRaceId r = some m → ∀ c ∈ env.charmList, ∀ c' ∈ env.charmList,
      q.isUsed c → q.isUsed c' → q.parseRacebyCharm c.id = r → q.parseRacebyCharm c'.id = r →
        c.category = c'.category → c = c')
    (hbits : ∀ i, q.UsedRunesBit.getLsbD i → ∃ c ∈ env.charmList, c.id.val = i) : Good env q := by
  have htier (j : CharmRune) : q.getCharmTier j = p.getCharmTier j := by
    rw [hq]
    exact setRacebyCharm_tier p i j raceid
  have hsum (g : Charm → Nat → Nat) : total env q.charmsArray g = total env p.charmsArray g :=
    total_congr (fun j => htier j) g
  refine ⟨⟨?_, ?_, ?_, ?_, ?_, ?_, hused, ?_, halone⟩, ?_, ?_, hbits⟩
  · unfold prices
    rw [hsum, hq]
    exact h.points
  · unfold prices
    rw [hsum, hq]
    exact h.echoes
  · rw [hq]
    exact h.paid
  · unfold majorEchoes
    rw [hsum, hq]
    exact h.paidEchoes
  · rw [hq]
    exact h.once
  · rw [hq]
    exact h.granted_iff
  · intro c hc hu
    rw [htier]
    exact hunlocked c hc hu
  · intro c hc
    rw [htier]
    exact h.tier_le c hc
  · intro c hc
    rw [htier]
    exact h.neither c hc

theorem resetCharmRuneCreature_good (h : Good env p) (hc : c ∈ env.charmList) :
    Good env (resetCharmRuneCreature p c) := by
  have hother {c' : Charm} (hc' : c' ∈ env.charmList) (hne : c' ≠ c) : c'.id ≠ c.id := fun heq => hne (env.charm_inj hc' hc heq)
  have hused (c' : Charm) (hc' : c' ∈ env.charmList) : (resetCharmRuneCreature p c).isUsed c' ↔ p.isUsed c' ∧ c' ≠ c := by
    show (bitToggle p.UsedRunesBit c false).getLsbD c'.id.val = true ↔ _
    rw [bitToggle_false_getLsbD]
    by_cases hne : c' = c
    · simp [hne]
    · have : c'.id.val ≠ c.id.val := fun heq => hother hc' hne (Fin.ext heq)
      simp [this, hne, Player.isUsed]
  have hrace {c' : Charm} (hc' : c' ∈ env.charmList) (hne : c' ≠ c) :
      (resetCharmRuneCreature p c).parseRacebyCharm c'.id = p.parseRacebyCharm c'.id :=
    setRacebyCharm_other _ (hother hc' hne) 0
  refine race_good h c.id 0 (bitToggle p.UsedRunesBit c false) rfl ?_ ?_ ?_ ?_
  · intro c' hc'
    rw [hused c' hc']
    by_cases hne : c' = c
    · rw [hne]
      refine iff_of_false (fun hn => hn.2 rfl) (fun hn => hn ?_)
      exact setRacebyCharm_self _ c.id 0
    · rw [hrace hc' hne, and_iff_left hne]
      exact h.used_iff c' hc'
  · intro c' hc' hu
    exact h.unlocked c' hc' ((hused c' hc').mp hu).1
  · intro r m hm c₁ hc₁ c₂ hc₂ hu₁ hu₂ hr₁ hr₂
    obtain ⟨hu₁, hne₁⟩ := (hused c₁ hc₁).mp hu₁
    obtain ⟨hu₂, hne₂⟩ := (hused c₂ hc₂).mp hu₂
    rw [hrace hc₁ hne₁] at hr₁
    rw [hrace hc₂ hne₂] at hr₂
    exact h.alone r m hm c₁ hc₁ c₂ hc₂ hu₁ hu₂ hr₁ hr₂
  · intro i hi
    change (bitToggle p.UsedRunesBit c false).getLsbD i = true at hi
    rw [bitToggle_false_getLsbD, Bool.and_eq_true] at hi
    exact h.bits i hi.1

/-- What the checks of an assignment leave open. -/
theorem mayAssign_spec (h : Good env p) {call : Call} (hmay : mayAssign env p call c) :
    (getCharmUsedRuneBitAll p).length < limitRunes call ∧
      ∀ m, env.getMonsterTypeByRaceId call.raceId = some m → c.category ≠ .CHARM_ALL → ∀ c' ∈ env.charmList,
        p.isUsed c' → p.parseRacebyCharm c'.id = call.raceId → c'.category ≠ c.category := by
  simp only [mayAssign, Bool.and_eq_true, Bool.not_eq_true', decide_eq_false_iff_not, not_or, not_and, not_not] at hmay
  obtain ⟨⟨hlimit, -⟩, hmajor, hminor⟩ := hmay
  refine ⟨Nat.lt_of_not_le hlimit, fun m hm hall c' hc' hu hr hcat => ?_⟩
  obtain ⟨h1, h2⟩ := getCharmFromTarget_some h hm hc' hu hr
  cases hc : c.category with
  | CHARM_ALL => exact hall hc
  | CHARM_MAJOR => exact h1 (hcat.trans hc) (hmajor hc)
  | CHARM_MINOR => exact h2 (hcat.trans hc) (hminor hc)

theorem setCharmRuneCreature_good (h : Good env p) (hc : c ∈ env.charmList) {call : Call}
    (hmay : mayAssign env p call c) (hrace0 : call.raceId ≠ 0) (htier : 1 ≤ (p.getCharmTier c.id).toNat) :
    Good env (setCharmRuneCreature p c call.raceId) := by
  have hother {c' : Charm} (hc' : c' ∈ env.charmList) (hne : c' ≠ c) : c'.id ≠ c.id := fun heq => hne (env.charm_inj hc' hc heq)
  have hused (c' : Charm) (hc' : c' ∈ env.charmList) :
      (setCharmRuneCreature p c call.raceId).isUsed c' ↔ p.isUsed c' ∨ c' = c := by
    show (bitToggle p.UsedRunesBit c true).getLsbD c'.id.val = true ↔ _
    rw [bitToggle_true_getLsbD]
    by_cases hne : c' = c
    · simp [hne]
    · have : c'.id.val ≠ c.id.val := fun heq => hother hc' hne (Fin.ext heq)
      simp [this, hne, Player.isUsed]
  have hself : (setCharmRuneCreature p c call.raceId).parseRacebyCharm c.id = call.raceId := setRacebyCharm_self p c.id call.raceId
  have hrace {c' : Charm} (hc' : c' ∈ env.charmList) (hne : c' ≠ c) :
      (setCharmRuneCreature p c call.raceId).parseRacebyCharm c'.id = p.parseRacebyCharm c'.id :=
    setRacebyCharm_other p (hother hc' hne) call.raceId
  have hall : c.category ≠ .CHARM_ALL := by
    intro hcat
    have := h.neither c hc hcat
    omega
  obtain ⟨-, hfree⟩ := mayAssign_spec h hmay
  refine race_good h c.id call.raceId (bitToggle p.UsedRunesBit c true) rfl ?_ ?_ ?_ ?_
  · intro c' hc'
    rw [hused c' hc']
    by_cases hne : c' = c
    · rw [hne, hself]
      exact iff_of_true (.inr rfl) hrace0
    · rw [hrace hc' hne, or_iff_left hne]
      exact h.used_iff c' hc'
  · intro c' hc' hu
    rcases (hused c' hc').mp hu with hu | rfl
    · exact h.unlocked c' hc' hu
    · exact htier
  · intro r m hm c₁ hc₁ c₂ hc₂ hu₁ hu₂ hr₁ hr₂ hcat
    by_cases hne₁ : c₁ = c
    · by_cases hne₂ : c₂ = c
      · rw [hne₁, hne₂]
      · rw [hne₁, hself] at hr₁
        rw [hrace hc₂ hne₂, ← hr₁] at hr₂
        rw [← hr₁] at hm
        have hu := ((hused c₂ hc₂).mp hu₂).resolve_right hne₂
        exact absurd (hne₁ ▸ hcat).symm (hfree m hm hall c₂ hc₂ hu hr₂)
    · rw [hrace hc₁ hne₁] at hr₁
      have hu := ((hused c₁ hc₁).mp hu₁).resolve_right hne₁
      by_cases hne₂ : c₂ = c
      · rw [hne₂, hself] at hr₂
        rw [← hr₂] at hm hr₁
        exact absurd (hne₂ ▸ hcat) (hfree m hm hall c₁ hc₁ hu hr₁)
      · rw [hrace hc₂ hne₂] at hr₂
        exact h.alone r m hm c₁ hc₁ c₂ hc₂ hu (((hused c₂ hc₂).mp hu₂).resolve_right hne₂) hr₁ hr₂ hcat
  · intro i hi
    change (bitToggle p.UsedRunesBit c true).getLsbD i = true at hi
    rw [bitToggle_true_getLsbD, Bool.or_eq_true] at hi
    rcases hi with hi | hi
    · exact h.bits i hi
    · exact ⟨c, hc, (of_decide_eq_true hi).symm⟩

/-! ### All charms back -/

theorem foldl_reset (l : List Charm) (p : Player) :
    l.foldl (fun p charm => (p.setRacebyCharm charm.id 0).setCharmTier charm.id 0) p =
      { p with charmsArray := fun i => if i ∈ l.map Charm.id then {} else p.charmsArray i } := by
  induction l generalizing p with
  | nil => simp
  | cons c l ih =>
    rw [List.foldl_cons, ih]
    simp only [Player.setCharmTier, Player.setRacebyCharm, List.map_cons, List.mem_cons]
    congr 1
    funext i
    by_cases hi : i = c.id
    · simp [hi]
    · simp [hi]

theorem resetAll_good (h : Good env p) (call : Call) : Good env (resetAll env p call) := by
  have harr (c : Charm) (hc : c ∈ env.charmList) : (resetAll env p call).charmsArray c.id = {} := by
    simp only [resetAll, resetAllCharmRuneCreatures, foldl_reset]
    exact if_pos (List.mem_map_of_mem hc)
  have htier (c : Charm) (hc : c ∈ env.charmList) : ((resetAll env p call).getCharmTier c.id).toNat = 0 := by
    rw [Player.getCharmTier, harr c hc]
    rfl
  have hsum (g : Charm → Nat → Nat) (hg : ∀ c, g c 0 = 0) : total env (resetAll env p call).charmsArray g = 0 :=
    total_zero (fun c hc => by rw [harr c hc]) hg
  have hprices (category : CharmCategory) : prices env (resetAll env p call) category = 0 :=
    hsum _ fun c => by simp
  have hmajor : majorEchoes env (resetAll env p call) = 0 := hsum _ fun c => by simp [tierEchoes]
  have hused (c : Charm) : (resetAll env p call).isUsed c = false := by simp [resetAll, Player.isUsed]
  have hkept : (resetAll env p call).maxCharmPoints = p.maxCharmPoints ∧
      (resetAll env p call).charmPoints = p.maxCharmPoints ∧ (resetAll env p call).granted = p.granted ∧
      (resetAll env p call).killStorage = p.killStorage := by
    simp only [resetAll, resetAllCharmRuneCreatures, foldl_reset, and_self]
  obtain ⟨hmax, hpoints, hgranted, hkill⟩ := hkept
  refine ⟨⟨?_, ?_, ?_, ?_, ?_, ?_, ?_, ?_, ?_⟩, ?_, ?_, ?_⟩
  · rw [hprices, hmax, hpoints, Nat.add_zero]
  · rw [hprices]
    rfl
  · rw [hmax, hgranted]
    exact h.paid
  · rw [hmajor]
    cases hp : call.isPromoted with
    | false => exact ⟨0, by decide, by simp [resetAll, hp]⟩
    | true => exact ⟨100, by decide, by simp [resetAll, hp]⟩
  · rw [hgranted]
    exact h.once
  · intro r
    simp only [hgranted, Player.getBestiaryKillCount, hkill]
    exact h.granted_iff r
  · intro c hc
    rw [hused, Player.parseRacebyCharm, harr c hc]
    simp
  · intro c hc hu
    rw [hused] at hu
    cases hu
  · intro r m hm c hc c' hc' hu
    rw [hused] at hu
    cases hu
  · intro c hc
    rw [htier c hc]
    exact Nat.zero_le 3
  · exact fun c hc _ => htier c hc
  · intro i hi
    simp [resetAll] at hi

/-! ### Runs -/

/-- The count that a kill leaves fits the signed storage; a charm that is set is unlocked and set on a creature. -/
def Fits (env : Env) (p : Player) : Op → Prop
  | .addBestiaryKill raceid amount => 0 < amount ∧ (p.getBestiaryKillCount raceid).toNat + amount.toNat < 2 ^ 31
  | .sendBuyCharmRune call => call.action = 1 → ∀ charm, getBestiaryCharm env call.charmId.toNat = some charm →
      mayAssign env p call charm → call.raceId ≠ 0 ∧ 1 ≤ (p.getCharmTier charm.id).toNat

theorem good_start (env : Env) : Good env {} := by
  have hsum (g : Charm → Nat → Nat) (hg : ∀ c, g c 0 = 0) : total env ({} : Player).charmsArray g = 0 :=
    total_zero (fun _ _ => rfl) hg
  have hused (c : Charm) : ({} : Player).isUsed c = false := by simp [Player.isUsed]
  refine ⟨⟨?_, ?_, rfl, ⟨0, by decide, ?_⟩, List.nodup_nil, ?_, ?_, ?_, ?_⟩, ?_, ?_, ?_⟩
  · rw [prices, hsum _ fun c => by simp]
    rfl
  · rw [prices, hsum _ fun c => by simp]
    rfl
  · rw [majorEchoes, hsum _ fun c => by simp [tierEchoes]]
    rfl
  · intro r
    refine iff_of_false List.not_mem_nil ?_
    rintro ⟨-, m, -, hpos, -⟩
    exact Nat.lt_irrefl 0 hpos
  · intro c _
    rw [hused]
    simp [Player.parseRacebyCharm]
  · intro c _ hu
    rw [hused] at hu
    cases hu
  · intro r m _ c _ c' _ hu
    rw [hused] at hu
    cases hu
  · exact fun c _ => Nat.zero_le 3
  · exact fun c _ _ => rfl
  · intro i hi
    simp at hi

theorem step_good (h : Good env p) {op : Op} (hfits : Fits env p op) : Good env (step env p op) := by
  cases op with
  | addBestiaryKill raceid amount => exact kill_good h hfits.1 hfits.2
  | sendBuyCharmRune call =>
    rw [step, sendBuyCharmRune]
    split
    · split_ifs
      · exact resetAll_good h call
      · exact h
    · rename_i charm hcharm
      have hc := mem_of_getBestiaryCharm hcharm
      split_ifs with h0 h1 hmay h2 hpaid h3 hpaid
      · exact buyTier_good h hc
      · obtain ⟨hrace, htier⟩ := hfits h1 charm hcharm hmay
        exact setCharmRuneCreature_good h hc hmay hrace htier
      · exact h
      · exact resetCharmRuneCreature_good h hc
      · exact h
      · exact resetAll_good h call
      · exact h
      · exact h

/-- An assignment that goes through keeps to the limit. -/
theorem Good.consistent (h : Good env p) : Consistent env p := by
  refine ⟨h.toAgrees, fun call hcall => ?_⟩
  rw [sendBuyCharmRune]
  split
  · rw [if_neg (by rw [hcall]; exact fun hn => absurd hn.1 (by decide))]
    exact .inl rfl
  · rename_i charm hcharm
    rw [if_neg (by rw [hcall]; decide), if_pos hcall]
    split_ifs with hmay
    · obtain ⟨hlimit, -⟩ := mayAssign_spec h hmay
      have hbits (i : Nat) : (setCharmRuneCreature p charm call.raceId).UsedRunesBit.getLsbD i =
          (p.UsedRunesBit.getLsbD i || decide (i = charm.id.val)) := bitToggle_true_getLsbD _ _ _
      have hmsb : (setCharmRuneCreature p charm call.raceId).UsedRunesBit.msb = false := by
        have := h.msb
        rw [BitVec.msb_eq_getLsbD_last] at this ⊢
        rw [hbits, this]
        simp
        omega
      refine .inr ((length_used_le (c := charm) h.msb hmsb fun i hi => ?_).trans hlimit)
      rw [hbits, Bool.or_eq_true, decide_eq_true_eq] at hi
      exact hi
    · exact .inl rfl

/-- After every run from a new player whose steps fit, points, bits, races and limits agree. -/
theorem consistent_of_fits (env : Env) {ops : List Op} (h : Meets (step env) (Fits env) {} ops) :
    Consistent env (run (step env) {} ops) :=
  (run_invariant (Good env) (fun _ _ hg hf => step_good hg hf) (good_start env) h).consistent

/-- One major charm and one creature. -/
def sampleEnv : Env where
  charmList := [⟨0, .CHARM_MAJOR, [1, 1, 1], rfl⟩]
  getMonsterTypeByRaceId raceId := if raceId = 7 then some ⟨1, 2, 3, 5, by decide, by decide⟩ else none
  nodup := by simp

def sampleCall (action : UInt8) : Op := .sendBuyCharmRune ⟨action, 0, 7, false, false, true, false⟩

/-- Kills, a tier and an assignment, all charms back, and a tier again. -/
theorem consistent_of_fits_sample :
    Consistent sampleEnv (run (step sampleEnv) {} [.addBestiaryKill 7 3, sampleCall 0, sampleCall 1, sampleCall 3,
      sampleCall 0]) := by
  refine consistent_of_fits sampleEnv ⟨⟨by decide, by decide⟩, nofun, fun _ charm hcharm _ => ?_, nofun, nofun, trivial⟩
  cases hcharm
  exact ⟨by decide, by decide⟩

/-- A charm that nobody unlocked is set, and a count that turned negative grants the points again. -/
theorem locked_charm_set :
    ¬Consistent sampleEnv (run (step sampleEnv) {} [.addBestiaryKill 7 3, sampleCall 1]) ∧
      ¬Consistent sampleEnv (run (step sampleEnv) {} [.addBestiaryKill 7 2147483648, .addBestiaryKill 7 3]) := by
  refine ⟨fun h => ?_, fun h => ?_⟩
  · have := h.unlocked ⟨0, .CHARM_MAJOR, [1, 1, 1], rfl⟩ List.mem_cons_self (by decide)
    exact absurd this (by decide)
  · exact absurd h.once (by decide)

end CrystalServer.Bestiary
