import CrystalServer.Creatures.DamageShares
import CrystalServer.Lib.Run
import CrystalServer.Lib.SumBy
import Mathlib.Algebra.BigOperators.Ring.Finset
import Mathlib.Algebra.Order.BigOperators.Group.List
import Mathlib.Data.Rat.BigOperators

/-! # Shares of the damage

The shares are a partition of the prize just where the totals of the attackers together are counted in 32 bits. -/

namespace CrystalServer.DamageShares
open Lib
variable {c : Creature} {hits : List Hit} {id : UInt32}

instance instIsStrictTotalOrderUInt32 : IsStrictTotalOrder UInt32 (· < ·) where
  trichotomous _ _ hab hba := UInt32.le_antisymm (UInt32.not_lt.mp hba) (UInt32.not_lt.mp hab)
  irrefl := UInt32.lt_irrefl
  trans _ _ _ := UInt32.lt_trans

/-- Each share lies between 0 and 1, together they are 1, and no more is gained than lost. -/
structure Fair (c : Creature) : Prop where
  bounded : ∀ entry ∈ c.damageMap, 0 ≤ getDamageRatio c entry.1 ∧ getDamageRatio c entry.1 ≤ 1
  whole : c.damageMap ≠ [] → (c.damageMap.map fun entry => getDamageRatio c entry.1).sum = 1
  gained : ∀ lost, (c.damageMap.map fun entry => (getGainedExperience c lost entry.1).toNat).sum ≤ lost.toNat
  gainedOfPlayer : ∀ counts lost,
    (c.damageMap.map fun entry => (getGainedExperienceOfPlayer c counts lost entry.1).toNat).sum ≤ lost.toNat

/-- The damage that an attacker has done. -/
def damageOf (hits : List Hit) (id : UInt32) : Nat :=
  ((hits.filter fun hit => hit.attackerId = id).map fun hit => hit.damagePoints.toInt.toNat).sum

/-- What 32 bits hold of the damage of each attacker, together. -/
def countedDamage (hits : List Hit) : Nat :=
  ((hits.map Hit.attackerId).toFinset.erase 0).sum fun id => damageOf hits id % 2 ^ 32

/-! ### The totals -/

/-- The map has an entry for each attacker that has done damage, with what 32 bits hold of it. -/
structure Counts (hits : List Hit) (c : Creature) : Prop where
  sorted : SortedMap.Sorted c.damageMap
  total : ∀ entry ∈ c.damageMap, entry.2.total.toUInt32.toNat = damageOf hits entry.1 % 2 ^ 32
  mem : ∀ id, id ∈ c.damageMap.map Prod.fst ↔ ∃ hit ∈ hits, hit.attackerId = id ∧ 0 < hit.damagePoints

theorem Counts.nodup (h : Counts hits c) : (c.damageMap.map Prod.fst).Nodup := by
  refine (List.pairwise_map.mpr h.sorted).imp fun {a b} hab heq => ?_
  exact UInt32.lt_irrefl b (heq ▸ hab)

theorem damageOf_concat (hits : List Hit) (hit : Hit) (id : UInt32) :
    damageOf (hits ++ [hit]) id = damageOf hits id + if hit.attackerId = id then hit.damagePoints.toInt.toNat else 0 := by
  unfold damageOf
  rw [List.filter_append, List.map_append, List.sum_append]
  split_ifs with h <;> simp [h]

theorem damageOf_eq_zero (h : ¬∃ hit ∈ hits, hit.attackerId = id ∧ 0 < hit.damagePoints) : damageOf hits id = 0 := by
  refine List.sum_eq_zero fun n hn => ?_
  obtain ⟨hit, hhit, rfl⟩ := List.mem_map.mp hn
  obtain ⟨hmem, hid⟩ := List.mem_filter.mp hhit
  refine Int.toNat_eq_zero.mpr (not_lt.mp fun hpos => h ⟨hit, hmem, by simpa using hid, Int32.lt_iff_toInt_lt.mpr hpos⟩)

theorem toNat_toUInt32_of_nonneg {x : Int32} (h : 0 ≤ x.toInt) : x.toUInt32.toNat = x.toInt.toNat := by
  have hnat : x.toUInt32.toNat = x.toBitVec.toNat := rfl
  have hint : x.toInt = x.toBitVec.toInt := rfl
  have hlt := x.toBitVec.isLt
  rw [BitVec.toInt_eq_toNat_cond] at hint
  split_ifs at hint <;> omega

/-- The block that a hit writes. -/
theorem toNat_total (h : Counts hits c) {hit : Hit} (hpos : 0 ≤ hit.damagePoints.toInt) {block : CountBlock}
    (hblock : block.total = ((c.damageMap.lookup hit.attackerId).elim 0 CountBlock.total) + hit.damagePoints) :
    block.total.toUInt32.toNat = damageOf (hits ++ [hit]) hit.attackerId % 2 ^ 32 := by
  have hadd (x y : Int32) : (x + y).toUInt32.toNat = (x.toUInt32.toNat + y.toUInt32.toNat) % 2 ^ 32 :=
    UInt32.toNat_add x.toUInt32 y.toUInt32
  rw [hblock, hadd, toNat_toUInt32_of_nonneg hpos, damageOf_concat, if_pos rfl]
  cases hlookup : c.damageMap.lookup hit.attackerId with
  | none =>
    have hnot : hit.attackerId ∉ c.damageMap.map Prod.fst := by
      intro hmem
      obtain ⟨entry, he, heq⟩ := List.mem_map.mp hmem
      simpa [heq] using List.lookup_eq_none_iff.mp hlookup entry he
    rw [damageOf_eq_zero (mt (h.mem _).mpr hnot)]
    rfl
  | some old =>
    obtain ⟨l, r, hsplit, -, -⟩ := SortedMap.split_of_lookup h.sorted hlookup
    have hold := h.total (hit.attackerId, old) (by rw [hsplit]; simp)
    rw [Option.elim_some, hold, Nat.mod_add_mod]

theorem counts_step (h : Counts hits c) (hit : Hit) : Counts (hits ++ [hit]) (addDamagePoints c hit) := by
  by_cases hpos : hit.damagePoints ≤ 0
  · have hzero : hit.damagePoints.toInt.toNat = 0 := Int.toNat_eq_zero.mpr (Int32.le_iff_toInt_le.mp hpos)
    have hsame : addDamagePoints c hit = c := if_pos hpos
    rw [hsame]
    refine ⟨h.sorted, fun entry he => ?_, fun id => ?_⟩
    · rw [damageOf_concat, hzero, ite_self, Nat.add_zero]
      exact h.total entry he
    · rw [h.mem]
      simp [Int32.not_lt.mpr hpos]
  · have hlt := Int32.not_le.mp hpos
    obtain ⟨block, hmap, hblock⟩ : ∃ block, (addDamagePoints c hit).damageMap =
        SortedMap.insert hit.attackerId block c.damageMap ∧
        block.total = ((c.damageMap.lookup hit.attackerId).elim 0 CountBlock.total) + hit.damagePoints := by
      unfold addDamagePoints
      rw [if_neg hpos]
      refine ⟨_, rfl, ?_⟩
      cases c.damageMap.lookup hit.attackerId with
      | none => exact (Int32.zero_add _).symm
      | some old => rfl
    refine ⟨?_, fun entry he => ?_, fun id => ?_⟩
    · rw [hmap]
      exact h.sorted.insert ..
    · rw [hmap] at he
      rcases (SortedMap.mem_insert_iff h.sorted).mp he with rfl | ⟨he, hne⟩
      · exact toNat_total h (Int32.lt_iff_toInt_lt.mp hlt).le hblock
      · rw [damageOf_concat, if_neg hne.symm, Nat.add_zero]
        exact h.total entry he
    · rw [hmap]
      have hkeys : id ∈ (SortedMap.insert hit.attackerId block c.damageMap).map Prod.fst ↔
          id = hit.attackerId ∨ id ∈ c.damageMap.map Prod.fst := by
        simp only [List.mem_map, SortedMap.mem_insert_iff h.sorted]
        constructor
        · rintro ⟨entry, rfl | ⟨he, -⟩, rfl⟩
          · exact .inl rfl
          · exact .inr ⟨entry, he, rfl⟩
        · rintro (rfl | ⟨entry, he, rfl⟩)
          · exact ⟨_, .inl rfl, rfl⟩
          · by_cases heq : entry.1 = hit.attackerId
            · exact ⟨_, .inl rfl, heq.symm⟩
            · exact ⟨entry, .inr ⟨he, heq⟩, rfl⟩
      rw [hkeys, h.mem]
      constructor
      · rintro (rfl | ⟨other, ho, heq, hlt'⟩)
        · exact ⟨hit, by simp, rfl, hlt⟩
        · exact ⟨other, by simp [ho], heq, hlt'⟩
      · rintro ⟨other, ho, rfl, hlt'⟩
        rcases List.mem_append.mp ho with ho | ho
        · exact .inr ⟨other, ho, rfl, hlt'⟩
        · exact .inl (congrArg Hit.attackerId (List.mem_singleton.mp ho))

theorem counts_run (hits : List Hit) : Counts hits (run addDamagePoints unharmed hits) := by
  induction hits using List.reverseRecOn with
  | nil => exact ⟨List.Pairwise.nil, fun _ he => absurd he List.not_mem_nil, fun id => by simp [unharmed]⟩
  | append_singleton hits hit ih =>
    rw [run_concat]
    exact counts_step ih hit

/-! ### The shares -/

/-- What the loop counts for an entry. -/
def counted (entry : UInt32 × CountBlock) : Nat := if entry.1 = 0 then 0 else entry.2.total.toUInt32.toNat

theorem countEntry_toNat (attackerId : UInt32) (damage : UInt32 × UInt32) (entry : UInt32 × CountBlock) :
    (countEntry attackerId damage entry).1.toNat = (damage.1.toNat + counted entry) % 2 ^ 32 ∧
      (countEntry attackerId damage entry).2.toNat =
        (damage.2.toNat + if entry.1 = attackerId then counted entry else 0) % 2 ^ 32 := by
  have h₁ := damage.1.toNat_lt
  have h₂ := damage.2.toNat_lt
  unfold countEntry counted
  by_cases hskip : entry.1 = 0 ∨ entry.2.total = 0
  · have hzero : (if entry.1 = 0 then 0 else entry.2.total.toUInt32.toNat) = 0 := by
      rcases hskip with h | h
      · exact if_pos h
      · rw [h]
        exact ite_self 0
    rw [if_pos hskip, hzero, ite_self]
    omega
  · obtain ⟨hid, -⟩ := not_or.mp hskip
    rw [if_neg hskip, if_neg hid]
    dsimp only
    refine ⟨UInt32.toNat_add .., ?_⟩
    split_ifs
    · exact UInt32.toNat_add ..
    · omega

theorem foldl_countEntry (attackerId : UInt32) (m : List (UInt32 × CountBlock)) (damage : UInt32 × UInt32) :
    (m.foldl (countEntry attackerId) damage).1.toNat = (damage.1.toNat + (m.map counted).sum) % 2 ^ 32 ∧
      (m.foldl (countEntry attackerId) damage).2.toNat =
        (damage.2.toNat + (m.map fun entry => if entry.1 = attackerId then counted entry else 0).sum) % 2 ^ 32 := by
  induction m generalizing damage with
  | nil =>
    have h₁ := damage.1.toNat_lt
    have h₂ := damage.2.toNat_lt
    simp only [List.foldl_nil, List.map_nil, List.sum_nil]
    omega
  | cons entry m ih =>
    obtain ⟨h₁, h₂⟩ := countEntry_toNat attackerId damage entry
    obtain ⟨h₃, h₄⟩ := ih (countEntry attackerId damage entry)
    simp only [List.foldl_cons, List.map_cons, List.sum_cons]
    rw [h₃, h₄, h₁, h₂, Nat.mod_add_mod, Nat.mod_add_mod, Nat.add_assoc, Nat.add_assoc]
    exact ⟨rfl, rfl⟩

/-- The share of an attacker with an entry. -/
theorem getDamageRatio_eq (h : Counts hits c) {entry : UInt32 × CountBlock} (he : entry ∈ c.damageMap) :
    getDamageRatio c entry.1 = counted entry / ((c.damageMap.map counted).sum % 2 ^ 32 : ℕ) := by
  obtain ⟨htotal, hown⟩ := foldl_countEntry entry.1 c.damageMap (0, 0)
  have hsum : (c.damageMap.map fun e => if e.1 = entry.1 then counted e else 0).sum = counted entry := by
    rw [← sumBy_key h.nodup he (counted entry), List.sum, List.foldr_map]
    refine sumBy_congr fun e hmem => ?_
    by_cases heq : e.1 = entry.1
    · rw [if_pos heq, if_pos heq.symm, List.inj_on_of_nodup_map h.nodup hmem he heq]
    · rw [if_neg heq, if_neg (Ne.symm heq)]
  have hlt : counted entry < 2 ^ 32 := by
    unfold counted
    split_ifs
    · decide
    · exact UInt32.toNat_lt _
  rw [UInt32.toNat_zero, Nat.zero_add] at htotal hown
  rw [hsum, Nat.mod_eq_of_lt hlt] at hown
  unfold getDamageRatio
  dsimp only
  rw [htotal, hown]
  split_ifs with hzero
  · rw [hzero, UInt32.toNat_zero] at htotal
    rw [← htotal, Nat.cast_zero, div_zero]
  · rfl

theorem sum_ratios (h : Counts hits c) : (c.damageMap.map fun entry => getDamageRatio c entry.1).sum =
    (c.damageMap.map counted).sum / ((c.damageMap.map counted).sum % 2 ^ 32 : ℕ) := by
  rw [List.map_congr_left fun entry he => getDamageRatio_eq h he]
  simp only [div_eq_mul_inv]
  rw [List.sum_map_mul_right, Nat.cast_list_sum, List.map_map]
  rfl

/-- What is gained as a part of the shares is no more than the prize. -/
theorem sum_gained_le {m : List (UInt32 × CountBlock)} {ratio : UInt32 × CountBlock → ℚ}
    {gained : UInt32 × CountBlock → ℕ} {prize : ℕ} (hsum : (m.map ratio).sum ≤ 1)
    (hgained : ∀ entry ∈ m, (gained entry : ℚ) ≤ ratio entry * prize) : (m.map gained).sum ≤ prize := by
  have hle : ((m.map gained).sum : ℚ) ≤ (m.map ratio).sum * prize := by
    rw [← List.sum_map_mul_right, Nat.cast_list_sum, List.map_map]
    exact List.sum_le_sum hgained
  have hprize : (m.map ratio).sum * prize ≤ prize := mul_le_of_le_one_left (Nat.cast_nonneg _) hsum
  exact_mod_cast hle.trans hprize

theorem toNat_ofNat_floor_le {x : ℚ} (h : 0 ≤ x) : ((UInt64.ofNat ⌊x⌋.toNat).toNat : ℚ) ≤ x := by
  have hmod : (UInt64.ofNat ⌊x⌋.toNat).toNat ≤ ⌊x⌋.toNat := by
    rw [UInt64.toNat_ofNat']
    exact Nat.mod_le ..
  have hfloor : ((⌊x⌋.toNat : ℤ) : ℚ) ≤ x := by
    rw [Int.toNat_of_nonneg (Int.floor_nonneg.mpr h)]
    exact Int.floor_le x
  exact (Nat.cast_le.mpr hmod).trans hfloor

/-- The shares are fair just where nothing is counted away. -/
theorem fair_iff (h : Counts hits c) : Fair c ↔
    c.damageMap = [] ∨ 0 < (c.damageMap.map counted).sum ∧ (c.damageMap.map counted).sum < 2 ^ 32 := by
  constructor
  · intro hfair
    by_cases hnil : c.damageMap = []
    · exact .inl hnil
    · have hwhole := hfair.whole hnil
      rw [sum_ratios h] at hwhole
      have hne : (((c.damageMap.map counted).sum % 2 ^ 32 : ℕ) : ℚ) ≠ 0 := by
        intro h0
        rw [h0, div_zero] at hwhole
        exact zero_ne_one hwhole
      rw [div_eq_one_iff_eq hne] at hwhole
      have heq : (c.damageMap.map counted).sum = (c.damageMap.map counted).sum % 2 ^ 32 := Nat.cast_inj.mp hwhole
      have hpos := Nat.pos_of_ne_zero (Nat.cast_ne_zero.mp hne)
      have hlt := Nat.mod_lt (c.damageMap.map counted).sum (y := 2 ^ 32) (by decide)
      omega
  · rintro (hnil | ⟨hpos, hlt⟩)
    · exact ⟨fun entry he => by simp [hnil] at he, fun hne => absurd hnil hne, fun lost => by simp [hnil],
        fun counts lost => by simp [hnil]⟩
    · have hratio (entry) (he : entry ∈ c.damageMap) : getDamageRatio c entry.1 =
          counted entry / ((c.damageMap.map counted).sum : ℕ) := by
        rw [getDamageRatio_eq h he, Nat.mod_eq_of_lt hlt]
      have hq : (0 : ℚ) < (c.damageMap.map counted).sum := Nat.cast_pos.mpr hpos
      have hnonneg (entry) (he : entry ∈ c.damageMap) : 0 ≤ getDamageRatio c entry.1 := by
        rw [hratio entry he]
        positivity
      have hwhole : (c.damageMap.map fun entry => getDamageRatio c entry.1).sum = 1 := by
        rw [sum_ratios h, Nat.mod_eq_of_lt hlt]
        exact div_self hq.ne'
      refine ⟨fun entry he => ⟨hnonneg entry he, ?_⟩, fun _ => hwhole, fun lost => ?_, fun counts lost => ?_⟩
      · rw [hratio entry he, div_le_one hq]
        exact Nat.cast_le.mpr (List.single_le_sum (fun _ _ => Nat.zero_le _) _ (List.mem_map_of_mem he))
      · refine sum_gained_le hwhole.le fun entry he => ?_
        exact toNat_ofNat_floor_le (mul_nonneg (hnonneg entry he) (Nat.cast_nonneg _))
      · refine sum_gained_le hwhole.le fun entry he => ?_
        have hpart := mul_nonneg (hnonneg entry he) (Nat.cast_nonneg lost.toNat)
        unfold getGainedExperienceOfPlayer
        split_ifs
        · refine (toNat_ofNat_floor_le ?_).trans ?_ <;> rw [mul_comm (lost.toNat : ℚ)]
          · exact mul_nonneg hpart (by norm_num)
          · exact mul_le_of_le_one_right hpart (by norm_num)
        · exact hpart

/-- What the loop counts is what 32 bits hold of the damage of each attacker. -/
theorem sum_counted (h : Counts hits c) : (c.damageMap.map counted).sum = countedDamage hits := by
  have hcounted : c.damageMap.map counted =
      (c.damageMap.map Prod.fst).map fun id => if id = 0 then 0 else damageOf hits id % 2 ^ 32 := by
    rw [List.map_map]
    refine List.map_congr_left fun entry he => ?_
    unfold counted
    rw [h.total entry he]
    rfl
  have hzero : (if (0 : UInt32) = 0 then 0 else damageOf hits 0 % 2 ^ 32) = 0 := if_pos rfl
  rw [hcounted, ← List.sum_toFinset _ h.nodup]
  unfold countedDamage
  calc (c.damageMap.map Prod.fst).toFinset.sum (fun id => if id = 0 then 0 else damageOf hits id % 2 ^ 32)
      = (hits.map Hit.attackerId).toFinset.sum fun id => if id = 0 then 0 else damageOf hits id % 2 ^ 32 := by
        refine Finset.sum_subset (fun id hid => ?_) fun id _ hid => ?_
        · obtain ⟨hit, hhit, rfl, -⟩ := (h.mem id).mp (List.mem_toFinset.mp hid)
          exact List.mem_toFinset.mpr (List.mem_map_of_mem hhit)
        · rw [damageOf_eq_zero (mt (h.mem id).mpr (mt List.mem_toFinset.mpr hid)), Nat.zero_mod, ite_self]
    _ = ((hits.map Hit.attackerId).toFinset.erase 0).sum fun id => if id = 0 then 0 else damageOf hits id % 2 ^ 32 :=
        (Finset.sum_erase (f := fun id => if id = 0 then 0 else damageOf hits id % 2 ^ 32) _ hzero).symm
    _ = ((hits.map Hit.attackerId).toFinset.erase 0).sum fun id => damageOf hits id % 2 ^ 32 :=
        Finset.sum_congr rfl fun id hid => if_neg (Finset.ne_of_mem_erase hid)

/-- The shares are fair just where nobody has done any damage, or what 32 bits hold of the damage of each attacker is not zero
    together and fits 32 bits too. -/
theorem fair_run_iff (hits : List Hit) : Fair (run addDamagePoints unharmed hits) ↔
    (∀ hit ∈ hits, hit.damagePoints ≤ 0) ∨ 0 < countedDamage hits ∧ countedDamage hits < 2 ^ 32 := by
  have h := counts_run hits
  have hnil : (run addDamagePoints unharmed hits).damageMap = [] ↔ ∀ hit ∈ hits, hit.damagePoints ≤ 0 := by
    rw [← List.map_eq_nil_iff (f := Prod.fst), List.eq_nil_iff_forall_not_mem]
    simp only [h.mem, not_exists, not_and, Int32.not_lt]
    exact ⟨fun hnot hit hmem => hnot _ hit hmem rfl, fun hle id hit hmem _ => hle hit hmem⟩
  rw [fair_iff h, sum_counted h, hnil]

/-- Three blows, each as hard as can be. -/
def blows : List Hit := [⟨1, 2147483647, 1⟩, ⟨2, 2147483647, 2⟩, ⟨3, 2147483647, 3⟩]

theorem not_fair_blows : (∀ hit ∈ blows, hit.attackerId ≠ 0 ∧ 0 < hit.damagePoints) ∧
    ¬Fair (run addDamagePoints unharmed blows) := by
  refine ⟨by decide, fun h => ?_⟩
  have hle := (h.bounded (1, ⟨2147483647, 1⟩) (by decide +kernel)).2
  revert hle
  decide +kernel

end CrystalServer.DamageShares
