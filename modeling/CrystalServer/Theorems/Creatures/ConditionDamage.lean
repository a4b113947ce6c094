import CrystalServer.Creatures.Combat.ConditionDamage

/-! # The ticks of a damage over time

The ticks fall from the start value to 1, and each value is emitted at least once. So the sum is the damage that was drawn as
long as one tick of each value is not more than that. -/

namespace CrystalServer.ConditionDamage

variable {i med sum amount start : Int} {fuel : Nat} {list : List Int}

/-! ### One value -/

/-- Another tick comes nearer to the median while its middle is below. -/
theorem nearer_iff (hi : 0 < i) (hmed : 0 < med) :
    |1 - ((sum : Rat) + i) / med| < |1 - (sum : Rat) / med| ↔ 2 * sum + i < 2 * med := by
  have hm : (0 : Rat) < med := by exact_mod_cast hmed
  have hscale : ∀ x : Rat, |1 - x / med| = |med - x| / med := by
    intro x
    rw [← abs_of_pos hm, ← abs_div, abs_of_pos hm, sub_div, div_self hm.ne']
  rw [hscale, hscale, div_lt_div_iff_of_pos_right hm, ← sq_lt_sq]
  have hcast : (2 * (sum : Rat) + i < 2 * med) ↔ 2 * sum + i < 2 * med := by exact_mod_cast Iff.rfl
  have hip : (0 : Rat) < i := by exact_mod_cast hi
  rw [← hcast]
  constructor <;> intro h <;> nlinarith

/-- A value is emitted once, and again until the median is reached. -/
theorem emit_eq (sum : Int) (list : List Int) (hi : 0 < i) (hmed : 0 < med) (hfuel : (med - sum).toNat < fuel) :
    ∃ k : Nat, emit i med fuel sum list = some (sum + (k + 1) * i, list ++ List.replicate (k + 1) i) ∧
      2 * med ≤ 2 * (sum + (k + 1) * i) + i ∧ (0 < k → 2 * (sum + (k + 1) * i) < 2 * med + i) := by
  induction fuel generalizing sum list with
  | zero => exact absurd hfuel (Nat.not_lt_zero _)
  | succ fuel ih =>
    rw [emit]
    have hnear : (|1 - (((sum + i : Int) : Rat) + i) / med| < |1 - ((sum + i : Int) : Rat) / med|) ↔
        2 * (sum + i) + i < 2 * med := nearer_iff hi hmed
    by_cases h : 2 * (sum + i) + i < 2 * med
    · rw [if_pos (by exact_mod_cast hnear.mpr h)]
      obtain ⟨k, heq, hreach, hover⟩ := ih (sum + i) (list ++ [i]) (by omega)
      refine ⟨k + 1, ?_, ?_, fun _ => ?_⟩
      · rw [heq, List.append_assoc, List.singleton_append, ← List.replicate_succ]
        congr 2
        push_cast
        ring
      · push_cast at hreach ⊢
        linarith
      · rcases k.eq_zero_or_pos with rfl | hk
        · push_cast
          linarith
        · have := hover hk
          push_cast at this ⊢
          linarith
    · rw [if_neg (by exact_mod_cast fun hlt => h (hnear.mp hlt))]
      refine ⟨0, by simp, ?_, fun hk => absurd hk (Nat.lt_irrefl 0)⟩
      push_cast
      linarith

/-! ### All values -/

/-- When the value `i` is to come: the ticks so far are greater, and fall from the start value. -/
structure Falling (start i sum : Int) (list : List Int) : Prop where
  sum_eq : list.sum = sum
  pairwise : list.Pairwise (· ≥ ·)
  above : ∀ v ∈ list, i < v
  le_start : ∀ v ∈ list, v ≤ start

theorem Falling.emit {i : Int} (h : Falling start i sum list) (hi : i ≤ start) (k : Nat) :
    Falling start (i - 1) (sum + (k + 1) * i) (list ++ List.replicate (k + 1) i) where
  sum_eq := by
    rw [List.sum_append, h.sum_eq, List.sum_replicate]
    simp
  pairwise := by
    refine List.pairwise_append.mpr ⟨h.pairwise, List.pairwise_replicate.mpr (.inr le_rfl), fun v hv w hw => ?_⟩
    rw [List.eq_of_mem_replicate hw]
    exact (h.above v hv).le
  above v hv := by
    rcases List.mem_append.mp hv with hv | hv
    · have := h.above v hv
      omega
    · rw [List.eq_of_mem_replicate hv]
      omega
  le_start v hv := by
    rcases List.mem_append.mp hv with hv | hv
    · exact h.le_start v hv
    · rw [List.eq_of_mem_replicate hv]
      exact hi

/-- The median of the value `i + 1`. -/
theorem median_bounds {i : Nat} (hi : i < start) (ha : start ≤ amount) :
    let med := ((start + 1 - (i + 1 : Nat)) * amount).tdiv start
    0 < med ∧ med ≤ amount ∧ med * start ≤ (start - i) * amount ∧ (i = 0 → med = amount) := by
  have hstart : 0 < start := by omega
  have hn : start + 1 - ((i + 1 : Nat) : Int) = start - i := by
    push_cast
    ring
  have hpos : start ≤ (start - i) * amount := by nlinarith
  dsimp only
  rw [hn, Int.tdiv_eq_ediv_of_nonneg (by omega)]
  have hle := Int.ediv_mul_le ((start - i) * amount) hstart.ne'
  refine ⟨(Int.le_ediv_iff_mul_le hstart).mpr (by linarith), le_of_mul_le_mul_right ?_ hstart, hle, fun h0 => ?_⟩
  · nlinarith
  rw [h0, Nat.cast_zero, sub_zero, Int.mul_ediv_cancel_left _ hstart.ne']

/-- If the values fit once each, a value that is emitted more often leaves room for the rest. -/
theorem room_of_extra {i : Nat} {med s : Int} (hi : i < start) (hfit : start * (start + 1) ≤ 2 * amount)
    (hmed : med * start ≤ (start - i) * amount) (hover : 2 * s < 2 * med + (i + 1)) : 2 * s + i * (i + 1) ≤ 2 * amount := by
  have hstart : 0 < start := by omega
  have hgap : i * (start + 1) ≤ 2 * (amount - med) := by
    refine le_of_mul_le_mul_right ?_ hstart
    calc i * (start + 1) * start = i * (start * (start + 1)) := by ring
      _ ≤ i * (2 * amount) := by gcongr
      _ ≤ 2 * (amount - med) * start := by linarith
  have hnext : (i : Int) * (i + 2) ≤ i * (start + 1) := mul_le_mul_of_nonneg_left (by omega) (by positivity)
  have hsplit : (i : Int) * (i + 2) = i * (i + 1) + i := by ring
  omega

/-- What the `for` loop makes of the ticks so far. The sum and one tick of each value that is left are never less than before,
    and not more than the amount if they were not at first. -/
theorem values_eq (fuel : Nat) (sum : Int) (list : List Int) (ha : start ≤ amount) (hfuel : amount.toNat < fuel) {i : Nat} (hi : i ≤ start) (hsum : 0 ≤ sum)
    (hfall : Falling start i sum list) (hleast : start * (start + 1) ≤ 2 * sum + i * (i + 1))
    (hroom : start * (start + 1) ≤ 2 * amount → 2 * sum + i * (i + 1) ≤ 2 * amount) :
    ∃ list', values amount start fuel i sum list = some list' ∧ Falling start 0 list'.sum list' ∧
      start * (start + 1) ≤ 2 * list'.sum ∧ (start * (start + 1) ≤ 2 * amount → list'.sum ≤ amount) ∧
      (0 < i → list'.getLast? = some 1 ∧ amount ≤ list'.sum) := by
  induction i generalizing sum list with
  | zero =>
    simp only [Nat.cast_zero, zero_mul, add_zero] at hleast hroom hfall
    refine ⟨list, rfl, ?_, ?_, fun h => ?_, fun h => absurd h (Nat.lt_irrefl 0)⟩
    · rw [hfall.sum_eq]
      exact hfall
    · rw [hfall.sum_eq]
      exact hleast
    · rw [hfall.sum_eq]
      exact le_of_mul_le_mul_left (hroom h) (by decide)
  | succ i ih =>
    rw [values]
    obtain ⟨hpos, hle, hmed, hlast⟩ := median_bounds (i := i) (by omega) ha
    generalize ((start + 1 - (i + 1 : Nat)) * amount).tdiv start = med at hpos hle hmed hlast
    obtain ⟨k, heq, hreach, hover⟩ := emit_eq (i := (i + 1 : Nat)) sum list (by omega) hpos
      (show (med - sum).toNat < fuel by omega)
    have hnext := hfall.emit hi k
    have hpred : ((i + 1 : Nat) : Int) - 1 = i := by omega
    rw [hpred] at hnext
    have hextra : 0 ≤ (k : Int) * (i + 1) := by positivity
    push_cast at hleast hroom hreach hover hnext
    obtain ⟨list', hvalues, hfall', hleast', hroom', hends⟩ := ih (sum + (k + 1) * (i + 1)) _ (by omega) (by nlinarith)
      hnext (by nlinarith) fun hfit => by
        rcases k.eq_zero_or_pos with rfl | hk
        · have := hroom hfit
          push_cast
          nlinarith
        · exact room_of_extra (by omega) hfit hmed (hover hk)
    refine ⟨list', ?_, hfall', hleast', hroom', fun _ => ?_⟩
    · rw [heq, Option.bind_some]
      push_cast
      exact hvalues
    · rcases i.eq_zero_or_pos with rfl | hi'
      · cases hvalues
        have hmedian := hlast rfl
        have hsum' := hnext.sum_eq
        push_cast at hreach hsum' ⊢
        refine ⟨?_, ?_⟩
        · simp [List.replicate_succ']
        · simp at hsum' hreach ⊢
          omega
      · exact hends hi'

/-! ### More fuel -/

theorem emit_mono {r : Int × List Int} {fuel' : Nat} (hle : fuel ≤ fuel') (h : emit i med fuel sum list = some r) :
    emit i med fuel' sum list = some r := by
  induction fuel generalizing sum list fuel' with
  | zero => cases h
  | succ fuel ih =>
    obtain ⟨fuel', rfl⟩ := Nat.exists_eq_add_of_le' (Nat.lt_of_lt_of_le (Nat.succ_pos fuel) hle)
    rw [emit] at h ⊢
    split_ifs at h ⊢ with hnear
    · exact ih (Nat.le_of_succ_le_succ hle) h
    · exact h

theorem values_mono {list' : List Int} {i fuel' : Nat} (hle : fuel ≤ fuel')
    (h : values amount start fuel i sum list = some list') : values amount start fuel' i sum list = some list' := by
  induction i generalizing sum list with
  | zero => exact h
  | succ i ih =>
    rw [values] at h ⊢
    obtain ⟨s, hs, hrest⟩ := Option.bind_eq_some_iff.mp h
    rw [emit_mono hle hs, Option.bind_some]
    exact ih hrest

/-- What the ticks of an amount from a start value are, and when they make up the amount. -/
theorem generateDamageList_eq (hstart : 0 < start) (ha : start ≤ amount) :
    ∃ list, (∀ fuel, amount.toNat < fuel → generateDamageList fuel amount start [] = some list) ∧
      list.Pairwise (· ≥ ·) ∧ (∀ v ∈ list, 0 < v ∧ v ≤ start) ∧ list.getLast? = some 1 ∧
      (list.sum = amount ↔ start * (start + 1) ≤ 2 * amount) := by
  have hnat : (start.toNat : Int) = start := Int.toNat_of_nonneg hstart.le
  obtain ⟨list, hvalues, hfall, hleast, hroom, hends⟩ := values_eq (i := start.toNat) (amount.toNat + 1) 0 [] ha
    (Nat.lt_succ_self _) hnat.le le_rfl ⟨rfl, List.Pairwise.nil, nofun, nofun⟩ (by rw [hnat]; linarith)
    fun h => by rw [hnat]; linarith
  obtain ⟨hlast, hreach⟩ := hends (by omega)
  refine ⟨list, fun fuel hfuel => ?_, hfall.pairwise, fun v hv => ⟨hfall.above v hv, hfall.le_start v hv⟩, hlast, ?_⟩
  · unfold generateDamageList
    rw [abs_of_pos (by omega)]
    exact values_mono hfuel hvalues
  · constructor
    · intro h
      rwa [h] at hleast
    · intro h
      exact le_antisymm (hroom h) hreach

/-! ### The start value of `init` -/

/-- The start values for which one tick of each value is not more than the amount. -/
theorem start_fits_iff {start amount : Int} (hlow : 20 * (start - 1) < amount) (hhigh : amount ≤ 20 * start)
    (hstart : 0 < start) : start * (start + 1) ≤ 2 * amount ↔ amount ≤ 760 ∨ amount = 780 := by
  constructor
  · intro h
    by_contra hnot
    rcases (show 39 ≤ start by omega).eq_or_lt with rfl | h40
    · omega
    · nlinarith
  · rintro (h | rfl)
    · have h38 : start ≤ 38 := by omega
      nlinarith
    · have h39 : start = 39 := by omega
      subst h39
      decide

variable {c : ConditionDamage} {OTSYS_TIME : Int64} {drawn : Int32}

theorem initStart_bounds (hstart : c.startDamage = 0) (hmax : 0 < c.maxDamage) (hdrawn : 0 < drawn) :
    0 < (c.initStart drawn).toInt ∧ 20 * ((c.initStart drawn).toInt - 1) < drawn.toInt ∧
      drawn.toInt ≤ 20 * (c.initStart drawn).toInt := by
  have hpos : 0 < drawn.toInt := Int32.lt_iff_toInt_lt.mp hdrawn
  have hlt := drawn.toInt_lt
  have hceil : ∀ n : Int, ⌈(drawn.toInt : Rat) / 20⌉ ≤ n ↔ drawn.toInt ≤ 20 * n := by
    intro n
    rw [Int.ceil_le, div_le_iff₀ (by norm_num)]
    constructor
    · intro h
      have : drawn.toInt ≤ n * 20 := by exact_mod_cast h
      omega
    · intro h
      have : drawn.toInt ≤ n * 20 := by omega
      exact_mod_cast this
  have hbelow := hceil (⌈(drawn.toInt : Rat) / 20⌉ - 1)
  have habove := (hceil _).mp le_rfl
  have hroom := (hceil drawn.toInt).mpr (by omega)
  unfold initStart
  rw [if_neg (by rw [hstart]; exact fun h => absurd (Int32.lt_trans h hmax) (Int32.lt_irrefl)), if_pos hstart]
  generalize ⌈(drawn.toInt : Rat) / 20⌉ = s at hbelow habove hroom
  have hs : (Int32.ofInt s).toInt = s := Int32.toInt_ofInt_of_le (by omega) (by omega)
  have hmax1 : max 1 (Int32.ofInt s) = Int32.ofInt s := by
    have hle : 1 ≤ Int32.ofInt s := by
      rw [Int32.le_iff_toInt_le, hs]
      show 1 ≤ s
      omega
    exact if_pos hle
  rw [hmax1, hs]
  omega

/-- The ticks of a condition as the damage that they deal. -/
def ticksDealt (c : ConditionDamage) : List Int := c.damageList.map fun info => -info.value.toInt

theorem damageList_addDamage (OTSYS_TIME : Int64) (h : c.periodDamage = 0) (value : Int32) :
    (c.addDamage OTSYS_TIME 1 c.tickInterval value).2.damageList =
        c.damageList ++ [⟨max c.tickInterval 1000, value, max c.tickInterval 1000⟩] ∧
      (c.addDamage OTSYS_TIME 1 c.tickInterval value).2.periodDamage = 0 := by
  have hone : (List.range (1 : Int32).toInt.toNat) = [0] := by decide
  unfold addDamage
  dsimp only
  rw [if_neg (by decide), if_neg (by rw [h]; decide), hone]
  show (c.addInfo _ _ _).damageList = _ ∧ (c.addInfo _ _ _).periodDamage = 0
  unfold addInfo
  dsimp only
  split_ifs <;> exact ⟨rfl, h⟩

/-- The list of ticks becomes the ticks of the condition. -/
theorem ticksDealt_foldl (OTSYS_TIME : Int64) (c : ConditionDamage) {list : List Int} (h : c.periodDamage = 0) (hlist : ∀ v ∈ list, 0 < v ∧ v < 2 ^ 31) :
    (list.foldl (fun c value => (c.addDamage OTSYS_TIME 1 c.tickInterval (.ofInt (-value))).2) c).ticksDealt =
      c.ticksDealt ++ list := by
  induction list generalizing c with
  | nil => simp
  | cons v list ih =>
    obtain ⟨hadd, hperiod⟩ := damageList_addDamage OTSYS_TIME h (.ofInt (-v))
    obtain ⟨hv, hv'⟩ := hlist v List.mem_cons_self
    have hvalue : (Int32.ofInt (-v)).toInt = -v := Int32.toInt_ofInt_of_le (by omega) (by omega)
    rw [List.foldl_cons, ih _ hperiod fun w hw => hlist w (List.mem_cons_of_mem _ hw)]
    unfold ticksDealt
    rw [hadd, List.map_append, List.append_assoc]
    simp only [List.map_cons, List.map_nil, hvalue, neg_neg, List.singleton_append]

/-- `init` comes to an end, and the condition deals falling positive ticks down to 1 that make up what was drawn. -/
def Deals (c : ConditionDamage) (OTSYS_TIME : Int64) (drawn : Int32) : Prop :=
  ∃ c', (∃ least, ∀ fuel, least ≤ fuel → c.init OTSYS_TIME fuel drawn = some (true, c')) ∧
    c'.ticksDealt.Pairwise (· ≥ ·) ∧ (∀ v ∈ c'.ticksDealt, 0 < v) ∧ c'.ticksDealt.getLast? = some 1 ∧
    c'.ticksDealt.sum = drawn.toInt

theorem init_eq (c : ConditionDamage) (OTSYS_TIME : Int64) (drawn : Int32) (hperiod : c.periodDamage = 0) (hlist : c.damageList = []) (hstart : c.startDamage = 0)
    (hpos : 0 < drawn) (hhigh : drawn ≤ c.maxDamage) :
    ∃ c', (∀ fuel, drawn.toInt.toNat < fuel → c.init OTSYS_TIME fuel drawn = some (true, c')) ∧
      c'.ticksDealt.Pairwise (· ≥ ·) ∧ (∀ v ∈ c'.ticksDealt, 0 < v) ∧ c'.ticksDealt.getLast? = some 1 ∧
      (c'.ticksDealt.sum = drawn.toInt ↔ drawn.toInt ≤ 760 ∨ drawn.toInt = 780) := by
  obtain ⟨hs, hbelow, habove⟩ := initStart_bounds hstart (Int32.lt_of_lt_of_le hpos hhigh) hpos
  obtain ⟨list, hvalues, hfall, hticks, hlast, hsum⟩ := generateDamageList_eq hs
    (show (c.initStart drawn).toInt ≤ drawn.toInt by omega)
  have hlt := (c.initStart drawn).toInt_lt
  obtain ⟨c', hinit, rfl⟩ : ∃ c', (∀ fuel, drawn.toInt.toNat < fuel → c.init OTSYS_TIME fuel drawn = some (true, c')) ∧
      c'.ticksDealt = list := by
    have hfold := ticksDealt_foldl OTSYS_TIME
      { c with toCondition := c.setTicks OTSYS_TIME 0, startDamage := c.initStart drawn } hperiod
      fun v hv => ⟨(hticks v hv).1, (hticks v hv).2.trans_lt hlt⟩
    have hnone : ∀ t s, ticksDealt { c with toCondition := t, startDamage := s } = [] := fun t s => by
      unfold ticksDealt
      rw [hlist, List.map_nil]
    rw [hnone, List.nil_append] at hfold
    refine ⟨_, fun fuel hfuel => ?_, hfold⟩
    have hdrawn0 : drawn ≠ 0 := by
      rintro rfl
      exact Int32.lt_irrefl hpos
    unfold init
    rw [if_neg (not_not.mpr hperiod), if_neg (not_not.mpr hlist)]
    dsimp only
    rw [if_neg hdrawn0, show ∀ t, initStart { c with toCondition := t } drawn = c.initStart drawn from fun _ => rfl,
      hvalues fuel hfuel, Option.map_some]
    have hdamage : ∀ d : ConditionDamage, d.ticksDealt = list → d.damageList ≠ [] := by
      intro d hd hnil
      rw [← hd, ticksDealt, hnil, List.map_nil] at hlast
      cases hlast
    rw [decide_eq_true (hdamage _ hfold)]
  exact ⟨c', hinit, hfall, fun v hv => (hticks v hv).1, hlast, hsum.trans (start_fits_iff hbelow habove hs)⟩

theorem init_unique {c₁ c₂ : ConditionDamage} {n : Nat}
    (h₁ : ∀ fuel, n < fuel → c.init OTSYS_TIME fuel drawn = some (true, c₁))
    (h₂ : ∃ least, ∀ fuel, least ≤ fuel → c.init OTSYS_TIME fuel drawn = some (true, c₂)) : c₂ = c₁ := by
  obtain ⟨least, h₂⟩ := h₂
  have heq := h₂ (max least (n + 1)) (le_max_left ..)
  rw [h₁ _ (lt_of_lt_of_le (Nat.lt_succ_self _) (le_max_right ..))] at heq
  exact (Prod.mk.inj (Option.some.inj heq)).2.symm

/-- A damage over time deals the damage that was drawn for it exactly for the amounts up to 760 and for 780. -/
theorem init_deals_iff (c : ConditionDamage) (OTSYS_TIME : Int64) (drawn : Int32) (hperiod : c.periodDamage = 0)
    (hlist : c.damageList = []) (hstart : c.startDamage = 0) (hmin : 1 ≤ c.minDamage) (hlow : c.minDamage ≤ drawn)
    (hhigh : drawn ≤ c.maxDamage) : Deals c OTSYS_TIME drawn ↔ drawn.toInt ≤ 760 ∨ drawn.toInt = 780 := by
  have hpos : 0 < drawn := Int32.lt_of_lt_of_le (by decide) (Int32.le_trans hmin hlow)
  obtain ⟨c', hinit, hfall, hticks, hlast, hsum⟩ := init_eq c OTSYS_TIME drawn hperiod hlist hstart hpos hhigh
  rw [← hsum]
  constructor
  · rintro ⟨c'', h, -, -, -, hsum'⟩
    rwa [← init_unique hinit h]
  · intro hsum'
    exact ⟨c', ⟨_, hinit⟩, hfall, hticks, hlast, hsum'⟩

/-- A poison of the given bounds. -/
def poison (minDamage maxDamage : Int32) : ConditionDamage :=
  ⟨.make 0 .POISON 0 false 0 false, maxDamage, minDamage, 0, 0, 0, 2000, false, false, false, 0, []⟩

theorem init_deals_poison : Deals (poison 20 70) 0 50 ↔ (50 : Int32).toInt ≤ 760 ∨ (50 : Int32).toInt = 780 :=
  init_deals_iff (poison 20 70) 0 50 rfl rfl rfl (by decide) (by decide) (by decide)

/-- A damage of 1200 is dealt in ticks from 60 down to 1, which make 1830. -/
theorem not_init_deals : ¬∀ (c : ConditionDamage) (OTSYS_TIME : Int64) (drawn : Int32), c.periodDamage = 0 →
    c.damageList = [] → c.startDamage = 0 → 1 ≤ c.minDamage → c.minDamage ≤ drawn → drawn ≤ c.maxDamage →
    Deals c OTSYS_TIME drawn := by
  intro h
  obtain ⟨c₂, h₂, -, -, -, hsum⟩ := h (poison 1200 1200) 0 1200 rfl rfl rfl (by decide) (by decide) (by decide)
  obtain ⟨c₁, h₁, -, -, -, hsum_iff⟩ := init_eq (poison 1200 1200) 0 1200 rfl rfl rfl (by decide) (by decide)
  rw [init_unique h₁ h₂] at hsum
  exact absurd (hsum_iff.mp hsum) (by decide)

end CrystalServer.ConditionDamage
