import CrystalServer.Io.Bosstiary
import CrystalServer.Theorems.Io.Bestiary

/-! # Boss points and the grouping of kills

A call of `addBosstiaryKill` gives the points of the level that it ends on. The points are those of all levels reached as
long as no call passes two levels at once, and no count leaves the storage. -/

namespace CrystalServer.Bosstiary
open Lib (run Meets meets_iff_forall_seen)

/-! ### Levels -/

/-- How many levels of a rarity a number of kills reaches. -/
def level (race : BosstiaryRarity) (kills : Nat) : Nat :=
  ((levelInfos race).getD []).countP fun info => info.kills.toNat ≤ kills

/-- The points of these levels. -/
def reachedPoints (race : BosstiaryRarity) (kills : Nat) : Nat :=
  ((((levelInfos race).getD []).filter fun info => info.kills.toNat ≤ kills).map fun info => info.points.toNat).sum

/-- The points of the first levels. -/
def pointsUpTo (race : BosstiaryRarity) (level : Nat) : Nat :=
  ((((levelInfos race).getD []).take level).map fun info => info.points.toNat).sum

/-- What a call adds that comes from one level and ends on another; none where it has no defined result. -/
def gain (race : BosstiaryRarity) (old new : Nat) : Option Nat :=
  if old = new then some 0
  else ((levelInfos race).bind fun infos => infoOfLevel infos (.ofNat new)).map fun info => info.points.toNat

variable {race : BosstiaryRarity}

theorem level_mono {m n : Nat} (h : m ≤ n) : level race m ≤ level race n := by
  unfold level
  apply List.countP_mono_left
  intro info _ hm
  exact decide_eq_true ((of_decide_eq_true hm).trans h)

theorem level_zero : level race 0 = 0 := by
  cases race <;> decide

theorem level_le (n : Nat) : level race n ≤ 3 := by
  have hlen : ((levelInfos race).getD []).length ≤ 3 := by cases race <;> decide
  exact List.countP_le_length.trans hlen

/-- The last level is reached long before the storage is full. -/
theorem level_of_large (hrace : race ≠ .BOSS_INVALID) {n : Nat} (h : 300 ≤ n) : level race n = 3 := by
  have h300 : level race 300 = 3 := by
    cases race with
    | BOSS_INVALID => exact absurd rfl hrace
    | RARITY_BANE | RARITY_ARCHFOE | RARITY_NEMESIS => decide
  have hle := @level_le race n
  have hge : level race 300 ≤ level race n := level_mono h
  omega

theorem reachedPoints_eq (n : Nat) : reachedPoints race n = pointsUpTo race (level race n) := by
  have hsorted : ((levelInfos race).getD []).Pairwise fun a b => a.kills.toNat ≤ b.kills.toNat := by
    cases race <;> decide
  unfold reachedPoints pointsUpTo level
  generalize (levelInfos race).getD [] = infos at hsorted ⊢
  induction infos with
  | nil => rfl
  | cons info infos ih =>
    obtain ⟨hfirst, hrest⟩ := List.pairwise_cons.mp hsorted
    by_cases h : info.kills.toNat ≤ n
    · simp [h, ih hrest]
    · have hnone : ∀ b ∈ infos, ¬b.kills.toNat ≤ n := fun b hb hle => h ((hfirst b hb).trans hle)
      have hfilter : infos.filter (fun b => decide (b.kills.toNat ≤ n)) = [] := by
        simpa using fun b hb => Nat.lt_of_not_le (hnone b hb)
      have hcount : infos.countP (fun b => decide (b.kills.toNat ≤ n)) = 0 := by
        simpa using fun b hb => Nat.lt_of_not_le (hnone b hb)
      simp [h, hfilter, hcount]

theorem pointsUpTo_le (l : Nat) : pointsUpTo race l ≤ 100 := by
  have hsum : (((levelInfos race).getD []).map fun info => info.points.toNat).sum ≤ 100 := by cases race <;> decide
  refine le_trans ?_ hsum
  unfold pointsUpTo
  rw [List.map_take]
  exact List.Sublist.sum_le_sum (List.take_sublist ..) (fun _ _ => Nat.zero_le _)

/-- A call that ends on the level that the kills reach, or on a lower one after a lost count, adds what is due exactly
    when it ends on the level that the kills reach and comes from there or from the one below. -/
theorem gain_eq_iff (hrace : race ≠ .BOSS_INVALID) {old new reached : Nat} (hnew : new ≤ 3) (hreached : reached ≤ 3)
    (hcase : (new = reached ∧ old ≤ reached) ∨ (reached = 3 ∧ new ≤ old ∧ old ≤ 3)) :
    (gain race old new).map (pointsUpTo race old + ·) = some (pointsUpTo race reached) ↔
      new = reached ∧ reached ≤ old + 1 := by
  have hold : old ≤ 3 := by omega
  have key : ∀ race : BosstiaryRarity, race ≠ .BOSS_INVALID → ∀ old new reached : Fin 4,
      (new = reached ∧ old ≤ reached) ∨ (reached = 3 ∧ new ≤ old) →
        ((gain race old new).map (pointsUpTo race old + ·) = some (pointsUpTo race reached) ↔
          new = reached ∧ reached.val ≤ old.val + 1) := by
    intro race hrace
    cases race with
    | BOSS_INVALID => exact absurd rfl hrace
    | RARITY_BANE | RARITY_ARCHFOE | RARITY_NEMESIS => decide +kernel
  have := key race hrace ⟨old, by omega⟩ ⟨new, by omega⟩ ⟨reached, by omega⟩
    (hcase.imp (fun h => ⟨Fin.ext h.1, h.2⟩) fun h => ⟨Fin.ext h.1, h.2.1⟩)
  simpa [Fin.ext_iff] using this

/-! ### A call -/

/-- What the storage gives back of a count. -/
def readBack (count : UInt32) : UInt32 := if count.toNat < 2 ^ 31 then count else 0

theorem readBack_lt (count : UInt32) : (readBack count).toNat < 2 ^ 31 := by
  unfold readBack
  split
  · assumption
  · decide

theorem readBack_add {count amount : UInt32} (h : count.toNat + amount.toNat < 2 ^ 31) :
    (readBack (count + amount)).toNat = count.toNat + amount.toNat := by
  have hsum : (count + amount).toNat = count.toNat + amount.toNat := Lib.toNat_add_of_lt (by omega)
  unfold readBack
  rw [if_pos (hsum ▸ h), hsum]

variable {env : Env} {p p' : Player} {b : Boss env} {amount : UInt32}

theorem readBack_stored (count : UInt32) :
    (if 0 < count.toInt32 then count.toInt32.toUInt32 else 0) = readBack count := by
  have hint : count.toInt32.toInt = if 2 * count.toNat < 2 ^ 32 then (count.toNat : Int) else count.toNat - 2 ^ 32 :=
    BitVec.toInt_eq_toNat_cond count.toBitVec
  have hlt := count.toNat_lt
  unfold readBack
  simp only [Int32.lt_iff_toInt_lt, Int32.toInt_zero, hint, UInt32.toUInt32_toInt32]
  by_cases h : count.toNat < 2 ^ 31
  · rw [if_pos h, if_pos (show 2 * count.toNat < 2 ^ 32 by omega)]
    split
    · rfl
    · apply UInt32.toNat_inj.mp
      rw [UInt32.toNat_zero]
      omega
  · rw [if_neg h, if_neg (show ¬2 * count.toNat < 2 ^ 32 by omega), if_neg]
    omega

theorem getBestiaryKillCount_eq (id : UInt16) : p.getBestiaryKillCount id = readBack (p.killStorage id).toUInt32 :=
  readBack_stored (p.killStorage id).toUInt32

theorem getBestiaryKillCount_self (id : UInt16) :
    (p.addBestiaryKillCount id amount).getBestiaryKillCount id = readBack (p.getBestiaryKillCount id + amount) := by
  have hstored : (p.addBestiaryKillCount id amount).killStorage id = (p.getBestiaryKillCount id + amount).toInt32 :=
    Function.update_self ..
  rw [getBestiaryKillCount_eq, hstored, UInt32.toUInt32_toInt32]

/-! #### The level of a boss -/

theorem countLevels_toNat (kills : UInt32) :
    (countLevels ((levelInfos race).getD []) kills).toNat = level race kills.toNat := by
  have hlen : ((levelInfos race).getD []).length ≤ 3 := by cases race <;> decide
  have loop : ∀ (infos : List LevelInfo) (level : UInt8), level.toNat + infos.length < 256 →
      (infos.foldl (fun level info => if info.kills ≤ kills then level + 1 else level) level).toNat =
        level.toNat + infos.countP fun info => info.kills.toNat ≤ kills.toNat := by
    intro infos
    induction infos with
    | nil => simp
    | cons info infos ih =>
      intro level hlt
      rw [List.length_cons] at hlt
      rw [List.foldl_cons, List.countP_cons]
      by_cases h : info.kills ≤ kills
      · have hsucc : (level + 1).toNat = level.toNat + 1 := by
          rw [UInt8.toNat_add, UInt8.toNat_one]
          omega
        rw [if_pos h, ih _ (by omega), hsucc, if_pos (decide_eq_true (UInt32.le_iff_toNat_le.mp h))]
        omega
      · have hn : ¬decide (info.kills.toNat ≤ kills.toNat) = true := by simpa [UInt32.le_iff_toNat_le] using h
        rw [if_neg h, ih _ (by omega), if_neg hn, Nat.add_zero]
  have := loop ((levelInfos race).getD []) 0 (by rw [UInt8.toNat_zero]; omega)
  rwa [UInt8.toNat_zero, Nat.zero_add] at this

theorem Boss.levelInfos_eq (b : Boss env) :
    levelInfos b.mtype.bosstiaryRace = some ((levelInfos b.mtype.bosstiaryRace).getD []) := by
  cases h : b.mtype.bosstiaryRace with
  | BOSS_INVALID => exact absurd h b.rarity
  | RARITY_BANE | RARITY_ARCHFOE | RARITY_NEMESIS => rfl

theorem getBossCurrentLevel_toNat (b : Boss env) (p : Player) : (getBossCurrentLevel env p b.mtype.raceid).toNat =
    level b.mtype.bosstiaryRace (p.getBestiaryKillCount b.mtype.raceid).toNat := by
  unfold getBossCurrentLevel
  rw [if_neg b.raceid_ne, b.found]
  dsimp only
  rw [b.levelInfos_eq]
  exact countLevels_toNat _

theorem givePodium_eq (env : Env) (p : Player) (l : UInt8) : ∃ podium, givePodium env p l = { p with podium } := by
  unfold givePodium
  split_ifs
  · exact ⟨1, rfl⟩
  · exact ⟨p.podium, rfl⟩
  · exact ⟨p.podium, rfl⟩

/-- What a call does to the count of its boss and to the points. -/
theorem addBosstiaryKill_eq (b : Boss env) (p : Player) (amount : UInt32) :
    (gain b.mtype.bosstiaryRace (level b.mtype.bosstiaryRace (p.getBestiaryKillCount b.mtype.raceid).toNat)
        (level b.mtype.bosstiaryRace (readBack (p.getBestiaryKillCount b.mtype.raceid + amount)).toNat) = none ∧
      addBosstiaryKill env p b.mtype amount = none) ∨
    ∃ n : UInt16, gain b.mtype.bosstiaryRace (level b.mtype.bosstiaryRace (p.getBestiaryKillCount b.mtype.raceid).toNat)
        (level b.mtype.bosstiaryRace (readBack (p.getBestiaryKillCount b.mtype.raceid + amount)).toNat) = some n.toNat ∧
      ∃ podium, addBosstiaryKill env p b.mtype amount =
        some { (p.addBestiaryKillCount b.mtype.raceid amount).addBossPoints n.toUInt32 with podium } := by
  have hold := getBossCurrentLevel_toNat b p
  have hnew := getBossCurrentLevel_toNat b (p.addBestiaryKillCount b.mtype.raceid amount)
  rw [getBestiaryKillCount_self] at hnew
  rw [← hold, ← hnew]
  unfold addBosstiaryKill
  dsimp only
  rw [if_neg b.raceid_ne]
  generalize getBossCurrentLevel env p b.mtype.raceid = old
  generalize getBossCurrentLevel env (p.addBestiaryKillCount b.mtype.raceid amount) b.mtype.raceid = new
  unfold gain
  rw [UInt8.ofNat_toNat]
  by_cases h : old = new
  · right
    rw [if_pos h, if_pos (congrArg UInt8.toNat h)]
    exact ⟨0, rfl, p.podium, by simp [Player.addBossPoints, Player.addBestiaryKillCount]⟩
  · rw [if_neg h, if_neg fun heq => h (UInt8.toNat_inj.mp heq)]
    cases (levelInfos b.mtype.bosstiaryRace).bind fun infos => infoOfLevel infos new with
    | none => exact .inl ⟨rfl, rfl⟩
    | some info =>
      right
      obtain ⟨podium, hpodium⟩ := givePodium_eq env
        ((p.addBestiaryKillCount b.mtype.raceid amount).addBossPoints info.points.toUInt32) new
      exact ⟨info.points, rfl, podium, congrArg some hpodium⟩

/-! ### All bosses -/

/-- The points of a boss for its kills. -/
def bossPoints (env : Env) (dealt : UInt16 → Nat) (bossId : UInt16) : Nat :=
  (env.getMonsterTypeByBossRaceId bossId).elim 0 fun mType => reachedPoints mType.bosstiaryRace (dealt bossId)

/-- The points of every level of every boss that is reached. -/
def dueBossPoints (env : Env) (dealt : UInt16 → Nat) : Nat :=
  ∑ id ∈ Finset.range 65536, bossPoints env dealt (.ofNat id)

theorem bossPoints_le (dealt : UInt16 → Nat) (id : UInt16) : bossPoints env dealt id ≤ 100 := by
  unfold bossPoints
  cases env.getMonsterTypeByBossRaceId id with
  | none => exact Nat.zero_le _
  | some mType =>
    rw [Option.elim_some, reachedPoints_eq]
    exact pointsUpTo_le _

theorem dueBossPoints_le (dealt : UInt16 → Nat) : dueBossPoints env dealt ≤ 6553600 := by
  have h := Finset.sum_le_card_nsmul (Finset.range 65536) (fun id => bossPoints env dealt (.ofNat id)) 100
    fun id _ => bossPoints_le dealt _
  simpa [dueBossPoints] using h

theorem dueBossPoints_zero : dueBossPoints env (fun _ => 0) = 0 := by
  apply Finset.sum_eq_zero
  intro id _
  unfold bossPoints
  cases env.getMonsterTypeByBossRaceId (.ofNat id) with
  | none => rfl
  | some mType => simp [reachedPoints_eq, level_zero, pointsUpTo]

/-- Kills of one boss change what is due for it only. -/
theorem dueBossPoints_update (env : Env) (dealt : UInt16 → Nat) (id : UInt16) (n : Nat) :
    dueBossPoints env (Function.update dealt id n) + bossPoints env dealt id =
      dueBossPoints env dealt + bossPoints env (Function.update dealt id n) id := by
  have hmem : id.toNat ∈ Finset.range 65536 := Finset.mem_range.mpr id.toNat_lt
  have hrest : ∑ i ∈ (Finset.range 65536).erase id.toNat, bossPoints env (Function.update dealt id n) (.ofNat i) =
      ∑ i ∈ (Finset.range 65536).erase id.toNat, bossPoints env dealt (.ofNat i) := by
    apply Finset.sum_congr rfl
    intro i hi
    obtain ⟨hne, hlt⟩ := Finset.mem_erase.mp hi
    have hid : UInt16.ofNat i ≠ id := by
      rintro rfl
      exact hne (UInt16.toNat_ofNat_of_lt' (Finset.mem_range.mp hlt)).symm
    unfold bossPoints
    rw [Function.update_of_ne hid]
  unfold dueBossPoints
  rw [← Finset.add_sum_erase _ _ hmem, ← Finset.add_sum_erase _ _ hmem, hrest, UInt16.ofNat_toNat]
  omega

theorem Boss.bossPoints_eq (b : Boss env) (dealt : UInt16 → Nat) : bossPoints env dealt b.mtype.raceid =
    pointsUpTo b.mtype.bosstiaryRace (level b.mtype.bosstiaryRace (dealt b.mtype.raceid)) := by
  unfold bossPoints
  rw [b.found, Option.elim_some, reachedPoints_eq]

/-! ### Runs -/

/-- The player has the points of every level reached. -/
def Awarded (env : Env) (s : State) : Prop :=
  ∃ p, s.player = some p ∧ p.bossPoints.toNat = dueBossPoints env s.dealt

/-- Every boss is counted right, or so often that its last level was reached. -/
structure Counted (env : Env) (s : State) (p : Player) : Prop where
  player : s.player = some p
  points : p.bossPoints.toNat = dueBossPoints env s.dealt
  counts : ∀ b : Boss env, (p.getBestiaryKillCount b.mtype.raceid).toNat = s.dealt b.mtype.raceid ∨
    (level b.mtype.bosstiaryRace (p.getBestiaryKillCount b.mtype.raceid).toNat = 3 ∧
      level b.mtype.bosstiaryRace (s.dealt b.mtype.raceid) = 3)

/-- The kills reach at most the level above the one of the player, and the storage gives back a count of that level. -/
def Climbs (env : Env) (s : State) (c : Call env) : Prop :=
  ∀ p, s.player = some p →
    let count := p.getBestiaryKillCount c.boss.mtype.raceid
    let level := level c.boss.mtype.bosstiaryRace
    level (readBack (count + c.amount)).toNat = level (count.toNat + c.amount.toNat) ∧
      level (count.toNat + c.amount.toNat) ≤ level count.toNat + 1

variable {s : State}

theorem counted_new : Counted env .new {} where
  player := rfl
  points := dueBossPoints_zero.symm
  counts _ := .inl rfl

/-- The level on which a call ends, and the one that the kills reach. -/
theorem level_cases (b : Boss env) (amount : UInt32) {count : UInt32} (hcount : count.toNat < 2 ^ 31) :
    let level := level b.mtype.bosstiaryRace
    let new := level (readBack (count + amount)).toNat
    let reached := level (count.toNat + amount.toNat)
    (new = reached ∧ level count.toNat ≤ reached) ∨ (reached = 3 ∧ new ≤ level count.toNat ∧ level count.toNat ≤ 3) := by
  have hamount := amount.toNat_lt
  by_cases h : count.toNat + amount.toNat < 2 ^ 31
  · left
    rw [readBack_add h]
    exact ⟨rfl, level_mono (Nat.le_add_right ..)⟩
  · right
    have hle : (readBack (count + amount)).toNat ≤ count.toNat := by
      unfold readBack
      split
      · next hlt =>
        rw [UInt32.toNat_add] at hlt ⊢
        omega
      · exact Nat.zero_le _
    exact ⟨level_of_large b.rarity (by omega), level_mono hle, level_le _⟩

namespace Counted
variable {p : Player} (h : Counted env s p)
include h

/-- The kills reach with a call what the count of the player would reach. -/
theorem level_dealt (b : Boss env) (n : Nat) : level b.mtype.bosstiaryRace (s.dealt b.mtype.raceid + n) =
    level b.mtype.bosstiaryRace ((p.getBestiaryKillCount b.mtype.raceid).toNat + n) := by
  rcases h.counts b with heq | ⟨hcount, hdealt⟩
  · rw [heq]
  · have top : ∀ m, level b.mtype.bosstiaryRace m = 3 → level b.mtype.bosstiaryRace (m + n) = 3 := fun m hm =>
      le_antisymm (level_le _) (hm.symm.trans_le (level_mono (Nat.le_add_right m n)))
    rw [top _ hcount, top _ hdealt]

/-- What is due after a call. -/
theorem due (c : Call env) :
    let race := c.boss.mtype.bosstiaryRace
    let count := p.getBestiaryKillCount c.boss.mtype.raceid
    dueBossPoints env (step env s c).dealt + pointsUpTo race (level race count.toNat) =
      p.bossPoints.toNat + pointsUpTo race (level race (count.toNat + c.amount.toNat)) := by
  have hupdate := dueBossPoints_update env s.dealt c.boss.mtype.raceid
    (s.dealt c.boss.mtype.raceid + c.amount.toNat)
  have hbefore := h.level_dealt c.boss 0
  rw [Nat.add_zero, Nat.add_zero] at hbefore
  rw [c.boss.bossPoints_eq, c.boss.bossPoints_eq, Function.update_self, h.level_dealt, hbefore, ← h.points] at hupdate
  exact hupdate

theorem climbs_iff (c : Call env) : Climbs env s c ↔
    let count := p.getBestiaryKillCount c.boss.mtype.raceid
    let level := level c.boss.mtype.bosstiaryRace
    level (readBack (count + c.amount)).toNat = level (count.toNat + c.amount.toNat) ∧
      level (count.toNat + c.amount.toNat) ≤ level count.toNat + 1 := by
  unfold Climbs
  rw [h.player]
  exact ⟨fun hc => hc p rfl, fun hc q hq => Option.some.inj hq ▸ hc⟩

/-- A call gives what is due exactly when it climbs. -/
theorem call (c : Call env) : Awarded env (step env s c) ↔ Climbs env s c := by
  have hlt : (p.getBestiaryKillCount c.boss.mtype.raceid).toNat < 2 ^ 31 := by
    rw [getBestiaryKillCount_eq]
    exact readBack_lt _
  have hgain := gain_eq_iff c.boss.rarity (level_le _) (level_le _) (level_cases c.boss c.amount hlt)
  have hdue := h.due c
  have hmax : p.bossPoints.toNat ≤ 6553600 := h.points.trans_le (dueBossPoints_le _)
  have hplayer : (step env s c).player = addBosstiaryKill env p c.boss.mtype c.amount := by
    show s.player.bind _ = _
    rw [h.player, Option.bind_some]
  rw [h.climbs_iff, ← hgain]
  unfold Awarded
  rw [hplayer]
  rcases addBosstiaryKill_eq c.boss p c.amount with ⟨hnone, hcall⟩ | ⟨n, hsome, podium, hcall⟩
  · rw [hnone, hcall]
    simp
  · have hn := n.toNat_lt
    have hpoints : (p.bossPoints + n.toUInt32).toNat = p.bossPoints.toNat + n.toNat := by
      rw [UInt32.toNat_add, UInt16.toNat_toUInt32]
      omega
    rw [hsome, hcall, Option.map_some, Option.some_inj]
    constructor
    · rintro ⟨q, hq, hqp⟩
      cases hq
      have : p.bossPoints.toNat + n.toNat = dueBossPoints env (step env s c).dealt := hpoints.symm.trans hqp
      omega
    · intro heq
      refine ⟨_, rfl, hpoints.trans ?_⟩
      omega

theorem step {c : Call env} (hc : Climbs env s c) : ∃ p', Counted env (step env s c) p' := by
  obtain ⟨p', hplayer, hpoints⟩ := (h.call c).mpr hc
  obtain ⟨hlevel, -⟩ := (h.climbs_iff c).mp hc
  refine ⟨p', hplayer, hpoints, fun b => ?_⟩
  have hbestiary : p'.toPlayer = (p.addBestiaryKillCount c.boss.mtype.raceid c.amount).toPlayer := by
    have hcalled : addBosstiaryKill env p c.boss.mtype c.amount = some p' := by
      rw [← hplayer]
      show _ = s.player.bind _
      rw [h.player, Option.bind_some]
    rcases addBosstiaryKill_eq c.boss p c.amount with ⟨-, hcall⟩ | ⟨n, -, podium, hcall⟩
    · rw [hcall] at hcalled
      cases hcalled
    · rw [hcall] at hcalled
      cases hcalled
      rfl
  have hdealt : (Bosstiary.step env s c).dealt =
      Function.update s.dealt c.boss.mtype.raceid (s.dealt c.boss.mtype.raceid + c.amount.toNat) := rfl
  rw [hbestiary, hdealt]
  by_cases hid : b.mtype.raceid = c.boss.mtype.raceid
  · have hmtype : b.mtype = c.boss.mtype := by
      have := b.found
      rw [hid, c.boss.found] at this
      exact (Option.some.inj this).symm
    rw [hmtype, Function.update_self, getBestiaryKillCount_self]
    by_cases hfits : (p.getBestiaryKillCount c.boss.mtype.raceid).toNat + c.amount.toNat < 2 ^ 31
    · rw [readBack_add hfits]
      rcases h.counts c.boss with heq | ⟨hcount, -⟩
      · exact .inl (congrArg (· + c.amount.toNat) heq)
      · have htop := le_antisymm (level_le _) (hcount.symm.trans_le (level_mono (Nat.le_add_right _ c.amount.toNat)))
        exact .inr ⟨htop, (h.level_dealt c.boss _).trans htop⟩
    · have htop : level c.boss.mtype.bosstiaryRace
          ((p.getBestiaryKillCount c.boss.mtype.raceid).toNat + c.amount.toNat) = 3 :=
        level_of_large c.boss.rarity (by omega)
      exact .inr ⟨hlevel.trans htop, (h.level_dealt c.boss _).trans htop⟩
  · rw [Function.update_of_ne hid]
    have hother : (p.addBestiaryKillCount c.boss.mtype.raceid c.amount).getBestiaryKillCount b.mtype.raceid =
        p.getBestiaryKillCount b.mtype.raceid :=
      Bestiary.getBestiaryKillCount_other hid
    rw [hother]
    exact h.counts b

end Counted

/-- The points of a player are those of all levels that he reached, at every moment of a run, exactly if each call climbs
    at most one level and keeps the count in the storage. -/
theorem awarded_iff_climbs (env : Env) (calls : List (Call env)) : Meets (step env) (Climbs env) .new calls ↔
    ∀ xs, xs <+: calls → Awarded env (run (step env) .new xs) := by
  apply meets_iff_forall_seen (fun s => ∃ p, Counted env s p)
  · rintro s ⟨p, hp⟩
    exact ⟨p, hp.player, hp.points⟩
  · rintro s c ⟨p, hp⟩ hc
    exact hp.step hc
  · rintro s c ⟨p, hp⟩ ha
    exact (hp.call c).mp ha
  · exact ⟨{}, counted_new⟩

/-- One boss, which has the steps of the rarest ones. -/
def nemesisEnv : Env where
  getMonsterTypeByBossRaceId id := if id = 1 then some ⟨1, .RARITY_NEMESIS⟩ else none
  addItemStoreInbox := true

def nemesis : Boss nemesisEnv where
  mtype := ⟨1, .RARITY_NEMESIS⟩
  raceid_ne := by decide
  found := rfl
  rarity := nofun

/-- Three kills at once give the points of the second level only. -/
theorem not_awarded_at_once : ¬∀ (env : Env) (calls : List (Call env)), (∀ c ∈ calls, 0 < c.amount) →
    Awarded env (run (step env) .new calls) := by
  intro h
  have hcall := h nemesisEnv [⟨nemesis, 3⟩] fun c hc => by
    rw [List.mem_singleton.mp hc]
    decide
  obtain ⟨-, hlevel⟩ := ((counted_new.call ⟨nemesis, 3⟩).mp hcall) {} rfl
  exact absurd hlevel (by decide +kernel)

end CrystalServer.Bosstiary
