import CrystalServer.Io.Bestiary
import Mathlib.Analysis.Real.Sqrt

/-! # Boss kills and boss points

`io/io_bosstiary.cpp`: the points that the kills of bosses give, and the two scales between points and loot bonus. The kills
of a boss are counted where the bestiary counts those of a creature. -/

namespace CrystalServer.Bosstiary

inductive BosstiaryRarity where
  | RARITY_BANE | RARITY_ARCHFOE | RARITY_NEMESIS | BOSS_INVALID
  deriving DecidableEq

structure LevelInfo where
  kills : UInt32
  points : UInt16

/-- `levelInfos`; none where the map has no entry. -/
def levelInfos : BosstiaryRarity → Option (List LevelInfo)
  | .RARITY_BANE => some [⟨25, 5⟩, ⟨100, 15⟩, ⟨300, 30⟩]
  | .RARITY_ARCHFOE => some [⟨5, 10⟩, ⟨20, 30⟩, ⟨60, 60⟩]
  | .RARITY_NEMESIS => some [⟨1, 10⟩, ⟨3, 30⟩, ⟨5, 60⟩]
  | .BOSS_INVALID => none

/-- What is read of a type of monster. -/
structure MonsterType where
  raceid : UInt16
  bosstiaryRace : BosstiaryRarity

/-- The bosses by their race ids, and whether the store inbox of the player takes the podium. -/
structure Env where
  getMonsterTypeByBossRaceId : UInt16 → Option MonsterType
  addItemStoreInbox : Bool

/-- A player with his boss points, and his storage `STORAGEVALUE_PODIUM`. -/
structure Player extends Bestiary.Player where
  bossPoints : UInt32 := 0
  podium : Int32 := -1

namespace Player
variable (p : Player)

def addBestiaryKillCount (raceid : UInt16) (amount : UInt32) : Player :=
  { p with toPlayer := p.toPlayer.addBestiaryKillCount raceid amount }

def addBossPoints (amount : UInt32) : Player := { p with bossPoints := p.bossPoints + amount }

end Player

/-- The loop of `getBossCurrentLevel`. -/
def countLevels (infoForCurrentRace : List LevelInfo) (currentKills : UInt32) : UInt8 :=
  infoForCurrentRace.foldl (fun level raceInfo => if raceInfo.kills ≤ currentKills then level + 1 else level) 0

/-- `infoForCurrentRace[newBossLevel - 1]`; none where this reads before the first entry or after the last. -/
def infoOfLevel (infoForCurrentRace : List LevelInfo) (newBossLevel : UInt8) : Option LevelInfo :=
  match newBossLevel.toNat with
  | 0 => none
  | level + 1 => infoForCurrentRace[level]?

section
variable (env : Env) (p : Player)

def getBossCurrentLevel (bossId : UInt16) : UInt8 :=
  if bossId = 0 then 0
  else
    match env.getMonsterTypeByBossRaceId bossId with
    | none => 0
    | some mType =>
      match levelInfos mType.bosstiaryRace with
      | none => 0
      | some infoForCurrentRace => countLevels infoForCurrentRace (p.getBestiaryKillCount bossId)

/-- The podium that comes with the second level of the first boss. -/
def givePodium (newBossLevel : UInt8) : Player :=
  if p.podium ≠ 1 ∧ newBossLevel = 2 then
    if env.addItemStoreInbox then { p with podium := 1 } else p
  else p

/-- `IOBosstiary::addBosstiaryKill`; none where it has no defined result. -/
def addBosstiaryKill (mtype : MonsterType) (amount : UInt32) : Option Player :=
  let bossId := mtype.raceid
  if bossId = 0 then some p
  else
    let oldBossLevel := getBossCurrentLevel env p bossId
    let p := p.addBestiaryKillCount bossId amount
    let newBossLevel := getBossCurrentLevel env p bossId
    if oldBossLevel = newBossLevel then some p
    else
      ((levelInfos mtype.bosstiaryRace).bind fun infoForCurrentRace => infoOfLevel infoForCurrentRace newBossLevel).map
        fun info => givePodium env (p.addBossPoints info.points.toUInt32) newBossLevel

end

/-! ### Runs -/

/-- A boss of one of the three rarities, which is found by its race id. -/
structure Boss (env : Env) where
  mtype : MonsterType
  raceid_ne : mtype.raceid ≠ 0
  found : env.getMonsterTypeByBossRaceId mtype.raceid = some mtype
  rarity : mtype.bosstiaryRace ≠ .BOSS_INVALID

/-- The player while his calls have a defined result, and the kills of each boss so far as a number. -/
structure State where
  player : Option Player
  dealt : UInt16 → Nat

def State.new : State := ⟨some {}, fun _ => 0⟩

/-- A call of `addBosstiaryKill`. -/
structure Call (env : Env) where
  boss : Boss env
  amount : UInt32

def step (env : Env) (s : State) (c : Call env) : State where
  player := s.player.bind fun p => addBosstiaryKill env p c.boss.mtype c.amount
  dealt := Function.update s.dealt c.boss.mtype.raceid (s.dealt c.boss.mtype.raceid + c.amount.toNat)

/-! ### Loot bonus -/

/-- `static_cast<uint16_t>` of a number that is not negative. -/
noncomputable def toUInt16 (x : ℝ) : UInt16 := .ofNat ⌊x⌋₊

/-- `static_cast<uint32_t>` of a number that is not negative. -/
noncomputable def toUInt32 (x : ℝ) : UInt32 := .ofNat ⌊x⌋₊

/-- `IOBosstiary::calculateLootBonus`, with a real number for each `double`. -/
noncomputable def calculateLootBonus (bossPoints : UInt32) : UInt16 :=
  if bossPoints ≤ 250 then (25 + bossPoints / 10).toUInt16
  else if bossPoints < 1250 then toUInt16 (37.5 + (bossPoints / 20).toNat)
  else toUInt16 (100 + 0.5 * (√(8 * ((bossPoints - 1250) / 5) + 81).toNat - 9))

/-- `IOBosstiary::calculateBossPoints`, with a real number for each `double`. -/
noncomputable def calculateBossPoints (lootBonus : UInt16) : UInt32 :=
  if lootBonus ≤ 25 then 0
  else if lootBonus ≤ 50 then 10 * lootBonus.toUInt32 - 250
  else if lootBonus ≤ 100 then 20 * lootBonus.toUInt32 - 750
  else toUInt32 (2.5 * lootBonus.toNat * lootBonus.toNat - 477.5 * lootBonus.toNat + 24000)

end CrystalServer.Bosstiary
