import CrystalServer.Lib.SortedMap
import Mathlib.Data.Rat.Floor

/-! # Shares of the damage

Who did how much damage to a creature, and the shares of the experience for it (`creatures/creature.cpp`), with rational
numbers in place of `double`. A total that its type does not hold wraps around. -/

namespace CrystalServer.DamageShares
open Lib

/-- `CountBlock_t`. -/
structure CountBlock where
  total : Int32
  ticks : Int64
  deriving DecidableEq

/-- The fields of a `Creature` that its damage writes. -/
structure Creature where
  damageMap : List (UInt32 × CountBlock)
  lastHitCreatureId : UInt32

/-- A call of `addDamagePoints`, at a time. -/
structure Hit where
  attackerId : UInt32
  damagePoints : Int32
  time : Int64

/-- `Creature::addDamagePoints`. -/
def addDamagePoints (c : Creature) (hit : Hit) : Creature :=
  if hit.damagePoints ≤ 0 then c
  else
    let block : CountBlock :=
      match c.damageMap.lookup hit.attackerId with
      | none => ⟨hit.damagePoints, hit.time⟩
      | some block => ⟨block.total + hit.damagePoints, hit.time⟩
    ⟨SortedMap.insert hit.attackerId block c.damageMap, hit.attackerId⟩

/-- One round of the loop in `getDamageRatio`, on `totalDamage` and `attackerDamage`. -/
def countEntry (attackerId : UInt32) (damage : UInt32 × UInt32) (entry : UInt32 × CountBlock) : UInt32 × UInt32 :=
  if entry.1 = 0 ∨ entry.2.total = 0 then damage
  else
    let value := entry.2.total.toUInt32
    (damage.1 + value, if entry.1 = attackerId then damage.2 + value else damage.2)

/-- `Creature::getDamageRatio`. -/
def getDamageRatio (c : Creature) (attackerId : UInt32) : Rat :=
  let damage := c.damageMap.foldl (countEntry attackerId) (0, 0)
  if damage.1 = 0 then 0 else damage.2.toNat / damage.1.toNat

/-- `Creature::getGainedExperience`, where `getLostExperience` gives `lostExperience`. -/
def getGainedExperience (c : Creature) (lostExperience : UInt64) (attackerId : UInt32) : UInt64 :=
  .ofNat ⌊getDamageRatio c attackerId * lostExperience.toNat⌋.toNat

/-- `Player::getGainedExperience`, where `counts` says which attackers it gives experience to at all. -/
def getGainedExperienceOfPlayer (c : Creature) (counts : UInt32 → Bool) (lostExperience : UInt64) (attackerId : UInt32) :
    UInt64 :=
  if counts attackerId then .ofNat ⌊lostExperience.toNat * getDamageRatio c attackerId * (3 / 4)⌋.toNat else 0

/-- A creature that nobody has damaged yet. -/
def unharmed : Creature := ⟨[], 0⟩

end CrystalServer.DamageShares
