import CrystalServer.Creatures.Combat.ConditionStream
import Mathlib.Data.Rat.Floor

/-! # Damage over time

How a `ConditionDamage` (`creatures/combat/condition.cpp`) splits the damage that was drawn for it into ticks. Integers do not
overflow here, and `float` and `double` are rational numbers. -/

namespace CrystalServer.ConditionDamage

/-- The `do` loop of `generateDamageList` for the value `i`; none where it has not ended after `fuel` rounds. -/
def emit (i med : Int) : Nat → Int → List Int → Option (Int × List Int)
  | 0, _, _ => none
  | fuel + 1, sum, list =>
    let sum := sum + i
    let list := list ++ [i]
    let x1 : Rat := |1 - (sum + i) / med|
    let x2 : Rat := |1 - sum / med|
    if x1 < x2 then emit i med fuel sum list else some (sum, list)

/-- The `for` loop of `generateDamageList`, from the value `i` on. -/
def values (amount start : Int) (fuel : Nat) : Nat → Int → List Int → Option (List Int)
  | 0, _, list => some list
  | i + 1, sum, list =>
    let n := start + 1 - (i + 1 : Nat)
    let med := (n * amount).tdiv start
    (emit (i + 1 : Nat) med fuel sum list).bind fun s => values amount start fuel i s.1 s.2

/-- `ConditionDamage::generateDamageList`. -/
def generateDamageList (fuel : Nat) (amount start : Int) (list : List Int) : Option (List Int) :=
  values |amount| start fuel start.toNat 0 list

section
variable (OTSYS_TIME : Int64) (c : ConditionDamage)

/-- A round of the loop of `addDamage`. -/
def addInfo (time value : Int32) : ConditionDamage :=
  let damageInfo : IntervalInfo := ⟨time, value, time⟩
  let c := { c with damageList := c.damageList ++ [damageInfo] }
  if c.ticks ≠ -1 then { c with toCondition := c.setTicks OTSYS_TIME (c.ticks + damageInfo.interval) } else c

/-- `ConditionDamage::addDamage`. -/
def addDamage (rounds time value : Int32) : Bool × ConditionDamage :=
  let time := max time 1000
  if rounds = -1 then (true, { c with periodDamage := value, tickInterval := time, ticks := -1 })
  else if c.periodDamage > 0 then (false, c)
  else (true, (List.range rounds.toInt.toNat).foldl (fun c _ => c.addInfo OTSYS_TIME time value) c)

/-- What `init` starts with for the damage that was drawn. -/
def initStart (amount : Int32) : Int32 :=
  if c.startDamage > c.maxDamage then c.maxDamage
  else if c.startDamage = 0 then max 1 (.ofInt ⌈(amount.toInt : Rat) / 20⌉)
  else c.startDamage

/-- `ConditionDamage::init`, which draws `amount` from `minDamage` to `maxDamage`. -/
def init (fuel : Nat) (amount : Int32) : Option (Bool × ConditionDamage) :=
  if c.periodDamage ≠ 0 then some (true, c)
  else if c.damageList ≠ [] then some (true, c)
  else
    let c := { c with toCondition := c.setTicks OTSYS_TIME 0 }
    if amount = 0 then some (false, c)
    else
      let c := { c with startDamage := c.initStart amount }
      (generateDamageList fuel amount.toInt c.startDamage.toInt []).map fun list =>
        let c := list.foldl (fun c value => (c.addDamage OTSYS_TIME 1 c.tickInterval (.ofInt (-value))).2) c
        (c.damageList ≠ [], c)

end
end CrystalServer.ConditionDamage
