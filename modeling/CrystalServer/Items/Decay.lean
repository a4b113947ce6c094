import CrystalServer.Items.Attributes
import CrystalServer.Lib.Buckets
import CrystalServer.Lib.Run

/-! # Decay

The items that decay, by the time at which they are due (`items/decay/decay.cpp`), and the calls of `checkDecay` that the
dispatcher holds. A call that is scheduled is never cancelled. -/

namespace CrystalServer
open Lib Item

def SCHEDULER_MINTICKS : Int := 50

/-- Milliseconds since 1970 that leave room for a duration. -/
def Time := { t : Int // 0 ≤ t ∧ t + 2 ^ 31 ≤ 2 ^ 63 }

/-- `Decay`, with the items it points to and the clock. -/
structure Decay where
  decayMap : List (Int × List Ref)
  item : Ref → Item
  events : List Int
  OTSYS_TIME : Time

/-- What `checkDecay` asks about an item at its turn, and whether the item is gone after `internalDecayItem`. -/
structure DecayWorld where
  isDecayDisabled : Ref → Bool
  isRemoved : Ref → Bool
  gone : Ref → Bool

namespace Decay
variable (items : UInt16 → ItemType)

/-- `Item::canDecay`. -/
def canDecay (world : DecayWorld) (s : Decay) (item : Ref) : Bool :=
  let it := items (s.item item).id
  if it.decayTo < 0 ∨ it.decayTime = 0 ∨ world.isDecayDisabled item then false
  else if (s.item item).hasAttribute .uniqueid then false
  else !world.isRemoved item

def modify (s : Decay) (item : Ref) (f : Item → Item) : Decay :=
  { s with item := Function.update s.item item (f (s.item item)) }

def getDuration (s : Decay) (item : Ref) : Int := (s.item item).getDuration (.ofInt s.OTSYS_TIME.1)

/-- `Dispatcher::scheduleEvent` for `checkDecay`. -/
def scheduleEvent (s : Decay) (delay : Int) : Decay := { s with events := (s.OTSYS_TIME.1 + delay) :: s.events }

/-- What `stopDecay` does to the item that it found. -/
def restore (s : Decay) (item : Ref) : Decay :=
  let s := if (s.item item).hasAttribute .duration then s.modify item (·.setDuration (s.getDuration item)) else s
  s.modify item (·.removeAttribute .decaystate)

/-- `Decay::stopDecay`. -/
def stopDecay (s : Decay) (item : Ref) (timestamp : Int) : Decay :=
  if timestamp ≤ 0 then s
  else
    match s.decayMap.lookup timestamp with
    | none => s
    | some decayItems =>
      if decayItems.length = 1 then
        if decayItems.head? = some item then { s.restore item with decayMap := Buckets.erase timestamp s.decayMap } else s
      else
        match decayItems.findIdx? (· = item), decayItems.getLast? with
        | some i, some back =>
          { s.restore item with
            decayMap := SortedMap.insert timestamp (decayItems.set i back).dropLast s.decayMap }
        | _, _ => s

/-- `Decay::startDecay`. -/
def startDecay (s : Decay) (item : Ref) (duration : Int32) : Decay :=
  if duration ≤ 0 then s
  else
    let s :=
      if (s.item item).hasAttribute .duration_timestamp then
        s.stopDecay item ((s.item item).getAttribute int64_t .duration_timestamp)
      else s
    let timestamp := s.OTSYS_TIME.1 + duration.toInt
    let s :=
      match s.decayMap with
      | [] => s.scheduleEvent (max SCHEDULER_MINTICKS duration.toInt)
      | begin :: _ =>
        if timestamp < begin.1 then s.scheduleEvent (max SCHEDULER_MINTICKS duration.toInt) else s
    let s := s.modify item fun it => (it.setDecaying DECAYING_TRUE).setAttribute .duration_timestamp timestamp
    { s with decayMap := Buckets.push timestamp item s.decayMap }

/-- `Game::stopDecay`. -/
def gameStopDecay (s : Decay) (item : Ref) : Decay :=
  if (s.item item).hasAttribute .decaystate then
    if (s.item item).hasAttribute .duration_timestamp then
      (s.stopDecay item ((s.item item).getAttribute int64_t .duration_timestamp)).modify item
        (·.removeAttribute .duration_timestamp)
    else s.modify item (·.removeAttribute .decaystate)
  else s

/-- `Decay::internalDecayItem`: an item that is gone stops decaying. -/
def internalDecayItem (world : DecayWorld) (s : Decay) (item : Ref) : Decay :=
  if world.gone item then s.gameStopDecay item else s

/-- The loop of `checkDecay`. -/
def decayItem (world : DecayWorld) (s : Decay) (item : Ref) : Decay :=
  if !s.canDecay items world item then
    s.modify item fun it => (it.setDuration (s.getDuration item)).setDecaying DECAYING_FALSE
  else (s.modify item (·.setDecaying DECAYING_FALSE)).internalDecayItem world item

/-- `Decay::checkDecay`, called at the event. -/
def checkDecay (world : DecayWorld) (s : Decay) (event : Int) : Decay :=
  let s := { s with events := s.events.erase event }
  let timestamp := s.OTSYS_TIME.1
  let tempItems := Buckets.elements (s.decayMap.takeWhile (·.1 ≤ timestamp))
  let rest := s.decayMap.dropWhile (·.1 ≤ timestamp)
  let s := tempItems.foldl (decayItem items world) { s with decayMap := rest }
  match rest with
  | [] => s
  | it :: _ => s.scheduleEvent (max SCHEDULER_MINTICKS (int32_t.cast (it.1 - timestamp)))

/-- The calls; the clock does not go back. -/
inductive Call
  | startDecay (item : Ref) (duration : Int32)
  | stopDecay (item : Ref) (timestamp : Int64)
  | checkDecay (event : Int) (world : DecayWorld)
  | clock (time : Time)

def step (s : Decay) : Call → Decay
  | .startDecay item duration => s.startDecay item duration
  | .stopDecay item timestamp => s.stopDecay item timestamp.toInt
  | .checkDecay event world => s.checkDecay items world event
  | .clock time => if s.OTSYS_TIME.1 ≤ time.1 then { s with OTSYS_TIME := time } else s

end Decay
end CrystalServer
