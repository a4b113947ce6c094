import CrystalServer.Lib.Run

/-! # Which creatures think (`game/game.cpp`)

`Game::checkCreatures` runs over one of ten lists at a time. A creature is put into a list by an event that `addCreatureCheck`
posts, and taken out in the turn of the list. What a creature does while it thinks may call `addCreatureCheck` and
`removeCreatureCheck` again, of itself and of others; what a monster does later is calls of their own. -/

namespace CrystalServer

abbrev EVENT_CREATURECOUNT : Nat := 10

/-- The flags of the creatures, `checkCreatureLists`, and the events posted by `addCreatureCheck`, each with the index that was drawn
    for it. A creature is expired when nothing but the lists points to it. -/
structure CreatureChecks (Creature : Type*) where
  isRemoved : Creature → Bool
  isAlive : Creature → Bool
  expired : Creature → Bool
  creatureCheck : Creature → Bool
  inCheckCreaturesVector : Creature → Bool
  events : List (Fin EVENT_CREATURECOUNT × Creature)
  checkCreatureLists : Fin EVENT_CREATURECOUNT → List Creature
  index : Fin EVENT_CREATURECOUNT

namespace CreatureChecks
variable {Creature : Type*} [DecidableEq Creature]

/-- No creature was added yet. -/
def start (isAlive : Creature → Bool) : CreatureChecks Creature where
  isRemoved := fun _ => false
  isAlive
  expired := fun _ => false
  creatureCheck := fun _ => false
  inCheckCreaturesVector := fun _ => false
  events := []
  checkCreatureLists := fun _ => []
  index := 0

/-- `Game::addCreatureCheck`. -/
def addCreatureCheck (creature : Creature) (index : Fin EVENT_CREATURECOUNT) (s : CreatureChecks Creature) :
    CreatureChecks Creature :=
  if s.isRemoved creature then s
  else
    let s := { s with creatureCheck := Function.update s.creatureCheck creature true }
    if s.inCheckCreaturesVector creature then s
    else
      { s with
        inCheckCreaturesVector := Function.update s.inCheckCreaturesVector creature true
        events := s.events ++ [(index, creature)] }

/-- `Game::removeCreatureCheck`. -/
def removeCreatureCheck (creature : Creature) (s : CreatureChecks Creature) : CreatureChecks Creature :=
  if s.inCheckCreaturesVector creature then { s with creatureCheck := Function.update s.creatureCheck creature false } else s

/-- The last pointer to a creature is gone; the events hold pointers. -/
def expire (creature : Creature) (s : CreatureChecks Creature) : CreatureChecks Creature :=
  if creature ∈ s.events.map Prod.snd then s else { s with expired := Function.update s.expired creature true }

/-- What may happen to a creature while others think or in between. -/
inductive Call (Creature : Type*) where
  | addCreatureCheck (creature : Creature) (index : Fin EVENT_CREATURECOUNT)
  | removeCreatureCheck (creature : Creature)
  | setHealth (creature : Creature) (isAlive : Bool)
  | setRemoved (creature : Creature)
  | expire (creature : Creature)

namespace Call

def creature : Call Creature → Creature
  | addCreatureCheck creature _ => creature
  | removeCreatureCheck creature => creature
  | setHealth creature _ => creature
  | setRemoved creature => creature
  | expire creature => creature

end Call

/-- A call; there is none for a creature that is expired. -/
def call (s : CreatureChecks Creature) (c : Call Creature) : CreatureChecks Creature :=
  if s.expired c.creature then s
  else
    match c with
    | .addCreatureCheck creature index => s.addCreatureCheck creature index
    | .removeCreatureCheck creature => s.removeCreatureCheck creature
    | .setHealth creature isAlive => { s with isAlive := Function.update s.isAlive creature isAlive }
    | .setRemoved creature => { s with isRemoved := Function.update s.isRemoved creature true }
    | .expire creature => s.expire creature

/-- What `std::erase_if` asks for each creature of the list: whether it is erased. -/
def checkCreature (onThink : Creature → List (Call Creature)) (creature : Creature) (s : CreatureChecks Creature) :
    Bool × CreatureChecks Creature :=
  if s.expired creature then (true, s)
  else if s.creatureCheck creature && s.isAlive creature then
    (false, (onThink creature).foldl call s)
  else (true, { s with inCheckCreaturesVector := Function.update s.inCheckCreaturesVector creature false })

/-- `std::erase_if`: what is left of the list. -/
def eraseIf (onThink : Creature → List (Call Creature)) :
    List Creature → CreatureChecks Creature → List Creature × CreatureChecks Creature
  | [], s => ([], s)
  | creature :: creatures, s =>
    let (erase, s) := s.checkCreature onThink creature
    let (kept, s) := eraseIf onThink creatures s
    (if erase then kept else creature :: kept, s)

/-- `Game::checkCreatures`. -/
def checkCreatures (onThink : Creature → List (Call Creature)) (s : CreatureChecks Creature) : CreatureChecks Creature :=
  let (kept, s) := eraseIf onThink (s.checkCreatureLists s.index) s
  { s with
    checkCreatureLists := Function.update s.checkCreatureLists s.index kept
    index := s.index + 1 }

/-- The event that was posted first. -/
def runEvent (s : CreatureChecks Creature) : CreatureChecks Creature :=
  match s.events with
  | [] => s
  | (index, creature) :: events =>
    { s with
      events
      checkCreatureLists := Function.update s.checkCreatureLists index (s.checkCreatureLists index ++ [creature]) }

inductive Event (Creature : Type*) where
  | call (c : Call Creature)
  | runEvent
  | checkCreatures (onThink : Creature → List (Call Creature))

def step (s : CreatureChecks Creature) : Event Creature → CreatureChecks Creature
  | .call c => s.call c
  | .runEvent => s.runEvent
  | .checkCreatures onThink => s.checkCreatures onThink

end CreatureChecks
end CrystalServer
