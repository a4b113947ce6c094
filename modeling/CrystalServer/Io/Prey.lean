import CrystalServer.Market.Market

/-! # Prey

The prey slots of a player (`io/ioprey.cpp`, and `player.cpp` for the cards and the lists): what the client asks for, and
the time of the slots. A random number is drawn from a list; a call that finds the list empty is still in one of its
loops. -/

namespace CrystalServer.Prey

inductive PreySlotId where
  | One | Two | Three
  deriving DecidableEq

def PreySlotId.all : List PreySlotId := [.One, .Two, .Three]

inductive PreyDataState where
  | Locked | Inactive | Active | Selection | SelectionChangeMonster | ListSelection | WildcardSelection
  deriving DecidableEq

inductive PreyBonus where
  | Damage | Defense | Experience | Loot | None
  deriving DecidableEq

/-- A byte of the client. -/
inductive PreyOption where
  | None | AutomaticReroll | Locked
  | other (option : UInt8)
  deriving DecidableEq

/-- A byte of the client. -/
inductive PreyAction where
  | ListReroll | BonusReroll | MonsterSelection | ListAll_Cards | ListAll_Selection | Option
  | unknown (action : UInt8)
  deriving DecidableEq

structure PreySlot where
  bonus : PreyBonus := .None
  state : PreyDataState := .Locked
  option : PreyOption := .None
  raceIdList : List UInt16 := []
  bonusRarity : Nat := 1
  selectedRaceId : UInt16 := 0
  bonusPercentage : Nat := 0
  bonusTimeLeft : UInt16 := 0
  freeRerollTimeStamp : Int := 0
  deriving DecidableEq

/-- What is read of a type of monster. -/
structure MonsterInfo where
  experience : UInt64
  isPreyable : Bool
  isPreyExclusive : Bool
  bestiaryStars : UInt8

structure PreyEnv where
  PREY_ENABLED : Bool
  PREY_BONUS_REROLL_PRICE : Int32
  PREY_SELECTION_LIST_PRICE : Int32
  PREY_BONUS_TIME : Int32
  PREY_FREE_REROLL_TIME : Int
  PREY_REROLL_PRICE_LEVEL : Int32
  bestiary : List UInt16
  getMonsterTypeByRaceId : UInt16 → Option MonsterInfo

/-- What is the same for one call: the level, and what `OTSYS_TIME` answers the first, the second and the third time. -/
structure Moment where
  level : UInt32
  now₁ : Int
  now₂ : Int
  now₃ : Int

/-- `static_cast<uint16_t>` of a number of the configuration. -/
def toUInt16 (n : Int32) : UInt16 := n.toUInt32.toUInt16

/-- `uniform_random`. -/
def uniformRandom (min max draw : Nat) : Nat := min + draw % (max + 1 - min)

/-! ### Slots -/

namespace PreySlot

def isOccupied (slot : PreySlot) : Bool := slot.selectedRaceId ≠ 0 ∧ slot.bonusTimeLeft > 0

def canSelect (slot : PreySlot) : Bool :=
  slot.state = .Selection ∨ slot.state = .SelectionChangeMonster ∨ slot.state = .ListSelection ∨ slot.state = .Inactive

def eraseBonus (slot : PreySlot) (maintainBonus : Bool) : PreySlot :=
  let slot := if maintainBonus then slot else { slot with bonus := .None, bonusPercentage := 5, bonusRarity := 1 }
  { slot with state := .Selection, option := .None, selectedRaceId := 0, bonusTimeLeft := 0 }

def removeMonsterType (slot : PreySlot) (raceId : UInt16) : PreySlot :=
  { slot with raceIdList := slot.raceIdList.filter (· ≠ raceId) }

/-- `uniform_random(PreyBonus_First, PreyBonus_Last)`. -/
def drawBonus (draw : Nat) : PreyBonus :=
  match uniformRandom 0 3 draw with
  | 0 => .Damage
  | 1 => .Defense
  | 2 => .Experience
  | _ => .Loot

/-- A slot of the highest rarity gets another bonus than it has. -/
def reloadBonusType (slot : PreySlot) : List Nat → Option (PreySlot × List Nat)
  | [] => none
  | draw :: draws =>
    if slot.bonusRarity = 10 ∧ drawBonus draw = slot.bonus then slot.reloadBonusType draws
    else some ({ slot with bonus := drawBonus draw }, draws)

def setRarity (slot : PreySlot) (rarity : Nat) : PreySlot :=
  { slot with
    bonusRarity := rarity
    bonusPercentage := match slot.bonus with
      | .Damage => 2 * rarity + 5
      | .Defense => 2 * rarity + 10
      | _ => 3 * rarity + 10 }

def reloadBonusValue (slot : PreySlot) (draws : List Nat) : Option (PreySlot × List Nat) :=
  if slot.bonusRarity ≥ 9 then some (slot.setRarity 10, draws)
  else match draws with
    | [] => none
    | draw :: draws => some (slot.setRarity (uniformRandom (slot.bonusRarity + 1) 10 draw), draws)

def reloadBonus (slot : PreySlot) (draws : List Nat) : Option (PreySlot × List Nat) :=
  (slot.reloadBonusType draws).bind fun r => r.1.reloadBonusValue r.2

end PreySlot

/-! ### The list of a slot -/

/-- The variables of the loop of `reloadMonsterGrid`. -/
structure Grid where
  raceIdList : List UInt16 := []
  blackList : List UInt16
  stageOne : Nat
  stageTwo : Nat
  stageThree : Nat
  stageFour : Nat
  tries : UInt8 := 0

/-- What a level begins with. -/
def Grid.start (blackList : List UInt16) (level : UInt32) : Grid :=
  let levelStage := level.toNat / 100
  if levelStage = 0 then { blackList, stageOne := 3, stageTwo := 3, stageThree := 2, stageFour := 1 }
  else if levelStage ≤ 2 then { blackList, stageOne := 1, stageTwo := 3, stageThree := 3, stageFour := 2 }
  else if levelStage ≤ 4 then { blackList, stageOne := 1, stageTwo := 2, stageThree := 3, stageFour := 3 }
  else { blackList, stageOne := 1, stageTwo := 1, stageThree := 3, stageFour := 4 }

/-- One pass of the loop, with the creature that was drawn. -/
def Grid.next (env : PreyEnv) (g : Grid) (raceId : UInt16) : Grid :=
  let g := { g with tries := g.tries + 1 }
  if g.blackList.count raceId ≠ 0 then g
  else
    let g := { g with blackList := g.blackList ++ [raceId] }
    match env.getMonsterTypeByRaceId raceId with
    | none => g
    | some mtype =>
      if mtype.experience = 0 ∨ !mtype.isPreyable ∨ mtype.isPreyExclusive then g
      else
        let raceIdList := g.raceIdList ++ [raceId]
        if g.stageOne ≠ 0 ∧ mtype.bestiaryStars ≤ 1 then { g with raceIdList, stageOne := g.stageOne - 1 }
        else if g.stageTwo ≠ 0 ∧ mtype.bestiaryStars = 2 then { g with raceIdList, stageTwo := g.stageTwo - 1 }
        else if g.stageThree ≠ 0 ∧ mtype.bestiaryStars = 3 then { g with raceIdList, stageThree := g.stageThree - 1 }
        else if g.stageFour ≠ 0 ∧ mtype.bestiaryStars ≥ 4 then { g with raceIdList, stageFour := g.stageFour - 1 }
        else if g.tries ≥ 10 then { g with raceIdList, tries := 0 }
        else g

def Grid.loop (env : PreyEnv) (g : Grid) : List Nat → Option (List UInt16 × List Nat)
  | [] => if g.raceIdList.length < 9 then none else some (g.raceIdList, [])
  | draw :: draws =>
    if g.raceIdList.length < 9 then
      (g.next env (env.bestiary.getD (uniformRandom 0 (env.bestiary.length - 1) draw) 0)).loop env draws
    else some (g.raceIdList, draw :: draws)

def PreySlot.reloadMonsterGrid (env : PreyEnv) (slot : PreySlot) (blackList : List UInt16) (level : UInt32)
    (draws : List Nat) : Option (PreySlot × List Nat) :=
  if !env.PREY_ENABLED ∨ env.bestiary.length < 36 then some ({ slot with raceIdList := [] }, draws)
  else ((Grid.start blackList level).loop env draws).map fun r => ({ slot with raceIdList := r.1 }, r.2)

/-! ### Players -/

/-- A player, with the gold that he can pay with. -/
structure State where
  player : Market.Player
  preyCards : UInt64
  preys : PreySlotId → PreySlot

def State.setSlot (s : State) (id : PreySlotId) (slot : PreySlot) : State :=
  { s with preys := Function.update s.preys id slot }

def usePreyCards (s : State) (amount : UInt16) : Option State :=
  if s.preyCards < amount.toUInt64 then none else some { s with preyCards := s.preyCards - amount.toUInt64 }

def getPreyRerollPrice (env : PreyEnv) (m : Moment) : UInt32 := m.level * env.PREY_REROLL_PRICE_LEVEL.toUInt32

def getPreyBlackList (s : State) : List UInt16 :=
  PreySlotId.all.flatMap fun id =>
    (if (s.preys id).isOccupied then [(s.preys id).selectedRaceId] else []) ++ (s.preys id).raceIdList

/-- Whether `getPreyWithMonster` finds a slot. -/
def getPreyWithMonster (env : PreyEnv) (s : State) (raceId : UInt16) : Bool :=
  env.PREY_ENABLED && PreySlotId.all.any fun id => (s.preys id).selectedRaceId = raceId

/-! ### The time of the slots -/

/-- The three slots are checked one after the other. -/
structure Check where
  state : State
  texts : List String
  draws : List Nat

/-- A slot that is out of time and not renewed. -/
def Check.erase (c : Check) (id : PreySlotId) (text : String) : Check :=
  { c with state := c.state.setSlot id ((c.state.preys id).eraseBonus false), texts := c.texts ++ [text] }

/-- The body of the loop of `IOPrey::checkPlayerPreys`. -/
def checkSlot (env : PreyEnv) (m : Moment) (amount : UInt8) (c : Check) (id : PreySlotId) : Option Check :=
  let slot := c.state.preys id
  if !slot.isOccupied then some c
  else if slot.bonusTimeLeft ≤ amount.toUInt16 then
    if slot.option = .AutomaticReroll then
      match usePreyCards c.state (toUInt16 env.PREY_BONUS_REROLL_PRICE) with
      | some s =>
        (slot.reloadBonus c.draws).map fun r =>
          { state := s.setSlot id { r.1 with bonusTimeLeft := toUInt16 env.PREY_BONUS_TIME }
            texts := c.texts ++ ["Your prey bonus type and time has been succesfully reseted."]
            draws := r.2 }
      | none => some (c.erase id "You don't have enought prey cards to enable automatic reroll when your slot expire.")
    else if slot.option = .Locked then
      match usePreyCards c.state (toUInt16 env.PREY_SELECTION_LIST_PRICE) with
      | some s =>
        some { c with
          state := s.setSlot id { slot with bonusTimeLeft := toUInt16 env.PREY_BONUS_TIME }
          texts := c.texts ++ ["Your prey bonus time has been succesfully reseted."] }
      | none => some (c.erase id "You don't have enought prey cards to lock monster and bonus when the slot expire.")
    else
      (slot.reloadMonsterGrid env (getPreyBlackList c.state) m.level c.draws).map fun r =>
        { c with state := c.state.setSlot id r.1, draws := r.2 }.erase id "Your prey bonus has expired."
  else some { c with
    state := c.state.setSlot id { slot with bonusTimeLeft := slot.bonusTimeLeft - amount.toUInt16 } }

/-- `IOPrey::checkPlayerPreys`. -/
def checkPlayerPreys (env : PreyEnv) (m : Moment) (s : State) (amount : UInt8) (draws : List Nat) : Option Check :=
  PreySlotId.all.foldlM (checkSlot env m amount) { state := s, texts := [], draws }

/-! ### What the client asks for -/

/-- How `parsePreyAction` ends: with a dialog, with a warning in the log, or with the slot sent to the client. -/
inductive Reply where
  | dialog (message : String)
  | unknownAction (action : UInt8)
  | reloadPreySlot
  deriving DecidableEq

/-- A request of the client. The slot is none where the byte is not that of a slot. -/
structure Request where
  slotId : Option PreySlotId
  action : PreyAction
  option : PreyOption
  index : Int8
  raceId : UInt16

/-- The price of a new list is due while it is not free. -/
def payReroll (env : PreyEnv) (m : Moment) (player : Market.Player) (slot : PreySlot) : Market.Player × Bool :=
  if slot.freeRerollTimeStamp > m.now₁ then player.removeMoney (getPreyRerollPrice env m).toUInt64 true else (player, true)

/-- The slot that a new list is made for. -/
def PreySlot.reroll (env : PreyEnv) (m : Moment) (slot : PreySlot) : PreySlot :=
  let slot := if slot.freeRerollTimeStamp ≤ m.now₂ then
    { slot with freeRerollTimeStamp := m.now₃ + env.PREY_FREE_REROLL_TIME * 1000 } else slot
  let slot := slot.eraseBonus true
  if slot.bonus ≠ .None then { slot with state := .SelectionChangeMonster } else slot

/-- `PreyAction_ListReroll`. -/
def listReroll (env : PreyEnv) (m : Moment) (s : State) (id : PreySlotId) (draws : List Nat) : Option (State × Reply) :=
  let slot := s.preys id
  let paid := payReroll env m s.player slot
  if !paid.2 then some (s, .dialog "You don't have enought money to reroll the prey slot.")
  else
    let s := { s with player := paid.1 }.setSlot id (slot.reroll env m)
    ((slot.reroll env m).reloadMonsterGrid env (getPreyBlackList s) m.level draws).map fun r =>
      (s.setSlot id r.1, .reloadPreySlot)

/-- `PreyAction_ListAll_Cards`. -/
def listAllCards (env : PreyEnv) (s : State) (id : PreySlotId) : State × Reply :=
  match usePreyCards s (toUInt16 env.PREY_SELECTION_LIST_PRICE) with
  | none => (s, .dialog "You don't have enought prey cards to choose a monsters on the list.")
  | some s =>
    (s.setSlot id { s.preys id with bonusTimeLeft := 0, selectedRaceId := 0, state := .ListSelection }, .reloadPreySlot)

/-- A creature is selected: the end of the branches `PreyAction_ListAll_Selection` and `PreyAction_MonsterSelection`. -/
def select (env : PreyEnv) (s : State) (id : PreySlotId) (raceId : UInt16) (draws : List Nat) : Option (State × Reply) :=
  let slot := s.preys id
  (if slot.bonus = .None then (slot.reloadBonus draws).map (·.1) else some slot).map fun slot =>
    (s.setSlot id { { slot with state := .Active, selectedRaceId := raceId }.removeMonsterType raceId with
      bonusTimeLeft := toUInt16 env.PREY_BONUS_TIME }, .reloadPreySlot)

/-- `PreyAction_ListAll_Selection`. -/
def listAllSelection (env : PreyEnv) (s : State) (id : PreySlotId) (raceId : UInt16) (draws : List Nat) :
    Option (State × Reply) :=
  let slot := s.preys id
  if slot.isOccupied then some (s, .dialog "You already have an active monster on this prey slot.")
  else if !slot.canSelect ∨ slot.state ≠ .ListSelection then
    some (s, .dialog "There was an error while processing your action. Please try reopening the prey window.")
  else if getPreyWithMonster env s raceId then
    some (s, .dialog "This creature is already selected on another slot.")
  else if (env.getMonsterTypeByRaceId raceId).any (!·.isPreyable) then
    some (s, .dialog "This creature can't be select on prey. Please choose another one.")
  else select env s id raceId draws

/-- `PreyAction_BonusReroll`. -/
def bonusReroll (env : PreyEnv) (s : State) (id : PreySlotId) (draws : List Nat) : Option (State × Reply) :=
  if !(s.preys id).isOccupied then some (s, .dialog "You don't have any active monster on this prey slot.")
  else match usePreyCards s (toUInt16 env.PREY_BONUS_REROLL_PRICE) with
    | none => some (s, .dialog "You don't have enought prey cards to reroll this prey slot bonus type.")
    | some s =>
      ((s.preys id).reloadBonus draws).map fun r =>
        (s.setSlot id { r.1 with bonusTimeLeft := toUInt16 env.PREY_BONUS_TIME }, .reloadPreySlot)

/-- `PreyAction_MonsterSelection`. A negative index but -1 becomes a large unsigned one. -/
def monsterSelection (env : PreyEnv) (s : State) (id : PreySlotId) (index : Int8) (draws : List Nat) :
    Option (State × Reply) :=
  let slot := s.preys id
  let error := (s, .dialog "There was an error while processing your action. Please try reopening the prey window.")
  if slot.isOccupied then some (s, .dialog "You already have an active monster on this prey slot.")
  else if !slot.canSelect ∨ index.toInt < 0 then some error
  else match slot.raceIdList[index.toInt.toNat]? with
    | none => some error
    | some raceId =>
      if getPreyWithMonster env s raceId then some (s, .dialog "This creature is already selected on another slot.")
      else select env s id raceId draws

/-- `PreyAction_Option`. -/
def setOption (env : PreyEnv) (s : State) (id : PreySlotId) (option : PreyOption) : State × Reply :=
  if option = .AutomaticReroll ∧ s.preyCards < env.PREY_BONUS_REROLL_PRICE.toInt64.toUInt64 then
    (s, .dialog "You don't have enought prey cards to enable automatic reroll when your slot expire.")
  else if option = .Locked ∧ s.preyCards < env.PREY_SELECTION_LIST_PRICE.toInt64.toUInt64 then
    (s, .dialog "You don't have enought prey cards to lock monster and bonus when the slot expire.")
  else (s.setSlot id { s.preys id with option }, .reloadPreySlot)

/-- The branches of `IOPrey::parsePreyAction`, for a slot that is there and not locked. -/
def act (env : PreyEnv) (m : Moment) (s : State) (id : PreySlotId) (r : Request) (draws : List Nat) :
    Option (State × Reply) :=
  match r.action with
  | .ListReroll => listReroll env m s id draws
  | .ListAll_Cards => some (listAllCards env s id)
  | .ListAll_Selection => listAllSelection env s id r.raceId draws
  | .BonusReroll => bonusReroll env s id draws
  | .MonsterSelection => monsterSelection env s id r.index draws
  | .Option => some (setOption env s id r.option)
  | .unknown action => some (s, .unknownAction action)

/-- `IOPrey::parsePreyAction`. -/
def parsePreyAction (env : PreyEnv) (m : Moment) (s : State) (r : Request) (draws : List Nat) : Option (State × Reply) :=
  let locked := (s, .dialog "To unlock this prey slot first you must buy it on store.")
  match r.slotId with
  | none => some locked
  | some id => if (s.preys id).state = .Locked then some locked else act env m s id r draws

/-! ### Runs -/

inductive Call where
  | parsePreyAction (m : Moment) (r : Request) (draws : List Nat)
  | checkPlayerPreys (m : Moment) (amount : UInt8) (draws : List Nat)

/-- The state that a call leaves; none where it does not return with these draws. -/
def perform (env : PreyEnv) (s : State) : Call → Option State
  | .parsePreyAction m r draws => (parsePreyAction env m s r draws).map (·.1)
  | .checkPlayerPreys m amount draws => (checkPlayerPreys env m s amount draws).map (·.state)

/-- A call that does not return changes nothing that a later one sees. -/
def step (env : PreyEnv) (s : State) (call : Call) : State := (perform env s call).getD s

end CrystalServer.Prey

/-! ## Hunting tasks

The slots of the hunting tasks (`io/ioprey.cpp`), as far as their lists go. Their loop is that of the prey slots. -/

namespace CrystalServer.Prey

structure TaskHuntingEnv extends PreyEnv where
  TASK_HUNTING_ENABLED : Bool

structure TaskHuntingSlot where
  selectedRaceId : UInt16 := 0
  raceIdList : List UInt16 := []
  deriving DecidableEq

namespace TaskHuntingSlot

def isOccupied (slot : TaskHuntingSlot) : Bool := slot.selectedRaceId ≠ 0

def reloadMonsterGrid (env : TaskHuntingEnv) (slot : TaskHuntingSlot) (blackList : List UInt16) (level : UInt32)
    (draws : List Nat) : Option (TaskHuntingSlot × List Nat) :=
  if !env.TASK_HUNTING_ENABLED ∨ env.bestiary.length < 36 then some ({ slot with raceIdList := [] }, draws)
  else ((Grid.start blackList level).loop env.toPreyEnv draws).map fun r => ({ slot with raceIdList := r.1 }, r.2)

end TaskHuntingSlot

/-- The slots are made one after the other, so there may be fewer than three. -/
def getTaskHuntingBlackList (taskHunting : List TaskHuntingSlot) : List UInt16 :=
  taskHunting.flatMap fun slot => if slot.isOccupied then [slot.selectedRaceId] else slot.raceIdList

end CrystalServer.Prey
