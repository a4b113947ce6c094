import Mathlib.Logic.Function.Basic

/-! # The slots of the wheel

The points that a player gives to the slots of the wheel of destiny (`creatures/players/wheel/player_wheel.cpp`,
`io/io_wheel.cpp`), and what the number of points to give depends on. The wheel's bonuses are left out. -/

namespace CrystalServer.WheelSlots
/-- `WheelSlots_t`. -/
inductive WheelSlot where
  | GREEN_200 | GREEN_TOP_150 | GREEN_TOP_100 | RED_TOP_100 | RED_TOP_150 | RED_200
  | GREEN_BOTTOM_150 | GREEN_MIDDLE_100 | GREEN_TOP_75 | RED_TOP_75 | RED_MIDDLE_100 | RED_BOTTOM_150
  | GREEN_BOTTOM_100 | GREEN_BOTTOM_75 | GREEN_50 | RED_50 | RED_BOTTOM_75 | RED_BOTTOM_100
  | BLUE_TOP_100 | BLUE_TOP_75 | BLUE_50 | PURPLE_50 | PURPLE_TOP_75 | PURPLE_TOP_100
  | BLUE_TOP_150 | BLUE_MIDDLE_100 | BLUE_BOTTOM_75 | PURPLE_BOTTOM_75 | PURPLE_MIDDLE_100 | PURPLE_TOP_150
  | BLUE_200 | BLUE_BOTTOM_150 | BLUE_BOTTOM_100 | PURPLE_BOTTOM_100 | PURPLE_BOTTOM_150 | PURPLE_200
  deriving DecidableEq

open WheelSlot

/-- `magic_enum::enum_values<WheelSlots_t>()`. -/
def enum_values : List WheelSlot :=
  [GREEN_200, GREEN_TOP_150, GREEN_TOP_100, RED_TOP_100, RED_TOP_150, RED_200, GREEN_BOTTOM_150,
    GREEN_MIDDLE_100, GREEN_TOP_75, RED_TOP_75, RED_MIDDLE_100, RED_BOTTOM_150, GREEN_BOTTOM_100,
    GREEN_BOTTOM_75, GREEN_50, RED_50, RED_BOTTOM_75, RED_BOTTOM_100, BLUE_TOP_100, BLUE_TOP_75, BLUE_50,
    PURPLE_50, PURPLE_TOP_75, PURPLE_TOP_100, BLUE_TOP_150, BLUE_MIDDLE_100, BLUE_BOTTOM_75,
    PURPLE_BOTTOM_75, PURPLE_MIDDLE_100, PURPLE_TOP_150, BLUE_200, BLUE_BOTTOM_150, BLUE_BOTTOM_100,
    PURPLE_BOTTOM_100, PURPLE_BOTTOM_150, PURPLE_200]

/-- How many points a slot takes. -/
def getMaxPointsPerSlot : WheelSlot → UInt16
  | BLUE_50 | RED_50 | PURPLE_50 | GREEN_50 => 50
  | GREEN_TOP_75 | RED_TOP_75 | GREEN_BOTTOM_75 | RED_BOTTOM_75 | BLUE_TOP_75 | PURPLE_TOP_75 |
    BLUE_BOTTOM_75 | PURPLE_BOTTOM_75 => 75
  | GREEN_TOP_100 | RED_TOP_100 | GREEN_MIDDLE_100 | RED_MIDDLE_100 | GREEN_BOTTOM_100 | RED_BOTTOM_100 |
    BLUE_TOP_100 | PURPLE_TOP_100 | BLUE_MIDDLE_100 | PURPLE_MIDDLE_100 | BLUE_BOTTOM_100 |
    PURPLE_BOTTOM_100 => 100
  | GREEN_TOP_150 | RED_TOP_150 | GREEN_BOTTOM_150 | RED_BOTTOM_150 | BLUE_TOP_150 | PURPLE_TOP_150 |
    BLUE_BOTTOM_150 | PURPLE_BOTTOM_150 => 150
  | GREEN_200 | RED_200 | PURPLE_200 | BLUE_200 => 200

/-- `IOWheel::getSlotPrioritaryOrder`. -/
def getSlotPrioritaryOrder : WheelSlot → Int8
  | BLUE_50 | RED_50 | PURPLE_50 | GREEN_50 => 0
  | GREEN_TOP_75 | RED_TOP_75 | GREEN_BOTTOM_75 | RED_BOTTOM_75 | BLUE_TOP_75 | PURPLE_TOP_75 |
    BLUE_BOTTOM_75 | PURPLE_BOTTOM_75 => 1
  | GREEN_TOP_100 | RED_TOP_100 | GREEN_MIDDLE_100 | RED_MIDDLE_100 | GREEN_BOTTOM_100 | RED_BOTTOM_100 |
    BLUE_TOP_100 | PURPLE_TOP_100 | BLUE_MIDDLE_100 | PURPLE_MIDDLE_100 | BLUE_BOTTOM_100 |
    PURPLE_BOTTOM_100 => 2
  | GREEN_TOP_150 | RED_TOP_150 | GREEN_BOTTOM_150 | RED_BOTTOM_150 | BLUE_TOP_150 | PURPLE_TOP_150 |
    BLUE_BOTTOM_150 | PURPLE_BOTTOM_150 => 3
  | GREEN_200 | RED_200 | PURPLE_200 | BLUE_200 => 4

/-- The wheel points from which on `canPlayerSelectPointOnSlot` lets a slot be chosen. -/
def requiredPoints : WheelSlot → UInt16
  | BLUE_50 | RED_50 | PURPLE_50 | GREEN_50 => 0
  | GREEN_TOP_75 | RED_TOP_75 | GREEN_BOTTOM_75 | RED_BOTTOM_75 | BLUE_TOP_75 | PURPLE_TOP_75 |
    BLUE_BOTTOM_75 | PURPLE_BOTTOM_75 => 50
  | GREEN_TOP_100 | RED_TOP_100 | GREEN_MIDDLE_100 | RED_MIDDLE_100 | GREEN_BOTTOM_100 | RED_BOTTOM_100 |
    BLUE_TOP_100 | PURPLE_TOP_100 | BLUE_MIDDLE_100 | PURPLE_MIDDLE_100 | BLUE_BOTTOM_100 |
    PURPLE_BOTTOM_100 => 125
  | GREEN_TOP_150 | RED_TOP_150 | GREEN_BOTTOM_150 | RED_BOTTOM_150 | BLUE_TOP_150 | PURPLE_TOP_150 |
    BLUE_BOTTOM_150 | PURPLE_BOTTOM_150 => 225
  | GREEN_200 | RED_200 | PURPLE_200 | BLUE_200 => 375

/-- The slots of which `canPlayerSelectPointOnSlot` wants a full one. -/
def neighbours : WheelSlot → List WheelSlot
  | GREEN_200 => [GREEN_TOP_150, GREEN_BOTTOM_150]
  | GREEN_TOP_150 => [GREEN_TOP_100, GREEN_MIDDLE_100, GREEN_BOTTOM_150]
  | GREEN_BOTTOM_150 => [GREEN_MIDDLE_100, GREEN_BOTTOM_100, GREEN_TOP_150]
  | GREEN_TOP_100 => [RED_TOP_100, GREEN_TOP_75, GREEN_MIDDLE_100, GREEN_MIDDLE_100]
  | GREEN_MIDDLE_100 => [GREEN_TOP_100, GREEN_TOP_75, GREEN_BOTTOM_75, GREEN_BOTTOM_100]
  | GREEN_BOTTOM_100 => [GREEN_MIDDLE_100, GREEN_BOTTOM_75, BLUE_TOP_100, GREEN_BOTTOM_150]
  | GREEN_TOP_75 => [GREEN_50, RED_TOP_75, GREEN_BOTTOM_75, GREEN_MIDDLE_100, GREEN_TOP_100]
  | GREEN_BOTTOM_75 => [GREEN_50, BLUE_TOP_75, GREEN_MIDDLE_100, GREEN_BOTTOM_100, GREEN_TOP_75]
  | GREEN_50 => []
  | RED_200 => [RED_TOP_150, RED_BOTTOM_150]
  | RED_TOP_150 => [RED_TOP_100, RED_MIDDLE_100, RED_BOTTOM_150]
  | RED_BOTTOM_150 => [RED_MIDDLE_100, RED_BOTTOM_100, RED_TOP_150]
  | RED_TOP_100 => [RED_TOP_75, GREEN_TOP_100, RED_MIDDLE_100, RED_TOP_150]
  | RED_MIDDLE_100 => [RED_TOP_75, RED_BOTTOM_75, RED_BOTTOM_100, RED_TOP_100]
  | RED_BOTTOM_100 => [RED_BOTTOM_75, PURPLE_TOP_100, RED_MIDDLE_100, RED_BOTTOM_150]
  | RED_TOP_75 => [RED_50, GREEN_TOP_75, RED_TOP_100, RED_MIDDLE_100, RED_BOTTOM_75]
  | RED_BOTTOM_75 => [RED_50, PURPLE_TOP_75, RED_BOTTOM_100, RED_MIDDLE_100, RED_TOP_75]
  | RED_50 => []
  | PURPLE_200 => [PURPLE_TOP_150, PURPLE_BOTTOM_150]
  | PURPLE_TOP_150 => [PURPLE_MIDDLE_100, PURPLE_TOP_100, PURPLE_BOTTOM_150]
  | PURPLE_BOTTOM_150 => [PURPLE_MIDDLE_100, PURPLE_BOTTOM_100, PURPLE_TOP_150]
  | PURPLE_TOP_100 => [PURPLE_TOP_75, RED_BOTTOM_100, PURPLE_MIDDLE_100, PURPLE_TOP_150]
  | PURPLE_MIDDLE_100 => [PURPLE_TOP_75, PURPLE_BOTTOM_75, PURPLE_BOTTOM_100, PURPLE_TOP_100]
  | PURPLE_BOTTOM_100 => [PURPLE_BOTTOM_75, BLUE_BOTTOM_100, PURPLE_MIDDLE_100, PURPLE_BOTTOM_150]
  | PURPLE_TOP_75 => [PURPLE_50, RED_BOTTOM_75, PURPLE_BOTTOM_75, PURPLE_MIDDLE_100, PURPLE_TOP_100]
  | PURPLE_BOTTOM_75 => [PURPLE_50, BLUE_BOTTOM_75, PURPLE_TOP_75, PURPLE_MIDDLE_100, PURPLE_BOTTOM_100]
  | PURPLE_50 => []
  | BLUE_200 => [BLUE_TOP_150, BLUE_BOTTOM_150]
  | BLUE_TOP_150 => [BLUE_MIDDLE_100, BLUE_TOP_100, BLUE_BOTTOM_150]
  | BLUE_BOTTOM_150 => [BLUE_MIDDLE_100, BLUE_BOTTOM_100, BLUE_TOP_150]
  | BLUE_TOP_100 => [BLUE_TOP_75, GREEN_BOTTOM_100, BLUE_MIDDLE_100, BLUE_TOP_150]
  | BLUE_MIDDLE_100 => [BLUE_TOP_75, BLUE_BOTTOM_75, BLUE_BOTTOM_100, BLUE_TOP_100]
  | BLUE_BOTTOM_100 => [BLUE_BOTTOM_75, PURPLE_BOTTOM_100, BLUE_MIDDLE_100, BLUE_BOTTOM_150]
  | BLUE_TOP_75 => [BLUE_50, GREEN_BOTTOM_75, BLUE_BOTTOM_75, BLUE_MIDDLE_100, BLUE_TOP_100]
  | BLUE_BOTTOM_75 => [BLUE_50, PURPLE_BOTTOM_75, BLUE_TOP_75, BLUE_MIDDLE_100, BLUE_BOTTOM_100]
  | BLUE_50 => []

/-- The slots that `canPlayerSelectPointOnSlot` lets be chosen always. -/
def isFirst : WheelSlot → Bool
  | GREEN_50 | RED_50 | PURPLE_50 | BLUE_50 => true
  | _ => false

structure PromotionScroll where
  itemId : UInt16
  name : String
  extraPoints : UInt8

def WheelOfDestinyPromotionScrolls : List PromotionScroll :=
  [⟨43946, "abridged", 3⟩, ⟨43947, "basic", 5⟩, ⟨43948, "revised", 9⟩, ⟨43949, "extended", 13⟩,
    ⟨43950, "advanced", 20⟩]

/-- The fields of `PlayerWheel`, and of the player the level, whether the vocation, the premium time and the promotion
    let the wheel be opened, and whether the monk quest is done. -/
structure State where
  m_wheelSlots : WheelSlot → UInt16
  m_pointsPerLevel : UInt16
  m_unlockedScrolls : List PromotionScroll
  m_basicGrades : UInt8 → UInt8
  m_supremeGrades : UInt8 → UInt8
  m_modsMaxGrade : UInt8
  level : UInt32
  mayOpen : Bool
  hasMonkQuest : Bool

def m_minLevelToStartCountPoints : UInt32 := 50

def canOpenWheel (s : State) : Bool := s.mayOpen && !(s.level ≤ 50)

/-! ### The points -/

def getExtraPoints (s : State) : UInt16 :=
  if s.level < 51 then 0
  else
    let totalBonus := s.m_unlockedScrolls.foldl
      (fun totalBonus scroll => if scroll.itemId = 0 then totalBonus else totalBonus + scroll.extraPoints.toUInt16) 0
    if s.hasMonkQuest then totalBonus + 10 else totalBonus

def getWheelPoints (s : State) : UInt16 :=
  let totalPoints := max 0 (s.level - m_minLevelToStartCountPoints) * s.m_pointsPerLevel.toUInt32
  (totalPoints + (getExtraPoints s).toUInt32).toUInt16

def setPointsBySlotType (s : State) (slot : WheelSlot) (points : UInt16) : State :=
  { s with m_wheelSlots := Function.update s.m_wheelSlots slot points }

def getUnusedPoints (s : State) : UInt16 :=
  let totalPoints := getWheelPoints s
  if totalPoints = 0 then 0
  else
    enum_values.foldl (fun totalPoints slot => totalPoints - s.m_wheelSlots slot)
      (totalPoints + s.m_modsMaxGrade.toUInt16)

/-! ### Choosing slots -/

def canSelectSlotFullOrPartial (s : State) (slot : WheelSlot) : Bool :=
  s.m_wheelSlots slot == getMaxPointsPerSlot slot

def canPlayerSelectPointOnSlot (s : State) (slot : WheelSlot) : Bool :=
  if isFirst slot then true
  else if getWheelPoints s < requiredPoints slot then false
  else (neighbours slot).any (canSelectSlotFullOrPartial s)

/-- `checkSavePointsBySlotType`. A slot whose points are refused for want of points is left empty. -/
def checkSavePointsBySlotType (s : State) (slot : WheelSlot) (points : UInt16) : State × Bool :=
  if points > 0 ∧ !canPlayerSelectPointOnSlot s slot then (s, false)
  else
    let s := setPointsBySlotType s slot 0
    if points > getUnusedPoints s then (s, false) else (setPointsBySlotType s slot points, true)

structure SlotInfo where
  order : Int8
  slot : WheelSlot
  points : UInt16

/-- `saveSlotPointsHandleRetryErrors`, with the table that is left. The first round does the same. -/
def saveSlotPointsHandleRetryErrors (s : State) : List SlotInfo → State × List SlotInfo
  | [] => (s, [])
  | data :: retryTable =>
    let (s, saved) := checkSavePointsBySlotType s data.slot data.points
    let (s, temporaryTable) := saveSlotPointsHandleRetryErrors s retryTable
    (s, if saved then temporaryTable else data :: temporaryTable)

/-- Rounds of retries. -/
def retryLoop : Nat → State → List SlotInfo → State
  | 0, s, _ => s
  | n + 1, s, sortedTableRetry =>
    let (s, sortedTableRetry) := saveSlotPointsHandleRetryErrors s sortedTableRetry
    retryLoop n s sortedTableRetry

section
variable (sort : List SlotInfo → List SlotInfo)

/-- `saveSlotPointsOnPressSaveButton`, for a message with the points of each slot. `sort` is `std::ranges::sort`, which
    may swap slots of the same order. -/
def saveSlotPointsOnPressSaveButton (s : State) (message : WheelSlot → UInt16) : State :=
  if !canOpenWheel s then s
  else if enum_values.any fun slot => message slot > getMaxPointsPerSlot slot then s
  else
    let sortedTable := sort (enum_values.map fun slot => ⟨getSlotPrioritaryOrder slot, slot, message slot⟩)
    let (s, sortedTableRetry) := saveSlotPointsHandleRetryErrors s sortedTable
    retryLoop 6 s sortedTableRetry

end

/-! ### What else changes the points -/

def unlockScroll (s : State) (scrollName : String) : State :=
  if s.m_unlockedScrolls.any (·.name == scrollName) then s
  else
    match WheelOfDestinyPromotionScrolls.find? (·.name == scrollName) with
    | none => s
    | some scroll => { s with m_unlockedScrolls := s.m_unlockedScrolls ++ [scroll] }

inductive WheelFragmentType where
  | Lesser | Greater
  deriving DecidableEq

/-- `improveGemGrade`, where a grade beyond 3 has no price. -/
def improveGemGrade (s : State) (fragmentType : WheelFragmentType) (pos : UInt8) (paid : Bool) : State :=
  let grade := (match fragmentType with
    | .Lesser => s.m_basicGrades pos
    | .Greater => s.m_supremeGrades pos) + 1
  if grade = 0 ∨ grade > 3 ∨ !paid then s
  else
    let s := match fragmentType with
      | .Lesser => { s with m_basicGrades := Function.update s.m_basicGrades pos grade }
      | .Greater => { s with m_supremeGrades := Function.update s.m_supremeGrades pos grade }
    { s with m_modsMaxGrade := s.m_modsMaxGrade + if grade = 3 then 1 else 0 }

inductive Op where
  | saveSlotPointsOnPressSaveButton (message : WheelSlot → UInt16)
  | setLevel (level : UInt32)
  | unlockScroll (scrollName : String)
  | improveGemGrade (fragmentType : WheelFragmentType) (pos : UInt8) (paid : Bool)

def step (sort : List SlotInfo → List SlotInfo) (s : State) : Op → State
  | .saveSlotPointsOnPressSaveButton message => saveSlotPointsOnPressSaveButton sort s message
  | .setLevel level => { s with level := level }
  | .unlockScroll scrollName => unlockScroll s scrollName
  | .improveGemGrade fragmentType pos paid => improveGemGrade s fragmentType pos paid

end CrystalServer.WheelSlots
