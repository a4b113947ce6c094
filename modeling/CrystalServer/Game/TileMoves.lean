import CrystalServer.Game.Cylinders

/-! # Moving to and from tiles

`Game::internalMoveItem` (`game/game.cpp`) where an end may be a tile. What a tile answers depends on the creatures on
it, on what blocks the way and on other floors, so that the answers come with the call. What lies on a tile has no
parent here. -/

namespace CrystalServer

/-- What a tile answers: the thing on top that `Tile::queryDestination` finds, `Tile::queryAdd`, and what lies there. -/
structure TileAnswers where
  topItem : Option Ref
  queryAdd : World → Ref → UInt32 → ReturnValue
  holds : Ref → Bool
  isParentOf : Cylinder → Bool

/-- An end of a move. -/
inductive MoveEnd where
  | cylinder (k : Cylinder)
  | tile (answers : TileAnswers)

/-- What `queryDestination` settles on. -/
structure EndPlace where
  cylinder : MoveEnd
  index : Int
  destItem : Option Ref

namespace MoveEnd

section
variable (w : World)

def getThingIndex (thing : Ref) : MoveEnd → Int
  | .cylinder k => k.getThingIndex w thing
  | .tile _ => 0

/-- `fromCylinder->getParent() == toCylinder`. -/
def hasParent : MoveEnd → MoveEnd → Bool
  | .cylinder k, .cylinder toCylinder => k.getParent w = some toCylinder
  | .cylinder k, .tile answers => answers.isParentOf k
  | .tile _, _ => false

end

variable (env : Env) (classOf : Ref → ContainerClass) (w : World)

/-- `Tile::queryRemove`. -/
def tileQueryRemove (answers : TileAnswers) (item : Ref) (count flags : UInt32) : ReturnValue :=
  if !answers.holds item then .NOTPOSSIBLE
  else if count = 0 ∨ (w.item item).isStackable env.items ∧ count.toNat > (w.item item).getItemCount then .NOTPOSSIBLE
  else if !(env.items (w.item item).id).movable ∧ !hasBitSet FLAG_IGNORENOTMOVABLE flags then .NOTMOVABLE
  else .NOERROR

def queryRemove (item : Ref) (count flags : UInt32) : MoveEnd → ReturnValue
  | .cylinder k => k.queryRemove env w item count flags
  | .tile answers => tileQueryRemove env w answers item count flags

def queryAdd (index : Int) (item : Ref) (count flags : UInt32) (actor : Bool) : MoveEnd → ReturnValue
  | .cylinder k => Virtual.cylinderQueryAdd env classOf w index item count flags actor k
  | .tile answers => answers.queryAdd w item count

/-- `queryMaxCount`; a tile takes everything. -/
def queryMaxCount (index : Int) (item : Ref) (count flags : UInt32) : MoveEnd → ReturnValue × UInt32
  | .cylinder k => k.queryMaxCount env w index item count flags
  | .tile _ => (.NOERROR, max 1 count)

def removeThing (thing : Ref) (count : UInt32) : MoveEnd → World
  | .cylinder k => k.removeThing env w thing count
  | .tile _ =>
    if (w.item thing).isStackable env.items ∧ count.toNat ≠ (w.item thing).getItemCount then
      w.modify thing (·.setItemCount (Container.countLeft (w.item thing) count))
    else w.resetParent thing

def updateThing (thing : Ref) (itemId : UInt16) (count : UInt32) : MoveEnd → World
  | .cylinder k => k.updateThing env w thing itemId count
  | .tile _ => w.modify thing fun i => (i.setID env.items itemId).setSubType env.items count.toUInt16

def addThing (index : Int) (thing : Ref) : MoveEnd → World
  | .cylinder k => k.addThing env w index (some thing)
  | .tile _ => w

def addThingFront (thing : Ref) : MoveEnd → World
  | .cylinder k => k.addThingFront env w thing
  | .tile _ => w

/-- The loop over `queryDestination`. A tile leads to a tile. -/
def destinationLoop (item : Ref) (index : Int) (flags : UInt32) : MoveEnd → EndPlace × UInt32
  | .cylinder k =>
    let (d, flags) := Virtual.destinationLoop env classOf w item Game.MAP_MAX_LAYERS ⟨k, index, none⟩ flags
    (⟨.cylinder d.cylinder, d.index, d.destItem⟩, flags)
  | .tile answers => (⟨.tile answers, index, answers.topItem⟩, flags)

def insideTradeItem (tradeItem : Option Ref) : MoveEnd → Bool
  | .cylinder k => Virtual.insideTradeItem w tradeItem k
  | .tile _ => false

/-- The count of "move up", which the client does not send. -/
def moveUpCount (fromCylinder toCylinder : MoveEnd) (item : Ref) (count : UInt32) : UInt32 :=
  if (w.item item).isStackable env.items ∧ count = 255 ∧ hasParent w fromCylinder toCylinder then
    .ofNat (w.item item).getItemCount
  else count

/-- What follows on `RETURNVALUE_NEEDEXCHANGE`, which comes with an item to exchange. -/
def moveExchange (fromCylinder : MoveEnd) (d : EndPlace) (item : Ref) (count flags : UInt32) :
    World × ReturnValue × Option Ref :=
  match d.destItem with
  | none => (w, .NEEDEXCHANGE, none)
  | some toItem =>
    let toItemCount := UInt32.ofNat (w.item toItem).getItemCount
    let ret := fromCylinder.queryAdd env classOf w (fromCylinder.getThingIndex w item) toItem toItemCount 0 false
    if ret ≠ .NOERROR then (w, ret, some toItem)
    else
      let (retExchangeMaxCount, maxExchangeQueryCount) :=
        fromCylinder.queryMaxCount env w INDEX_WHEREEVER toItem toItemCount 0
      if retExchangeMaxCount ≠ .NOERROR ∧ maxExchangeQueryCount = 0 then (w, retExchangeMaxCount, some toItem)
      else if d.cylinder.queryRemove env w toItem toItemCount flags = .NOERROR then
        let w := d.cylinder.removeThing env w toItem toItemCount
        let w := fromCylinder.addThingFront env w toItem
        (w, d.cylinder.queryAdd env classOf w d.index item count flags false, none)
      else (w, ret, some toItem)

/-- The rest of a moved stack goes in as a new item. -/
def moveRest (toCylinder : MoveEnd) (index : Int) (item : Ref) (newCount : Int) : World :=
  if newCount > 0 then
    let moveItem := w.next
    let w := w.new (((w.item item).clone env.items).setItemCount (UInt8.ofInt newCount).toNat)
    toCylinder.addThing env w index moveItem
  else w

/-- A stack was removed: it goes to `toItem` first. -/
def moveStack (toCylinder : MoveEnd) (index : Int) (item : Ref) (m : UInt32) (toItem : Option Ref) : World :=
  match toItem.filter fun toItem => w.equals item toItem with
  | some toItem =>
    let toItemCount := UInt32.ofNat (w.item toItem).getItemCount
    let n := min (.ofNat ((w.item toItem).getStackSize env.items) - toItemCount) m
    let w := toCylinder.updateThing env w toItem (w.item toItem).id (toItemCount + n)
    moveRest env w toCylinder index item (m - n).toInt32.toInt
  | none => moveRest env w toCylinder index item m.toInt32.toInt

/-- What happens once nothing stands against the move. -/
def moveThing (fromCylinder toCylinder : MoveEnd) (index : Int) (item : Ref) (m : UInt32) (toItem : Option Ref) : World :=
  let w := fromCylinder.removeThing env w item m
  if (w.item item).isStackable env.items then moveStack env w toCylinder index item m toItem
  else toCylinder.addThing env w index item

/-- The amount that is moved, if the checks after `queryAdd` let it through, or what they answer. -/
def moveAmount (fromCylinder : MoveEnd) (d : EndPlace) (item : Ref) (count flags : UInt32) (tradeItem : Option Ref) :
    Except ReturnValue UInt32 :=
  let (retMaxCount, maxQueryCount) := d.cylinder.queryMaxCount env w d.index item count flags
  if retMaxCount ≠ .NOERROR ∧ maxQueryCount = 0 then .error retMaxCount
  else
    let m := Game.moveCount env.items (w.item item) count maxQueryCount
    let ret := fromCylinder.queryRemove env w item m flags
    if ret ≠ .NOERROR then .error ret
    else if d.cylinder.insideTradeItem w tradeItem then .error .NOTENOUGHROOM
    else .ok m

/-- `Game::internalMoveItem`. -/
def internalMoveItem (fromCylinder toCylinder : MoveEnd) (index : Int) (item : Ref) (count flags : UInt32)
    (actor : Bool) (tradeItem : Option Ref) : World × ReturnValue :=
  let (d, flags) := toCylinder.destinationLoop env classOf w item index flags
  if d.destItem = some item then (w, .NOERROR)
  else
    let count := moveUpCount env w fromCylinder d.cylinder item count
    let ret := fromCylinder.queryRemove env w item 1 flags
    if ret ≠ .NOERROR then (w, ret)
    else
      let ret := d.cylinder.queryAdd env classOf w d.index item count flags actor
      let (w, ret, toItem) :=
        if ret = .NEEDEXCHANGE then moveExchange env classOf w fromCylinder d item count flags
        else (w, ret, d.destItem)
      if ret ≠ .NOERROR then (w, ret)
      else
        match moveAmount env w fromCylinder d item count flags tradeItem with
        | .error ret => (w, ret)
        | .ok m =>
          let (retMaxCount, maxQueryCount) := d.cylinder.queryMaxCount env w d.index item count flags
          let w := moveThing env w fromCylinder d.cylinder d.index item m toItem
          (w, if (w.item item).isStackable env.items ∧ maxQueryCount < count then retMaxCount else .NOERROR)

/-- A call of `Game::internalMoveItem` or `Game::internalAddItem`, with the flags 0. -/
inductive Op where
  | internalMoveItem (fromCylinder toCylinder : MoveEnd) (index : Int) (item : Ref) (count : UInt32) (actor : Bool)
      (tradeItem : Option Ref)
  | internalAddItem (toCylinder : Cylinder) (item : Ref) (index : Int) (test : Bool)

def step : Op → World
  | .internalMoveItem fromCylinder toCylinder index item count actor tradeItem =>
    (internalMoveItem env classOf w fromCylinder toCylinder index item count 0 actor tradeItem).1
  | .internalAddItem toCylinder item index test => (Virtual.internalAddItem env classOf w toCylinder item index 0 test).1

end MoveEnd
end CrystalServer
