import CrystalServer.Creatures.PlayerQuery

/-! # Adding and moving items

`Game::internalAddItem` into a container or a player, and `Game::internalMoveItem` between containers that are no browse
fields (`game/game.cpp`). Notifications, sounds and what is sent to a client are left out. -/

/-! ## Adding items -/

namespace CrystalServer

/-! ### Cylinders -/

namespace Cylinder
variable (env : Env) (w : World)

/-- `getItem`: a container is an item. -/
def getItem : Cylinder → Option Ref
  | .container c => some c
  | .player _ => none

def queryDestination (index : Int) (item : Ref) (destItem : Option Ref) (flags : UInt32) : Cylinder → Place
  | .container c =>
    let d := Container.queryDestination env w c index item destItem flags
    ⟨.container d.cylinder, d.index, d.destItem⟩
  | .player p => Player.queryDestination env w p index item destItem flags

def queryAdd (index : Int) (item : Ref) (count flags : UInt32) : Cylinder → ReturnValue
  | .container c => Container.queryAdd env w c index item count flags
  | .player p => Player.queryAdd env w p index item count flags

def queryMaxCount (index : Int) (item : Ref) (count flags : UInt32) : Cylinder → ReturnValue × UInt32
  | .container c => Container.queryMaxCount env w c index item count flags
  | .player p => Player.queryMaxCount env w p index item count flags

def queryRemove (item : Ref) (count flags : UInt32) : Cylinder → ReturnValue
  | .container c => Container.queryRemove env w c item count flags
  | .player p => Player.queryRemove env w p item count flags

def updateThing (thing : Ref) (itemId : UInt16) (count : UInt32) : Cylinder → World
  | .container c => Container.updateThing env.items w c thing itemId count
  | .player p => Player.updateThing env w p thing itemId count

def addThing (index : Int) (thing : Option Ref) : Cylinder → World
  | .container c => Container.addThing env.items w c index thing
  | .player p => Player.addThing w p index thing

def removeThing (thing : Ref) (count : UInt32) : Cylinder → World
  | .container c => Container.removeThing env.items w c thing count
  | .player p => Player.removeThing env w p thing count

end Cylinder

namespace Game

/-- `Game::internalAddItem`, with `remainderCount`, which it leaves at 0 or sets. A call for a remainder is for
    less than the call before, so that the count bounds the calls. -/
def internalAddItemLoop (env : Env) : Nat → World → Cylinder → Ref → Int → UInt32 → Bool → World × ReturnValue × Nat
  | 0, w, _, _, _, _, _ => (w, .NOTPOSSIBLE, 0)
  | fuel + 1, w, destCylinder, item, index, flags, test =>
    let itemCount := UInt32.ofNat (w.item item).getItemCount
    let place := destCylinder.queryDestination env w index item none flags
    let toCylinder := place.cylinder
    if toCylinder.queryAdd env w place.index item itemCount flags ≠ .NOERROR then
      (w, toCylinder.queryAdd env w place.index item itemCount flags, 0)
    else
      let (ret, maxQueryCount) := destCylinder.queryMaxCount env w INDEX_WHEREEVER item itemCount flags
      if ret ≠ .NOERROR ∧ (destCylinder.getItem.any fun addedItem => (w.item addedItem).id != ITEM_REWARD_CONTAINER) then
        (w, ret, 0)
      else if test then (w, .NOERROR, 0)
      else
        match place.destItem.filter fun toItem => (w.item item).isStackable env.items && w.equals item toItem with
        | some toItem =>
          let toItemCount := UInt32.ofNat (w.item toItem).getItemCount
          let m := min itemCount maxQueryCount
          let n := min (.ofNat ((w.item toItem).getStackSize env.items) - toItemCount) m
          let w := toCylinder.updateThing env w toItem (w.item toItem).id (toItemCount + n)
          let count := (m - n).toInt32.toInt
          if count > 0 then
            if itemCount.toNat ≠ count then
              let remainderItem := w.next
              let w := w.new (((w.item item).clone env.items).setItemCount (UInt8.ofInt count).toNat)
              let (w, ret, _) := internalAddItemLoop env fuel w destCylinder remainderItem INDEX_WHEREEVER flags false
              (w, .NOERROR, if ret ≠ .NOERROR then count.toNat else 0)
            else (toCylinder.addThing env w place.index (some item), .NOERROR, 0)
          else (w, .NOERROR, 0)
        | none => (toCylinder.addThing env w place.index (some item), .NOERROR, 0)

def internalAddItem (env : Env) (w : World) (toCylinder : Cylinder) (item : Ref) (index : Int) (flags : UInt32)
    (test : Bool) : World × ReturnValue × Nat :=
  internalAddItemLoop env ((w.item item).getItemCount + 1) w toCylinder item index flags test

end Game
end CrystalServer

/-! ## Moving items

Decay is left out: nothing decays in a container that lies nowhere. -/

namespace CrystalServer.Game
open Container

def MAP_MAX_LAYERS : Nat := 16

section
variable (env : Env) (w : World)

/-- The loop over `queryDestination`, for the rounds that `floorN` leaves. -/
def destinationLoop (item : Ref) : Nat → Destination → UInt32 → Destination × UInt32
  | 0, d, flags => (d, flags)
  | n + 1, d, flags =>
    let sub := queryDestination env w d.cylinder d.index item d.destItem flags
    if sub.cylinder = d.cylinder then (sub, flags) else destinationLoop item n sub 0

/-- The count of "move up", which the client does not send. -/
def moveUpCount (fromCylinder toCylinder item : Ref) (count : UInt32) : UInt32 :=
  if (w.item item).isStackable env.items ∧ count = 255 ∧ w.getParent fromCylinder = some (.container toCylinder) then
    .ofNat (w.item item).getItemCount
  else count

/-- What follows on `RETURNVALUE_NEEDEXCHANGE`. -/
def moveExchange (fromCylinder : Ref) (d : Destination) (item : Ref) (count flags : UInt32) :
    World × ReturnValue × Option Ref :=
  match d.destItem with
  | none => (w, .NEEDEXCHANGE, none)
  | some toItem =>
    let toItemCount := UInt32.ofNat (w.item toItem).getItemCount
    let ret := queryAdd env w fromCylinder (((w.itemlist fromCylinder).idxOf? item).getD 0) toItem toItemCount 0
    if ret ≠ .NOERROR then (w, ret, some toItem)
    else
      let (retExchangeMaxCount, maxExchangeQueryCount) :=
        queryMaxCount env w fromCylinder INDEX_WHEREEVER toItem toItemCount 0
      if retExchangeMaxCount ≠ .NOERROR ∧ maxExchangeQueryCount = 0 then (w, retExchangeMaxCount, some toItem)
      else if queryRemove env w d.cylinder toItem toItemCount flags = .NOERROR then
        let w := removeThing env.items w d.cylinder toItem toItemCount
        let w := addThing env.items w fromCylinder 0 (some toItem)
        (w, queryAdd env w d.cylinder d.index item count flags, none)
      else (w, ret, some toItem)

/-- The cylinder is the traded item or lies inside it: the loop over `tmpCylinder`. -/
def insideTradeItemLoop (tradeItem : Ref) : Nat → Option Cylinder → Bool
  | n + 1, some (.container tmpCylinder) =>
    tmpCylinder = tradeItem || insideTradeItemLoop tradeItem n (w.getParent tmpCylinder)
  | _, _ => false

def insideTradeItem (toCylinder : Ref) (tradeItem : Option Ref) : Bool :=
  match tradeItem with
  | none => false
  | some tradeItem => toCylinder = tradeItem || insideTradeItemLoop w tradeItem w.next (w.getParent toCylinder)

end

variable (items : UInt16 → ItemType)

/-- The rest of a moved stack goes in as a new item. -/
def moveRest (w : World) (toCylinder : Ref) (index : Int) (item : Ref) (newCount : Int) : World :=
  if newCount > 0 then
    let moveItem := w.next
    let w := w.new (((w.item item).clone items).setItemCount (UInt8.ofInt newCount).toNat)
    addThing items w toCylinder index (some moveItem)
  else w

/-- A stack was removed: it goes to `toItem` first. -/
def moveStack (w : World) (toCylinder : Ref) (index : Int) (item : Ref) (m : UInt32) (toItem : Option Ref) : World :=
  match toItem.filter fun toItem => w.equals item toItem with
  | some toItem =>
    let toItemCount := UInt32.ofNat (w.item toItem).getItemCount
    let n := min (.ofNat ((w.item toItem).getStackSize items) - toItemCount) m
    let w := updateThing items w toCylinder toItem (w.item toItem).id (toItemCount + n)
    moveRest items w toCylinder index item (m - n).toInt32.toInt
  | none => moveRest items w toCylinder index item m.toInt32.toInt

/-- What happens once nothing stands against the move. -/
def moveThing (w : World) (fromCylinder toCylinder : Ref) (index : Int) (item : Ref) (m : UInt32)
    (toItem : Option Ref) : World :=
  let w := removeThing items w fromCylinder item m
  if (w.item item).isStackable items then moveStack items w toCylinder index item m toItem
  else addThing items w toCylinder index (some item)

/-- How much of what `queryMaxCount` allows is moved. -/
def moveCount (item : Item) (count maxQueryCount : UInt32) : UInt32 :=
  if item.isStackable items then min count maxQueryCount else maxQueryCount

/-- `Game::internalMoveItem`. -/
def internalMoveItem (env : Env) (w : World) (fromCylinder toCylinder : Ref) (index : Int) (item : Ref)
    (count flags : UInt32) (tradeItem : Option Ref) : World × ReturnValue :=
  let (d, flags) := destinationLoop env w item MAP_MAX_LAYERS ⟨toCylinder, index, none⟩ flags
  if d.destItem = some item then (w, .NOERROR)
  else
    let count := moveUpCount env w fromCylinder d.cylinder item count
    if queryRemove env w fromCylinder item 1 flags ≠ .NOERROR then (w, queryRemove env w fromCylinder item 1 flags)
    else
      let ret := queryAdd env w d.cylinder d.index item count flags
      let (w, ret, toItem) :=
        if ret = .NEEDEXCHANGE then moveExchange env w fromCylinder d item count flags else (w, ret, d.destItem)
      if ret ≠ .NOERROR then (w, ret)
      else
        let (retMaxCount, maxQueryCount) := queryMaxCount env w d.cylinder d.index item count flags
        if retMaxCount ≠ .NOERROR ∧ maxQueryCount = 0 then (w, retMaxCount)
        else
          let m := moveCount env.items (w.item item) count maxQueryCount
          if queryRemove env w fromCylinder item m flags ≠ .NOERROR then
            (w, queryRemove env w fromCylinder item m flags)
          else if insideTradeItem w d.cylinder tradeItem then (w, .NOTENOUGHROOM)
          else
            let w := moveThing env.items w fromCylinder d.cylinder d.index item m toItem
            (w, if (w.item item).isStackable env.items ∧ maxQueryCount < count then retMaxCount else .NOERROR)

end CrystalServer.Game
