import CrystalServer.Game.AddItem

/-! # Moving and adding between cylinders

`Game::internalMoveItem` and `Game::internalAddItem` (`game/game.cpp`) where the source and the destination are
containers of any class, or players, and each query goes to the class that it is asked of. Notifications,
sounds and what is sent to the actor are left out. -/

namespace CrystalServer

/-! ### Cylinders -/

namespace Cylinder

/-- `getParent`; the parent of a player is a tile. -/
def getParent (w : World) : Cylinder → Option Cylinder
  | .container c => w.getParent c
  | .player _ => none

def getThingIndex (w : World) (thing : Ref) : Cylinder → Int
  | .container c => (((w.itemlist c).idxOf? thing).map Int.ofNat).getD (-1)
  | .player p => ((Player.getThingIndex w p thing).map Int.ofNat).getD (-1)

variable (env : Env) (w : World)

/-- `addThing` without an index, which does nothing for a player. -/
def addThingFront (thing : Ref) : Cylinder → World
  | .container c => Container.addThing env.items w c 0 (some thing)
  | .player _ => w

end Cylinder

namespace Virtual
open Container

section
variable (env : Env) (classOf : Ref → ContainerClass) (w : World)

/-! ### The queries -/

/-- The search of `Player::queryDestination` for an empty place in a container, with `n` counting down. -/
def emptyPlaceLoop (tmpContainer item : Ref) (flags : UInt32) : Nat → Option Int
  | 0 => none
  | n + 1 =>
    let index := (capacity w tmpContainer - .ofNat (n + 1)).toInt32.toInt
    let count := UInt32.ofNat (w.item item).getItemCount
    if queryAdd env classOf w tmpContainer index item count flags false = .NOERROR then some index
    else emptyPlaceLoop tmpContainer item flags n

/-- The loop of `Player::queryDestination` over the containers. Each is met once at most. -/
def queryDestinationContainers (this : PlayerRef) (item : Ref) (flags : UInt32) : Nat → List Ref → Option Place
  | 0, _ => none
  | _ + 1, [] => none
  | fuel + 1, tmpContainer :: containers =>
    let count := UInt32.ofNat (w.item item).getItemCount
    let autoStack := !hasBitSet FLAG_IGNOREAUTOSTACK flags
    if !autoStack ∨ !(w.item item).isStackable env.items then
      let n := capacity w tmpContainer - .ofNat (size w tmpContainer)
      match emptyPlaceLoop env classOf w tmpContainer item flags n.toNat with
      | some index => some ⟨.container tmpContainer, index, none⟩
      | none =>
        queryDestinationContainers this item flags fuel
          (containers ++ (w.itemlist tmpContainer).filter w.isContainer)
    else
      match Player.stackLoop env w this tmpContainer item (w.itemlist tmpContainer) 0 containers with
      | .inl place => some place
      | .inr (n, containers) =>
        if n < (capacity w tmpContainer).toNat
            ∧ queryAdd env classOf w tmpContainer n item count flags false = .NOERROR then
          some ⟨.container tmpContainer, n, none⟩
        else queryDestinationContainers this item flags fuel containers

/-- `queryDestination`. A player looks for a place in the containers that it carries. -/
def queryDestination (index : Int) (item : Ref) (destItem : Option Ref) (flags : UInt32) : Cylinder → Place
  | .container c => (Cylinder.container c).queryDestination env w index item destItem flags
  | .player p =>
    if index = 0 ∨ index = INDEX_WHEREEVER then
      match Player.queryDestinationSlots env w p item flags (List.range' 1 10) [] with
      | .inl place => place
      | .inr containers =>
        (queryDestinationContainers env classOf w p item flags (w.next + 1) containers).getD
          ⟨.player p, index, none⟩
    else Player.queryDestination env w p index item destItem flags

/-- `queryAdd` on a cylinder; a player does not look at the actor. -/
def cylinderQueryAdd (index : Int) (item : Ref) (count flags : UInt32) (actor : Bool) : Cylinder → ReturnValue
  | .container c => queryAdd env classOf w c index item count flags actor
  | .player p => Player.queryAdd env w p index item count flags

/-! ### internalMoveItem -/

/-- The loop over `queryDestination`, for the rounds that `floorN` leaves. -/
def destinationLoop (item : Ref) : Nat → Place → UInt32 → Place × UInt32
  | 0, d, flags => (d, flags)
  | n + 1, d, flags =>
    let sub := queryDestination env classOf w d.index item d.destItem flags d.cylinder
    if sub.cylinder = d.cylinder then (sub, flags) else destinationLoop item n sub 0

/-- The count of "move up", which the client does not send. -/
def moveUpCount (fromCylinder toCylinder : Cylinder) (item : Ref) (count : UInt32) : UInt32 :=
  if (w.item item).isStackable env.items ∧ count = 255 ∧ fromCylinder.getParent w = some toCylinder then
    .ofNat (w.item item).getItemCount
  else count

/-- What follows on `RETURNVALUE_NEEDEXCHANGE`, which comes with an item to exchange. -/
def moveExchange (fromCylinder : Cylinder) (d : Place) (item : Ref) (count flags : UInt32) :
    World × ReturnValue × Option Ref :=
  match d.destItem with
  | none => (w, .NEEDEXCHANGE, none)
  | some toItem =>
    let toItemCount := UInt32.ofNat (w.item toItem).getItemCount
    let ret :=
      fromCylinder |> cylinderQueryAdd env classOf w (fromCylinder.getThingIndex w item) toItem toItemCount 0 false
    if ret ≠ .NOERROR then (w, ret, some toItem)
    else
      let (retExchangeMaxCount, maxExchangeQueryCount) :=
        fromCylinder.queryMaxCount env w INDEX_WHEREEVER toItem toItemCount 0
      if retExchangeMaxCount ≠ .NOERROR ∧ maxExchangeQueryCount = 0 then (w, retExchangeMaxCount, some toItem)
      else if d.cylinder.queryRemove env w toItem toItemCount flags = .NOERROR then
        let w := d.cylinder.removeThing env w toItem toItemCount
        let w := fromCylinder.addThingFront env w toItem
        (w, cylinderQueryAdd env classOf w d.index item count flags false d.cylinder, none)
      else (w, ret, some toItem)

/-- The cylinder is the traded item or lies inside it. -/
def insideTradeItem (tradeItem : Option Ref) : Cylinder → Bool
  | .container c => Game.insideTradeItem w c tradeItem
  | .player _ => false

/-- The rest of a moved stack goes in as a new item. -/
def moveRest (toCylinder : Cylinder) (index : Int) (item : Ref) (newCount : Int) : World :=
  if newCount > 0 then
    let moveItem := w.next
    let w := w.new (((w.item item).clone env.items).setItemCount (UInt8.ofInt newCount).toNat)
    toCylinder.addThing env w index (some moveItem)
  else w

/-- A stack was removed: it goes to `toItem` first. -/
def moveStack (toCylinder : Cylinder) (index : Int) (item : Ref) (m : UInt32) (toItem : Option Ref) : World :=
  match toItem.filter fun toItem => w.equals item toItem with
  | some toItem =>
    let toItemCount := UInt32.ofNat (w.item toItem).getItemCount
    let n := min (.ofNat ((w.item toItem).getStackSize env.items) - toItemCount) m
    let w := toCylinder.updateThing env w toItem (w.item toItem).id (toItemCount + n)
    moveRest env w toCylinder index item (m - n).toInt32.toInt
  | none => moveRest env w toCylinder index item m.toInt32.toInt

/-- What happens once nothing stands against the move. -/
def moveThing (fromCylinder toCylinder : Cylinder) (index : Int) (item : Ref) (m : UInt32) (toItem : Option Ref) :
    World :=
  let w := fromCylinder.removeThing env w item m
  if (w.item item).isStackable env.items then moveStack env w toCylinder index item m toItem
  else toCylinder.addThing env w index (some item)

/-- `Game::internalMoveItem`. -/
def internalMoveItem (fromCylinder toCylinder : Cylinder) (index : Int) (item : Ref) (count flags : UInt32)
    (actor : Bool) (tradeItem : Option Ref) : World × ReturnValue :=
  let (d, flags) := destinationLoop env classOf w item Game.MAP_MAX_LAYERS ⟨toCylinder, index, none⟩ flags
  if d.destItem = some item then (w, .NOERROR)
  else
    let count := moveUpCount env w fromCylinder d.cylinder item count
    if fromCylinder.queryRemove env w item 1 flags ≠ .NOERROR then (w, fromCylinder.queryRemove env w item 1 flags)
    else
      let ret := cylinderQueryAdd env classOf w d.index item count flags actor d.cylinder
      let (w, ret, toItem) :=
        if ret = .NEEDEXCHANGE then moveExchange env classOf w fromCylinder d item count flags
        else (w, ret, d.destItem)
      if ret ≠ .NOERROR then (w, ret)
      else
        let (retMaxCount, maxQueryCount) := d.cylinder.queryMaxCount env w d.index item count flags
        if retMaxCount ≠ .NOERROR ∧ maxQueryCount = 0 then (w, retMaxCount)
        else
          let m := Game.moveCount env.items (w.item item) count maxQueryCount
          if fromCylinder.queryRemove env w item m flags ≠ .NOERROR then
            (w, fromCylinder.queryRemove env w item m flags)
          else if insideTradeItem w tradeItem d.cylinder then (w, .NOTENOUGHROOM)
          else
            let w := moveThing env w fromCylinder d.cylinder d.index item m toItem
            (w, if (w.item item).isStackable env.items ∧ maxQueryCount < count then retMaxCount else .NOERROR)

/-! ### internalAddItem -/

/-- `Game::internalAddItem`, with `remainderCount`. A call for a remainder is for less than the call before, so
    that the count bounds the calls. -/
def internalAddItemLoop : Nat → World → Cylinder → Ref → Int → UInt32 → Bool → World × ReturnValue × Nat
  | 0, w, _, _, _, _, _ => (w, .NOTPOSSIBLE, 0)
  | fuel + 1, w, destCylinder, item, index, flags, test =>
    let itemCount := UInt32.ofNat (w.item item).getItemCount
    let place := queryDestination env classOf w index item none flags destCylinder
    let toCylinder := place.cylinder
    let ret := cylinderQueryAdd env classOf w place.index item itemCount flags false toCylinder
    if ret ≠ .NOERROR then (w, ret, 0)
    else
      let (ret, maxQueryCount) := destCylinder.queryMaxCount env w INDEX_WHEREEVER item itemCount flags
      if ret ≠ .NOERROR ∧ (destCylinder.getItem.any fun addedItem => (w.item addedItem).id != ITEM_REWARD_CONTAINER) then
        (w, ret, 0)
      else if test then (w, .NOERROR, 0)
      else
        match place.destItem.filter fun toItem => (w.item item).isStackable env.items && w.equals item toItem with
        | some toItem =>
          let toItemCount := UInt32.ofNat (w.item toItem).getItemCount
          let m := min itemCount maxQueryCount
          let n := min (.ofNat ((w.item toItem).getStackSize env.items) - toItemCount) m
          let w := toCylinder.updateThing env w toItem (w.item toItem).id (toItemCount + n)
          let count := (m - n).toInt32.toInt
          if count > 0 then
            if itemCount.toNat ≠ count then
              let remainderItem := w.next
              let w := w.new (((w.item item).clone env.items).setItemCount (UInt8.ofInt count).toNat)
              let (w, ret, _) := internalAddItemLoop fuel w destCylinder remainderItem INDEX_WHEREEVER flags false
              (w, .NOERROR, if ret ≠ .NOERROR then count.toNat else 0)
            else (toCylinder.addThing env w place.index (some item), .NOERROR, 0)
          else (w, .NOERROR, 0)
        | none => (toCylinder.addThing env w place.index (some item), .NOERROR, 0)

def internalAddItem (toCylinder : Cylinder) (item : Ref) (index : Int) (flags : UInt32) (test : Bool) :
    World × ReturnValue × Nat :=
  internalAddItemLoop env classOf ((w.item item).getItemCount + 1) w toCylinder item index flags test

end

/-! ### Calls -/

/-- A call of one of the two functions, with the flags 0. -/
inductive Op where
  | internalMoveItem (fromCylinder toCylinder : Cylinder) (index : Int) (item : Ref) (count : UInt32) (actor : Bool)
      (tradeItem : Option Ref)
  | internalAddItem (toCylinder : Cylinder) (item : Ref) (index : Int) (test : Bool)

def step (env : Env) (classOf : Ref → ContainerClass) (w : World) : Op → World
  | .internalMoveItem fromCylinder toCylinder index item count actor tradeItem =>
    (internalMoveItem env classOf w fromCylinder toCylinder index item count 0 actor tradeItem).1
  | .internalAddItem toCylinder item index test => (internalAddItem env classOf w toCylinder item index 0 test).1

end Virtual
end CrystalServer
