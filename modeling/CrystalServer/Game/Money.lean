import CrystalServer.Game.AddItem
import CrystalServer.Lib.Double

/-! # Paying with coins

`Game::removeMoney`, `Game::addMoney` and `Game::internalRemoveItem` (`game/game.cpp`). Coins lie in the slots of a
player or in a container, with the containers nested in them, or on the tile. -/

namespace CrystalServer

/-! ### Cylinders -/

namespace Cylinder

def getFirstIndex : Cylinder → Nat
  | .container _ => 0
  | .player _ => CONST_SLOT_FIRST.toNat

def getLastIndex (w : World) : Cylinder → Nat
  | .container c => Container.size w c
  | .player _ => CONST_SLOT_LAST.toNat + 1

def getThing (w : World) (index : Nat) : Cylinder → Option Ref
  | .container c => Container.getItemByIndex w c index
  | .player p => Player.getThing w p index

end Cylinder

/-- What paying reads beside the item types. Two things stand against taking an item away, whatever holds it. A new
    coin may be collected into a container that the player set up, or come down on the tile. The order that `std::sort`
    gives to coins of one worth is open. -/
structure MoneyEnv extends Env where
  AUTOBANK : Bool
  canRemove : Ref → Bool
  decaysFromMap : Ref → Bool
  internalCollectManagedItems : World → PlayerRef → Ref → World × ReturnValue
  addToTile : World → List Ref → Ref → World × List Ref
  sort : (UInt32 × Ref → UInt32 × Ref → Bool) → List (UInt32 × Ref) → List (UInt32 × Ref)
  sort_perm : ∀ less l, (sort less l).Perm l
  sort_sorted : ∀ less : UInt32 × Ref → UInt32 × Ref → Bool, (∀ a b, less a b → !less b a) →
    (∀ a b c, !less a b → !less b c → !less a c) → ∀ l, (sort less l).Pairwise fun a b => !less b a

/-- The items in memory, those on the tile, and the bank. -/
structure MoneyState where
  world : World
  tile : List Ref
  bankBalance : PlayerRef → UInt64

/-! ### Gathering -/

/-- The containers not yet looked into, and the coins found with their worth. -/
structure Gathered where
  containers : List Ref
  moneyItems : List (UInt32 × Ref)
  moneyCount : UInt64

namespace Game

section
variable (w : World)

def gatherItem (g : Gathered) (item : Ref) : Gathered :=
  if w.isContainer item then { g with containers := g.containers ++ [item] }
  else
    let worth := (w.item item).getWorth
    if worth ≠ 0 then
      { g with moneyCount := g.moneyCount + worth.toUInt64
               moneyItems := g.moneyItems ++ [(worth, item)] }
    else g

/-- The loop over `containers`; each is in the list once. -/
def gatherLoop : Nat → Gathered → Gathered
  | 0, g => g
  | n + 1, g =>
    match g.containers with
    | [] => g
    | container :: containers =>
      gatherLoop n ((w.itemlist container).foldl (gatherItem w) { g with containers := containers })

/-- What the loop over the indexes of the cylinder meets. -/
def things (cylinder : Cylinder) : List Ref :=
  (List.range' cylinder.getFirstIndex (cylinder.getLastIndex w - cylinder.getFirstIndex)).filterMap fun i =>
    cylinder.getThing w i

def gather (cylinder : Cylinder) : Gathered :=
  gatherLoop w w.next ((things w cylinder).foldl (gatherItem w) ⟨[], [], 0⟩)

/-- The comparison that sorts the coins. -/
def lowerCoin (a b : UInt32 × Ref) : Bool :=
  let aUnitWorth := a.1 / max 1 (.ofNat (w.item a.2).getItemCount)
  let bUnitWorth := b.1 / max 1 (.ofNat (w.item b.2).getItemCount)
  if aUnitWorth = bUnitWorth then a.1 < b.1 else aUnitWorth < bUnitWorth

end

variable (env : MoneyEnv)

/-! ### Taking coins away -/

/-- `Game::internalRemoveItem` without flags, where a count of -1 stands for all. -/
def internalRemoveItem (w : World) (item : Ref) (count : Int) : World × ReturnValue :=
  match w.getParent item with
  | none => (w, .NOTPOSSIBLE)
  | some cylinder =>
    let count := UInt32.ofInt (if count = -1 then (w.item item).getItemCount else count)
    let ret := cylinder.queryRemove env.toEnv w item count FLAG_IGNORENOTMOVABLE
    if ret ≠ .NOERROR then (w, ret)
    else if !env.canRemove item then (w, .NOTPOSSIBLE)
    else if env.decaysFromMap item then (w, .THISISIMPOSSIBLE)
    else (cylinder.removeThing env.toEnv w item count, .NOERROR)

/-! ### Giving coins -/

/-- One round of `addCoins`: a new stack of coins is put somewhere. -/
def placeCoins (cylinder : Cylinder) (flags : UInt32) (s : MoneyState) (coins : UInt16 × UInt16) : MoneyState :=
  let remaindItem := s.world.next
  let w := s.world.new (Item.CreateItem env.items coins.1 coins.2)
  let (w, ret, triedManaged) :=
    match cylinder with
    | .player player =>
      if !env.AUTOBANK then
        let (w, ret) := env.internalCollectManagedItems w player remaindItem
        (w, ret, true)
      else (w, .NOTPOSSIBLE, false)
    | .container _ => (w, .NOTPOSSIBLE, false)
  let (w, ret) :=
    if !triedManaged ∨ ret ≠ .NOERROR then
      let (w, ret, _) := internalAddItem env.toEnv w cylinder remaindItem INDEX_WHEREEVER flags false
      (w, ret)
    else (w, ret)
  if ret ≠ .NOERROR then
    let (w, tile) := env.addToTile w s.tile remaindItem
    { s with world := w, tile := tile }
  else { s with world := w }

/-- The stacks that `addCoins` makes, for the rounds that there can be. -/
def coinStacks (itemId : UInt16) : Nat → UInt32 → List (UInt16 × UInt16)
  | 0, _ => []
  | n + 1, count =>
    if count > 0 then
      let createCount := (min 100 count).toUInt16
      (itemId, createCount) :: coinStacks itemId n (count - createCount.toUInt32)
    else []

def addCoins (itemId : UInt16) (count : UInt32) : List (UInt16 × UInt16) := coinStacks itemId count.toNat count

/-- The stacks that `Game::addMoney` makes. -/
def moneyStacks (money : UInt64) : List (UInt16 × UInt16) :=
  let crystalCoins := (money / 10000).toUInt32
  let money := if crystalCoins ≠ 0 then money - crystalCoins.toUInt64 * 10000 else money
  let platinumCoins := (money / 100).toUInt32
  let platinum := if platinumCoins ≠ 0 then addCoins ITEM_PLATINUM_COIN platinumCoins.toUInt16.toUInt32 else []
  let money := if platinumCoins ≠ 0 then money - platinumCoins.toUInt64 * 100 else money
  (if crystalCoins ≠ 0 then addCoins ITEM_CRYSTAL_COIN crystalCoins else []) ++ platinum
    ++ if money > 0 then addCoins ITEM_GOLD_COIN money.toUInt32 else []

/-- `Game::addMoney`. -/
def addMoney (cylinder : Cylinder) (money : UInt64) (flags : UInt32) (s : MoneyState) : MoneyState :=
  (moneyStacks money).foldl (placeCoins env cylinder flags) s

/-! ### Paying -/

/-- `std::ceil(money / static_cast<double>(unitWorth))`; the amount is below the worth of one stack. -/
def removeCount (money : UInt64) (unitWorth : UInt32) : UInt32 :=
  .ofNat (Lib.Double.div money.toNat unitWorth.toNat).ceil

/-- Takes an item away, whatever comes back. -/
def MoneyState.remove (s : MoneyState) (item : Ref) (count : Int) : MoneyState :=
  { s with world := (internalRemoveItem env s.world item count).1 }

/-- The loop over the sorted coins: what is left to pay, unless it returned. -/
def spend (cylinder : Cylinder) (flags : UInt32) : List (UInt32 × Ref) → MoneyState → UInt64 → MoneyState × Option UInt64
  | [], s, money => (s, some money)
  | (worthTotal, item) :: moneyItems, s, money =>
    if worthTotal.toUInt64 < money then
      let s := MoneyState.remove env s item (-1)
      let money := money - worthTotal.toUInt64
      if money = 0 then (s, none) else spend cylinder flags moneyItems s money
    else if worthTotal.toUInt64 > money then
      let unitWorth := worthTotal / .ofNat (s.world.item item).getItemCount
      let count := removeCount money unitWorth
      let s := addMoney env cylinder ((unitWorth * count).toUInt64 - money) flags s
      (MoneyState.remove env s item count.toInt32.toInt, none)
    else (MoneyState.remove env s item (-1), none)

/-- The player whose balance may be used. -/
def payer (cylinder : Cylinder) (useBalance : Bool) : Option PlayerRef :=
  match cylinder with
  | .player p => if useBalance then some p else none
  | .container _ => none

/-- `Game::removeMoney`. -/
def removeMoney (s : MoneyState) (cylinder : Cylinder) (money : UInt64) (flags : UInt32) (useBalance : Bool) :
    MoneyState × Bool :=
  if money = 0 then (s, true)
  else
    let g := gather s.world cylinder
    let player := payer cylinder useBalance
    let balance := (player.map s.bankBalance).getD 0
    if g.moneyCount + balance < money then (s, false)
    else
      let moneyItems := env.sort (lowerCoin s.world) g.moneyItems
      match spend env cylinder flags moneyItems s money with
      | (s, none) => (s, true)
      | (s, some money) =>
        match player with
        | some player =>
          if s.bankBalance player ≥ money then
            ({ s with bankBalance := Function.update s.bankBalance player (s.bankBalance player - money) }, true)
          else (s, true)
        | none => (s, true)

end Game
end CrystalServer
