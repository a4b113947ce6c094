import CrystalServer.Items.Item

/-! # Trades between players

The state of the trades and its three requests (`game/game.cpp`). The players are in range, scripts agree, and an
item that is asked for may be traded. What the items of a finished trade do is up to the cylinders that take them
in, and comes with the request: `internalMoveItem` moves none of the two, the first one, or both. -/

namespace CrystalServer
namespace Trade

/-- `TradeState_t`. -/
inductive TradeState where
  | NONE | INITIATED | ACCEPT | ACKNOWLEDGE | TRANSFER
  deriving DecidableEq

/-- The trade fields of the players, `Game::tradeItems`, and for each item the container that it lies in. No item
    was made at a reference from `next` on. -/
structure State where
  tradePartner : PlayerRef → Option PlayerRef
  tradeItem : PlayerRef → Option Ref
  tradeState : PlayerRef → TradeState
  tradeItems : List (Ref × PlayerRef)
  parent : Ref → Option Ref
  next : Ref

/-- Nobody trades. -/
def State.start (parent : Ref → Option Ref) (next : Ref) : State :=
  ⟨fun _ => none, fun _ => none, fun _ => .NONE, [], parent, next⟩

def setTradeState (s : State) (player : PlayerRef) (state : TradeState) : State :=
  { s with tradeState := Function.update s.tradeState player state }

def setTradeItem (s : State) (player : PlayerRef) (item : Option Ref) : State :=
  { s with tradeItem := Function.update s.tradeItem player item }

def setTradePartner (s : State) (player : PlayerRef) (partner : Option PlayerRef) : State :=
  { s with tradePartner := Function.update s.tradePartner player partner }

/-- `tradeItems.erase(tradeItems.find(item))`. -/
def eraseTradeItem (s : State) (item : Ref) : State :=
  { s with tradeItems := s.tradeItems.filter (·.1 ≠ item) }

/-- `tradeItems[item] = player->getID()`. -/
def putTradeItem (s : State) (item : Ref) (player : PlayerRef) : State :=
  { s with tradeItems := (item, player) :: s.tradeItems.filter (·.1 ≠ item) }

/-! ### Closing -/

/-- The offer of a player is dropped. -/
def dropTradeItem (s : State) (player : PlayerRef) : State :=
  match s.tradeItem player with
  | none => s
  | some item => setTradeItem (eraseTradeItem s item) player none

/-- A player leaves the trade. -/
def leaveTrade (s : State) (player : PlayerRef) : State := setTradePartner (setTradeState s player .NONE) player none

/-- `Game::internalCloseTrade`. -/
def internalCloseTrade (s : State) (player : PlayerRef) : State :=
  let tradePartner := s.tradePartner player
  if tradePartner.any (fun partner => s.tradeState partner = .TRANSFER) ∨ s.tradeState player = .TRANSFER then s
  else
    let s := leaveTrade (dropTradeItem s player) player
    match tradePartner with
    | none => s
    | some partner => leaveTrade (dropTradeItem s partner) partner

/-! ### Offers -/

/-- The way up from an item meets the container, within `n` steps. -/
def holdsLoop (parent : Ref → Option Ref) (container : Ref) : Nat → Ref → Bool
  | 0, _ => false
  | n + 1, item =>
    match parent item with
    | none => false
    | some p => p == container || holdsLoop parent container n p

/-- `Container::isHoldingItem`. A traded container holds at most a hundred items, so that the depth at which its
    iterator stops is not reached. What is no container holds nothing. -/
def isHoldingItem (s : State) (container item : Ref) : Bool := holdsLoop s.parent container s.next item

/-- An item of `tradeItems` is the item, holds it, or lies inside it. -/
def alreadyTraded (s : State) (tradeItem : Ref) : Bool :=
  s.tradeItems.any fun it =>
    tradeItem == it.1 || isHoldingItem s tradeItem it.1 || isHoldingItem s it.1 tradeItem

/-- What `Game::internalStartTrade` refuses. -/
def cannotStart (s : State) (player tradePartner : PlayerRef) : Bool :=
  s.tradeState player ≠ .NONE ∧ ¬(s.tradeState player = .ACKNOWLEDGE ∧ s.tradePartner player = some tradePartner)
    ∨ s.tradeState tradePartner ≠ .NONE ∧ s.tradePartner tradePartner ≠ some player

/-- `Game::internalStartTrade`. -/
def internalStartTrade (s : State) (player tradePartner : PlayerRef) (tradeItem : Ref) : State :=
  if cannotStart s player tradePartner then s
  else
    let s := setTradePartner s player (some tradePartner)
    let s := setTradeItem s player (some tradeItem)
    let s := setTradeState s player .INITIATED
    let s := putTradeItem s tradeItem player
    if s.tradeState tradePartner = .NONE then
      setTradePartner (setTradeState s tradePartner .ACKNOWLEDGE) tradePartner (some player)
    else s

/-- `Game::playerRequestTrade`. -/
def playerRequestTrade (s : State) (player tradePartner : PlayerRef) (tradeItem : Ref) : State :=
  if tradePartner = player then s
  else if alreadyTraded s tradeItem then s
  else internalStartTrade s player tradePartner tradeItem

/-! ### Acceptance -/

/-- What becomes of the two items: none of them moves, the first one moves into a container or a slot, or both do. -/
inductive Outcome where
  | refused
  | first (place₁ : Option Ref)
  | both (place₁ place₂ : Option Ref)
  deriving DecidableEq

def moveItem (s : State) (item : Ref) (place : Option Ref) : State :=
  { s with parent := Function.update s.parent item place }

/-- The moves, and whether one was made. -/
def moveItems (s : State) (tradeItem1 tradeItem2 : Ref) : Outcome → State × Bool
  | .refused => (s, false)
  | .first place₁ => (moveItem s tradeItem1 place₁, true)
  | .both place₁ place₂ => (moveItem (moveItem s tradeItem1 place₁) tradeItem2 place₂, true)

/-- The end of `Game::playerAcceptTrade` for one of the two. -/
def endTrade (s : State) (player : PlayerRef) : State :=
  setTradePartner (setTradeItem (setTradeState s player .NONE) player none) player none

/-- What `Game::playerAcceptTrade` does once both have accepted. Without a second item nothing can be added. -/
def transfer (s : State) (player tradePartner : PlayerRef) (outcome : Outcome) : State × Bool :=
  let tradeItem1 := s.tradeItem player
  let tradeItem2 := s.tradeItem tradePartner
  let s := setTradeState (setTradeState s player .TRANSFER) tradePartner .TRANSFER
  let s := (tradeItem1.map (eraseTradeItem s)).getD s
  let s := (tradeItem2.map (eraseTradeItem s)).getD s
  let (s, moved) :=
    match tradeItem1, tradeItem2 with
    | some item1, some item2 => moveItems s item1 item2 outcome
    | _, _ => (s, false)
  (endTrade (endTrade s player) tradePartner, moved)

/-- `Game::playerAcceptTrade`, and whether an item changed hands. -/
def playerAcceptTrade (s : State) (player : PlayerRef) (outcome : Outcome) : State × Bool :=
  if ¬(s.tradeState player = .ACKNOWLEDGE ∨ s.tradeState player = .INITIATED) then (s, false)
  else
    match s.tradePartner player with
    | none => (s, false)
    | some tradePartner =>
      let s := setTradeState s player .ACCEPT
      if s.tradeState tradePartner = .ACCEPT then transfer s player tradePartner outcome else (s, false)

/-! ### Requests -/

inductive Op where
  | playerRequestTrade (player tradePartner : PlayerRef) (tradeItem : Ref)
  | playerAcceptTrade (player : PlayerRef) (outcome : Outcome)
  | playerCloseTrade (player : PlayerRef)
  deriving DecidableEq

def step (s : State) : Op → State
  | .playerRequestTrade player tradePartner tradeItem => playerRequestTrade s player tradePartner tradeItem
  | .playerAcceptTrade player outcome => (playerAcceptTrade s player outcome).1
  | .playerCloseTrade player => internalCloseTrade s player

end Trade
end CrystalServer
