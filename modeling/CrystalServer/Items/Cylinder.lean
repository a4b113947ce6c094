import CrystalServer.Items.Item

/-! # What the cylinders ask of each other

Return values, flags, and the walks over nested containers (`items/cylinder.hpp`, `items/item.cpp`,
`items/containers/container.cpp`). A walk that the code bounds by nothing but the end of the chain is bounded
here by the number of items in memory. -/

namespace CrystalServer

/-- The values of `ReturnValue` that come up here. -/
inductive ReturnValue where
  | NOERROR | NOTPOSSIBLE | NOTENOUGHROOM | NOTMOVABLE | DROPTWOHANDEDITEM | BOTHHANDSNEEDTOBEFREE
  | CANONLYUSEONEWEAPON | NEEDEXCHANGE | CANNOTBEDRESSED | PUTTHISOBJECTINBOTHHANDS | CONTAINERNOTENOUGHROOM
  | ONLYAMMOINQUIVER | NOTENOUGHCAPACITY | CANNOTPICKUP | THISISIMPOSSIBLE | CONTAINERISFULL | CANONLYUSEONESHIELD
  | ITEMISNOTYOURS
  deriving DecidableEq

def INDEX_WHEREEVER : Int := -1

def FLAG_NOLIMIT : UInt32 := 1
def FLAG_CHILDISOWNER : UInt32 := 8
def FLAG_IGNORENOTMOVABLE : UInt32 := 64
def FLAG_IGNOREAUTOSTACK : UInt32 := 128

def hasBitSet (flag flags : UInt32) : Bool := flags &&& flag != 0

/-- Item types, settings, and what is looked up outside: who owns an item, and the equip events. -/
structure Env where
  items : UInt16 → ItemType
  MAX_CONTAINER : UInt32
  MAX_CONTAINER_DEPTH : Nat
  ENABLE_PLAYER_PUT_ITEM_IN_AMMO_SLOT : Bool
  isOwner : UInt32 → PlayerRef → Bool
  onPlayerEquip : World → PlayerRef → Ref → Int → Bool

namespace World

/-- A field of the container part. -/
def containerField {α : Type} (w : World) (r : Ref) (field : Container → α) (default : α) : α :=
  ((w.item r).container.map field).getD default

/-! ### Owners -/

/-- `getOwnerId`: a container without an owner has that of the first of its items that has one. -/
def getOwnerIdLoop (w : World) : Nat → Ref → UInt32
  | 0, _ => 0
  | n + 1, r =>
    let ownerId := (w.item r).getOwnerId
    if ownerId > 0 then ownerId
    else (((w.itemlist r).map (getOwnerIdLoop w n)).find? (· > 0)).getD 0

def getOwnerId (w : World) (r : Ref) : UInt32 := getOwnerIdLoop w (w.next + 1) r

def hasOwner (w : World) (r : Ref) : Bool := w.getOwnerId r != 0

/-- `Item::equals`. -/
def equals (w : World) (r compareItem : Ref) : Bool :=
  (w.item r).id == (w.item compareItem).id
    && (w.item r).isStoreItem == (w.item compareItem).isStoreItem
    && w.getOwnerId r == w.getOwnerId compareItem
    && (w.item r).getAttributeVector.all fun a =>
      a.type == .store || (w.item compareItem).getAttributeVector.all fun compareAttribute =>
        a.type != compareAttribute.type
          || !(a.type.isAttributeInteger && a.getInteger != compareAttribute.getInteger)
            && !(a.type.isAttributeString && a.getString != compareAttribute.getString)

/-! ### The top -/

/-- The loop of `Item::getTopParent`, with `prevaux` and `aux`. A player on a tile has a parent. -/
def getTopParentLoop (w : World) : Nat → Option Cylinder → Cylinder → Cylinder
  | 0, prevaux, aux => prevaux.getD aux
  | n + 1, prevaux, .container c =>
    match w.getParent c with
    | some parent => getTopParentLoop w n (some (.container c)) parent
    | none => prevaux.getD (.container c)
  | _ + 1, prevaux, .player p => if (w.players p).onTile then .player p else prevaux.getD (.player p)

def getTopParent (w : World) (r : Ref) : Option Cylinder :=
  let prevaux := if w.isContainer r then some (Cylinder.container r) else none
  match w.getParent r with
  | none => prevaux
  | some aux => some (getTopParentLoop w (w.next + 1) prevaux aux)

/-- The loop of `Container::getTopParentContainer`. -/
def getTopParentContainerLoop (w : World) : Nat → Ref → Ref → Ref
  | 0, prevThing, _ => prevThing
  | n + 1, prevThing, thing =>
    match w.getParentContainer thing with
    | some parent => getTopParentContainerLoop w n thing parent
    | none => prevThing

def getTopParentContainer (w : World) (this : Ref) : Ref :=
  match w.getParentContainer this with
  | some thing => getTopParentContainerLoop w w.next this thing
  | none => this

end World

/-! ### The iterator -/

/-- An `IteratorState`. -/
structure IteratorState where
  container : Ref
  index : Nat
  depth : Nat

/-- `ContainerIterator`, the innermost container first. -/
structure ContainerIterator where
  states : List IteratorState
  visitedContainers : List Ref
  maxTraversalDepth : Nat

namespace ContainerIterator
variable (w : World)

/-- `advance`, where the top of the stack is not exhausted. -/
def advance (it : ContainerIterator) (top : IteratorState) (rest : List IteratorState) (currentItem : Ref) :
    ContainerIterator :=
  let top := { top with index := top.index + 1 }
  let newDepth := top.depth + 1
  if w.isContainer currentItem ∧ w.itemlist currentItem ≠ [] ∧ newDepth ≤ it.maxTraversalDepth
      ∧ currentItem ∉ it.visitedContainers then
    { it with states := ⟨currentItem, 0, newDepth⟩ :: top :: rest
              visitedContainers := currentItem :: it.visitedContainers }
  else { it with states := top :: rest }

/-- The items that the iterator goes over; `hasNext` drops exhausted containers. -/
def toList : Nat → ContainerIterator → List Ref
  | 0, _ => []
  | n + 1, it =>
    match it.states with
    | [] => []
    | top :: rest =>
      match (w.itemlist top.container)[top.index]? with
      | none => toList n { it with states := rest }
      | some currentItem => currentItem :: toList n (advance w it top rest currentItem)

end ContainerIterator

namespace Container

/-- What `Container::iterator` goes over: every container is visited once at most. -/
def iterator (env : Env) (w : World) (this : Ref) : List Ref :=
  ContainerIterator.toList w (((List.range w.next).map fun c => (w.itemlist c).length + 1).sum + 1)
    ⟨[⟨this, 0, 1⟩], [this], env.MAX_CONTAINER_DEPTH⟩

def getItemHoldingCount (env : Env) (w : World) (this : Ref) : Nat := (iterator env w this).length

def getContainerHoldingCount (env : Env) (w : World) (this : Ref) : Nat :=
  ((iterator env w this).filter w.isContainer).length

end Container
end CrystalServer
