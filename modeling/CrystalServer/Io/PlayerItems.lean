import CrystalServer.Creatures.Player
import CrystalServer.Lib.BreadthFirst
import CrystalServer.Lib.SortedMap

/-! # Items of a player in the database

How the items that a player holds are written into rows (`io/functions/iologindata_save_player.cpp`) and rebuilt from them
(`io/functions/iologindata_load_player.cpp`). What an item is by itself, and whether it is a container, is left open; the
running ids are counted without a bound. The weights, the managed containers and the decay that loading starts are left
out. -/

namespace CrystalServer
open Lib

/-- What saving and loading use of an item by itself: one that is no container, or a container without what it holds. -/
structure ItemIO (α β : Type) where
  getID : α ⊕ β → UInt16
  getSubType : α ⊕ β → UInt16
  serializeAttr : α ⊕ β → List UInt8
  CreateItem : UInt16 → UInt16 → Option (α ⊕ β)
  unserializeAttr : α ⊕ β → List UInt8 → Option (α ⊕ β)
  getOpenContainer : β → Int64
  setOpenContainer : β → Int64 → β

/-- An item with all that it holds; with a container, the first `cid` under which the player has it open. -/
abbrev ItemTree (α β : Type) := Tree α (Option UInt8 × β)

/-- A row of `player_items`, `player_depotitems` or `player_inboxitems` of the player. -/
structure ItemRow where
  pid : Nat
  sid : Nat
  itemtype : UInt16
  count : UInt16
  attributes : List UInt8

variable {α β : Type} (io : ItemIO α β)

namespace IOLoginDataSave

/-- The update of `OPENCONTAINER` that comes before a container is written. -/
def updateOpenContainer (cid : Option UInt8) (container : β) : β :=
  let container := if io.getOpenContainer container > 0 then io.setOpenContainer container 0 else container
  match cid with
  | some cid => io.setOpenContainer container (.ofNat (cid.toNat + 1))
  | none => container

/-- The item as it is written. -/
def saved : α ⊕ (Option UInt8 × β) → α ⊕ β
  | .inl item => .inl item
  | .inr (cid, container) => .inr (updateOpenContainer io cid container)

structure SaveState (α β : Type) where
  runningId : Nat
  /-- The containers that the second loop has still to go through, with their ids. -/
  containers : List (Nat × List (ItemTree α β))
  rows : List ItemRow

def addRow (pid : Nat) (item : α ⊕ β) (s : SaveState α β) : SaveState α β :=
  { s with rows := s.rows ++ [⟨pid, s.runningId, io.getID item, io.getSubType item, io.serializeAttr item⟩] }

/-- The body of the loops of `saveItems`. -/
def saveItem (s : SaveState α β) (pid : Nat) (item : ItemTree α β) : SaveState α β :=
  let s := { s with runningId := s.runningId + 1 }
  match item with
  | .leaf item => addRow io pid (.inl item) s
  | .inner (cid, container) itemlist =>
    let s := { s with containers := s.containers ++ [(s.runningId, itemlist)] }
    addRow io pid (.inr (updateOpenContainer io cid container)) s

/-- The row of a numbered item. -/
def toRow (r : Row (α ⊕ (Option UInt8 × β))) : ItemRow :=
  ⟨r.parent, r.id, io.getID (saved io r.value), io.getSubType (saved io r.value), io.serializeAttr (saved io r.value)⟩

theorem foldl_saveItem (l : List (Nat × ItemTree α β)) (s : SaveState α β) :
    l.foldl (fun s e => saveItem io s e.1 e.2) s =
      ⟨s.runningId + l.length, s.containers ++ Tree.pending s.runningId l,
        s.rows ++ (Tree.rows s.runningId l).map (toRow io)⟩ := by
  induction l generalizing s with
  | nil => simp [Tree.pending, Tree.rows]
  | cons e l ih =>
    obtain ⟨pid, item⟩ := e
    have hlength : s.runningId + 1 + l.length = s.runningId + (l.length + 1) := by omega
    rw [List.foldl_cons, ih]
    cases item with
    | leaf item => simp [saveItem, addRow, Tree.pending, Tree.rows, Tree.root, toRow, saved, hlength]
    | inner b itemlist => simp [saveItem, addRow, Tree.pending, Tree.rows, Tree.root, toRow, saved, hlength]

/-- The second loop of `saveItems`. -/
def saveContainers : SaveState α β → SaveState α β
  | ⟨runningId, [], rows⟩ => ⟨runningId, [], rows⟩
  | ⟨runningId, (parentId, itemlist) :: containers, rows⟩ =>
    saveContainers ((Tree.under parentId itemlist).foldl (fun s e => saveItem io s e.1 e.2) ⟨runningId, containers, rows⟩)
termination_by s => Tree.work s.containers
decreasing_by
  rw [foldl_saveItem]
  exact Tree.work_lt _ _ _ _

/-- `IOLoginDataSave::saveItems`. -/
def saveItems (itemList : List (Nat × ItemTree α β)) : List ItemRow :=
  (saveContainers io (itemList.foldl (fun s e => saveItem io s e.1 e.2) ⟨100, [], []⟩)).rows

/-- The list of `IOLoginDataSave::savePlayerItem`. -/
def itemList (inventory : Nat → Option (ItemTree α β)) : List (Nat × ItemTree α β) :=
  (List.range' CONST_SLOT_FIRST.toNat (CONST_SLOT_LAST + 1 - CONST_SLOT_FIRST).toNat).filterMap fun slotId =>
    (inventory slotId).map fun item => (slotId, item)

/-- The list of `IOLoginDataSave::savePlayerDepotItems`. -/
def depotList (depotChests : List (Nat × List (ItemTree α β))) : List (Nat × ItemTree α β) :=
  depotChests.flatMap fun chest => chest.2.map fun item => (chest.1, item)

/-- The list of `IOLoginDataSave::savePlayerInbox`. -/
def inboxList (inbox : List (ItemTree α β)) : List (Nat × ItemTree α β) := inbox.map fun item => (0, item)

end IOLoginDataSave

/-- What an item is in. -/
inductive Holder
  | container (sid : Nat)
  | slot (slot : Nat)
  | depotChest (depotId : Nat)
  | inbox
  deriving DecidableEq

/-- The items that were loaded, each named by the `sid` of its row. -/
structure PlayerItems where
  parent : Nat → Option Holder
  itemlist : Nat → List Nat
  inventory : Nat → Option Nat
  depotChests : Nat → List Nat
  inbox : List Nat

namespace PlayerItems

def empty : PlayerItems := ⟨fun _ => none, fun _ => [], fun _ => none, fun _ => [], []⟩

def setParent (p : PlayerItems) (item : Nat) (parent : Holder) : PlayerItems :=
  { p with parent := Function.update p.parent item (some parent) }

/-- `Container::internalAddThing`. -/
def internalAddThing (p : PlayerItems) (container item : Nat) : PlayerItems :=
  { p.setParent item (.container container) with
    itemlist := Function.update p.itemlist container (item :: p.itemlist container) }

/-- `Player::internalAddThing`. -/
def addToSlot (p : PlayerItems) (index item : Nat) : PlayerItems :=
  if CONST_SLOT_FIRST ≤ index ∧ index ≤ CONST_SLOT_LAST then
    if (p.inventory index).isSome then p
    else { p with inventory := Function.update p.inventory index (some item) }.setParent item (.slot index)
  else p

/-- `Container::internalAddThing` of the depot chest. -/
def addToDepotChest (p : PlayerItems) (depotId item : Nat) : PlayerItems :=
  { p.setParent item (.depotChest depotId) with
    depotChests := Function.update p.depotChests depotId (item :: p.depotChests depotId) }

/-- `Container::internalAddThing` of the inbox. -/
def addToInbox (p : PlayerItems) (item : Nat) : PlayerItems := { p.setParent item .inbox with inbox := item :: p.inbox }

end PlayerItems

/-- `ItemsMap`: under the `sid` an item and its `pid`. -/
abbrev ItemsMap (α β : Type) := List (Nat × ((α ⊕ β) × Nat))

namespace IOLoginDataLoad

/-- The item of a row. -/
def loadItem (row : ItemRow) : Option (α ⊕ β) :=
  (io.CreateItem row.itemtype row.count).bind fun item => io.unserializeAttr item row.attributes

/-- `IOLoginDataLoad::loadItems`. -/
def loadItems (result : List ItemRow) : ItemsMap α β :=
  result.foldl (fun itemsMap row =>
    match loadItem io row with
    | some item => SortedMap.insert row.sid (item, row.pid) itemsMap
    | none => itemsMap) []

/-- The loop that the loaders share, from the last item to the first: an item whose `pid` is not one of the player's own goes
into the container with that id. -/
def addItems (itemsMap : ItemsMap α β) (isOwn : Nat → Bool) (addOwn : PlayerItems → Nat → Nat → PlayerItems) : PlayerItems :=
  itemsMap.foldr (fun (sid, _, pid) p =>
    if isOwn pid then addOwn p pid sid
    else
      match itemsMap.lookup pid with
      | some (.inr _, _) => p.internalAddThing pid sid
      | _ => p) .empty

def loadPlayerInventoryItems (inventoryItems : ItemsMap α β) : PlayerItems :=
  addItems inventoryItems (fun pid => CONST_SLOT_FIRST ≤ pid ∧ pid ≤ CONST_SLOT_LAST) PlayerItems.addToSlot

def loadPlayerDepotItems (depotItems : ItemsMap α β) : PlayerItems :=
  addItems depotItems (fun pid => pid < 100) PlayerItems.addToDepotChest

def loadPlayerInboxItems (inboxItems : ItemsMap α β) : PlayerItems :=
  addItems inboxItems (fun pid => pid < 100) fun p _ sid => p.addToInbox sid

end IOLoginDataLoad
end CrystalServer
