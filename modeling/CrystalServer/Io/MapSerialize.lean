import CrystalServer.Items.Serialize
import CrystalServer.Lib.BreadthFirst
import CrystalServer.Map.Sector

/-! # Items of houses in the database

How the items on a tile of a house are written into a row of `tile_store` and put back on the tile
(`io/iomapserialize.cpp`). What an item writes and reads of its own attributes is left open, also by its class; the decay
that loading starts, and the sleepers of the beds, are left out. No item is a depot locker, which reads no contents. -/

namespace CrystalServer
open Lib PropWriteStream

def ITEM_BATHTUB_FILLED : UInt16 := 26077
def ITEM_BATHTUB_FILLED_NOTMOVABLE : UInt16 := 26100

/-- What the map reads of an `ItemType`. -/
structure HouseItemType where
  alwaysOnTopOrder : UInt8
  isGroundTile : Bool
  movable : Bool
  isBed : Bool
  isDoor : Bool
  isCarpet : Bool
  isTrashHolder : Bool
  isWrappable : Bool
  canWriteText : Bool
  m_transformOnUse : UInt16

/-- What the map uses of an item by itself: one that is no container, or a container without what it holds. An error of
    `readAttr` comes with what is left of the stream. -/
structure MapItems (α β : Type) where
  items : UInt16 → HouseItemType
  getID : α ⊕ β → UInt16
  serializeAttr : α ⊕ β → List UInt8
  CreateItem : UInt16 → Option (α ⊕ β)
  readAttr : AttrTypes_t → α ⊕ β → PropStream → Except PropStream ((α ⊕ β) × PropStream)
  getDoor : α ⊕ β → Bool
  getBed : α ⊕ β → Bool
  getSleeper : α ⊕ β → UInt32

/-- An item with all that it holds. -/
abbrev HouseItem (α β : Type) := Tree α β

/-- A tile of a house: `TileItemVector` as a list with its counter, and the owner of the house. -/
structure HouseTile (α β : Type) where
  ground : Option (HouseItem α β)
  items : List (HouseItem α β)
  downItemCount : Nat
  owner : UInt32

namespace HouseTile
variable {α β : Type}

def downItems (tile : HouseTile α β) : List (HouseItem α β) := tile.items.take tile.downItemCount

def topItems (tile : HouseTile α β) : List (HouseItem α β) := tile.items.drop tile.downItemCount

end HouseTile

namespace IOMapSerialize
variable {α β : Type} (io : MapItems α β)

def itemType (item : HouseItem α β) : HouseItemType := io.items (io.getID item.root)

/-! ### Saving -/

/-- `IOMapSerialize::saveItem`, from `getReversedItems` to `getReversedEnd` for what a container holds. -/
def saveItem : HouseItem α β → List UInt8
  | .leaf a => write 1 0 (write 2 (io.getID (.inl a)).toNat [] ++ io.serializeAttr (.inl a))
  | .inner b itemlist =>
    write 1 0 (write 4 (UInt32.ofNat itemlist.length).toNat (write 1 AttrTypes_t.ATTR_CONTAINER_ITEMS.toByte.toNat
      (write 2 (io.getID (.inr b)).toNat [] ++ io.serializeAttr (.inr b))) ++ (itemlist.map saveItem).reverse.flatten)

/-- `Item::isSavedToHouses`. -/
def isSavedToHouses (item : HouseItem α β) : Bool :=
  let it := itemType io item
  it.movable || it.isWrappable || it.isCarpet || io.getDoor item.root ||
    (match item with
      | .leaf _ => false
      | .inner _ itemlist => !itemlist.isEmpty) ||
    it.canWriteText || io.getBed item.root || it.m_transformOnUse ≠ 0

/-- An item without contents. -/
def plain : α ⊕ β → HouseItem α β
  | .inl a => .leaf a
  | .inr b => .inner b []

/-- What `saveTile` writes for an item on the tile. -/
def savedAs (item : HouseItem α β) : Option (HouseItem α β) :=
  if io.getID item.root = ITEM_BATHTUB_FILLED_NOTMOVABLE then (io.CreateItem ITEM_BATHTUB_FILLED).map plain
  else if isSavedToHouses io item then some item
  else none

/-- `IOMapSerialize::saveTile`; the count is a `uint16_t`. -/
def saveTile (position : Position) (tile : HouseTile α β) : List UInt8 :=
  let items := (tile.items.filterMap (savedAs io)).reverse
  if items.isEmpty then []
  else
    let header := [] |> write 2 position.x.toNat |> write 2 position.y.toNat |> write 1 position.z.toNat
    write 4 (UInt16.ofNat items.length).toNat header ++ items.flatMap (saveItem io)

/-! ### Loading -/

/-- The loop of `Item::unserializeAttr`: the item, the count that a container has read, and what is left of the stream.
    Each round takes a byte, so the length of the stream bounds the rounds. -/
def unserializeLoop : Nat → α ⊕ β → PropStream → Except PropStream ((α ⊕ β) × UInt32 × PropStream)
  | 0, _, stream => .error stream
  | rounds + 1, item, stream =>
    match stream.readU8 with
    | none => .ok (item, 0, stream)
    | some (attr_type, stream) =>
      if attr_type = 0 then .ok (item, 0, stream)
      else
        match AttrTypes_t.ofByte attr_type with
        | none => .error stream
        | some attr =>
          if attr = .ATTR_CONTAINER_ITEMS ∧ item.isRight then
            match stream.readU32 with
            | none => .error stream
            | some (serializationCount, stream) => .ok (item, serializationCount, stream)
          else
            match io.readAttr attr item stream with
            | .error stream => .error stream
            | .ok (item, stream) => unserializeLoop rounds item stream

def unserializeAttr (item : α ⊕ β) (stream : PropStream) : Except PropStream ((α ⊕ β) × UInt32 × PropStream) :=
  unserializeLoop io (stream.length + 1) item stream

/-- `IOMapSerialize::loadContainer`, where `load` is `loadItem` with this container as the parent: the count that is still
    to come, and what the container holds. -/
def loadContainer (load : PropStream → Except PropStream (Option (HouseItem α β) × PropStream)) :
    Nat → List (HouseItem α β) → PropStream → Except PropStream (List (HouseItem α β) × PropStream)
  | 0, itemlist, stream =>
    match stream.readU8 with
    | none => .error stream
    | some (endAttr, stream) => if endAttr ≠ 0 then .error stream else .ok (itemlist, stream)
  | serializationCount + 1, itemlist, stream =>
    match load stream with
    | .error stream => .error stream
    | .ok (item, stream) => loadContainer load serializationCount (item.toList ++ itemlist) stream

/-- `unserializeAttr` and then `loadContainer` for a container, which may hold something already. -/
def loadInto (load : PropStream → Except PropStream (Option (HouseItem α β) × PropStream)) (item : α ⊕ β)
    (itemlist : List (HouseItem α β)) (stream : PropStream) : Except PropStream (HouseItem α β × PropStream) :=
  match unserializeAttr io item stream with
  | .error stream => .error stream
  | .ok (.inl a, _, stream) => .ok (.leaf a, stream)
  | .ok (.inr b, serializationCount, stream) =>
    match loadContainer load serializationCount.toNat itemlist stream with
    | .error stream => .error stream
    | .ok (itemlist, stream) => .ok (.inner b itemlist, stream)

/-- `IOMapSerialize::loadItem` with a container as the parent, which has no tile while it is loaded. The depth bounds how
    far the containers nest. -/
def loadItem : Nat → PropStream → Except PropStream (Option (HouseItem α β) × PropStream)
  | 0, stream => .error stream
  | depth + 1, stream =>
    match stream.readU16 with
    | none => .error stream
    | some (id, stream) =>
      match io.CreateItem id with
      | none => .ok (none, stream)
      | some item =>
        match loadInto io (loadItem depth) item [] stream with
        | .error stream => .error stream
        | .ok (item, stream) => .ok (some item, stream)

/-- `loadItem` at a depth that no stream of this length exceeds. -/
def load (stream : PropStream) : Except PropStream (Option (HouseItem α β) × PropStream) :=
  loadItem io (stream.length + 1) stream

/-- `Tile::internalAddThing` for an item. -/
def internalAddThing (tile : HouseTile α β) (item : HouseItem α β) : HouseTile α β :=
  let it := itemType io item
  if it.isGroundTile then if tile.ground.isNone then { tile with ground := some item } else tile
  else if tile.items.length ≥ 0xFFFF then tile
  else if it.alwaysOnTopOrder ≠ 0 then
    let before (x : HouseItem α β) : Bool := (itemType io x).alwaysOnTopOrder ≤ it.alwaysOnTopOrder
    { tile with
      items := tile.downItems ++ (tile.topItems.takeWhile before ++ item :: tile.topItems.dropWhile before) }
  else { tile with items := item :: tile.items, downItemCount := tile.downItemCount + 1 }

/-- The search for a stationary item on the tile. -/
def isStationary (id : UInt16) (findItem : HouseItem α β) : Bool :=
  let iType := io.items id
  io.getID findItem.root = id || (iType.m_transformOnUse ≠ 0 && io.getID findItem.root = iType.m_transformOnUse) ||
    (iType.isDoor && io.getDoor findItem.root) || (iType.isBed && io.getBed findItem.root)

/-- `loadItem` with a tile as the parent. Stationary items of the map are found again, and changed into what was saved by
    `transformItem`; what a failed reading does to one of them is left out. -/
def loadTileItem (transformItem : HouseItem α β → UInt16 → HouseItem α β) (tile : HouseTile α β) (stream : PropStream) :
    HouseTile α β × PropStream :=
  match stream.readU16 with
  | none => (tile, stream)
  | some (id, stream) =>
    let iType := io.items id
    if iType.isBed ∨ iType.movable ∨ iType.isCarpet ∨ iType.isTrashHolder then
      match io.CreateItem id with
      | none => (tile, stream)
      | some item =>
        match loadInto io (load io) item [] stream with
        | .error stream => (tile, stream)
        | .ok (item, stream) =>
          if iType.isBed ∧ io.getBed item.root ∧ io.getSleeper item.root = 0 ∧ !iType.movable then (tile, stream)
          else (internalAddThing io tile item, stream)
    else
      match tile.items.findIdx? (isStationary io id) with
      | some i =>
        match tile.items[i]? with
        | none => (tile, stream)
        | some item =>
          let itemlist := match item with
            | .leaf _ => []
            | .inner _ itemlist => itemlist
          match loadInto io (load io) item.root itemlist stream with
          | .error stream => (tile, stream)
          | .ok (item, stream) => ({ tile with items := tile.items.set i (transformItem item id) }, stream)
      | none =>
        match io.CreateItem id with
        | none => (tile, stream)
        | some dummy =>
          match loadInto io (load io) dummy [] stream with
          | .error stream => (tile, stream)
          | .ok (_, stream) => (tile, stream)

/-- The loop over the items of a row; `isTransferOnRestart` is `TOGGLE_HOUSE_TRANSFER_ON_SERVER_RESTART`. -/
def loadTileItems (transformItem : HouseItem α β → UInt16 → HouseItem α β) (isTransferOnRestart : Bool) :
    Nat → HouseTile α β → PropStream → HouseTile α β × PropStream
  | 0, tile, stream => (tile, stream)
  | item_count + 1, tile, stream =>
    if !isTransferOnRestart ∧ tile.owner = 0 then
      loadTileItems transformItem isTransferOnRestart item_count tile stream
    else
      let (tile, stream) := loadTileItem io transformItem tile stream
      loadTileItems transformItem isTransferOnRestart item_count tile stream

/-- The position at the head of a row. -/
def readPosition (stream : PropStream) : Option (Position × PropStream) :=
  match stream.readU16 with
  | none => none
  | some (x, stream) =>
    match stream.readU16 with
    | none => none
    | some (y, stream) => stream.readU8.map fun r => ({ x, y, z := r.1 }, r.2)

/-- The body of the loop of `IOMapSerialize::loadHouseItems` over the rows: the map, and what is left of the row. -/
def loadRow (transformItem : HouseItem α β → UInt16 → HouseItem α β) (isTransferOnRestart : Bool)
    (getTile : Position → Option (HouseTile α β)) (stream : PropStream) :
    (Position → Option (HouseTile α β)) × PropStream :=
  match readPosition stream with
  | none => (getTile, stream)
  | some (position, stream) =>
    match getTile position with
    | none => (getTile, stream)
    | some tile =>
      match stream.readU32 with
      | none => (getTile, stream)
      | some (item_count, stream) =>
        let (tile, stream) := loadTileItems io transformItem isTransferOnRestart item_count.toNat tile stream
        (Function.update getTile position (some tile), stream)

end IOMapSerialize
end CrystalServer
