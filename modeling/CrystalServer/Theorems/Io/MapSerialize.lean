import CrystalServer.Io.MapSerialize
import CrystalServer.Theorems.Io.PropStream

/-! # House items survive a restart

A tile is written from behind, and each item of a row is put in front of those before, so the order comes back. An item
that is always on top is put behind those of its order, so these come back in the opposite order. -/

namespace CrystalServer
open Lib PropStream

namespace IOMapSerialize
variable {α β : Type} {io : MapItems α β} {x : α ⊕ β} {item : HouseItem α β} {tile : HouseTile α β}
  {l : List (HouseItem α β)} {rest : PropStream}

/-! ### Bytes of one item -/

/-- The item by itself is made again from its bytes: what follows them is read as if the item had been there. -/
def Survives (io : MapItems α β) (x : α ⊕ β) : Prop :=
  ∃ created, io.CreateItem (io.getID x) = some created ∧
    ∀ rest, unserializeAttr io created (io.serializeAttr x ++ rest) = unserializeAttr io x rest

/-- What a container holds. -/
def children : HouseItem α β → List (HouseItem α β)
  | .leaf _ => []
  | .inner _ itemlist => itemlist

/-- The item and all that it holds come back by themselves, and each container can say how many items it holds. -/
def Whole (io : MapItems α β) : HouseItem α β → Prop
  | .leaf a => Survives io (.inl a)
  | .inner b itemlist => Survives io (.inr b) ∧ itemlist.length < 2 ^ 32 ∧ ∀ item ∈ itemlist, Whole io item

theorem Whole.survives (h : Whole io item) : Survives io item.root := by
  cases item with
  | leaf a => rwa [Whole] at h
  | inner b l =>
    rw [Whole] at h
    exact h.1

theorem Whole.length_lt (h : Whole io item) : (children item).length < 2 ^ 32 := by
  cases item with
  | leaf a => exact Nat.two_pow_pos 32
  | inner b l =>
    rw [Whole] at h
    exact h.2.1

theorem Whole.children (h : Whole io item) {i : HouseItem α β} (hi : i ∈ children item) : Whole io i := by
  cases item with
  | leaf a => cases hi
  | inner b l =>
    rw [Whole] at h
    exact h.2.2 i hi

/-- The bytes of an item behind its id. -/
def body (io : MapItems α β) : HouseItem α β → List UInt8
  | .leaf a => io.serializeAttr (.inl a) ++ [0]
  | .inner b itemlist =>
    io.serializeAttr (.inr b) ++ (AttrTypes_t.ATTR_CONTAINER_ITEMS.toByte ::
      LittleEndian.bytes 4 (UInt32.ofNat itemlist.length).toNat ++ (itemlist.reverse.flatMap (saveItem io) ++ [0]))

theorem saveItem_eq (item : HouseItem α β) :
    saveItem io item = LittleEndian.bytes 2 (io.getID item.root).toNat ++ body io item := by
  cases item with
  | leaf a => simp [saveItem, body, PropWriteStream.write, LittleEndian.bytes, Tree.root]
  | inner b l =>
    have hrev : l.reverse.flatMap (saveItem io) = (l.map (saveItem io)).reverse.flatten := by
      rw [List.flatMap_def, List.map_reverse]
    rw [saveItem, body, hrev]
    simp [PropWriteStream.write, LittleEndian.bytes, Tree.root]

theorem unserializeAttr_end (x : α ⊕ β) (rest : PropStream) : unserializeAttr io x (0 :: rest) = .ok (x, 0, rest) := by
  have hbyte : readU8 (0 :: rest) = some (0, rest) := readU8_bytes 0 rest
  rw [unserializeAttr, unserializeLoop, hbyte]
  rfl

theorem unserializeAttr_container (b : β) (count : UInt32) (rest : PropStream) :
    unserializeAttr io (.inr b) (AttrTypes_t.ATTR_CONTAINER_ITEMS.toByte :: LittleEndian.bytes 4 count.toNat ++ rest) =
      .ok (.inr b, count, rest) := by
  have hbyte := readU8_bytes AttrTypes_t.ATTR_CONTAINER_ITEMS.toByte (LittleEndian.bytes 4 count.toNat ++ rest)
  change readU8 (AttrTypes_t.ATTR_CONTAINER_ITEMS.toByte :: LittleEndian.bytes 4 count.toNat ++ rest) = _ at hbyte
  rw [unserializeAttr, unserializeLoop, hbyte]
  dsimp only
  have htag : AttrTypes_t.ofByte AttrTypes_t.ATTR_CONTAINER_ITEMS.toByte = some .ATTR_CONTAINER_ITEMS := rfl
  rw [if_neg (by decide), htag]
  dsimp only
  rw [if_pos ⟨rfl, rfl⟩, readU32_bytes]

/-! ### Containers -/

/-- A container takes the items that are read to the front, so that they stand in the opposite order. -/
theorem loadContainer_items {load : PropStream → Except PropStream (Option (HouseItem α β) × PropStream)}
    (h : ∀ item ∈ l, ∀ rest, load (saveItem io item ++ rest) = .ok (some item, rest)) (itemlist : List (HouseItem α β)) :
    loadContainer load l.length itemlist (l.flatMap (saveItem io) ++ 0 :: rest) = .ok (l.reverse ++ itemlist, rest) := by
  induction l generalizing itemlist with
  | nil =>
    have hbyte : readU8 (0 :: rest) = some (0, rest) := readU8_bytes 0 rest
    rw [List.flatMap_nil, List.nil_append, List.length_nil, loadContainer, hbyte]
    rfl
  | cons item l ih =>
    rw [List.flatMap_cons, List.append_assoc, List.length_cons, loadContainer, h item List.mem_cons_self]
    dsimp only
    rw [ih fun item hi => h item (List.mem_cons_of_mem _ hi)]
    simp

/-- An item is read back from its bytes, whatever reads those that it holds. -/
theorem loadInto_body {load : PropStream → Except PropStream (Option (HouseItem α β) × PropStream)}
    (h : Whole io item)
    (hl : ∀ i ∈ children item, ∀ rest, load (saveItem io i ++ rest) = .ok (some i, rest)) :
    ∃ created, io.CreateItem (io.getID item.root) = some created ∧
      ∀ rest, loadInto io load created [] (body io item ++ rest) = .ok (item, rest) := by
  obtain ⟨created, hcreate, hread⟩ := h.survives
  have hsize := h.length_lt
  refine ⟨created, hcreate, fun rest => ?_⟩
  cases item with
  | leaf a =>
    rw [body, List.append_assoc, loadInto]
    change ∀ rest, unserializeAttr io created (io.serializeAttr (.inl a) ++ rest) = _ at hread
    rw [hread, List.singleton_append, Tree.root, unserializeAttr_end]
  | inner b l =>
    change ∀ i ∈ l, ∀ rest, load (saveItem io i ++ rest) = .ok (some i, rest) at hl
    have hlength : (UInt32.ofNat l.length).toNat = l.reverse.length :=
      (UInt32.toNat_ofNat_of_lt' hsize).trans List.length_reverse.symm
    rw [body, List.append_assoc, loadInto]
    change ∀ rest, unserializeAttr io created (io.serializeAttr (.inr b) ++ rest) = _ at hread
    rw [hread, List.append_assoc, Tree.root, unserializeAttr_container]
    dsimp only
    rw [hlength, List.append_assoc, List.singleton_append,
      loadContainer_items fun i hi => hl i (List.mem_reverse.mp hi)]
    simp

theorem length_saveItem_lt {i : HouseItem α β} (h : i ∈ children item) :
    (saveItem io i).length < (saveItem io item).length := by
  cases item with
  | leaf a => cases h
  | inner b l =>
    obtain ⟨before, after, hl⟩ := List.append_of_mem (show i ∈ l from h)
    rw [saveItem_eq (.inner b l), body, hl]
    simp only [List.reverse_append, List.reverse_cons, List.flatMap_append, List.flatMap_singleton, List.length_append,
      List.length_cons, LittleEndian.length_bytes]
    omega

/-- An item with all that it holds is read back from its bytes. -/
theorem loadItem_saveItem (h : Whole io item) {depth : Nat} (hd : (saveItem io item).length ≤ depth) (rest : PropStream) :
    loadItem io depth (saveItem io item ++ rest) = .ok (some item, rest) := by
  induction depth generalizing item rest with
  | zero =>
    rw [saveItem_eq] at hd
    simp at hd
  | succ d ih =>
    have hl : ∀ i ∈ children item, ∀ rest, loadItem io d (saveItem io i ++ rest) = .ok (some i, rest) := fun i hi =>
      ih (h.children hi) (Nat.le_of_lt_succ ((length_saveItem_lt hi).trans_le hd))
    obtain ⟨created, hcreate, hbody⟩ := loadInto_body h hl
    rw [saveItem_eq, List.append_assoc, loadItem, readU16_bytes]
    dsimp only
    rw [hcreate]
    dsimp only
    rw [hbody]

/-! ### Tiles -/

/-- What the order of an item always on top is compared by. -/
def order (io : MapItems α β) (item : HouseItem α β) : Nat := (itemType io item).alwaysOnTopOrder.toNat

theorem internalAddThing_top (hground : (itemType io item).isGroundTile = false) (hlen : tile.items.length < 0xFFFF)
    (htop : order io item ≠ 0) : internalAddThing io tile item =
      { tile with items := tile.downItems ++ insertByKey (order io) item tile.topItems } := by
  have hnot : ¬tile.items.length ≥ 0xFFFF := Nat.not_le.mpr hlen
  have hon : (itemType io item).alwaysOnTopOrder ≠ 0 := fun h => htop (congrArg UInt8.toNat h)
  unfold internalAddThing
  simp only [hground, Bool.false_eq_true, if_false, if_neg hnot, if_pos hon, insertByKey, order, UInt8.le_iff_toNat_le]
  rfl

theorem internalAddThing_down (hground : (itemType io item).isGroundTile = false) (hlen : tile.items.length < 0xFFFF)
    (hdown : order io item = 0) : internalAddThing io tile item =
      { tile with items := item :: tile.items, downItemCount := tile.downItemCount + 1 } := by
  have hnot : ¬tile.items.length ≥ 0xFFFF := Nat.not_le.mpr hlen
  have hon : ¬(itemType io item).alwaysOnTopOrder ≠ 0 := not_not_intro (UInt8.toNat_inj.mp hdown)
  unfold internalAddThing
  simp only [hground, Bool.false_eq_true, if_false, if_neg hnot, if_neg hon]

/-- Items that are always on top, one after the other, on a tile without others. -/
theorem foldl_top (hground : ∀ item ∈ l, (itemType io item).isGroundTile = false)
    (htop : ∀ item ∈ l, order io item ≠ 0) (hdown : tile.downItemCount = 0) (hlen : l.length + tile.items.length ≤ 0xFFFF) :
    l.foldl (internalAddThing io) tile = { tile with items := insertAll (order io) l tile.items } := by
  induction l generalizing tile with
  | nil => rfl
  | cons item l ih =>
    rw [List.length_cons] at hlen
    have hlt : tile.items.length < 0xFFFF := by omega
    have hitem := internalAddThing_top (hground item List.mem_cons_self) hlt (htop item List.mem_cons_self)
    rw [HouseTile.downItems, HouseTile.topItems, hdown, List.take_zero, List.drop_zero, List.nil_append] at hitem
    rw [List.foldl_cons, hitem]
    refine (ih (fun i hi => hground i (List.mem_cons_of_mem _ hi)) (fun i hi => htop i (List.mem_cons_of_mem _ hi)) rfl
      ?_).trans ?_
    · rw [length_insertByKey]
      omega
    · rw [hdown]
      rfl

/-- The other items, one after the other. -/
theorem foldl_down (hground : ∀ item ∈ l, (itemType io item).isGroundTile = false)
    (hdown : ∀ item ∈ l, order io item = 0) (hlen : l.length + tile.items.length ≤ 0xFFFF) :
    l.foldl (internalAddThing io) tile =
      { tile with items := l.reverse ++ tile.items, downItemCount := tile.downItemCount + l.length } := by
  induction l generalizing tile with
  | nil => rfl
  | cons item l ih =>
    rw [List.length_cons] at hlen
    have hlt : tile.items.length < 0xFFFF := by omega
    rw [List.foldl_cons, internalAddThing_down (hground item List.mem_cons_self) hlt (hdown item List.mem_cons_self)]
    refine (ih (fun i hi => hground i (List.mem_cons_of_mem _ hi)) (fun i hi => hdown i (List.mem_cons_of_mem _ hi))
      ?_).trans ?_
    · rw [List.length_cons]
      omega
    · simp only [List.reverse_cons, List.append_assoc, List.cons_append, List.nil_append, List.length_cons]
      congr 1
      omega

/-- The items of a tile: those always on top stand behind, by their order, no more than a tile takes, and none is a
    ground. -/
structure Arranged (io : MapItems α β) (tile : HouseTile α β) : Prop where
  down : ∀ item ∈ tile.downItems, order io item = 0
  top : ∀ item ∈ tile.topItems, order io item ≠ 0
  count : tile.downItemCount ≤ tile.items.length
  length : tile.items.length ≤ 0xFFFF
  ground : ∀ item ∈ tile.items, (itemType io item).isGroundTile = false

/-- What comes back when the items of a tile are put on an empty one from behind. -/
theorem foldl_reverse (h : Arranged io tile) {empty : HouseTile α β} (hitems : empty.items = [])
    (hcount : empty.downItemCount = 0) : tile.items.reverse.foldl (internalAddThing io) empty =
      { empty with
        items := tile.downItems ++ insertAll (order io) tile.topItems.reverse []
        downItemCount := tile.downItemCount } := by
  have hsplit : tile.items = tile.downItems ++ tile.topItems := (List.take_append_drop ..).symm
  have hlength : tile.topItems.reverse.length + tile.downItems.reverse.length = tile.items.length := by
    rw [hsplit]
    simp only [List.length_reverse, List.length_append]
    omega
  have hlen := h.length
  have hdowns : tile.downItems.length = tile.downItemCount := List.length_take_of_le h.count
  have hground : ∀ l : List (HouseItem α β), l ⊆ tile.items → ∀ i ∈ l.reverse, (itemType io i).isGroundTile = false :=
    fun l hl i hi => h.ground i (hl (List.mem_reverse.mp hi))
  have htop : tile.topItems.reverse.foldl (internalAddThing io) empty = _ := foldl_top (hground tile.topItems (List.drop_subset ..))
    (fun i hi => h.top i (List.mem_reverse.mp hi)) hcount (by rw [hitems, List.length_nil]; omega)
  rw [hitems] at htop
  rw [hsplit, List.reverse_append, List.foldl_append, htop]
  rw [foldl_down (hground tile.downItems (List.take_subset ..)) (fun i hi => h.down i (List.mem_reverse.mp hi)) (by
    simp only [length_insertAll, List.length_nil]
    omega)]
  simp only [hcount, List.reverse_reverse, List.length_reverse, hdowns, Nat.zero_add]

/-! ### Rows -/

variable {transformItem : HouseItem α β → UInt16 → HouseItem α β} {isTransferOnRestart : Bool}

theorem load_saveItem (h : Whole io item) (rest : PropStream) :
    load io (saveItem io item ++ rest) = .ok (some item, rest) :=
  loadItem_saveItem h (by rw [List.length_append]; omega) rest

theorem loadTileItem_saveItem (h : Whole io item) (hmovable : (itemType io item).movable = true) (rest : PropStream) :
    loadTileItem io transformItem tile (saveItem io item ++ rest) = (internalAddThing io tile item, rest) := by
  obtain ⟨created, hcreate, hbody⟩ := loadInto_body h fun i hi => load_saveItem (h.children hi)
  have hmoves : (io.items (io.getID item.root)).movable = true := hmovable
  rw [saveItem_eq, List.append_assoc, loadTileItem, readU16_bytes]
  dsimp only
  rw [if_pos (.inr (.inl hmoves)), hcreate]
  dsimp only
  rw [hbody]
  dsimp only
  rw [if_neg (by simp [hmoves])]

theorem owner_internalAddThing (tile : HouseTile α β) (item : HouseItem α β) :
    (internalAddThing io tile item).owner = tile.owner := by
  unfold internalAddThing
  dsimp only
  split_ifs <;> rfl

theorem loadTileItems_saveItem (h : ∀ item ∈ l, Whole io item ∧ (itemType io item).movable = true)
    (howner : ¬(!isTransferOnRestart ∧ tile.owner = 0)) (rest : PropStream) :
    loadTileItems io transformItem isTransferOnRestart l.length tile (l.flatMap (saveItem io) ++ rest) =
      (l.foldl (internalAddThing io) tile, rest) := by
  induction l generalizing tile with
  | nil => rfl
  | cons item l ih =>
    obtain ⟨hwhole, hmovable⟩ := h item List.mem_cons_self
    rw [List.length_cons, loadTileItems, if_neg howner, List.flatMap_cons, List.append_assoc,
      loadTileItem_saveItem hwhole hmovable]
    dsimp only
    rw [ih (fun i hi => h i (List.mem_cons_of_mem _ hi)) (by rwa [owner_internalAddThing]), List.foldl_cons]

/-- The items of the tile are movable and no bath tubs, and they come back by themselves. -/
structure Housed (io : MapItems α β) (tile : HouseTile α β) : Prop extends Arranged io tile where
  movable : ∀ item ∈ tile.items, (itemType io item).movable = true
  noTub : ∀ item ∈ tile.items, io.getID item.root ≠ ITEM_BATHTUB_FILLED_NOTMOVABLE
  whole : ∀ item ∈ tile.items, Whole io item

theorem saveTile_eq (h : Housed io tile) (hitems : tile.items ≠ []) (position : Position) :
    saveTile io position tile = LittleEndian.bytes 2 position.x.toNat ++ (LittleEndian.bytes 2 position.y.toNat ++
      (LittleEndian.bytes 1 position.z.toNat ++ (LittleEndian.bytes 4 tile.items.reverse.length ++
        tile.items.reverse.flatMap (saveItem io)))) := by
  have hsaved : tile.items.filterMap (savedAs io) = tile.items := by
    rw [List.filterMap_congr fun item hi => ?_, List.filterMap_some]
    rw [savedAs, if_neg (h.noTub item hi), if_pos]
    simp [isSavedToHouses, h.movable item hi]
  have hlength : (UInt16.ofNat tile.items.length).toNat = tile.items.length :=
    UInt16.toNat_ofNat_of_lt' (Nat.lt_succ_of_le h.length)
  rw [saveTile, hsaved]
  dsimp only
  rw [if_neg (by simpa using hitems), List.length_reverse, hlength]
  simp [PropWriteStream.write]


theorem readPosition_bytes (position : Position) (rest : PropStream) :
    readPosition (LittleEndian.bytes 2 position.x.toNat ++ (LittleEndian.bytes 2 position.y.toNat ++
      (LittleEndian.bytes 1 position.z.toNat ++ rest))) = some (position, rest) := by
  rw [readPosition, readU16_bytes]
  dsimp only
  rw [readU16_bytes]
  dsimp only
  rw [readU8_bytes]
  rfl

/-- What `loadHouseItems` makes of the row of a tile, and of what is left of it. -/
theorem loadRow_eq (h : Housed io tile) (hitems : tile.items ≠ []) (position : Position)
    {getTile : Position → Option (HouseTile α β)} {empty : HouseTile α β} (htile : getTile position = some empty)
    (hempty : empty.items = []) (hcount : empty.downItemCount = 0) (howner : isTransferOnRestart = true ∨ empty.owner ≠ 0) :
    loadRow io transformItem isTransferOnRestart getTile (saveTile io position tile) =
      (Function.update getTile position (some { empty with
        items := tile.downItems ++ insertAll (order io) tile.topItems.reverse []
        downItemCount := tile.downItemCount }), []) := by
  have hlength : tile.items.reverse.length < 2 ^ 32 := by
    rw [List.length_reverse]
    exact lt_of_le_of_lt h.length (by decide)
  have hcount32 : (UInt32.ofNat tile.items.reverse.length).toNat = tile.items.reverse.length :=
    UInt32.toNat_ofNat_of_lt' hlength
  have hread := readU32_bytes (.ofNat tile.items.reverse.length) (tile.items.reverse.flatMap (saveItem io))
  rw [hcount32] at hread
  have howner' : ¬((!isTransferOnRestart) = true ∧ empty.owner = 0) := by
    rcases howner with ho | ho <;> simp [ho]
  have hload : loadTileItems io transformItem isTransferOnRestart tile.items.reverse.length empty
      (tile.items.reverse.flatMap (saveItem io) ++ []) = _ :=
    loadTileItems_saveItem (fun i hi => ⟨h.whole i (List.mem_reverse.mp hi), h.movable i (List.mem_reverse.mp hi)⟩)
      howner' []
  rw [List.append_nil] at hload
  rw [saveTile_eq h hitems, loadRow, readPosition_bytes]
  dsimp only
  rw [htile]
  dsimp only
  rw [hread]
  dsimp only
  rw [hcount32, hload, foldl_reverse h.toArranged hempty hcount]

/-- All bytes of a row are read, the items that are not always on top come back in their order, those that are come back
    by their order, and those of one order the other way round. -/
theorem loadRow_saveTile (h : Housed io tile) (hitems : tile.items ≠ []) (position : Position)
    {getTile : Position → Option (HouseTile α β)} {empty : HouseTile α β} (htile : getTile position = some empty)
    (hempty : empty.items = []) (hcount : empty.downItemCount = 0) (howner : isTransferOnRestart = true ∨ empty.owner ≠ 0) :
    ∃ topItems, loadRow io transformItem isTransferOnRestart getTile (saveTile io position tile) =
        (Function.update getTile position (some { empty with
          items := tile.downItems ++ topItems, downItemCount := tile.downItemCount }), []) ∧
      topItems.Pairwise (fun x y => order io x ≤ order io y) ∧
      (∀ k, topItems.filter (order io · = k) = (tile.topItems.filter (order io · = k)).reverse) ∧
      (tile.topItems.Pairwise (fun x y => order io x < order io y) → tile.downItems ++ topItems = tile.items) := by
  refine ⟨_, loadRow_eq h hitems position htile hempty hcount howner, pairwise_insertAll List.Pairwise.nil, fun k => ?_,
    fun hs => ?_⟩
  · rw [filter_insertAll List.Pairwise.nil, List.filter_reverse]
    rfl
  · rw [insertAll_reverse hs]
    exact List.take_append_drop ..

/-! ### Plain items -/

/-- Plain types. -/
def plainTypes : ItemEnv where
  items id := ⟨id, .none, false, 100, 10, 0, 0, -1, false, true, true, false, false, false, .none, 0, ItemType.plain_none false⟩
  upgradeClassification _ := 0
  FORGE_MAX_ITEM_TIER := 10
  OTSYS_TIME := 1000
  getTimeNow := 1
  addUniqueItem _ := true

/-- Items of plain types that can be moved; some types are containers, and some are always on top. -/
def plainItems (isContainer : UInt16 → Bool) (alwaysOnTopOrder : UInt16 → UInt8) : MapItems Item Item where
  items id := ⟨alwaysOnTopOrder id, false, true, false, false, false, false, false, false, 0⟩
  getID x := (x.elim id id).id
  serializeAttr x := Item.serializeAttr plainTypes (x.elim id id) []
  CreateItem id :=
    if isContainer id then some (.inr (Item.CreateItem plainTypes.items id 0))
    else some (.inl (Item.CreateItem plainTypes.items id 0))
  readAttr attr x stream :=
    match x, Item.readAttr plainTypes attr (x.elim id id) stream with
    | _, none => .error stream
    | .inl _, some (item, stream) => .ok (.inl item, stream)
    | .inr _, some (item, stream) => .ok (.inr item, stream)
  getDoor _ := false
  getBed _ := false
  getSleeper _ := 0

/-- An item that has nothing to write is as it was created. -/
theorem survives_of_plain (hcreate : io.CreateItem (io.getID x) = some x) (hattr : io.serializeAttr x = []) : Survives io x :=
  ⟨x, hcreate, fun rest => by rw [hattr, List.nil_append]⟩

/-- A bag, and in it a second bag and a knife. -/
def bag : HouseItem Item Item :=
  .inner (Item.CreateItem plainTypes.items 2853 0)
    [.inner (Item.CreateItem plainTypes.items 2853 0) [], .leaf (Item.CreateItem plainTypes.items 3291 0)]

def bagTypes : MapItems Item Item := plainItems (· = 2853) fun _ => 0

/-- A tile with the bag and a knife, in a house of the player with the id 7. -/
def bagTile : HouseTile Item Item := ⟨none, [bag, .leaf (Item.CreateItem plainTypes.items 3291 0)], 2, 7⟩

def emptyTile : HouseTile Item Item := ⟨none, [], 0, 7⟩

theorem survives_knife : Survives bagTypes (.inl (Item.CreateItem plainTypes.items 3291 0)) := survives_of_plain rfl rfl

theorem survives_bag : Survives bagTypes (.inr (Item.CreateItem plainTypes.items 2853 0)) := survives_of_plain rfl rfl

theorem whole_bag : Whole bagTypes bag := by
  simp [bag, Whole, survives_bag, survives_knife]

theorem housed_bagTile : Housed bagTypes bagTile where
  down _ _ := rfl
  top _ hi := absurd hi List.not_mem_nil
  count := le_rfl
  length := by decide
  ground _ _ := rfl
  movable _ _ := rfl
  noTub item hi := by
    rcases List.mem_cons.mp hi with rfl | hi
    · decide
    · rw [List.mem_singleton.mp hi]
      decide
  whole item hi := by
    rcases List.mem_cons.mp hi with rfl | hi
    · exact whole_bag
    · rw [List.mem_singleton.mp hi, Whole]
      exact survives_knife

theorem loadRow_saveTile_bag :
    let row := saveTile bagTypes ⟨100, 101, 7⟩ bagTile
    ∃ topItems, loadRow bagTypes (fun item _ => item) false (fun _ => some emptyTile) row =
        (Function.update (fun _ => some emptyTile) ⟨100, 101, 7⟩ (some { emptyTile with
          items := bagTile.downItems ++ topItems, downItemCount := bagTile.downItemCount }), []) ∧
      topItems.Pairwise (fun x y => order bagTypes x ≤ order bagTypes y) ∧
      (∀ k, topItems.filter (order bagTypes · = k) = (bagTile.topItems.filter (order bagTypes · = k)).reverse) ∧
      (bagTile.topItems.Pairwise (fun x y => order bagTypes x < order bagTypes y) →
        bagTile.downItems ++ topItems = bagTile.items) :=
  loadRow_saveTile housed_bagTile (List.cons_ne_nil _ _) ⟨100, 101, 7⟩ rfl rfl rfl (.inr (by decide))

/-- Types that are all always on top, of one order. -/
def topTypes : MapItems Item Item := plainItems (fun _ => false) fun _ => 1

/-- Two items of different types that are always on top. -/
def topTile : HouseTile Item Item :=
  ⟨none, [.leaf (Item.CreateItem plainTypes.items 3291 0), .leaf (Item.CreateItem plainTypes.items 3292 0)], 0, 7⟩

theorem housed_topTile : Housed topTypes topTile where
  down _ hi := absurd hi List.not_mem_nil
  top _ _ := one_ne_zero
  count := Nat.zero_le _
  length := by decide
  ground _ _ := rfl
  movable _ _ := rfl
  noTub item hi := by
    rcases List.mem_cons.mp hi with rfl | hi
    · decide
    · rw [List.mem_singleton.mp hi]
      decide
  whole item hi := by
    rcases List.mem_cons.mp hi with rfl | hi
    · rw [Whole]
      exact survives_of_plain rfl rfl
    · rw [List.mem_singleton.mp hi, Whole]
      exact survives_of_plain rfl rfl

/-- The two items come back the other way round. -/
theorem not_restored_topTile : ¬∀ (io : MapItems Item Item) (tile empty : HouseTile Item Item) (position : Position),
    Housed io tile → tile.items ≠ [] → empty.items = [] → empty.downItemCount = 0 → empty.owner ≠ 0 →
      loadRow io (fun item _ => item) false (fun _ => some empty) (saveTile io position tile) =
        (Function.update (fun _ => some empty) position (some { empty with
          items := tile.items, downItemCount := tile.downItemCount }), []) := by
  intro h
  have hrow := h topTypes topTile emptyTile ⟨100, 101, 7⟩ housed_topTile (List.cons_ne_nil _ _) rfl rfl (by decide)
  rw [loadRow_eq housed_topTile (List.cons_ne_nil _ _) _ rfl rfl rfl (.inr (by decide))] at hrow
  have htile := congrFun (Prod.mk.inj hrow).1 ⟨100, 101, 7⟩
  rw [Function.update_self, Function.update_self] at htile
  have hids := congrArg (fun t => (t.elim [] HouseTile.items).map fun i => topTypes.getID i.root) htile
  exact absurd hids (by decide +kernel)

end IOMapSerialize
end CrystalServer
