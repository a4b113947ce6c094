import Mathlib.Data.List.Basic

/-! # Items and tiles of a map file

`BasicItem` and `BasicTile` (`map/mapcache.hpp`) and the way they are hashed (`map/mapcache.cpp`).
`hash_combine` is a parameter: it mixes one value into the hash so far. -/

namespace CrystalServer

/-- `BasicItem`. -/
structure BasicItem where
  text : String
  id : UInt16
  charges : UInt16
  actionId : UInt16
  uniqueId : UInt16
  destX : UInt16
  destY : UInt16
  doorOrDepotId : UInt16
  destZ : UInt8
  items : List BasicItem

/-- `BasicTile`. -/
structure BasicTile where
  ground : Option BasicItem
  items : List BasicItem
  flags : UInt32
  houseId : UInt32
  type : UInt8
  isStatic : Bool

/-- What is mixed into a hash: an integer, whatever its width, or a text. -/
inductive HashValue where
  | num (n : Nat)
  | text (s : String)
  deriving DecidableEq

section
variable {H : Type} (hash_combine : H → HashValue → H)

/-- The loop over `arr`: mixes in each value that is not zero. -/
def combineArray (h : H) (arr : List Nat) : H := arr.foldl (fun h v => if v > 0 then hash_combine h (.num v) else h) h

mutual
/-- `BasicItem::hash(size_t &)`. -/
def BasicItem.hash (h : H) : BasicItem → H
  | ⟨text, id, charges, actionId, uniqueId, destX, destY, doorOrDepotId, destZ, items⟩ =>
    let h := combineArray hash_combine h [id.toNat, charges.toNat, actionId.toNat, uniqueId.toNat, destX.toNat,
      destY.toNat, destZ.toNat, doorOrDepotId.toNat]
    let h := if text ≠ "" then hash_combine h (.text text) else h
    if items ≠ [] then hashItems (hash_combine h (.num items.length)) items else h

/-- The loop that hashes `items`. -/
def hashItems (h : H) : List BasicItem → H
  | [] => h
  | item :: items => hashItems (item.hash h) items
end

/-- `BasicTile::hash(size_t &)`. -/
def BasicTile.hash (h : H) (tile : BasicTile) : H :=
  let h := combineArray hash_combine h [tile.flags.toNat, tile.houseId.toNat, tile.type.toNat, tile.isStatic.toNat]
  let h := match tile.ground with
    | some ground => ground.hash hash_combine h
    | none => h
  if tile.items ≠ [] then hashItems hash_combine (hash_combine h (.num tile.items.length)) tile.items else h

end

/-! ### Hashed values -/

def nonzero (arr : List Nat) : List HashValue := (arr.filter (· > 0)).map .num

mutual
/-- The values that the hash of an item mixes in, in order. -/
def BasicItem.hashed : BasicItem → List HashValue
  | ⟨text, id, charges, actionId, uniqueId, destX, destY, doorOrDepotId, destZ, items⟩ =>
    nonzero [id.toNat, charges.toNat, actionId.toNat, uniqueId.toNat, destX.toNat, destY.toNat, destZ.toNat,
        doorOrDepotId.toNat] ++
      (if text ≠ "" then [.text text] else []) ++
      (if items ≠ [] then .num items.length :: hashedItems items else [])

def hashedItems : List BasicItem → List HashValue
  | [] => []
  | item :: items => item.hashed ++ hashedItems items
end

/-- The values that the hash of a tile mixes in, in order. -/
def BasicTile.hashed (tile : BasicTile) : List HashValue :=
  nonzero [tile.flags.toNat, tile.houseId.toNat, tile.type.toNat, tile.isStatic.toNat] ++
    (match tile.ground with
      | some ground => ground.hashed
      | none => []) ++
    (if tile.items ≠ [] then .num tile.items.length :: hashedItems tile.items else [])

section
variable {H : Type} (hash_combine : H → HashValue → H)

theorem combineArray_eq_foldl (h : H) (arr : List Nat) :
    combineArray hash_combine h arr = (nonzero arr).foldl hash_combine h := by
  induction arr generalizing h with
  | nil => rfl
  | cons v arr ih =>
    have hc : combineArray hash_combine h (v :: arr) =
        combineArray hash_combine (if v > 0 then hash_combine h (.num v) else h) arr := rfl
    rw [hc, ih]
    by_cases hv : v > 0
    · simp [nonzero, hv]
    · simp [nonzero, hv]

mutual
theorem BasicItem.hash_eq_foldl (h : H) : ∀ item : BasicItem, item.hash hash_combine h = item.hashed.foldl hash_combine h
  | ⟨text, id, charges, actionId, uniqueId, destX, destY, doorOrDepotId, destZ, items⟩ => by
    have ih := hashItems_eq_foldl items
    simp only [BasicItem.hash, BasicItem.hashed, List.foldl_append, combineArray_eq_foldl]
    by_cases ht : text = "" <;> by_cases hi : items = [] <;> simp [ht, hi, ih]

theorem hashItems_eq_foldl : ∀ (items : List BasicItem) (h : H),
    hashItems hash_combine h items = (hashedItems items).foldl hash_combine h
  | [], _ => rfl
  | item :: items, h => by
    rw [hashItems, hashedItems, List.foldl_append, BasicItem.hash_eq_foldl h item, hashItems_eq_foldl items]
end

theorem BasicTile.hash_eq_foldl (h : H) (tile : BasicTile) :
    tile.hash hash_combine h = tile.hashed.foldl hash_combine h := by
  obtain ⟨ground, items, flags, houseId, type, isStatic⟩ := tile
  simp only [BasicTile.hash, BasicTile.hashed, List.foldl_append, combineArray_eq_foldl, hashItems_eq_foldl]
  cases ground <;> by_cases hi : items = [] <;> simp [hi, BasicItem.hash_eq_foldl]

end
end CrystalServer
