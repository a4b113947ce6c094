import CrystalServer.Lib.Run
import CrystalServer.Map.Sector
import Mathlib.Algebra.Group.Nat.Defs
import Mathlib.Data.List.Induction

/-! # Sectors and the cache of the map

Finding sectors, and what the cache of items and tiles hands out. -/

/-! ## Finding sectors

Changing or linking sectors keeps which sectors there are, and `getBestMapSector` adds the one asked for. -/

namespace CrystalServer.MapSectors
open Lib

@[simp] theorem isSome_update (m : MapSectors) (i : UInt32) (f : MapSector → MapSector) (j : UInt32) :
    (m.update i f j).isSome = (m j).isSome := by
  unfold update
  split <;> simp

theorem update_self (m : MapSectors) (i : UInt32) (f : MapSector → MapSector) : m.update i f i = (m i).map f :=
  if_pos rfl

theorem update_of_ne (m : MapSectors) {i j : UInt32} (h : j ≠ i) (f : MapSector → MapSector) : m.update i f j = m j :=
  if_neg h

@[simp] theorem isSome_link (m : MapSectors) (n i : UInt32) (f : MapSector → MapSector) (j : UInt32) :
    (m.link n i f j).isSome = (m j).isSome := by
  unfold link
  split <;> simp

theorem link_of_ne (m : MapSectors) (n : UInt32) {i j : UInt32} (h : j ≠ i) (f : MapSector → MapSector) :
    m.link n i f j = m j := by
  unfold link
  split
  · exact update_of_ne m h f
  · rfl

theorem link_self (m : MapSectors) (n i : UInt32) (f : MapSector → MapSector) :
    m.link n i f i = if (m n).isSome then (m i).map f else m i := by
  unfold link
  split
  · exact update_self m i f
  · rfl

/-- A link at an existing neighbour itself needs no test. -/
theorem link_neighbour (m : MapSectors) (n k : UInt32) (f : MapSector → MapSector) :
    m.link n n f k = if k = n then (m k).map f else m k := by
  by_cases h : k = n
  · subst h
    rw [link_self, if_pos rfl]
    cases m k <;> rfl
  · rw [link_of_ne m n h, if_neg h]

/-- A new sector is added to those that there are. -/
theorem isSome_linkNew (m : MapSectors) (x y j : UInt32) :
    (m.linkNew x y j).isSome = (decide (j = index x y) || (m j).isSome) := by
  unfold linkNew
  simp only [isSome_link]
  by_cases h : j = index x y <;> simp [h]

theorem isSome_getBestMapSector (m : MapSectors) (x y j : UInt32) :
    (m.getBestMapSector x y j).isSome = (decide (j = index x y) || (m j).isSome) := by
  unfold getBestMapSector
  split
  · rename_i h
    by_cases hj : j = index x y
    · subst hj
      simpa [getMapSector] using h
    · simp [hj]
  · exact isSome_linkNew ..

/-- The square whose floor was changed finds the changed floor. -/
theorem floor_onFloor (m : MapSectors) (x y : UInt16) (z : Fin MAP_MAX_LAYERS) (f : Floor → Floor) :
    ∃ s g, (m.onFloor x y z f).getMapSector x.toUInt32 y.toUInt32 = some s ∧ s.floors z = some (f g) := by
  have hs : ((m.getBestMapSector x.toUInt32 y.toUInt32) (index x.toUInt32 y.toUInt32)).isSome := by
    simp [isSome_getBestMapSector]
  obtain ⟨s, hs⟩ := Option.isSome_iff_exists.mp hs
  refine ⟨s.onFloor z f, (s.floors z).getD Floor.empty, ?_, if_pos rfl⟩
  rw [getMapSector, onFloor, update_self, hs, Option.map_some]

/-! ### Indices -/

theorem toNat_index (x y : UInt32) : (index x y).toNat = x.toNat / 16 ||| y.toNat / 16 * 2 ^ 16 % 2 ^ 32 := by
  simp [index, UInt32.toNat_or, UInt32.toNat_shiftLeft, Nat.shiftLeft_eq]

theorem toNat_index_mod (x y : UInt32) : (index x y).toNat % 65536 = x.toNat / 16 % 65536 := by
  rw [toNat_index, show 65536 = 2 ^ 16 from rfl, Nat.or_mod_two_pow]
  have h : y.toNat / 16 * 2 ^ 16 % 2 ^ 32 % 2 ^ 16 = 0 := by omega
  rw [h, Nat.or_zero]

theorem toNat_index_div {x : UInt32} (hx : x.toNat < 2 ^ 20) (y : UInt32) :
    (index x y).toNat / 65536 = y.toNat / 16 % 65536 := by
  rw [toNat_index, show 65536 = 2 ^ 16 from rfl, Nat.or_div_two_pow,
    Nat.div_eq_of_lt (show x.toNat / 16 < 2 ^ 16 by omega), Nat.zero_or]
  omega

/-- Column and row of a sector that a square of the map can lie in. -/
def Inside (k : UInt32) : Prop := k.toNat % 65536 < 4096 ∧ k.toNat / 65536 < 4096

theorem inside_index {x y : UInt32} (hx : x.toNat < 65536) (hy : y.toNat < 65536) : Inside (index x y) := by
  have := toNat_index_mod x y
  have := toNat_index_div (show x.toNat < 2 ^ 20 by omega) y
  unfold Inside
  omega

theorem toNat_add_one {k : UInt32} (h : Inside k) : (k + 1).toNat = k.toNat + 1 := by
  obtain ⟨-, h⟩ := h
  rw [UInt32.toNat_add, UInt32.toNat_one, Nat.mod_eq_of_lt (by omega)]

theorem toNat_add_row {k : UInt32} (h : Inside k) : (k + 65536).toNat = k.toNat + 65536 := by
  obtain ⟨-, h⟩ := h
  rw [UInt32.toNat_add, show (65536 : UInt32).toNat = 65536 from rfl, Nat.mod_eq_of_lt (by omega)]

theorem add_one_ne {k : UInt32} (h : Inside k) : k + 1 ≠ k := fun he => by
  have := congrArg UInt32.toNat he
  rw [toNat_add_one h] at this
  omega

theorem add_row_ne {k : UInt32} (h : Inside k) : k + 65536 ≠ k := fun he => by
  have := congrArg UInt32.toNat he
  rw [toNat_add_row h] at this
  omega

theorem toNat_add_sector {x : UInt32} (hx : x.toNat < 65536) : (x + 16).toNat = x.toNat + 16 := by
  rw [UInt32.toNat_add, show (16 : UInt32).toNat = 16 from rfl, Nat.mod_eq_of_lt (by omega)]

theorem toNat_sub_sector {x : UInt32} : (x - 16).toNat = if 16 ≤ x.toNat then x.toNat - 16 else x.toNat + 4294967280 := by
  have hx := x.toNat_lt
  rw [UInt32.toNat_sub, show (16 : UInt32).toNat = 16 from rfl]
  split <;> omega

section
variable {x y : UInt32} (hx : x.toNat < 65536) (hy : y.toNat < 65536)
include hx hy

theorem index_east : index (x + 16) y = index x y + 1 := by
  have hxe := toNat_add_sector hx
  have hm := toNat_index_mod x y
  have hd := toNat_index_div (show x.toNat < 2 ^ 20 by omega) y
  have hme := toNat_index_mod (x + 16) y
  have hde := toNat_index_div (show (x + 16).toNat < 2 ^ 20 by omega) y
  rw [← UInt32.toNat_inj, toNat_add_one (inside_index hx hy)]
  omega

theorem index_south : index x (y + 16) = index x y + 65536 := by
  have hys := toNat_add_sector hy
  have hm := toNat_index_mod x y
  have hd := toNat_index_div (show x.toNat < 2 ^ 20 by omega) y
  have hms := toNat_index_mod x (y + 16)
  have hds := toNat_index_div (show x.toNat < 2 ^ 20 by omega) (y + 16)
  rw [← UInt32.toNat_inj, toNat_add_row (inside_index hx hy)]
  omega

omit hy in
theorem eq_index_west {k : UInt32} (hk : Inside k) : k = index (x - 16) y ↔ k + 1 = index x y := by
  have hxw := @toNat_sub_sector x
  have hm := toNat_index_mod x y
  have hd := toNat_index_div (show x.toNat < 2 ^ 20 by omega) y
  have hmw := toNat_index_mod (x - 16) y
  rw [← UInt32.toNat_inj, ← UInt32.toNat_inj, toNat_add_one hk]
  unfold Inside at hk
  by_cases h16 : 16 ≤ x.toNat
  · rw [if_pos h16] at hxw
    have hdw := toNat_index_div (show (x - 16).toNat < 2 ^ 20 by omega) y
    omega
  · rw [if_neg h16] at hxw
    omega

theorem eq_index_north {k : UInt32} (hk : Inside k) : k = index x (y - 16) ↔ k + 65536 = index x y := by
  have hyn := @toNat_sub_sector y
  have hm := toNat_index_mod x y
  have hd := toNat_index_div (show x.toNat < 2 ^ 20 by omega) y
  have hmn := toNat_index_mod x (y - 16)
  have hdn := toNat_index_div (show x.toNat < 2 ^ 20 by omega) (y - 16)
  rw [← UInt32.toNat_inj, ← UInt32.toNat_inj, toNat_add_row hk]
  unfold Inside at hk
  split at hyn <;> omega

end

/-! ### Links -/

/-- Every sector lies on the map, and its two links lead to the sectors next to it, as far as there are any. -/
structure Linked (m : MapSectors) : Prop where
  inside : ∀ k, (m k).isSome → Inside k
  east : ∀ k s, m k = some s → s.sectorE = if (m (k + 1)).isSome then some (k + 1) else none
  south : ∀ k s, m k = some s → s.sectorS = if (m (k + 65536)).isSome then some (k + 65536) else none

theorem linked_empty : empty.Linked :=
  ⟨fun _ h => (nomatch h), fun _ _ h => (nomatch h), fun _ _ h => (nomatch h)⟩

theorem Linked.update {m : MapSectors} (h : m.Linked) (i : UInt32) {f : MapSector → MapSector}
    (he : ∀ s, (f s).sectorE = s.sectorE) (hs : ∀ s, (f s).sectorS = s.sectorS) : (m.update i f).Linked := by
  -- A sector after the update has the links of the sector that was there.
  have old : ∀ k s, m.update i f k = some s →
      ∃ s₀, m k = some s₀ ∧ s.sectorE = s₀.sectorE ∧ s.sectorS = s₀.sectorS := by
    intro k s hk
    by_cases hki : k = i
    · subst hki
      rw [update_self, Option.map_eq_some_iff] at hk
      obtain ⟨s₀, hs₀, rfl⟩ := hk
      exact ⟨s₀, hs₀, he s₀, hs s₀⟩
    · rw [update_of_ne m hki] at hk
      exact ⟨s, hk, rfl, rfl⟩
  refine ⟨fun k hk => h.inside k (by rwa [isSome_update] at hk), fun k s hk => ?_, fun k s hk => ?_⟩
  · obtain ⟨s₀, hs₀, heq, -⟩ := old k s hk
    rw [heq, isSome_update]
    exact h.east k s₀ hs₀
  · obtain ⟨s₀, hs₀, -, heq⟩ := old k s hk
    rw [heq, isSome_update]
    exact h.south k s₀ hs₀

section
variable {m : MapSectors} {x y : UInt32} (h : m.Linked) (hx : x.toNat < 65536) (hy : y.toNat < 65536)
include hx hy

theorem linkNew_self : m.linkNew x y (index x y) = some { MapSector.empty with
    sectorE := if (m (index x y + 1)).isSome then some (index x y + 1) else none
    sectorS := if (m (index x y + 65536)).isSome then some (index x y + 65536) else none } := by
  have hk := inside_index hx hy
  have he := add_one_ne hk
  have hs := add_row_ne hk
  have hn : index x y ≠ index x (y - 16) := fun h => hs ((eq_index_north hx hy hk).mp h)
  have hw : index x y ≠ index (x - 16) y := fun h => he ((eq_index_west hx hk).mp h)
  unfold linkNew
  rw [link_self, link_self]
  simp only [isSome_link]
  rw [link_of_ne _ _ hw, link_of_ne _ _ hn, if_pos rfl, index_east hx hy, index_south hx hy, if_neg he, if_neg hs]
  split <;> split <;> rfl

include h

theorem linkNew_of_ne {k : UInt32} (hk : k ≠ index x y) {s : MapSector} (hs : m k = some s) :
    m.linkNew x y k = some { s with
      sectorE := if k + 1 = index x y then some (index x y) else s.sectorE
      sectorS := if k + 65536 = index x y then some (index x y) else s.sectorS } := by
  have hin := h.inside k (by simp [hs])
  unfold linkNew
  rw [link_of_ne _ _ hk, link_of_ne _ _ hk, link_neighbour, link_neighbour, if_neg hk, hs]
  simp only [eq_index_west hx hin, eq_index_north hx hy hin]
  split <;> split <;> rfl

/-- A new sector keeps the links right. -/
theorem Linked.linkNew : (m.linkNew x y).Linked := by
  have hk₀ := inside_index hx hy
  -- A sector beside the new one was there before.
  have old : ∀ k s, k ≠ index x y → m.linkNew x y k = some s → ∃ s₀, m k = some s₀ := by
    intro k s hki hk
    have hsome := congrArg Option.isSome hk
    rw [isSome_linkNew, decide_eq_false hki, Bool.false_or] at hsome
    exact Option.isSome_iff_exists.mp hsome
  refine ⟨fun k hk => ?_, fun k s hk => ?_, fun k s hk => ?_⟩
  · rw [isSome_linkNew, Bool.or_eq_true, decide_eq_true_eq] at hk
    rcases hk with rfl | hk
    · exact hk₀
    · exact h.inside k hk
  · rw [isSome_linkNew]
    by_cases hki : k = index x y
    · subst hki
      rw [linkNew_self hx hy, Option.some_inj] at hk
      rw [← hk, decide_eq_false (add_one_ne hk₀), Bool.false_or]
    · obtain ⟨s₀, hs₀⟩ := old k s hki hk
      rw [linkNew_of_ne h hx hy hki hs₀, Option.some_inj] at hk
      subst hk
      simp only [h.east k s₀ hs₀]
      by_cases hc : k + 1 = index x y <;> simp [hc]
  · rw [isSome_linkNew]
    by_cases hki : k = index x y
    · subst hki
      rw [linkNew_self hx hy, Option.some_inj] at hk
      rw [← hk, decide_eq_false (add_row_ne hk₀), Bool.false_or]
    · obtain ⟨s₀, hs₀⟩ := old k s hki hk
      rw [linkNew_of_ne h hx hy hki hs₀, Option.some_inj] at hk
      subst hk
      simp only [h.south k s₀ hs₀]
      by_cases hc : k + 65536 = index x y <;> simp [hc]

theorem Linked.getBestMapSector : (m.getBestMapSector x y).Linked := by
  unfold MapSectors.getBestMapSector
  split
  · exact h
  · exact h.linkNew hx hy

end

/-! ### Building a map -/

theorem Linked.onFloor {m : MapSectors} (h : m.Linked) (x y : UInt16) (z : Fin MAP_MAX_LAYERS) (f : Floor → Floor) :
    (m.onFloor x y z f).Linked := by
  have hx : x.toUInt32.toNat < 65536 := x.toNat_lt
  have hy : y.toUInt32.toNat < 65536 := y.toNat_lt
  exact (h.getBestMapSector hx hy).update _ (fun _ => rfl) fun _ => rfl

theorem Linked.setTile {m : MapSectors} (h : m.Linked) (x y : UInt16) (z : UInt8) : (m.setTile x y z).Linked := by
  unfold MapSectors.setTile
  split
  · exact h.onFloor x y _ id
  · exact h

theorem sectorE_addCreature (s : MapSector) (c : Creature) : (s.addCreature c).sectorE = s.sectorE := by
  cases hk : c.kind <;> simp [MapSector.addCreature, hk]

theorem sectorS_addCreature (s : MapSector) (c : Creature) : (s.addCreature c).sectorS = s.sectorS := by
  cases hk : c.kind <;> simp [MapSector.addCreature, hk]

theorem Linked.placeCreature {m : MapSectors} (h : m.Linked) (c : Creature) : (m.placeCreature c).Linked := by
  unfold MapSectors.placeCreature
  split
  · refine h.update _ (fun s => ?_) fun s => ?_
    · split
      · exact sectorE_addCreature s c
      · rfl
    · split
      · exact sectorS_addCreature s c
      · rfl
  · exact h

theorem Linked.step {m : MapSectors} (h : m.Linked) (op : Op) : (m.step op).Linked := by
  cases op with
  | setTile x y z => exact h.setTile x y z
  | setTileCache x y z tile => exact h.onFloor x y z _
  | placeCreature c => exact h.placeCreature c

/-- However a map is built, its sectors are linked with their neighbours. -/
theorem linked_run (ops : List Op) : (run MapSectors.step empty ops).Linked :=
  run_induction Linked (fun _ op h => h.step op) ops linked_empty

end CrystalServer.MapSectors

/-! ## What the item and tile cache hands out

The cache is keyed by the hash alone, and the hash skips zero fields. So two different items or tiles
that mix the same values into the hash are confused: the second one is replaced by the first. -/

namespace CrystalServer.MapCache
open Lib

section
variable {H : Type} (hash_combine : H → HashValue → H) (seed : H)

/-- Two different sequences of values, neither of them empty, never fold to the same hash. -/
def CollisionFree : Prop :=
  ∀ xs ys : List HashValue, xs ≠ [] → ys ≠ [] → xs.foldl hash_combine seed = ys.foldl hash_combine seed → xs = ys

/-- The items given to the cache. -/
def Op.item? : Op → Option BasicItem
  | .tryReplaceItemFromCache ref => ref
  | .setBasicTile .. => none

/-- The tiles given to the cache; a tile beyond the last layer is not. -/
def Op.tile? : Op → Option BasicTile
  | .tryReplaceItemFromCache _ => none
  | .setBasicTile _ _ z newTile => if z.toNat < MAP_MAX_LAYERS then newTile else none

/-- No two different values mix the same sequence into the hash, and nothing hashes to the seed beside a
    value that mixes in nothing. -/
def ToldApart {α : Type} (hashed : α → List HashValue) (as : List α) : Prop :=
  ∀ a ∈ as, ∀ b ∈ as, (hashed a = hashed b → a = b) ∧
    (hashed a = [] → hashed b ≠ [] → (hashed b).foldl hash_combine seed ≠ seed)

variable {hash_combine seed}

theorem toldApart_iff (hc : CollisionFree hash_combine seed) {α : Type} {hashed : α → List HashValue} {as : List α} :
    ToldApart hash_combine seed hashed as ↔ ∀ a ∈ as, ∀ b ∈ as,
      (hashed a).foldl hash_combine seed = (hashed b).foldl hash_combine seed → a = b := by
  constructor
  · intro h a ha b hb hab
    by_cases ha0 : hashed a = []
    · by_cases hb0 : hashed b = []
      · exact (h a ha b hb).1 (ha0.trans hb0.symm)
      · exact absurd (by rw [← hab, ha0]; rfl) ((h a ha b hb).2 ha0 hb0)
    · by_cases hb0 : hashed b = []
      · exact absurd (by rw [hab, hb0]; rfl) ((h b hb a ha).2 hb0 ha0)
      · exact (h a ha b hb).1 (hc _ _ ha0 hb0 hab)
  · intro h a ha b hb
    refine ⟨fun hab => h a ha b hb (by rw [hab]), fun ha0 hb0 hs => hb0 ?_⟩
    obtain rfl := h a ha b hb (by rw [ha0, hs]; rfl)
    exact ha0

theorem itemHash_eq (item : BasicItem) : itemHash hash_combine seed item = item.hashed.foldl hash_combine seed :=
  BasicItem.hash_eq_foldl ..

theorem tileHash_eq (tile : BasicTile) : tileHash hash_combine seed tile = tile.hashed.foldl hash_combine seed :=
  BasicTile.hash_eq_foldl ..

/-! ### Calls -/

variable [DecidableEq H]

variable (hash_combine seed) in
/-- The call gives back, or stores, what it was given. -/
def Transparent (m : MapCache H) : Op → Prop
  | .tryReplaceItemFromCache ref => (tryReplaceItemFromCache hash_combine seed m ref).1 = ref
  | .setBasicTile x y z newTile => ∀ hz : z.toNat < MAP_MAX_LAYERS,
      (setBasicTile hash_combine seed m x y z newTile).getTileCache x y ⟨z.toNat, hz⟩ = newTile

theorem transparent_item (m : MapCache H) (item : BasicItem) :
    Transparent hash_combine seed m (.tryReplaceItemFromCache (some item)) ↔
      (tryEmplace (itemHash hash_combine seed) m.items item).1 = item :=
  Option.some_inj

theorem getTileCache_setBasicTile (m : MapCache H) (x y : UInt16) {z : UInt8} (hz : z.toNat < MAP_MAX_LAYERS)
    (newTile : Option BasicTile) : (setBasicTile hash_combine seed m x y z newTile).getTileCache x y ⟨z.toNat, hz⟩ =
      (tryGetTileFromCache hash_combine seed m newTile).1 := by
  unfold setBasicTile
  rw [dif_pos hz]
  obtain ⟨s, g, hs, hg⟩ := MapSectors.floor_onFloor (tryGetTileFromCache hash_combine seed m newTile).2.mapSectors x y
    ⟨z.toNat, hz⟩ fun f => f.setTileCache x y (tryGetTileFromCache hash_combine seed m newTile).1
  simp only [getTileCache, hs, Option.bind_eq_bind, Option.bind_some, hg]
  exact if_pos ⟨rfl, rfl⟩

theorem transparent_tile (m : MapCache H) (x y : UInt16) {z : UInt8} (hz : z.toNat < MAP_MAX_LAYERS) (tile : BasicTile) :
    Transparent hash_combine seed m (.setBasicTile x y z (some tile)) ↔
      (tryEmplace (tileHash hash_combine seed) m.tiles tile).1 = tile := by
  show (∀ hz, _) ↔ _
  rw [forall_prop_of_true hz, getTileCache_setBasicTile]
  exact Option.some_inj

/-- A call is transparent exactly when the item or the tile that it gives to a table comes back. -/
theorem transparent_iff (m : MapCache H) (op : Op) : Transparent hash_combine seed m op ↔
    (∀ item, op.item? = some item → (tryEmplace (itemHash hash_combine seed) m.items item).1 = item) ∧
    (∀ tile, op.tile? = some tile → (tryEmplace (tileHash hash_combine seed) m.tiles tile).1 = tile) := by
  cases op with
  | tryReplaceItemFromCache ref =>
    cases ref with
    | none => exact iff_of_true rfl ⟨fun _ h => (nomatch h), fun _ h => (nomatch h)⟩
    | some item =>
      rw [transparent_item]
      refine ⟨fun h => ⟨fun item' hi => ?_, fun _ ht => (nomatch ht)⟩, fun h => h.1 item rfl⟩
      obtain rfl : item = item' := Option.some.inj hi
      exact h
  | setBasicTile x y z newTile =>
    by_cases hz : z.toNat < MAP_MAX_LAYERS
    · have htile : (Op.setBasicTile x y z newTile).tile? = newTile := if_pos hz
      rw [htile]
      cases newTile with
      | none =>
        refine iff_of_true (fun hz => ?_) ⟨fun _ h => (nomatch h), fun _ h => (nomatch h)⟩
        rw [getTileCache_setBasicTile]
        rfl
      | some tile =>
        rw [transparent_tile m x y hz]
        refine ⟨fun h => ⟨fun _ hi => (nomatch hi), fun tile' ht => ?_⟩, fun h => h.2 tile rfl⟩
        obtain rfl : tile = tile' := Option.some.inj ht
        exact h
    · have htile : (Op.setBasicTile x y z newTile).tile? = none := if_neg hz
      rw [htile]
      exact iff_of_true (fun hz' => absurd hz' hz) ⟨fun _ h => (nomatch h), fun _ h => (nomatch h)⟩

/-! ### Runs -/

variable (hash_combine seed)

theorem items_step (m : MapCache H) (op : Op) : (step hash_combine seed m op).items =
    emplaceAll (itemHash hash_combine seed) m.items op.item?.toList := by
  cases op with
  | tryReplaceItemFromCache ref => cases ref <;> rfl
  | setBasicTile x y z newTile =>
    show (setBasicTile hash_combine seed m x y z newTile).items = m.items
    unfold setBasicTile
    split
    · cases newTile <;> rfl
    · rfl

theorem tiles_step (m : MapCache H) (op : Op) : (step hash_combine seed m op).tiles =
    emplaceAll (tileHash hash_combine seed) m.tiles op.tile?.toList := by
  cases op with
  | tryReplaceItemFromCache ref => cases ref <;> rfl
  | setBasicTile x y z newTile =>
    show (setBasicTile hash_combine seed m x y z newTile).tiles = _
    by_cases hz : z.toNat < MAP_MAX_LAYERS
    · cases newTile <;> simp only [setBasicTile, dif_pos hz, Op.tile?, if_pos hz] <;> rfl
    · simp only [setBasicTile, dif_neg hz, Op.tile?, if_neg hz]
      rfl

/-- The tables hold what was given to them. -/
theorem tables_run (ops : List Op) :
    (run (step hash_combine seed) empty ops).items = emplaceAll (itemHash hash_combine seed) ∅ (ops.filterMap Op.item?) ∧
    (run (step hash_combine seed) empty ops).tiles =
      emplaceAll (tileHash hash_combine seed) ∅ (ops.filterMap Op.tile?) := by
  induction ops using List.reverseRecOn with
  | nil => exact ⟨rfl, rfl⟩
  | append_singleton ops op ih =>
    have hone : ∀ {β : Type} (f : Op → Option β), [op].filterMap f = (f op).toList := fun f => by
      cases h : f op <;> simp [h]
    rw [run_concat, items_step, tiles_step, ih.1, ih.2, List.filterMap_append, List.filterMap_append, emplaceAll_append,
      emplaceAll_append, hone, hone]
    exact ⟨rfl, rfl⟩

variable {hash_combine seed}

/-- Every call of a run gives back or stores what it was given, exactly when no two different items and no
    two different tiles of the run mix the same values into the hash. -/
theorem transparent_run_iff (hc : CollisionFree hash_combine seed) (ops : List Op) :
    (∀ xs op ys, ops = xs ++ op :: ys → Transparent hash_combine seed (run (step hash_combine seed) empty xs) op) ↔
      ToldApart hash_combine seed BasicItem.hashed (ops.filterMap Op.item?) ∧
      ToldApart hash_combine seed BasicTile.hashed (ops.filterMap Op.tile?) := by
  have hitems := @forall_split_filterMap _ _ Op.item? (fun xs item =>
    (tryEmplace (itemHash hash_combine seed) (emplaceAll (itemHash hash_combine seed) ∅ xs) item).1 = item) ops
  have htiles := @forall_split_filterMap _ _ Op.tile? (fun xs tile =>
    (tryEmplace (tileHash hash_combine seed) (emplaceAll (tileHash hash_combine seed) ∅ xs) tile).1 = tile) ops
  rw [tryEmplace_eq_iff] at hitems htiles
  simp only [itemHash_eq, tileHash_eq, ← toldApart_iff hc] at hitems htiles
  rw [← hitems, ← htiles]
  simp only [transparent_iff, (tables_run hash_combine seed _).1, (tables_run hash_combine seed _).2]
  constructor
  · exact fun h => ⟨fun xs op ys hs => (h xs op ys hs).1, fun xs op ys hs => (h xs op ys hs).2⟩
  · exact fun h xs op ys hs => ⟨h.1 xs op ys hs, h.2 xs op ys hs⟩

end

/-! ### A hash without collisions -/

/-- The hash that is the sequence of the values itself. -/
def appendValue (h : List HashValue) (v : HashValue) : List HashValue := h ++ [v]

theorem foldl_appendValue (h xs : List HashValue) : xs.foldl appendValue h = h ++ xs := by
  induction xs generalizing h with
  | nil => simp
  | cons x xs ih => simp [ih, appendValue]

theorem collisionFree_appendValue : CollisionFree appendValue [] := fun xs ys _ _ h => by
  simpa [foldl_appendValue] using h

/-- A rune with charges and a tile that holds it, both told apart from the others of the run. -/
theorem transparent_run_two :
    let rune : BasicItem := ⟨"", 3180, 4, 0, 0, 0, 0, 0, 0, []⟩
    let chest : BasicItem := ⟨"", 2472, 0, 1000, 0, 0, 0, 0, 0, [rune]⟩
    let tile : BasicTile := ⟨some chest, [rune], 1, 0, 0, false⟩
    ∀ xs op ys, [.tryReplaceItemFromCache (some rune), .tryReplaceItemFromCache (some chest),
        .setBasicTile 100 200 7 (some tile), .tryReplaceItemFromCache (some rune)] = xs ++ op :: ys →
      Transparent appendValue [] (run (step appendValue []) empty xs) op := by
  intro rune chest tile
  refine (transparent_run_iff collisionFree_appendValue _).mpr ⟨?_, ?_⟩
  · have hne : rune.hashed ≠ chest.hashed := by decide
    intro a ha b hb
    simp only [Op.item?, List.filterMap_cons, List.filterMap_nil, List.mem_cons, List.not_mem_nil, or_false] at ha hb
    rcases ha with rfl | rfl | rfl <;> rcases hb with rfl | rfl | rfl <;>
      exact ⟨fun h => by first | rfl | exact absurd h hne | exact absurd h.symm hne, fun h => absurd h (by decide)⟩
  · intro a ha b hb
    rw [show a = tile from List.mem_singleton.mp ha, show b = tile from List.mem_singleton.mp hb]
    exact ⟨fun _ => rfl, fun h => absurd h (by decide)⟩

/-- An item with the action id 5 is replaced by the same item with 5 charges. -/
theorem charges_taken_for_actionId :
    CollisionFree appendValue [] ∧ ¬∀ ops xs op ys, ops = xs ++ op :: ys →
      Transparent appendValue [] (run (step appendValue []) empty xs) op := by
  refine ⟨collisionFree_appendValue, fun h => ?_⟩
  have ht := h _ [.tryReplaceItemFromCache (some ⟨"", 100, 5, 0, 0, 0, 0, 0, 0, []⟩)]
    (.tryReplaceItemFromCache (some ⟨"", 100, 0, 5, 0, 0, 0, 0, 0, []⟩)) [] rfl
  have hc : (5 : UInt16) = 0 := congrArg (fun r => (r.map BasicItem.charges).getD 0) ht
  exact absurd hc (by decide)

end CrystalServer.MapCache
