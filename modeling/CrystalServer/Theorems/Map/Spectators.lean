import CrystalServer.Map.Spectators
import CrystalServer.Theorems.Map.Sector

/-! # What a search for spectators finds

The walk over the sectors visits every sector of the window once, whether it follows links or looks
sectors up. So a search finds exactly the creatures of the map that pass its test. -/

namespace CrystalServer
open Lib

namespace MapSectors

/-- Creatures stand in the sector of their square, and the list of each kind holds those of that kind. -/
structure Registered (m : MapSectors) : Prop where
  place : ∀ k s, m k = some s → ∀ c ∈ s.creature_list,
    k = index c.position.x.toUInt32 c.position.y.toUInt32 ∧ c.position.z.toNat < MAP_MAX_LAYERS
  typed : ∀ k s, m k = some s → ∀ kind, s.nodeList (some kind) = s.creature_list.filter (·.kind = kind)

/-- The creature is found in the list for a kind, in the sector of its square. -/
def Listed (m : MapSectors) (only : Option CreatureKind) (c : Creature) : Prop :=
  ∃ s, m.getMapSector c.position.x.toUInt32 c.position.y.toUInt32 = some s ∧ c ∈ s.nodeList only

theorem registered_empty : empty.Registered :=
  ⟨fun _ _ h => (nomatch h), fun _ _ h => (nomatch h)⟩

theorem nodeList_addCreature (s : MapSector) (c : Creature) (only : Option CreatureKind) :
    (s.addCreature c).nodeList only = s.nodeList only ++ if only.all (· == c.kind) then [c] else [] := by
  rcases only with _ | kind
  · cases hk : c.kind <;> simp [MapSector.addCreature, MapSector.nodeList, hk]
  · cases hk : c.kind <;> cases kind <;> simp [MapSector.addCreature, MapSector.nodeList, hk]

theorem creature_list_addCreature (s : MapSector) (c : Creature) :
    (s.addCreature c).creature_list = s.creature_list ++ [c] := by
  cases hk : c.kind <;> simp [MapSector.addCreature, hk]

/-- Sectors whose lists were in earlier sectors are registered as these were. -/
theorem Registered.of_lists {m m' : MapSectors} (h : m.Registered)
    (hm : ∀ k s, m' k = some s → (∀ only, s.nodeList only = []) ∨
      ∃ s₀, m k = some s₀ ∧ ∀ only, s.nodeList only = s₀.nodeList only) : m'.Registered := by
  refine ⟨fun k s hk c hc => ?_, fun k s hk kind => ?_⟩
  · rcases hm k s hk with hn | ⟨s₀, hs₀, hl⟩
    · rw [show s.creature_list = [] from hn none] at hc
      exact absurd hc List.not_mem_nil
    · exact h.place k s₀ hs₀ c (by rwa [show s.creature_list = s₀.creature_list from hl none] at hc)
  · rcases hm k s hk with hn | ⟨s₀, hs₀, hl⟩
    · rw [hn, show s.creature_list = [] from hn none, List.filter_nil]
    · rw [hl, show s.creature_list = s₀.creature_list from hl none]
      exact h.typed k s₀ hs₀ kind

theorem lists_update {m : MapSectors} {i k : UInt32} {f : MapSector → MapSector} {s : MapSector}
    (hf : ∀ s only, (f s).nodeList only = s.nodeList only) (hk : m.update i f k = some s) :
    ∃ s₀, m k = some s₀ ∧ ∀ only, s.nodeList only = s₀.nodeList only := by
  by_cases hki : k = i
  · subst hki
    rw [update_self, Option.map_eq_some_iff] at hk
    obtain ⟨s₀, hs₀, rfl⟩ := hk
    exact ⟨s₀, hs₀, hf s₀⟩
  · rw [update_of_ne m hki] at hk
    exact ⟨s, hk, fun _ => rfl⟩

theorem lists_link {m : MapSectors} {n i k : UInt32} {f : MapSector → MapSector} {s : MapSector}
    (hf : ∀ s only, (f s).nodeList only = s.nodeList only) (hk : m.link n i f k = some s) :
    ∃ s₀, m k = some s₀ ∧ ∀ only, s.nodeList only = s₀.nodeList only := by
  unfold link at hk
  split at hk
  · exact lists_update hf hk
  · exact ⟨s, hk, fun _ => rfl⟩

theorem nodeList_links (s : MapSector) (e so : Option UInt32) (only : Option CreatureKind) :
    { s with sectorE := e, sectorS := so }.nodeList only = s.nodeList only := by
  rcases only with _ | _ | _ | _ <;> rfl

theorem nodeList_onFloor (s : MapSector) (z : Fin MAP_MAX_LAYERS) (f : Floor → Floor) (only : Option CreatureKind) :
    (s.onFloor z f).nodeList only = s.nodeList only := by
  rcases only with _ | _ | _ | _ <;> rfl

theorem lists_linkNew {m : MapSectors} {x y k : UInt32} {s : MapSector} (hk : m.linkNew x y k = some s) :
    (∀ only, s.nodeList only = []) ∨ ∃ s₀, m k = some s₀ ∧ ∀ only, s.nodeList only = s₀.nodeList only := by
  unfold linkNew at hk
  obtain ⟨s₁, hk, h₁⟩ := lists_link (fun s => nodeList_links s _ _) hk
  obtain ⟨s₂, hk, h₂⟩ := lists_link (fun s => nodeList_links s _ _) hk
  obtain ⟨s₃, hk, h₃⟩ := lists_link (fun s => nodeList_links s _ _) hk
  obtain ⟨s₄, hk, h₄⟩ := lists_link (fun s => nodeList_links s _ _) hk
  have heq : ∀ only, s.nodeList only = s₄.nodeList only := fun only => by rw [h₁, h₂, h₃, h₄]
  split at hk
  · left
    intro only
    rw [heq, ← Option.some.inj hk]
    rcases only with _ | _ | _ | _ <;> rfl
  · exact .inr ⟨s₄, hk, heq⟩

theorem Registered.onFloor {m : MapSectors} (h : m.Registered) (x y : UInt16) (z : Fin MAP_MAX_LAYERS)
    (f : Floor → Floor) : (m.onFloor x y z f).Registered := by
  refine h.of_lists fun k s hk => ?_
  obtain ⟨s₁, hk, h₁⟩ := lists_update (fun s => nodeList_onFloor s z f) hk
  unfold getBestMapSector at hk
  split at hk
  · exact .inr ⟨s₁, hk, h₁⟩
  · rcases lists_linkNew hk with hn | ⟨s₀, hs₀, h₀⟩
    · exact .inl fun only => (h₁ only).trans (hn only)
    · exact .inr ⟨s₀, hs₀, fun only => (h₁ only).trans (h₀ only)⟩

theorem Registered.placeCreature {m : MapSectors} (h : m.Registered) (c : Creature) : (m.placeCreature c).Registered := by
  unfold MapSectors.placeCreature
  split
  · rename_i hz
    -- A sector holds what it held, and the new creature in the sector of its square.
    have new : ∀ k s, m.update (index c.position.x.toUInt32 c.position.y.toUInt32) (fun s =>
          if (s.floors ⟨c.position.z.toNat, hz⟩).isSome then s.addCreature c else s) k = some s →
        ∃ s₀, m k = some s₀ ∧ (s = s₀ ∨ k = index c.position.x.toUInt32 c.position.y.toUInt32 ∧ s = s₀.addCreature c) := by
      intro k s hk
      by_cases hki : k = index c.position.x.toUInt32 c.position.y.toUInt32
      · subst hki
        rw [update_self, Option.map_eq_some_iff] at hk
        obtain ⟨s₀, hs₀, rfl⟩ := hk
        refine ⟨s₀, hs₀, ?_⟩
        split
        · exact .inr ⟨rfl, rfl⟩
        · exact .inl rfl
      · rw [update_of_ne m hki] at hk
        exact ⟨s, hk, .inl rfl⟩
    refine ⟨fun k s hk d hd => ?_, fun k s hk kind => ?_⟩
    · obtain ⟨s₀, hs₀, rfl | ⟨rfl, rfl⟩⟩ := new k s hk
      · exact h.place k s hs₀ d hd
      · rw [creature_list_addCreature, List.mem_append, List.mem_singleton] at hd
        rcases hd with hd | rfl
        · exact h.place _ s₀ hs₀ d hd
        · exact ⟨rfl, hz⟩
    · obtain ⟨s₀, hs₀, rfl | ⟨rfl, rfl⟩⟩ := new k s hk
      · exact h.typed k s hs₀ kind
      · rw [nodeList_addCreature, h.typed _ s₀ hs₀, creature_list_addCreature, List.filter_append]
        by_cases hc : c.kind = kind
        · simp [hc]
        · simp [hc, Ne.symm hc]
  · exact h

theorem Registered.step {m : MapSectors} (h : m.Registered) (op : Op) : (m.step op).Registered := by
  cases op with
  | setTile x y z =>
    show (m.setTile x y z).Registered
    unfold setTile
    split
    · exact h.onFloor x y _ id
    · exact h
  | setTileCache x y z tile => exact h.onFloor x y z _
  | placeCreature c => exact h.placeCreature c

/-- However a map is built, its creatures are registered where they stand. -/
theorem run_registered (ops : List Op) : (run MapSectors.step empty ops).Registered :=
  run_induction Registered (fun _ op h => h.step op) ops registered_empty

end MapSectors

namespace Spectators
open MapSectors

/-! ### The walk -/

section
variable {m : MapSectors}

theorem toNat_ofNat_coordinate {n : Nat} (h : n < 65536) : (UInt32.ofNat n).toNat = n :=
  UInt32.toNat_ofNat_of_lt' (Nat.lt_of_lt_of_le h (by decide))

theorem sectorE_bind (h : m.Linked) {nx ny : Nat} (hx : nx < 65536) (hy : ny < 65536) {s : MapSector}
    (hs : m.getMapSector (.ofNat nx) (.ofNat ny) = some s) :
    s.sectorE.bind m = m.getMapSector (.ofNat (nx + SECTOR_SIZE)) (.ofNat ny) := by
  have hx' : (UInt32.ofNat nx).toNat < 65536 := by rwa [toNat_ofNat_coordinate hx]
  have hy' : (UInt32.ofNat ny).toNat < 65536 := by rwa [toNat_ofNat_coordinate hy]
  have hadd : UInt32.ofNat (nx + SECTOR_SIZE) = .ofNat nx + 16 := by rw [UInt32.ofNat_add]; rfl
  rw [getMapSector, hadd, index_east hx' hy', h.east _ s hs]
  split
  · rfl
  · rename_i hn
    exact (Option.not_isSome_iff_eq_none.mp hn).symm

theorem sectorS_bind (h : m.Linked) {nx ny : Nat} (hx : nx < 65536) (hy : ny < 65536) {s : MapSector}
    (hs : m.getMapSector (.ofNat nx) (.ofNat ny) = some s) :
    s.sectorS.bind m = m.getMapSector (.ofNat nx) (.ofNat (ny + SECTOR_SIZE)) := by
  have hx' : (UInt32.ofNat nx).toNat < 65536 := by rwa [toNat_ofNat_coordinate hx]
  have hy' : (UInt32.ofNat ny).toNat < 65536 := by rwa [toNat_ofNat_coordinate hy]
  have hadd : UInt32.ofNat (ny + SECTOR_SIZE) = .ofNat ny + 16 := by rw [UInt32.ofNat_add]; rfl
  rw [getMapSector, hadd, index_south hx' hy', h.south _ s hs]
  split
  · rfl
  · rename_i hn
    exact (Option.not_isSome_iff_eq_none.mp hn).symm

theorem sectorsEast_eq (h : m.Linked) {ny : Nat} (hy : ny < 65536) (n nx : Nat) (hx : nx + 16 * n ≤ 65536) :
    sectorsEast m ny n nx (m.getMapSector (.ofNat nx) (.ofNat ny)) =
      (List.range' nx n 16).filterMap fun x => m.getMapSector (.ofNat x) (.ofNat ny) := by
  induction n generalizing nx with
  | zero => rfl
  | succ n ih =>
    rw [List.range'_succ, List.filterMap_cons, ← ih (nx + 16) (by omega)]
    cases hs : m.getMapSector (.ofNat nx) (.ofNat ny) with
    | none => rfl
    | some s =>
      rw [sectorsEast, sectorE_bind h (by omega) hy hs]
      rfl

theorem sectorsSouth_eq (h : m.Linked) {startx1 columns : Nat} (hx : startx1 < 65536)
    (hc : startx1 + 16 * columns ≤ 65536) (n ny : Nat) (hy : ny + 16 * n ≤ 65536) :
    sectorsSouth m startx1 columns n ny (m.getMapSector (.ofNat startx1) (.ofNat ny)) =
      (List.range' ny n 16).flatMap fun y =>
        (List.range' startx1 columns 16).filterMap fun x => m.getMapSector (.ofNat x) (.ofNat y) := by
  induction n generalizing ny with
  | zero => rfl
  | succ n ih =>
    rw [List.range'_succ, List.flatMap_cons, ← ih (ny + 16) (by omega), ← sectorsEast_eq h (by omega) columns startx1 hc]
    cases hs : m.getMapSector (.ofNat startx1) (.ofNat ny) with
    | none => rfl
    | some s =>
      exact congrArg (sectorsEast m ny columns startx1 (some s) ++ sectorsSouth m startx1 columns n (ny + 16) ·)
        (sectorS_bind h hx (by omega) hs)

theorem sectorStart_eq (n : Nat) : sectorStart n = 16 * (n / 16) := by
  have : n &&& SECTOR_MASK = n % 16 := Nat.and_two_pow_sub_one_eq_mod n 4
  rw [sectorStart, this]
  omega

theorem clampCoordinate_le (n : Int) : clampCoordinate n ≤ 65535 := by
  unfold clampCoordinate
  omega

/-- The first squares that a loop goes through. -/
theorem mem_rounds {a b s : Nat} :
    s ∈ List.range' (sectorStart a) (rounds (sectorStart a) (sectorStart b)) 16 ↔
      ∃ i, s = 16 * i ∧ a / 16 ≤ i ∧ i ≤ b / 16 := by
  rw [List.mem_range', sectorStart_eq, sectorStart_eq]
  simp only [rounds, SECTOR_SIZE]
  constructor
  · rintro ⟨i, hi, rfl⟩
    exact ⟨a / 16 + i, by omega, by omega, by omega⟩
  · rintro ⟨i, rfl, ha, hb⟩
    exact ⟨i - a / 16, by omega, by omega⟩

end

end Spectators

/-- The ends of a range that comes from `int32_t` values. -/
structure Range.Bounded (r : Range) : Prop where
  minX : -2 ^ 31 < r.minRangeX
  maxX : r.maxRangeX < 2 ^ 31
  minY : -2 ^ 31 < r.minRangeY
  maxY : r.maxRangeY < 2 ^ 31

/-- The range is not empty on either axis. -/
structure Range.Proper (r : Range) : Prop where
  x : r.minRangeX ≤ r.maxRangeX
  y : r.minRangeY ≤ r.maxRangeY

def Range.Contains (r : Range) (dx dy : Int) : Prop :=
  (r.minRangeX ≤ dx ∧ dx ≤ r.maxRangeX) ∧ r.minRangeY ≤ dy ∧ dy ≤ r.maxRangeY

theorem MapSectors.Registered.mem_creature_list {m : MapSectors} (h : m.Registered) {k : UInt32} {s : MapSector}
    (hs : m k = some s) {only : Option CreatureKind} {c : Creature} (hc : c ∈ s.nodeList only) : c ∈ s.creature_list := by
  rcases only with _ | kind
  · exact hc
  · rw [h.typed k s hs] at hc
    exact List.mem_of_mem_filter hc

/-- The lists of a sector hold creatures whose square is in it. -/
def MapSectors.Placed (m : MapSectors) : Prop :=
  ∀ k s only c, m k = some s → c ∈ s.nodeList only → k = index c.position.x.toUInt32 c.position.y.toUInt32

theorem MapSectors.Registered.placed {m : MapSectors} (h : m.Registered) : m.Placed :=
  fun k s _ c hs hc => (h.place k s hs c (h.mem_creature_list hs hc)).1

namespace Spectators
open MapSectors

/-! ### The test -/

theorem castInt8_eq {n : Int} (h : -128 ≤ n) (h' : n < 128) : castInt8 n = n :=
  Int.bmod_eq_of_le (by omega) (by omega)

theorem rangeZ_false (p : Position) : rangeZ p false = (↑p.z.toNat, ↑p.z.toNat) := rfl

/-- The floors of a search over several floors, with the casts of the source. -/
theorem rangeZ_true (p : Position) :
    (7 < p.z.toNat ∧ rangeZ p true = (castUInt8 (max (castInt8 (p.z.toNat - 2)) 0), castUInt8 (min (castInt8 (p.z.toNat + 2)) 15))) ∨
    (p.z.toNat = 6 ∧ rangeZ p true = (0, 8)) ∨ (p.z.toNat = 7 ∧ rangeZ p true = (0, 9)) ∨
      p.z.toNat < 6 ∧ rangeZ p true = (0, 7) := by
  by_cases h₁ : (p.z.toNat : Int) > 7
  · exact .inl ⟨by omega, if_pos h₁⟩
  · rw [show rangeZ p true = _ from if_neg h₁]
    by_cases h₂ : (p.z.toNat : Int) = MAP_INIT_SURFACE_LAYER - 1
    · exact .inr (.inl ⟨Int.ofNat_inj.mp h₂, if_pos h₂⟩)
    · rw [if_neg h₂]
      by_cases h₃ : (p.z.toNat : Int) = MAP_INIT_SURFACE_LAYER
      · exact .inr (.inr (.inl ⟨Int.ofNat_inj.mp h₃, if_pos h₃⟩))
      · unfold MAP_INIT_SURFACE_LAYER at h₂ h₃
        exact .inr (.inr (.inr ⟨by omega, if_neg h₃⟩))

theorem rangeZ_bounds (p : Position) (multifloor : Bool) :
    (0 ≤ (rangeZ p multifloor).1 ∧ (rangeZ p multifloor).1 < 256) ∧
      0 ≤ (rangeZ p multifloor).2 ∧ (rangeZ p multifloor).2 < 256 := by
  have hz := p.z.toNat_lt
  cases multifloor with
  | false => rw [rangeZ_false]; omega
  | true =>
    rcases rangeZ_true p with ⟨-, h⟩ | ⟨-, h⟩ | ⟨-, h⟩ | ⟨-, h⟩ <;> rw [h]
    · unfold castUInt8
      omega
    all_goals decide

/-- A centre on a floor of the map lies between the floors of its search. -/
theorem rangeZ_center {p : Position} (hp : p.z.toNat < MAP_MAX_LAYERS) (multifloor : Bool) :
    (rangeZ p multifloor).1 ≤ p.z.toNat ∧ (p.z.toNat : Int) ≤ (rangeZ p multifloor).2 := by
  replace hp : p.z.toNat < 16 := hp
  cases multifloor with
  | false => exact ⟨Int.le_refl _, Int.le_refl _⟩
  | true =>
    rcases rangeZ_true p with ⟨hz, h⟩ | ⟨hz, h⟩ | ⟨hz, h⟩ | ⟨hz, h⟩ <;> rw [h]
    · have hlo : castInt8 (p.z.toNat - 2) = p.z.toNat - 2 := castInt8_eq (by omega) (by omega)
      have hhi : castInt8 (p.z.toNat + 2) = p.z.toNat + 2 := castInt8_eq (by omega) (by omega)
      rw [hlo, hhi]
      unfold castUInt8
      omega
    all_goals omega

theorem castUInt32_le {n d : Int} (hd : 0 ≤ d) (hd' : d < 2 ^ 32) (hn : -2 ^ 32 ≤ n) (hn' : n < 2 ^ 32)
    (hnd : d < n + 2 ^ 32) : castUInt32 n ≤ castUInt32 d ↔ 0 ≤ n ∧ n ≤ d := by
  unfold castUInt32
  omega

theorem sees_eq_true (p : Position) (multifloor : Bool) (r : Range) (c : Creature) : sees p multifloor r c = true ↔
    castUInt32 (c.position.z.toNat - (rangeZ p multifloor).1) ≤
      castUInt32 ((rangeZ p multifloor).2 - (rangeZ p multifloor).1) ∧
    castUInt32 (c.position.x.toNat - p.getOffsetZ c.position - (p.x.toNat + r.minRangeX)) ≤
      castUInt32 (p.x.toNat + r.maxRangeX - (p.x.toNat + r.minRangeX)) ∧
    castUInt32 (c.position.y.toNat - p.getOffsetZ c.position - (p.y.toNat + r.minRangeY)) ≤
      castUInt32 (p.y.toNat + r.maxRangeY - (p.y.toNat + r.minRangeY)) :=
  decide_eq_true_iff

theorem sees_iff {p : Position} {multifloor : Bool} {r : Range} (hb : r.Bounded) (hr : r.Proper)
    (hz : (rangeZ p multifloor).1 ≤ (rangeZ p multifloor).2) (c : Creature) :
    sees p multifloor r c ↔
      ((rangeZ p multifloor).1 ≤ c.position.z.toNat ∧ (c.position.z.toNat : Int) ≤ (rangeZ p multifloor).2) ∧
        r.Contains (c.position.x.toNat - p.getOffsetZ c.position - p.x.toNat)
          (c.position.y.toNat - p.getOffsetZ c.position - p.y.toNat) := by
  obtain ⟨hlo, hhi⟩ := rangeZ_bounds p multifloor
  obtain ⟨hb₁, hb₂, hb₃, hb₄⟩ := hb
  obtain ⟨hrx, hry⟩ := hr
  have h₁ := c.position.x.toNat_lt
  have h₂ := c.position.y.toNat_lt
  have h₃ := c.position.z.toNat_lt
  have h₄ := p.x.toNat_lt
  have h₅ := p.y.toNat_lt
  have h₆ := p.z.toNat_lt
  have hoff : p.getOffsetZ c.position = p.z.toNat - c.position.z.toNat := rfl
  rw [sees_eq_true, castUInt32_le (by omega) (by omega) (by omega) (by omega) (by omega),
    castUInt32_le (by omega) (by omega) (by omega) (by omega) (by omega),
    castUInt32_le (by omega) (by omega) (by omega) (by omega) (by omega)]
  constructor
  · rintro ⟨⟨_, _⟩, ⟨_, _⟩, _, _⟩
    exact ⟨⟨by omega, by omega⟩, ⟨by omega, by omega⟩, by omega, by omega⟩
  · rintro ⟨⟨_, _⟩, ⟨_, _⟩, _, _⟩
    exact ⟨⟨by omega, by omega⟩, ⟨by omega, by omega⟩, by omega, by omega⟩

/-! ### The window -/

theorem index_congr {x y x' y' : UInt32} (hx : x.toNat / 16 = x'.toNat / 16) (hy : y.toNat / 16 = y'.toNat / 16) :
    index x y = index x' y' := by
  rw [← UInt32.toNat_inj, toNat_index, toNat_index, hx, hy]

theorem rounds_le {a b : Nat} (hb : b ≤ 65535) :
    sectorStart a + 16 * rounds (sectorStart a) (sectorStart b) ≤ max 65536 (sectorStart a) := by
  rw [sectorStart_eq, sectorStart_eq]
  simp only [rounds, SECTOR_SIZE]
  omega

/-- The squares of the creatures that pass the test lie between the corners of the window. -/
theorem window_of_contains {p px lo hi mn mx x : Int} (hx : 0 ≤ x) (hx' : x ≤ 65535) {off : Int} (hlo : p - hi ≤ off)
    (hhi : off ≤ p - lo) (hmn : mn ≤ x - off - px) (hmx : x - off - px ≤ mx) :
    clampCoordinate (px + mn + (p - hi)) ≤ x ∧ x ≤ clampCoordinate (px + mx + (p - lo)) := by
  unfold clampCoordinate
  omega

/-- The walk goes through the sectors of the window. -/
theorem mem_walk {m : MapSectors} (h : m.Linked) {x₁ x₂ y₁ y₂ : Nat} (hx₁ : x₁ ≤ 65535) (hx₂ : x₂ ≤ 65535)
    (hy₁ : y₁ ≤ 65535) (hy₂ : y₂ ≤ 65535) (s : MapSector) :
    s ∈ sectorsSouth m (sectorStart x₁) (rounds (sectorStart x₁) (sectorStart x₂))
        (rounds (sectorStart y₁) (sectorStart y₂)) (sectorStart y₁)
        (m.getMapSector (.ofNat (sectorStart x₁)) (.ofNat (sectorStart y₁))) ↔
      ∃ i j, (x₁ / 16 ≤ i ∧ i ≤ x₂ / 16) ∧ (y₁ / 16 ≤ j ∧ j ≤ y₂ / 16) ∧
        m.getMapSector (.ofNat (16 * i)) (.ofNat (16 * j)) = some s := by
  have hsx := sectorStart_eq x₁
  have hsy := sectorStart_eq y₁
  have hrx := @rounds_le x₁ x₂ hx₂
  have hry := @rounds_le y₁ y₂ hy₂
  rw [sectorsSouth_eq h (by omega) (by omega) _ _ (by omega), List.mem_flatMap]
  constructor
  · rintro ⟨y, hy, hs⟩
    obtain ⟨x, hx, hs⟩ := List.mem_filterMap.mp hs
    obtain ⟨j, rfl, hj⟩ := mem_rounds.mp hy
    obtain ⟨i, rfl, hi⟩ := mem_rounds.mp hx
    exact ⟨i, j, hi, hj, hs⟩
  · rintro ⟨i, j, hi, hj, hs⟩
    exact ⟨16 * j, mem_rounds.mpr ⟨j, rfl, hj⟩, List.mem_filterMap.mpr ⟨16 * i, mem_rounds.mpr ⟨i, rfl, hi⟩, hs⟩⟩

/-- What a search finds is on the map and passes its test. -/
theorem listed_of_mem {m : MapSectors} (hl : m.Linked) (hg : m.Placed) {p : Position} {multifloor : Bool}
    {r : Range} {only : Option CreatureKind} {c : Creature} (hc : c ∈ getSpectators m p multifloor only r) :
    m.Listed only c ∧ sees p multifloor r c := by
  obtain ⟨s, hs, hc⟩ := List.mem_flatMap.mp (show c ∈ List.flatMap _ _ from hc)
  rw [mem_walk hl (clampCoordinate_le _) (clampCoordinate_le _) (clampCoordinate_le _) (clampCoordinate_le _)] at hs
  obtain ⟨i, j, -, -, hs⟩ := hs
  obtain ⟨hc, hsees⟩ := List.mem_filter.mp hc
  have hk := hg _ s only c hs hc
  exact ⟨⟨s, by rw [getMapSector, ← hk]; exact hs, hc⟩, hsees⟩

/-- A search finds exactly the creatures of the map that pass its test. -/
theorem mem_getSpectators {m : MapSectors} (hl : m.Linked) (hg : m.Placed) {p : Position} {multifloor : Bool}
    {r : Range} (hb : r.Bounded) (hr : r.Proper) (hz : (rangeZ p multifloor).1 ≤ (rangeZ p multifloor).2)
    (only : Option CreatureKind) (c : Creature) :
    c ∈ getSpectators m p multifloor only r ↔ m.Listed only c ∧ sees p multifloor r c := by
  refine ⟨listed_of_mem hl hg, ?_⟩
  have hcx := c.position.x.toNat_lt
  have hcy := c.position.y.toNat_lt
  rintro ⟨⟨s, hs, hc⟩, hsees⟩
  show c ∈ List.flatMap _ _
  rw [List.mem_flatMap]
  simp only [mem_walk hl (clampCoordinate_le _) (clampCoordinate_le _) (clampCoordinate_le _) (clampCoordinate_le _),
    List.mem_filter]
  obtain ⟨⟨hlo, hhi⟩, hin⟩ := (sees_iff hb hr hz c).mp hsees
  have hoff : p.getOffsetZ c.position = p.z.toNat - c.position.z.toNat := rfl
  have hoff₁ : (p.z.toNat : Int) - (rangeZ p multifloor).2 ≤ p.getOffsetZ c.position := by omega
  have hoff₂ : p.getOffsetZ c.position ≤ p.z.toNat - (rangeZ p multifloor).1 := by omega
  obtain ⟨hx₁, hx₂⟩ := window_of_contains (by omega) (by omega) hoff₁ hoff₂ hin.1.1 hin.1.2
  obtain ⟨hy₁, hy₂⟩ := window_of_contains (by omega) (by omega) hoff₁ hoff₂ hin.2.1 hin.2.2
  refine ⟨s, ⟨c.position.x.toNat / 16, c.position.y.toNat / 16, ⟨?_, ?_⟩, ⟨?_, ?_⟩, ?_⟩, hc, hsees⟩
  · exact Nat.div_le_div_right (Int.ofNat_le.mp hx₁)
  · exact Nat.div_le_div_right (Int.ofNat_le.mp hx₂)
  · exact Nat.div_le_div_right (Int.ofNat_le.mp hy₁)
  · exact Nat.div_le_div_right (Int.ofNat_le.mp hy₂)
  · rw [← hs]
    refine congrArg m (index_congr ?_ ?_)
    · rw [toNat_ofNat_coordinate (by omega), UInt16.toNat_toUInt32]
      omega
    · rw [toNat_ofNat_coordinate (by omega), UInt16.toNat_toUInt32]
      omega

theorem Listed.lt {m : MapSectors} (hg : m.Registered) {only : Option CreatureKind} {c : Creature}
    (h : m.Listed only c) : c.position.z.toNat < MAP_MAX_LAYERS := by
  obtain ⟨s, hs, hc⟩ := h
  exact (hg.place _ s hs c (hg.mem_creature_list hs hc)).2

/-- On the floor of the centre, both floor modes see what stands in the range. -/
theorem mem_getSpectators_floor {m : MapSectors} (hl : m.Linked) (hg : m.Registered) {p : Position}
    {r : Range} (hb : r.Bounded) (hr : r.Proper) (multifloor : Bool) (only : Option CreatureKind) {c : Creature}
    (hc : c.position.z = p.z) : c ∈ getSpectators m p multifloor only r ↔ m.Listed only c ∧
      r.Contains (c.position.x.toNat - p.x.toNat) (c.position.y.toNat - p.y.toNat) := by
  have hoff : p.getOffsetZ c.position = 0 := by rw [Position.getOffsetZ, hc, Int.sub_self]
  -- A creature of the map stands on one of its floors, so the centre does.
  have center : m.Listed only c → (rangeZ p multifloor).1 ≤ p.z.toNat ∧ (p.z.toNat : Int) ≤ (rangeZ p multifloor).2 :=
    fun h => rangeZ_center (hc ▸ Listed.lt hg h) multifloor
  constructor
  · intro h
    obtain ⟨hlisted, hsees⟩ := listed_of_mem hl hg.placed h
    obtain ⟨hlo, hhi⟩ := center hlisted
    have hin := ((sees_iff hb hr (Int.le_trans hlo hhi) c).mp hsees).2
    rw [hoff, Int.sub_zero, Int.sub_zero] at hin
    exact ⟨hlisted, hin⟩
  · rintro ⟨hlisted, hin⟩
    obtain ⟨hlo, hhi⟩ := center hlisted
    rw [mem_getSpectators hl hg.placed hb hr (Int.le_trans hlo hhi), sees_iff hb hr (Int.le_trans hlo hhi), hc, hoff,
      Int.sub_zero, Int.sub_zero]
    exact ⟨hlisted, ⟨hlo, hhi⟩, hin⟩

/-- A search on one floor finds nothing on another. -/
theorem floor_of_mem_getSpectators {m : MapSectors} (hl : m.Linked) (hg : m.Registered) {p : Position}
    {r : Range} {only : Option CreatureKind} {c : Creature} (hc : c ∈ getSpectators m p false only r) :
    c.position.z = p.z := by
  obtain ⟨-, hsees⟩ := listed_of_mem hl hg.placed hc
  obtain ⟨hz, -⟩ := (sees_eq_true ..).mp hsees
  have h₁ := c.position.z.toNat_lt
  have h₂ := p.z.toNat_lt
  rw [rangeZ_false] at hz
  unfold castUInt32 at hz
  exact UInt8.toNat_inj.mp (by omega)

end Spectators

end CrystalServer
