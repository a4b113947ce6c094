import CrystalServer.Theorems.Map.Spectators
import CrystalServer.Lib.Keyed

/-! # A search is a filter

On a map that was built in any order, with creatures in the sectors of their squares, a search finds each creature that a look
at all of them finds, once. Placing and moving keeps creatures in their sectors. -/

namespace CrystalServer
open Lib

namespace MapSectors

/-- Each of the creatures is in the lists of its sector, once in each that it belongs to, and nothing else is. -/
structure Registers (m : MapSectors) (creatures : List Creature) : Prop where
  listed : ∀ c ∈ creatures, (m (sectorOf c.position)).isSome
  mem_iff : ∀ k s only c, m k = some s → (c ∈ s.nodeList only ↔
    c ∈ creatures ∧ k = sectorOf c.position ∧ only.all (· == c.kind))
  nodup : ∀ k s only, m k = some s → (s.nodeList only).Nodup

variable {m : MapSectors} {creatures : List Creature} {c : Creature}

theorem Registers.placed (h : m.Registers creatures) : m.Placed :=
  fun k s only c hs hc => ((h.mem_iff k s only c hs).mp hc).2.1

theorem Registers.listed_iff (h : m.Registers creatures) (only : Option CreatureKind) (c : Creature) :
    m.Listed only c ↔ c ∈ creatures ∧ only.all (· == c.kind) := by
  constructor
  · rintro ⟨s, hs, hc⟩
    obtain ⟨hmem, -, hkind⟩ := (h.mem_iff _ s only c hs).mp hc
    exact ⟨hmem, hkind⟩
  · rintro ⟨hmem, hkind⟩
    obtain ⟨s, hs⟩ := Option.isSome_iff_exists.mp (h.listed c hmem)
    exact ⟨s, hs, (h.mem_iff _ s only c hs).mpr ⟨hmem, rfl, hkind⟩⟩

/-- The map with other lists in its sectors. -/
def withLists (m : MapSectors) (lists : UInt32 → Option CreatureKind → List Creature) : MapSectors := fun k =>
  (m k).map fun s =>
    { s with creature_list := lists k none, player_list := lists k (some .player), monster_list := lists k (some .monster),
             npc_list := lists k (some .npc) }

theorem Linked.withLists (h : m.Linked) (lists : UInt32 → Option CreatureKind → List Creature) :
    (m.withLists lists).Linked := by
  have hsome : ∀ k, (m.withLists lists k).isSome = (m k).isSome := fun k => Option.isSome_map ..
  refine ⟨fun k hk => h.inside k (hsome k ▸ hk), fun k s hs => ?_, fun k s hs => ?_⟩
  · obtain ⟨s₀, hs₀, rfl⟩ := Option.map_eq_some_iff.mp hs
    rw [hsome]
    exact h.east k s₀ hs₀
  · obtain ⟨s₀, hs₀, rfl⟩ := Option.map_eq_some_iff.mp hs
    rw [hsome]
    exact h.south k s₀ hs₀

end MapSectors

namespace Spectators
open MapSectors
variable {m : MapSectors} {creatures : List Creature} {p : Position} {multifloor : Bool} {r : Range}

/-- The creatures that a search finds in the sector of a square. -/
def cell (m : MapSectors) (p : Position) (multifloor : Bool) (only : Option CreatureKind) (r : Range) (x y : Nat) :
    List Creature :=
  (m.getMapSector (.ofNat x) (.ofNat y)).toList.flatMap fun s => (s.nodeList only).filter (sees p multifloor r)

/-- A search goes through the cells of its window. -/
theorem getSpectators_eq_cells (h : m.Linked) (p : Position) (multifloor : Bool) (only : Option CreatureKind) (r : Range) :
    ∃ x₁ x₂ y₁ y₂, (x₂ ≤ 65535 ∧ y₂ ≤ 65535) ∧ getSpectators m p multifloor only r =
      (List.range' (sectorStart y₁) (rounds (sectorStart y₁) (sectorStart y₂)) 16).flatMap fun y =>
        (List.range' (sectorStart x₁) (rounds (sectorStart x₁) (sectorStart x₂)) 16).flatMap fun x =>
          cell m p multifloor only r x y := by
  unfold getSpectators
  dsimp only
  generalize hx₁ : clampCoordinate (p.x.toNat + r.minRangeX + (p.z.toNat - (rangeZ p multifloor).2)) = x₁
  generalize hx₂ : clampCoordinate (p.x.toNat + r.maxRangeX + (p.z.toNat - (rangeZ p multifloor).1)) = x₂
  generalize hy₁ : clampCoordinate (p.y.toNat + r.minRangeY + (p.z.toNat - (rangeZ p multifloor).2)) = y₁
  generalize hy₂ : clampCoordinate (p.y.toNat + r.maxRangeY + (p.z.toNat - (rangeZ p multifloor).1)) = y₂
  have hbx₁ : x₁ ≤ 65535 := hx₁ ▸ clampCoordinate_le _
  have hbx₂ : x₂ ≤ 65535 := hx₂ ▸ clampCoordinate_le _
  have hby₁ : y₁ ≤ 65535 := hy₁ ▸ clampCoordinate_le _
  have hby₂ : y₂ ≤ 65535 := hy₂ ▸ clampCoordinate_le _
  have hsx := sectorStart_eq x₁
  have hsy := sectorStart_eq y₁
  have hrx := @rounds_le x₁ x₂ hbx₂
  have hry := @rounds_le y₁ y₂ hby₂
  refine ⟨x₁, x₂, y₁, y₂, ⟨hbx₂, hby₂⟩, ?_⟩
  rw [sectorsSouth_eq h (by omega) (by omega) _ _ (by omega), List.flatMap_assoc]
  refine congrArg (List.flatMap · _) (funext fun y => ?_)
  rw [List.filterMap_eq_flatMap_toList, List.flatMap_assoc]
  rfl

theorem mem_cell (h : m.Registers creatures) {only : Option CreatureKind} {x y : Nat} (hx : x < 65536) (hy : y < 65536)
    {c : Creature} (hc : c ∈ cell m p multifloor only r x y) :
    c.position.x.toNat / 16 = x / 16 ∧ c.position.y.toNat / 16 = y / 16 := by
  obtain ⟨s, hs, hc⟩ := List.mem_flatMap.mp hc
  have hk := h.placed _ s only c (Option.mem_toList.mp hs) (List.mem_of_mem_filter hc)
  have hcx := c.position.x.toNat_lt
  have hcy := c.position.y.toNat_lt
  have hmod := congrArg (fun k : UInt32 => k.toNat % 65536) hk
  have hdiv := congrArg (fun k : UInt32 => k.toNat / 65536) hk
  rw [toNat_index_mod, toNat_index_mod, toNat_ofNat_coordinate hx, UInt16.toNat_toUInt32] at hmod
  rw [toNat_index_div (by rw [toNat_ofNat_coordinate hx]; omega), toNat_index_div (by rw [UInt16.toNat_toUInt32]; omega),
    toNat_ofNat_coordinate hy, UInt16.toNat_toUInt32] at hdiv
  omega

theorem nodup_cell (h : m.Registers creatures) (only : Option CreatureKind) (x y : Nat) :
    (cell m p multifloor only r x y).Nodup := by
  unfold cell
  cases hs : m.getMapSector (.ofNat x) (.ofNat y) with
  | none => exact List.nodup_nil
  | some s =>
    rw [Option.toList_some, List.flatMap_singleton]
    exact (h.nodup _ s only hs).filter _

/-- A creature is found once: its square is in one cell of the window. -/
theorem nodup_getSpectators (hl : m.Linked) (h : m.Registers creatures) (p : Position) (multifloor : Bool)
    (only : Option CreatureKind) (r : Range) : (getSpectators m p multifloor only r).Nodup := by
  obtain ⟨x₁, x₂, y₁, y₂, ⟨hx₂, hy₂⟩, heq⟩ := getSpectators_eq_cells hl p multifloor only r
  have hstart : ∀ {a b s : Nat}, b ≤ 65535 →
      s ∈ List.range' (sectorStart a) (rounds (sectorStart a) (sectorStart b)) 16 → s < 65536 := fun hb hs => by
    obtain ⟨i, rfl, -, hi⟩ := mem_rounds.mp hs
    omega
  have hapart : ∀ a b : Nat, (List.range' (sectorStart a) (rounds (sectorStart a) (sectorStart b)) 16).Pairwise
      fun s t => s / 16 ≠ t / 16 := fun a b => by
    refine (List.pairwise_lt_range' 16 (by decide)).imp_of_mem fun hs ht hlt => ?_
    obtain ⟨i, rfl, -⟩ := mem_rounds.mp hs
    obtain ⟨j, rfl, -⟩ := mem_rounds.mp ht
    omega
  rw [heq]
  refine List.nodup_flatMap.mpr ⟨fun y hy => List.nodup_flatMap.mpr ⟨fun x _ => nodup_cell h only x y, ?_⟩, ?_⟩
  · refine (hapart x₁ x₂).imp_of_mem fun {x x'} hx hx' hne => fun c hc hc' => hne ?_
    obtain ⟨hcx, -⟩ := mem_cell h (hstart hx₂ hx) (hstart hy₂ hy) hc
    obtain ⟨hcx', -⟩ := mem_cell h (hstart hx₂ hx') (hstart hy₂ hy) hc'
    exact hcx.symm.trans hcx'
  · refine (hapart y₁ y₂).imp_of_mem fun {y y'} hy hy' hne => fun c hc hc' => hne ?_
    obtain ⟨x, hx, hc⟩ := List.mem_flatMap.mp hc
    obtain ⟨x', hx', hc'⟩ := List.mem_flatMap.mp hc'
    obtain ⟨-, hcy⟩ := mem_cell h (hstart hx₂ hx) (hstart hy₂ hy) hc
    obtain ⟨-, hcy'⟩ := mem_cell h (hstart hx₂ hx') (hstart hy₂ hy') hc'
    exact hcy.symm.trans hcy'

/-- What a look at all creatures asks of one: its kind, its floor, and where it is in the range, shifted by the floors between. -/
def meets (p : Position) (multifloor : Bool) (only : Option CreatureKind) (r : Range) (c : Creature) : Bool :=
  let (minRangeZ, maxRangeZ) := rangeZ p multifloor
  let dx := c.position.x.toNat - p.getOffsetZ c.position - p.x.toNat
  let dy := c.position.y.toNat - p.getOffsetZ c.position - p.y.toNat
  only.all (· == c.kind) ∧ (minRangeZ ≤ c.position.z.toNat ∧ (c.position.z.toNat : Int) ≤ maxRangeZ) ∧
    (r.minRangeX ≤ dx ∧ dx ≤ r.maxRangeX) ∧ r.minRangeY ≤ dy ∧ dy ≤ r.maxRangeY

/-- The range has the centre in it. -/
structure Around (r : Range) : Prop where
  x : r.minRangeX ≤ 0 ∧ 0 ≤ r.maxRangeX
  y : r.minRangeY ≤ 0 ∧ 0 ≤ r.maxRangeY

/-- The floors of a search are none only where the centre is far below the map. -/
theorem rangeZ_le (h : multifloor = false ∨ p.z < 18 ∨ 126 ≤ p.z) : (rangeZ p multifloor).1 ≤ (rangeZ p multifloor).2 := by
  have hz := p.z.toNat_lt
  have hlo : p.z < 18 ↔ p.z.toNat < 18 := UInt8.lt_iff_toNat_lt
  have hhi : 126 ≤ p.z ↔ 126 ≤ p.z.toNat := UInt8.le_iff_toNat_le
  cases multifloor with
  | false => exact le_rfl
  | true =>
    obtain ⟨hseven, heq⟩ | ⟨-, heq⟩ | ⟨-, heq⟩ | ⟨-, heq⟩ := rangeZ_true p <;> rw [heq]
    · simp only [Bool.true_eq_false, false_or, hlo, hhi] at h
      unfold castUInt8 castInt8 Int.bmod
      dsimp only
      split_ifs <;> omega
    all_goals decide

/-- Where sectors are linked and creatures registered, a search finds what a look at all creatures finds. -/
theorem perm_filter (hl : m.Linked) (h : m.Registers creatures) (hnodup : creatures.Nodup) (hb : r.Bounded) (hr : Around r)
    (hz : multifloor = false ∨ p.z < 18 ∨ 126 ≤ p.z) (only : Option CreatureKind) :
    (getSpectators m p multifloor only r).Perm (creatures.filter (meets p multifloor only r)) := by
  have hproper : r.Proper := ⟨Int.le_trans hr.x.1 hr.x.2, Int.le_trans hr.y.1 hr.y.2⟩
  refine (List.perm_ext_iff_of_nodup (nodup_getSpectators hl h p multifloor only r) (hnodup.filter _)).mpr fun c => ?_
  rw [mem_getSpectators hl h.placed hb hproper (rangeZ_le hz), h.listed_iff, sees_iff hb hproper (rangeZ_le hz),
    List.mem_filter]
  unfold meets Range.Contains
  simp [and_assoc]

/-- However the sectors of a map came to be, and however creatures are in them: a search finds each creature that a look at all
    of them finds, once. -/
theorem getSpectators_perm_filter (ops : List Op) (lists : UInt32 → Option CreatureKind → List Creature)
    (h : ((run MapSectors.step empty ops).withLists lists).Registers creatures) (hnodup : creatures.Nodup) (hb : r.Bounded)
    (hr : Around r) (hz : multifloor = false ∨ p.z < 18 ∨ 126 ≤ p.z) (only : Option CreatureKind) :
    (getSpectators ((run MapSectors.step empty ops).withLists lists) p multifloor only r).Perm
      (creatures.filter (meets p multifloor only r)) :=
  perm_filter ((linked_run ops).withLists lists) h hnodup hb hr hz only

/-! A player and a monster at the borders of the map, with no sector between them. -/

def hero : Creature := ⟨1, .player, ⟨3, 65535, 7⟩⟩
def rat : Creature := ⟨2, .monster, ⟨40, 65535, 8⟩⟩

def borders : List Op := [.setTile 3 65535 7, .setTile 40 65535 8]

def borderLists (k : UInt32) (only : Option CreatureKind) : List Creature :=
  [hero, rat].filter fun c => k = sectorOf c.position ∧ only.all (· == c.kind)

theorem borders_registers : ((run MapSectors.step empty borders).withLists borderLists).Registers [hero, rat] := by
  have hlists : ∀ k s only, (run MapSectors.step empty borders).withLists borderLists k = some s →
      s.nodeList only = borderLists k only := fun k s only hs => by
    obtain ⟨s₀, -, rfl⟩ := Option.map_eq_some_iff.mp hs
    rcases only with _ | _ | _ | _ <;> rfl
  refine ⟨by decide, fun k s only c hs => ?_, fun k s only hs => ?_⟩
  · rw [hlists k s only hs, borderLists, List.mem_filter, decide_eq_true_iff]
  · rw [hlists k s only hs]
    exact List.Nodup.filter _ (by decide)

theorem getSpectators_borders :
    (getSpectators ((run MapSectors.step empty borders).withLists borderLists) ⟨21, 65530, 7⟩ true none ⟨-20, 20, -9, 9⟩).Perm
      [hero, rat] :=
  (getSpectators_perm_filter borders borderLists borders_registers (by decide)
    ⟨by decide, by decide, by decide, by decide⟩ ⟨by decide, by decide⟩ (by decide) none).trans (by decide)

/-- Below the map the floors of a search are none, but the walk finds creatures on all of them. -/
theorem getSpectators_below_map :
    ((run MapSectors.step empty borders).withLists borderLists).Registers [hero, rat] ∧
    ¬(getSpectators ((run MapSectors.step empty borders).withLists borderLists) ⟨25, 65535, 18⟩ true none ⟨-20, 20, -20, 20⟩).Perm
      ([hero, rat].filter (meets ⟨25, 65535, 18⟩ true none ⟨-20, 20, -20, 20⟩)) :=
  ⟨borders_registers, by decide⟩

end Spectators
end CrystalServer

/-! ## Creatures stay in their sectors

What comes to the map and moves on it stands in the lists of the sector of its square, once, in every state that is reached. -/

namespace CrystalServer
open Lib

/-! ### Lists -/

section
variable {l : List Creature} {c : Creature}

theorem swapRemove_perm (hl : l.Nodup) (hc : c ∈ l) : (swapRemove l c).Perm (l.filter (· ≠ c)) := by
  unfold swapRemove
  obtain ⟨i, hi⟩ : ∃ i, l.findIdx? (fun x => x = c) = some i :=
    Option.isSome_iff_exists.mp (List.findIdx?_isSome.trans (List.any_eq_true.mpr ⟨c, hc, by simp⟩))
  obtain ⟨back, hback⟩ : ∃ back, l.getLast? = some back :=
    Option.isSome_iff_exists.mp (List.getLast?_isSome.mpr (List.ne_nil_of_mem hc))
  rw [hi, hback]
  have hnodup : (l.map fun a => a).Nodup := by rwa [List.map_id']
  exact perm_swapRemove hnodup hi hback

theorem nodeList_removeCreature (s : MapSector) (hc : c ∈ s.creature_list) (only : Option CreatureKind) :
    (s.removeCreature c).nodeList only =
      if only.all (· == c.kind) then swapRemove (s.nodeList only) c else s.nodeList only := by
  unfold MapSector.removeCreature
  rw [if_pos hc]
  rcases only with _ | kind
  · cases hk : c.kind <;> rfl
  · cases hk : c.kind <;> cases kind <;> rfl

theorem nodeList_relocate (s : MapSector) (c c' : Creature) (only : Option CreatureKind) :
    (s.relocate c c').nodeList only = (s.nodeList only).map fun x => if x = c then c' else x := by
  rcases only with _ | _ | _ | _ <;> rfl

end

namespace MapSectors
variable {m : MapSectors} {creatures : List Creature} {c : Creature} {k : UInt32} {s : MapSector}

/-- A sector has the lists it had, or it is new and has none. -/
theorem lists_onFloor (hl : m.Linked) {x y : UInt16} {z : Fin MAP_MAX_LAYERS} {f : Floor → Floor}
    (hs : m.onFloor x y z f k = some s) :
    (m k = none ∧ ∀ only, s.nodeList only = []) ∨ ∃ s₀, m k = some s₀ ∧ ∀ only, s.nodeList only = s₀.nodeList only := by
  obtain ⟨s₁, hs₁, hlists⟩ := lists_update (fun s => nodeList_onFloor s z f) hs
  unfold getBestMapSector at hs₁
  split at hs₁
  · exact .inr ⟨s₁, hs₁, hlists⟩
  · rename_i hnew
    cases hk : m k with
    | none =>
      obtain hnil | ⟨s₀, hs₀, -⟩ := lists_linkNew hs₁
      · exact .inl ⟨rfl, fun only => (hlists only).trans (hnil only)⟩
      · cases hk.symm.trans hs₀
    | some s₀ =>
      have hne : k ≠ index x.toUInt32 y.toUInt32 := fun heq => hnew (by rw [getMapSector, ← heq, hk]; rfl)
      have hx : x.toUInt32.toNat < 65536 := x.toNat_lt
      have hy : y.toUInt32.toNat < 65536 := y.toNat_lt
      have hold := linkNew_of_ne hl hx hy hne hk
      obtain rfl := Option.some.inj (hold.symm.trans hs₁)
      exact .inr ⟨s₀, rfl, fun only => (hlists only).trans (nodeList_links s₀ _ _ only)⟩

theorem Registers.onFloor (hl : m.Linked) (h : m.Registers creatures) (x y : UInt16) (z : Fin MAP_MAX_LAYERS) (f : Floor → Floor) :
    (m.onFloor x y z f).Registers creatures := by
  have hsome : ∀ {k}, (m k).isSome → (m.onFloor x y z f k).isSome := fun hk => by
    unfold MapSectors.onFloor
    rw [isSome_update, isSome_getBestMapSector, hk, Bool.or_true]
  refine ⟨fun c hc => hsome (h.listed c hc), fun k s only c hs => ?_, fun k s only hs => ?_⟩
  · obtain ⟨hk, hnil⟩ | ⟨s₀, hs₀, hlists⟩ := lists_onFloor hl hs
    · rw [hnil]
      refine iff_of_false List.not_mem_nil fun ⟨hc, heq, _⟩ => ?_
      have hlisted := h.listed c hc
      rw [← heq, hk] at hlisted
      cases hlisted
    · rw [hlists]
      exact h.mem_iff k s₀ only c hs₀
  · obtain ⟨-, hnil⟩ | ⟨s₀, hs₀, hlists⟩ := lists_onFloor hl hs
    · rw [hnil]
      exact List.nodup_nil
    · rw [hlists]
      exact h.nodup k s₀ only hs₀

theorem Registers.congr {creatures' : List Creature} (h : m.Registers creatures) (heq : ∀ x, x ∈ creatures ↔ x ∈ creatures') :
    m.Registers creatures' where
  listed c hc := h.listed c ((heq c).mpr hc)
  mem_iff k s only c hs := by rw [← heq, h.mem_iff k s only c hs]
  nodup := h.nodup

/-- The lists of one sector change: what is in them afterwards is what belongs there. -/
theorem Registers.update {creatures' : List Creature} {i : UInt32} {f : MapSector → MapSector} (h : m.Registers creatures)
    (hlisted : ∀ c ∈ creatures', (m (sectorOf c.position)).isSome)
    (hother : ∀ c, sectorOf c.position ≠ i → (c ∈ creatures ↔ c ∈ creatures'))
    (hmem : ∀ s only c, m i = some s → (c ∈ (f s).nodeList only ↔
      c ∈ creatures' ∧ i = sectorOf c.position ∧ only.all (· == c.kind)))
    (hnodup : ∀ s only, m i = some s → ((f s).nodeList only).Nodup) : (m.update i f).Registers creatures' := by
  refine ⟨fun c hc => (isSome_update ..).trans (hlisted c hc), fun k s only c hs => ?_, fun k s only hs => ?_⟩
  · by_cases hk : k = i
    · subst hk
      rw [update_self] at hs
      obtain ⟨s₀, hs₀, rfl⟩ := Option.map_eq_some_iff.mp hs
      exact hmem s₀ only c hs₀
    · rw [update_of_ne m hk] at hs
      rw [h.mem_iff k s only c hs]
      refine and_congr_left fun ⟨heq, _⟩ => hother c ?_
      rwa [← heq]
  · by_cases hk : k = i
    · subst hk
      rw [update_self] at hs
      obtain ⟨s₀, hs₀, rfl⟩ := Option.map_eq_some_iff.mp hs
      exact hnodup s₀ only hs₀
    · rw [update_of_ne m hk] at hs
      exact h.nodup k s only hs

/-- A creature that is new comes into a sector that is there. -/
theorem Registers.add (h : m.Registers creatures) (hsome : (m (sectorOf c.position)).isSome) (hc : c ∉ creatures) :
    (m.update (sectorOf c.position) fun s => s.addCreature c).Registers (creatures ++ [c]) := by
  have hin : ∀ {x}, x ∈ creatures ++ [c] ↔ x ∈ creatures ∨ x = c := by simp
  refine h.update (fun x hx => ?_) (fun x hx => ?_) (fun s only x hs => ?_) fun s only hs => ?_
  · rcases hin.mp hx with hx | rfl
    · exact h.listed x hx
    · exact hsome
  · rw [hin]
    exact ⟨.inl, fun hor => hor.resolve_right fun heq => hx (heq ▸ rfl)⟩
  · rw [nodeList_addCreature, List.mem_append, h.mem_iff _ s only x hs, hin]
    split_ifs with hkind
    · rw [List.mem_singleton]
      constructor
      · rintro (⟨hx, hrest⟩ | rfl)
        · exact ⟨.inl hx, hrest⟩
        · exact ⟨.inr rfl, rfl, hkind⟩
      · rintro ⟨hx | rfl, hrest⟩
        · exact .inl ⟨hx, hrest⟩
        · exact .inr rfl
    · simp only [List.not_mem_nil, or_false]
      refine and_congr_left fun ⟨_, hall⟩ => ⟨.inl, fun hor => hor.resolve_right fun heq => hkind (heq ▸ hall)⟩
  · rw [nodeList_addCreature]
    refine List.Nodup.append (h.nodup _ s only hs) (by split_ifs <;> simp) fun x hx hxc => hc ?_
    split_ifs at hxc
    · rw [← List.mem_singleton.mp hxc]
      exact ((h.mem_iff _ s only x hs).mp hx).1
    · cases hxc

/-- A creature goes out of its sector. -/
theorem Registers.remove (h : m.Registers creatures) (hc : c ∈ creatures) :
    (m.update (sectorOf c.position) fun s => s.removeCreature c).Registers (creatures.filter (· ≠ c)) := by
  have hin : ∀ {x}, x ∈ creatures.filter (· ≠ c) ↔ x ∈ creatures ∧ x ≠ c := by simp
  have hcs : ∀ s only, m (sectorOf c.position) = some s → only.all (· == c.kind) → c ∈ s.nodeList only := fun s only hs hkind =>
    (h.mem_iff _ s only c hs).mpr ⟨hc, rfl, hkind⟩
  have hlist : ∀ s only, m (sectorOf c.position) = some s →
      ((s.removeCreature c).nodeList only).Perm ((s.nodeList only).filter (· ≠ c)) := fun s only hs => by
    rw [nodeList_removeCreature s (hcs s none hs rfl)]
    split_ifs with hkind
    · exact swapRemove_perm (h.nodup _ s only hs) (hcs s only hs hkind)
    · rw [List.filter_eq_self.mpr fun x hx => ?_]
      have hx := ((h.mem_iff _ s only x hs).mp hx).2.2
      refine decide_eq_true fun heq => hkind ?_
      rwa [← heq]
  refine h.update (fun x hx => h.listed x (hin.mp hx).1) (fun x hx => ?_) (fun s only x hs => ?_) fun s only hs => ?_
  · rw [hin]
    exact ⟨fun hmem => ⟨hmem, fun heq => hx (heq ▸ rfl)⟩, And.left⟩
  · rw [(hlist s only hs).mem_iff, List.mem_filter, h.mem_iff _ s only x hs, hin, decide_eq_true_iff]
    tauto
  · exact (hlist s only hs).nodup_iff.mpr ((h.nodup _ s only hs).filter _)

theorem hasFloor_isSome {p : Position} (h : m.hasFloor p) : (m (sectorOf p)).isSome := by
  unfold hasFloor at h
  split at h
  · cases hs : m (sectorOf p) with
    | none => rw [hs] at h; cases h
    | some s => rfl
  · cases h

theorem Registers.placeCreature (h : m.Registers creatures) (hfloor : m.hasFloor c.position) (hc : c ∉ creatures) :
    (m.placeCreature c).Registers (creatures ++ [c]) := by
  have heq : m.placeCreature c = m.update (sectorOf c.position) fun s => s.addCreature c := by
    unfold hasFloor at hfloor
    unfold MapSectors.placeCreature
    split at hfloor
    · rename_i hz
      rw [dif_pos hz]
      funext k
      by_cases hk : k = sectorOf c.position
      · subst hk
        rw [update_self]
        refine (update_self m (sectorOf c.position) _).trans ?_
        cases hs : m (sectorOf c.position) with
        | none => rfl
        | some s =>
          rw [hs, Option.any_some] at hfloor
          exact congrArg some (if_pos hfloor)
      · rw [update_of_ne m hk]
        exact update_of_ne m hk _
    · cases hfloor
  rw [heq]
  exact h.add (hasFloor_isSome hfloor) hc

/-! ### A move -/

section
variable {c' : Creature} (h : m.Registers creatures) (hids : (creatures.map Creature.id).Nodup) (hc : c ∈ creatures)
  (hid : c'.id = c.id) (hkind : c'.kind = c.kind)

theorem mem_moved {l : List Creature} {x : Creature} (hl : c ∈ l) :
    x ∈ l.map (fun x => if x = c then c' else x) ↔ (x ∈ l ∧ x ≠ c) ∨ x = c' := by
  rw [List.mem_map]
  constructor
  · rintro ⟨a, ha, rfl⟩
    by_cases hac : a = c
    · rw [if_pos hac]
      exact .inr rfl
    · rw [if_neg hac]
      exact .inl ⟨ha, hac⟩
  · rintro (⟨hx, hne⟩ | rfl)
    · exact ⟨x, hx, if_neg hne⟩
    · exact ⟨c, hl, if_pos rfl⟩

include hids hc hid

/-- No other creature is what the moved one becomes. -/
theorem moved_ne {x : Creature} (hx : x ∈ creatures) (hne : x ≠ c) : x ≠ c' := by
  rintro rfl
  exact hne (List.inj_on_of_nodup_map hids hx hc hid)

include h

theorem Registers.switch (hsome : (m (sectorOf c'.position)).isSome) :
    ((m.update (sectorOf c.position) fun s => s.removeCreature c).update (sectorOf c'.position) fun s =>
      s.addCreature c').Registers (creatures.map fun x => if x = c then c' else x) := by
  have hsome' := (isSome_update m (sectorOf c.position) (·.removeCreature c) _).trans hsome
  have hfresh : c' ∉ creatures.filter (· ≠ c) := fun hmem => by
    obtain ⟨hmem, hne⟩ := List.mem_filter.mp hmem
    exact moved_ne hids hc hid hmem (of_decide_eq_true hne) rfl
  refine ((h.remove hc).add hsome' hfresh).congr fun x => ?_
  rw [mem_moved hc, List.mem_append, List.mem_filter, List.mem_singleton, decide_eq_true_iff]

include hkind

theorem Registers.relocate (hsector : sectorOf c.position = sectorOf c'.position) :
    (m.update (sectorOf c.position) fun s => s.relocate c c').Registers (creatures.map fun x => if x = c then c' else x) := by
  have hlist : ∀ s only, m (sectorOf c.position) = some s → only.all (· == c.kind) → c ∈ s.nodeList only :=
    fun s only hs hall => (h.mem_iff _ s only c hs).mpr ⟨hc, rfl, hall⟩
  refine h.update (fun x hx => ?_) (fun x hx => ?_) (fun s only x hs => ?_) fun s only hs => ?_
  · rcases (mem_moved hc).mp hx with ⟨hx, -⟩ | rfl
    · exact h.listed x hx
    · rw [← hsector]
      exact h.listed c hc
  · rw [mem_moved hc]
    refine ⟨fun hmem => .inl ⟨hmem, fun hxc => hx (hxc ▸ rfl)⟩, fun hor => (hor.resolve_right fun hxc => hx ?_).1⟩
    rw [hxc]
    exact hsector.symm
  · rw [nodeList_relocate, mem_moved hc]
    by_cases hall : only.all (· == c.kind)
    · rw [mem_moved (hlist s only hs hall), h.mem_iff _ s only x hs]
      constructor
      · rintro (⟨⟨hx, hrest⟩, hne⟩ | rfl)
        · exact ⟨.inl ⟨hx, hne⟩, hrest⟩
        · exact ⟨.inr rfl, hsector, hkind ▸ hall⟩
      · rintro ⟨⟨hx, hne⟩ | rfl, hrest⟩
        · exact .inl ⟨⟨hx, hrest⟩, hne⟩
        · exact .inr rfl
    · -- the list of another kind stays as it is
      have hnot : c ∉ s.nodeList only := fun hmem => hall ((h.mem_iff _ s only c hs).mp hmem).2.2
      have hsame : (s.nodeList only).map (fun x => if x = c then c' else x) = (s.nodeList only).map id :=
        List.map_congr_left fun a ha => if_neg fun heq : a = c => hnot (heq ▸ ha)
      rw [hsame, List.map_id, h.mem_iff _ s only x hs]
      refine and_congr_left fun ⟨_, hx⟩ => ⟨fun hmem => .inl ⟨hmem, ?_⟩, fun hor => (hor.resolve_right ?_).1⟩
      · rintro rfl
        exact hall hx
      · rintro rfl
        exact hall (hkind ▸ hx)
  · rw [nodeList_relocate]
    refine (h.nodup _ s only hs).map_on fun a ha b hb hab => ?_
    have hmem : ∀ {x}, x ∈ s.nodeList only → x ∈ creatures := fun hx => ((h.mem_iff _ s only _ hs).mp hx).1
    split_ifs at hab with hac hbc hbc
    · rw [hac, hbc]
    · exact absurd hab.symm (moved_ne hids hc hid (hmem hb) hbc)
    · exact absurd hab (moved_ne hids hc hid (hmem ha) hac)
    · exact hab

end

/-- A creature that moves leaves its sector for that of its new square, or stays in it. -/
theorem Registers.moveCreature (h : m.Registers creatures) (hids : (creatures.map Creature.id).Nodup) (hc : c ∈ creatures)
    {newPos : Position} (hfloor : m.hasFloor newPos) :
    (m.moveCreature c newPos).Registers (creatures.map fun x => if x = c then { c with position := newPos } else x) := by
  have hsome := hasFloor_isSome hfloor
  have hid : ({ c with position := newPos } : Creature).id = c.id := rfl
  have hkind : ({ c with position := newPos } : Creature).kind = c.kind := rfl
  have hpos : ({ c with position := newPos } : Creature).position = newPos := rfl
  unfold MapSectors.moveCreature
  dsimp only
  generalize ({ c with position := newPos } : Creature) = c' at hid hkind hpos ⊢
  subst hpos
  split_ifs with hsector
  · exact h.switch hids hc hid hsome
  · exact h.relocate hids hc hid hkind (not_not.mp hsector)

theorem Linked.removeCreature (h : m.Linked) (i : UInt32) (c : Creature) : (m.update i fun s => s.removeCreature c).Linked := by
  have hremove : ∀ s : MapSector, (s.removeCreature c).sectorE = s.sectorE ∧ (s.removeCreature c).sectorS = s.sectorS :=
    fun s => by
      unfold MapSector.removeCreature
      split_ifs
      · cases hk : c.kind <;> exact ⟨rfl, rfl⟩
      · exact ⟨rfl, rfl⟩
  exact h.update _ (fun s => (hremove s).1) fun s => (hremove s).2

theorem Linked.moveCreature (h : m.Linked) (c : Creature) (newPos : Position) : (m.moveCreature c newPos).Linked := by
  unfold MapSectors.moveCreature
  dsimp only
  split_ifs
  · exact (h.removeCreature _ c).update _ (fun s => sectorE_addCreature s _) fun s => sectorS_addCreature s _
  · exact h.update _ (fun _ => rfl) fun _ => rfl

end MapSectors

namespace Populated
open MapSectors

/-- In every state that is reached, the sectors are linked, and the creatures are in those of their squares. -/
structure Sound (p : Populated) : Prop where
  linked : p.sectors.Linked
  ids : (p.creatures.map Creature.id).Nodup
  registers : p.sectors.Registers p.creatures

theorem Sound.step {p : Populated} (h : p.Sound) (change : Change) : (p.step change).Sound := by
  obtain ⟨hl, hids, hr⟩ := h
  cases change with
  | setTile x y z =>
    refine ⟨hl.setTile x y z, hids, ?_⟩
    change (p.sectors.setTile x y z).Registers p.creatures
    unfold MapSectors.setTile
    split
    · exact hr.onFloor hl x y _ id
    · exact hr
  | setTileCache x y z tile => exact ⟨hl.onFloor x y z _, hids, hr.onFloor hl x y z _⟩
  | placeCreature c =>
    unfold Populated.step
    dsimp only
    split_ifs with hnew
    · obtain ⟨hfloor, hother⟩ := hnew
      have hc : c ∉ p.creatures := fun hmem => hother c hmem rfl
      refine ⟨hl.placeCreature c, ?_, hr.placeCreature hfloor hc⟩
      rw [List.map_append]
      refine List.Nodup.append hids (List.nodup_singleton _) fun id hid hid' => ?_
      obtain ⟨c', hc', rfl⟩ := List.mem_map.mp hid
      exact hother c' hc' (List.mem_singleton.mp hid')
    · exact ⟨hl, hids, hr⟩
  | moveCreature c newPos =>
    unfold Populated.step
    dsimp only
    split_ifs with hmove
    · refine ⟨hl.moveCreature c newPos, ?_, hr.moveCreature hids hmove.1 hmove.2⟩
      have hsame : (p.creatures.map fun x => if x = c then { c with position := newPos } else x).map Creature.id =
          p.creatures.map Creature.id := by
        rw [List.map_map]
        refine List.map_congr_left fun x _ => ?_
        rw [Function.comp_apply]
        split_ifs with hx
        · rw [hx]
        · rfl
      rw [hsame]
      exact hids
    · exact ⟨hl, hids, hr⟩
  | removeCreature c =>
    unfold Populated.step
    dsimp only
    split_ifs with hc
    · exact ⟨hl.removeCreature _ c, hids.sublist (List.filter_sublist.map _), hr.remove hc⟩
    · exact ⟨hl, hids, hr⟩

/-- However a map is built and peopled, its creatures are in the sectors of their squares. -/
theorem run_sound (changes : List Change) : (run Populated.step empty changes).Sound :=
  run_induction Sound (fun _ change h => h.step change) changes
    ⟨linked_empty, List.nodup_nil, ⟨nofun, nofun, nofun⟩⟩

/-- So a search is a look at all creatures, after any changes. -/
theorem run_perm_filter (changes : List Change) {r : Range} (hb : r.Bounded) (hr : Spectators.Around r) {p : Position}
    (hz : p.z.toNat < MAP_MAX_LAYERS) (multifloor : Bool) (only : Option CreatureKind) :
    (Spectators.getSpectators (run Populated.step empty changes).sectors p multifloor only r).Perm
      ((run Populated.step empty changes).creatures.filter (Spectators.meets p multifloor only r)) := by
  obtain ⟨hl, hids, h⟩ := run_sound changes
  have hfloor : p.z < 18 := UInt8.lt_iff_toNat_lt.mpr (Nat.lt_trans hz (by decide))
  exact Spectators.perm_filter hl h hids.of_map hb hr (.inr (.inl hfloor)) only

/-- The player comes to the map and moves over a border of its sector, next to the monster. -/
theorem run_perm_filter_moved :
    (Spectators.getSpectators (run Populated.step empty [.setTile 3 65535 7, .setTile 40 65535 8, .placeCreature Spectators.hero,
      .placeCreature Spectators.rat, .setTile 39 65535 8, .moveCreature Spectators.hero ⟨39, 65535, 8⟩]).sectors
        ⟨39, 65535, 8⟩ false none ⟨-1, 1, -1, 1⟩).Perm
      [{ Spectators.hero with position := ⟨39, 65535, 8⟩ }, Spectators.rat] :=
  (run_perm_filter _ ⟨by decide, by decide, by decide, by decide⟩ ⟨by decide, by decide⟩ (by decide) false none).trans
    (by decide)

end Populated
end CrystalServer
