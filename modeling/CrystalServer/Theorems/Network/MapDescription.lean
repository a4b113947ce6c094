import CrystalServer.Lib.SkipRuns
import CrystalServer.Network.MapDescription

/-! # What the client makes of what it is sent

A client forgets the creatures that an announcement tells it to and adds what is announced. A call announces a creature that
is not known, and gives up at most one other, which the client knows.

The squares of all floors make one row. What is written of it is what `Lib.SkipRuns` writes of the tiles and the gaps
between them, and is read back as such. -/

/-! ### The creatures that the client knows -/

namespace CrystalServer.KnownCreatures
open Lib (run)

/-- A call in its surroundings; `removedKnown` is what the variable holds before. -/
structure Call where
  env : Surroundings
  id : UInt32
  removedKnown : UInt32

/-- What `checkCreatureAsKnown` leaves in `known` and `removedKnown`. -/
def Call.answer (s : KnownCreatures) (c : Call) : Bool × UInt32 := (s.checkCreatureAsKnown c.env c.id c.removedKnown).2

/-- The server and its client, with the ids announced so far. -/
structure Session where
  server : KnownCreatures
  client : Finset UInt32
  announced : List UInt32

/-- Nobody is known when the connection is new. -/
def Session.new : Session := ⟨⟨∅, []⟩, ∅, []⟩

def Session.step (t : Session) (c : Call) : Session where
  server := (t.server.checkCreatureAsKnown c.env c.id c.removedKnown).1
  client := if (c.answer t.server).1 then t.client else insert c.id (t.client.erase (c.answer t.server).2)
  announced := if (c.answer t.server).1 then t.announced else t.announced ++ [c.id]

/-- The set and the list hold the same ids, not too many. In the list each stands once, in the order of the last
    announcements. The client knows them, and no others. -/
structure Mirrored (t : Session) : Prop where
  mem_iff : ∀ id, id ∈ t.server.creatureOrder ↔ id ∈ t.server.knownCreatureSet
  order : t.server.creatureOrder = (t.announced.filter (· ∈ t.server.knownCreatureSet)).dedup
  card : t.server.knownCreatureSet.card ≤ MAX_KNOWN_CREATURES
  client : t.client = t.server.knownCreatureSet
  nonzero : 0 ∉ t.server.knownCreatureSet

/-- The server once it has taken in a new id, before it gives one up. -/
def announce (s : KnownCreatures) (id : UInt32) : KnownCreatures := ⟨insert id s.knownCreatureSet, s.creatureOrder ++ [id]⟩

variable {s : KnownCreatures} {t : Session} {env : Surroundings} {id removedKnown : UInt32}

/-- What a call does: nothing, an announcement, or an announcement in place of an id that is known. -/
theorem checkCreatureAsKnown_cases (hmem : ∀ id, id ∈ s.creatureOrder ↔ id ∈ s.knownCreatureSet)
    (env : Surroundings) (id removedKnown : UInt32) :
    (id ∈ s.knownCreatureSet ∧ s.checkCreatureAsKnown env id removedKnown = (s, true, removedKnown)) ∨
    (id ∉ s.knownCreatureSet ∧ s.knownCreatureSet.card < MAX_KNOWN_CREATURES ∧
      s.checkCreatureAsKnown env id removedKnown = (s.announce id, false, 0)) ∨
    (id ∉ s.knownCreatureSet ∧ ∃ victim ∈ s.knownCreatureSet,
      s.checkCreatureAsKnown env id removedKnown = ((s.announce id).removeCreature victim, false, victim)) := by
  unfold checkCreatureAsKnown
  by_cases hid : id ∈ s.knownCreatureSet
  · exact Or.inl ⟨hid, if_pos hid⟩
  · have hinsert : (insert id s.knownCreatureSet).card = s.knownCreatureSet.card + 1 := Finset.card_insert_of_notMem hid
    rw [if_neg hid]
    dsimp only
    by_cases hfull : s.knownCreatureSet.card < MAX_KNOWN_CREATURES
    · rw [if_neg (by rw [hinsert]; exact Nat.not_lt.mpr hfull)]
      exact Or.inr (Or.inl ⟨hid, hfull, rfl⟩)
    · rw [if_pos (by rw [hinsert]; exact Nat.lt_succ_of_le (Nat.le_of_not_lt hfull))]
      refine Or.inr (Or.inr ⟨hid, ?_⟩)
      have hother : ∀ victim, victim ∈ s.creatureOrder ++ [id] → victim ≠ id → victim ∈ s.knownCreatureSet :=
        fun victim hv hne => by
          rcases List.mem_append.mp hv with hv | hv
          · exact (hmem victim).mp hv
          · exact absurd (List.mem_singleton.mp hv) hne
      cases hfind : (s.creatureOrder ++ [id]).find? fun creatureId => creatureId ≠ id && canBeRemoved env creatureId with
      | some victim =>
        have hne : victim ≠ id := by
          have hfound := List.find?_some hfind
          simp only [Bool.and_eq_true, decide_eq_true_eq] at hfound
          exact hfound.1
        exact ⟨victim, hother victim (List.mem_of_find?_eq_some hfind) hne, rfl⟩
      | none =>
        -- the set is full, so another id stands first
        cases hlist : s.creatureOrder with
        | nil =>
          have hempty : s.knownCreatureSet = ∅ := Finset.eq_empty_of_forall_notMem fun x hx => by
            have := (hmem x).mpr hx
            rw [hlist] at this
            cases this
          rw [hempty] at hfull
          exact absurd (by decide) hfull
        | cons oldest rest =>
          have holdest : oldest ∈ s.knownCreatureSet := (hmem oldest).mp (hlist ▸ List.mem_cons_self)
          refine ⟨oldest, holdest, ?_⟩
          simp [announce, hlist]

namespace Mirrored

theorem new : Mirrored .new := ⟨by simp [Session.new], rfl, Nat.zero_le _, rfl, by simp [Session.new]⟩

/-- The order of the announcements with one more. -/
theorem order_announce (h : Mirrored t) (hid : id ∉ t.server.knownCreatureSet) :
    (t.server.announce id).creatureOrder =
      ((t.announced ++ [id]).filter (· ∈ (t.server.announce id).knownCreatureSet)).dedup := by
  have hlast : [id].filter (· ∈ (t.server.announce id).knownCreatureSet) = [id] := by simp [announce]
  have hrest : (t.announced.filter (· ∈ (t.server.announce id).knownCreatureSet)).filter (· ≠ id) =
      t.announced.filter (· ∈ t.server.knownCreatureSet) := by
    rw [List.filter_filter]
    refine List.filter_congr fun x _ => ?_
    by_cases hx : x = id
    · simp [hx, hid]
    · simp [hx, announce]
  rw [List.filter_append, hlast, Lib.dedup_concat, ← Lib.dedup_filter, hrest, ← h.order]
  rfl

/-- An id is taken out of the order. -/
theorem order_removeCreature {announced : List UInt32} (h : s.creatureOrder =
    (announced.filter (· ∈ s.knownCreatureSet)).dedup) (victim : UInt32) : (s.removeCreature victim).creatureOrder =
      (announced.filter (· ∈ (s.removeCreature victim).knownCreatureSet)).dedup := by
  have hset : announced.filter (· ∈ (s.removeCreature victim).knownCreatureSet) =
      (announced.filter (· ∈ s.knownCreatureSet)).filter (· ≠ victim) := by
    rw [List.filter_filter]
    refine List.filter_congr fun x _ => ?_
    simp [removeCreature]
  rw [hset, Lib.dedup_filter, ← h]
  rfl

/-- Each call keeps the mirror; an answer names an id to forget that the client knows, or none. -/
theorem call (h : Mirrored t) {c : Call} (hc : c.id ≠ 0) : Mirrored (t.step c) ∧
    ((c.answer t.server).1 = false → (c.answer t.server).2 = 0 ∨
      ((c.answer t.server).2 ∈ t.client ∧ (c.answer t.server).2 ≠ c.id)) := by
  unfold Session.step Call.answer
  rcases checkCreatureAsKnown_cases h.mem_iff c.env c.id c.removedKnown with
    ⟨-, heq⟩ | ⟨hid, hfull, heq⟩ | ⟨hid, victim, hv, heq⟩
  · rw [heq]
    exact ⟨h, by simp⟩
  · rw [heq]
    refine ⟨⟨fun x => ?_, h.order_announce hid, ?_, ?_, ?_⟩, fun _ => Or.inl rfl⟩
    · simp [announce, h.mem_iff, or_comm]
    · exact (Finset.card_insert_le _ _).trans hfull
    · simp [announce, h.client, Finset.erase_eq_of_notMem h.nonzero]
    · simp [announce, h.nonzero, hc.symm]
  · have hne : victim ≠ c.id := fun heq => hid (heq ▸ hv)
    rw [heq]
    refine ⟨⟨fun x => ?_, order_removeCreature (h.order_announce hid) victim, ?_, ?_, ?_⟩, fun _ => Or.inr ⟨h.client ▸ hv, hne⟩⟩
    · simp only [announce, removeCreature, List.mem_filter, List.mem_append, List.mem_singleton, h.mem_iff,
        decide_eq_true_eq, Finset.mem_erase, Finset.mem_insert]
      rw [and_comm, or_comm]
    · have hcard : ((insert c.id t.server.knownCreatureSet).erase victim).card = t.server.knownCreatureSet.card := by
        rw [Finset.card_erase_of_mem (Finset.mem_insert_of_mem hv), Finset.card_insert_of_notMem hid, Nat.add_sub_cancel]
      exact hcard.trans_le h.card
    · simp [announce, removeCreature, h.client, Finset.erase_insert_of_ne hne.symm]
    · simp [announce, removeCreature, h.nonzero, hc.symm]

theorem run {t : Session} (h : Mirrored t) {calls : List Call} (hc : ∀ c ∈ calls, c.id ≠ 0) :
    Mirrored (run Session.step t calls) := by
  induction calls generalizing t with
  | nil => exact h
  | cons c calls ih =>
    exact ih (h.call (hc c List.mem_cons_self)).1 fun c' hc' => hc c' (List.mem_cons_of_mem _ hc')

end Mirrored

/-- After every sequence of calls the client knows what the server takes it to know, the list holds these ids once each in
    the order of their last announcements, and the next call gives up none or one that the client knows. -/
theorem knownCreatures_mirrored (calls : List Call) (hcalls : ∀ c ∈ calls, c.id ≠ 0) :
    Mirrored (run Session.step .new calls) ∧ (run Session.step .new calls).server.creatureOrder.Nodup ∧
      ∀ c : Call, c.id ≠ 0 → (c.answer (run Session.step .new calls).server).1 = false →
        (c.answer (run Session.step .new calls).server).2 = 0 ∨
          ((c.answer (run Session.step .new calls).server).2 ∈ (run Session.step .new calls).client ∧
            (c.answer (run Session.step .new calls).server).2 ≠ c.id) := by
  have h : Mirrored (run Session.step .new calls) := Mirrored.new.run hcalls
  exact ⟨h, h.order ▸ List.nodup_dedup _, fun c hc => (h.call hc).2⟩

/-- A creature comes into sight. -/
theorem knownCreatures_mirrored_one :
    Mirrored (run Session.step .new [⟨⟨1, fun _ => none, fun _ => none, fun _ => none, fun _ => true⟩, 7, 0⟩]) :=
  (knownCreatures_mirrored [⟨⟨1, fun _ => none, fun _ => none, fun _ => none, fun _ => true⟩, 7, 0⟩] (by simp)).1

end CrystalServer.KnownCreatures

/-! ### The description of the map -/

namespace CrystalServer.MapView
open Lib (loop)
open Lib.SkipRuns

variable {view : MapView} {ι : Type} {read : List UInt8 → Option (ι × List UInt8)} {shown : Written → ι}

/-- How many floors are described, where they are. -/
def floorCount (z : Int) : Nat := ((endz z - startz z) * zstep z + 1).toNat

/-- The squares of a floor, in the order of the description. -/
def floorSquares (x y z width height offset : Int) : List Position :=
  (List.range width.toNat).flatMap fun nx =>
    (List.range height.toNat).map fun ny => square (x + nx + offset) (y + ny + offset) z

/-- So many floors from one on. -/
def squaresFrom (x y z width height : Int) : Nat → Int → List Position
  | 0, _ => []
  | n + 1, nz => floorSquares x y nz width height (z - nz) ++ squaresFrom x y z width height n (nz + zstep z)

/-- The squares of all floors. -/
def squares (x y z width height : Int) : List Position := squaresFrom x y z width height (floorCount z) (startz z)

/-- What is written of each square; `none` where there is no tile. -/
def pattern (view : MapView) : KnownCreatures → List Position → List (Option (List Written))
  | _, [] => []
  | known, position :: positions =>
    match view.getTile position.x position.y position.z with
    | some tile =>
      some (view.writeTile known position tile).2 :: pattern view (view.writeTile known position tile).1 positions
    | none => none :: pattern view known positions

/-! ### The row of squares -/

theorem floorDescription_eq (w : MapWriter) (x y z width height offset : Int) :
    view.GetFloorDescription w x y z width height offset =
      (floorSquares x y z width height offset).foldl view.describeSquare w := by
  unfold GetFloorDescription floorSquares
  rw [List.foldl_flatMap]
  simp only [List.foldl_map]

theorem describeSquares_eq (view : MapView) (positions : List Position) (w : MapWriter) :
    (positions.foldl view.describeSquare w).msg ++ pair (positions.foldl view.describeSquare w).skip =
      w.msg ++ write view.encode w.skip (view.pattern w.known positions) := by
  induction positions generalizing w with
  | nil => rfl
  | cons position positions ih =>
    rw [List.foldl_cons, ih]
    unfold describeSquare
    rw [pattern]
    cases view.getTile position.x position.y position.z with
    | some tile =>
      dsimp only
      rw [write, pair]
      split <;> simp
    | none =>
      dsimp only
      rw [write]
      split <;> simp

theorem finish_eq (w : MapWriter) :
    (if w.skip ≥ 0 then w.msg ++ [.ofInt w.skip, 0xFF] else w.msg) = w.msg ++ pair w.skip := by
  rw [pair]
  split
  · rfl
  · exact (List.append_nil _).symm

/-! ### The floors -/

theorem loop_eq (view : MapView) (x y : Int) {z : Int} (width height : Int) (n : Nat) (nz : Int) (w : MapWriter)
    (hn : nz + n * zstep z = endz z + zstep z) :
    loop (view.floorBody x y z width height) (n + 1) (nz, w) =
      some ((squaresFrom x y z width height n nz).foldl view.describeSquare w) := by
  induction n generalizing nz w with
  | zero =>
    have hend : nz = endz z + zstep z := by simpa using hn
    refine Lib.loop_leave ?_ 0
    rw [floorBody, if_neg (by simpa using hend)]
    rfl
  | succ n ih =>
    have hstep : zstep z = 1 ∨ zstep z = -1 := by
      unfold zstep
      split <;> simp
    have hrest : nz + zstep z + n * zstep z = endz z + zstep z := by
      rw [← hn, Nat.cast_succ, add_mul, one_mul]
      omega
    have hne : nz ≠ endz z + zstep z := by
      rcases hstep with h | h <;> rw [h] at hn ⊢ <;> omega
    have hbody : view.floorBody x y z width height (nz, w) =
        .inl (nz + zstep z, view.GetFloorDescription w x y nz width height (z - nz)) := by
      rw [floorBody, if_pos hne]
    rw [Lib.loop_next hbody, ih _ _ hrest, squaresFrom, List.foldl_append, floorDescription_eq]

theorem floors_end {z : Int} (hz : z ≤ 18) : startz z + floorCount z * zstep z = endz z + zstep z := by
  unfold floorCount startz endz zstep MAP_INIT_SURFACE_LAYER MAP_LAYER_VIEW_LIMIT MAP_MAX_LAYERS
  by_cases hz7 : z > 7
  · simp only [if_pos hz7]
    omega
  · simp only [if_neg hz7]
    omega

/-- Below the floors that there are the loop goes on past its end. -/
theorem floors_past {z : Int} (hz : 18 < z) {x y width height : Int} {w : MapWriter} {s : Int × MapWriter}
    (h : Lib.Reaches (view.floorBody x y z width height) (startz z, w) s) : endz z + zstep z < s.1 := by
  have hz7 : z > MAP_INIT_SURFACE_LAYER := by
    unfold MAP_INIT_SURFACE_LAYER
    omega
  have hstep : zstep z = 1 := if_pos hz7
  induction h with
  | refl =>
    unfold startz endz
    rw [if_pos hz7, if_pos hz7, hstep]
    unfold MAP_LAYER_VIEW_LIMIT MAP_MAX_LAYERS
    omega
  | @tail s t _ hbody ih =>
    unfold floorBody at hbody
    rw [if_pos (ne_of_gt ih)] at hbody
    cases hbody
    dsimp only
    omega

theorem length_pattern (positions : List Position) (known : KnownCreatures) :
    (view.pattern known positions).length = positions.length := by
  induction positions generalizing known with
  | nil => rfl
  | cons position positions ih =>
    rw [pattern]
    split <;> rw [List.length_cons, List.length_cons, ih]

/-- The loop over the floors ends just for the floors down to the eighteenth, and has then described the row of squares. -/
theorem getMapDescription_eq {known : KnownCreatures} {x y z width height : Int} {rounds : Nat}
    {r : List UInt8 × KnownCreatures} (h : view.GetMapDescription rounds known x y z width height = some r) :
    z ≤ 18 ∧ r.1 = write view.encode (-1) (view.pattern known (squares x y z width height)) := by
  obtain ⟨w, hw, rfl⟩ := Option.map_eq_some_iff.mp h
  have hz : z ≤ 18 := by
    by_contra hz
    obtain ⟨s, hs, hleave⟩ := Lib.reaches_of_loop hw
    have hpast := floors_past (Int.not_le.mp hz) hs
    rw [floorBody, if_pos (ne_of_gt hpast)] at hleave
    cases hleave
  refine ⟨hz, ?_⟩
  have hend := loop_eq view x y width height (floorCount z) (startz z) ⟨[], -1, known⟩ (floors_end hz)
  have hsame := (Lib.loop_mono hw (Nat.le_max_left rounds (floorCount z + 1))).symm.trans
    (Lib.loop_mono hend (Nat.le_max_right rounds (floorCount z + 1)))
  obtain rfl := Option.some.inj hsame
  have hbytes := describeSquares_eq view (squares x y z width height) ⟨[], -1, known⟩
  rw [List.nil_append] at hbytes
  exact (finish_eq _).trans hbytes

/-- The description of a row of squares is read back: the things of each tile in order, none where there is no tile or the
    tile shows nothing. It ends just for the floors down to the eighteenth. -/
theorem mapDescription_read (view : MapView) (read : List UInt8 → Option (ι × List UInt8)) (shown : Written → ι)
    (hread : ∀ b, Readable view.encode read shown b) (known : KnownCreatures) (x y z width height : Int) (after : List UInt8) :
    (∀ rounds r, view.GetMapDescription rounds known x y z width height = some r →
      readSquares read (squares x y z width height).length 0 (r.1 ++ after) =
        some (found shown (view.pattern known (squares x y z width height)), 0, after)) ∧
    ((∃ rounds r, view.GetMapDescription rounds known x y z width height = some r) ↔ z ≤ 18) := by
  refine ⟨fun rounds r h => ?_, ?_, fun hz => ?_⟩
  · rw [(getMapDescription_eq h).2]
    have hthings : ∀ square ∈ view.pattern known (squares x y z width height), ∀ things ∈ square, ∀ b ∈ things,
        Readable view.encode read shown b := fun _ _ _ _ b _ => hread b
    have hspec := (write_spec hthings after).1
    rwa [found, List.length_map, length_pattern] at hspec
  · rintro ⟨rounds, r, h⟩
    exact (getMapDescription_eq h).1
  · have hend := loop_eq view x y width height (floorCount z) (startz z) ⟨[], -1, known⟩ (floors_end hz)
    exact ⟨floorCount z + 1, _, congrArg (Option.map _) hend⟩

/-! ### One tile -/

/-- A tile with ground, where the player stands. -/
def groundView : MapView where
  oldProtocol := false
  position := ⟨5, 5, 7⟩
  id := 0
  canSeeCreature _ := true
  canSeeCreature_self := rfl
  surroundings := ⟨0, fun _ => none, fun _ => none, fun _ => none, fun _ => true⟩
  getID c := .ofNat c
  getTile x y z := if x = 5 ∧ y = 5 ∧ z = 7 then some ⟨some 0, [], 0, [], fun _ => false, none⟩ else none
  AddItem _ := [100, 0]
  AddCreature _ _ _ := [98, 0]

/-- The reader of things that are two bytes long. -/
def readTwo : List UInt8 → Option (UInt8 × List UInt8)
  | first :: _ :: rest => some (first, rest)
  | _ => none

theorem groundView_readable (b : Written) :
    Readable groundView.encode readTwo (fun b => (groundView.encode b).headD 0) b := by
  cases b <;> exact ⟨fun _ => rfl, _, _, _, rfl, by decide⟩

theorem mapDescription_read_ground :
    readSquares readTwo 8 0 [100, 0, 7, 0xFF] = some ([[100], [], [], [], [], [], [], []], 0, []) :=
  (mapDescription_read groundView readTwo (fun b => (groundView.encode b).headD 0) groundView_readable ⟨∅, []⟩ 5 5 7 1 1 []).1
    9 ([100, 0, 7, 0xFF], ⟨∅, []⟩) rfl

end CrystalServer.MapView
