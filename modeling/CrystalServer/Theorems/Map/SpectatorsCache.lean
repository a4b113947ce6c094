import CrystalServer.Theorems.Map.Spectators

/-! # When the spectator cache answers as a search does

An entry of the cache has one range but eight lists. A list that was filled before the range grew holds
less than the range says, and the filter of `checkCache` is the mirror image of the test of a search. -/

namespace CrystalServer

/-- `checkCache` answers from the lists. -/
def FloorData.Filled (d : FloorData) (multifloor : Bool) : Prop :=
  (d.list multifloor).isSome ∨ d.multiFloor.isSome

namespace Spectators
open Lib MapSectors

/-- The call finds the creatures that it finds without the cache. -/
def Agrees (m : MapSectors) (cache : Cache) (q : Query) : Prop :=
  ∀ c, c ∈ (find m cache q).1 ↔ c ∈ (find m cache { q with useCache := false }).1

/-- A query on one floor whose range is the same on both sides of its centre. -/
structure Query.Mirrored (q : Query) : Prop where
  floor : q.multifloor = false
  x : q.range.minRangeX = -q.range.maxRangeX ∧ 0 ≤ q.range.maxRangeX
  y : q.range.minRangeY = -q.range.maxRangeY ∧ 0 ≤ q.range.maxRangeY

/-- The call stays clear of the ways in which an entry gives wrong answers: a range that grows past other
    lists, a filter that is not the test of the search, a narrow list under a wide range. -/
structure Fits (entry : SpectatorsCache) (q : Query) : Prop where
  grows : q.range.exceeds entry.range → q.range.merge entry.range = q.range ∧
    ∀ only multifloor, (only, multifloor) ≠ (q.only, q.multifloor) → (entry.data only).list multifloor = none
  own : ¬q.range.exceeds entry.range → ((entry.data q.only).list q.multifloor).isSome →
    q.range = entry.range ∨ q.Mirrored
  other : ¬q.range.exceeds entry.range → (entry.data q.only).list q.multifloor = none →
    (entry.data q.only).Filled q.multifloor ∨ entry.creatures.Filled q.multifloor → q.Mirrored
  first : ¬q.range.exceeds entry.range → ¬(entry.data q.only).Filled q.multifloor →
    ¬entry.creatures.Filled q.multifloor → q.range = entry.range

/-- The call fits the entry for its centre, if it uses the cache and there is one. -/
def Sound (cache : Cache) (q : Query) : Prop :=
  q.useCache = true → ∀ entry, cache q.centerPos = some entry → Fits entry q

/-! ### What the lists hold -/

/-- The lists of an entry hold what a search over the range of the entry finds. -/
structure Fresh (m : MapSectors) (centerPos : Position) (entry : SpectatorsCache) : Prop where
  bounded : entry.range.Bounded
  lists : ∀ only multifloor l, (entry.data only).list multifloor = some l →
    ∀ c, c ∈ l ↔ c ∈ getSpectators m centerPos multifloor only entry.range

def AllFresh (m : MapSectors) (cache : Cache) : Prop :=
  ∀ centerPos entry, cache centerPos = some entry → Fresh m centerPos entry

theorem bounded_range (q : Query) : q.range.Bounded := by
  have := q.minRangeX.toInt_lt
  have := q.minRangeX.le_toInt
  have := q.maxRangeX.toInt_lt
  have := q.maxRangeX.le_toInt
  have := q.minRangeY.toInt_lt
  have := q.minRangeY.le_toInt
  have := q.maxRangeY.toInt_lt
  have := q.maxRangeY.le_toInt
  constructor <;> simp only [Query.range, MAP_MAX_VIEW_PORT_X, MAP_MAX_VIEW_PORT_Y] <;> split <;> omega

theorem list_setList (entry : SpectatorsCache) (multifloor multifloor' : Bool) (l : List Creature)
    (only only' : Option CreatureKind) : ((entry.setList multifloor l only).data only').list multifloor' =
      if (only', multifloor') = (only, multifloor) then some l else (entry.data only').list multifloor' := by
  rcases only with _ | _ | _ | _ <;> rcases only' with _ | _ | _ | _ <;> cases multifloor <;> cases multifloor' <;> rfl

theorem data_range (entry : SpectatorsCache) (r : Range) (only : Option CreatureKind) :
    { entry with range := r }.data only = entry.data only := by
  rcases only with _ | _ | _ | _ <;> rfl

theorem range_setList (entry : SpectatorsCache) (multifloor : Bool) (l : List Creature) (only : Option CreatureKind) :
    (entry.setList multifloor l only).range = entry.range := by
  rcases only with _ | _ | _ | _ <;> rfl

/-! ### The filter of `checkCache` -/

theorem listed_iff {m : MapSectors} (hg : m.Registered) (only : Option CreatureKind) (c : Creature) :
    m.Listed only c ↔ m.Listed none c ∧ only.all (· == c.kind) = true := by
  rcases only with _ | kind
  · simp
  · constructor
    · rintro ⟨s, hs, hc⟩
      rw [hg.typed _ s hs] at hc
      obtain ⟨hc, hk⟩ := List.mem_filter.mp hc
      exact ⟨⟨s, hs, hc⟩, beq_iff_eq.mpr (of_decide_eq_true hk).symm⟩
    · rintro ⟨⟨s, hs, hc⟩, hk⟩
      refine ⟨s, hs, ?_⟩
      rw [hg.typed _ s hs]
      exact List.mem_filter.mpr ⟨hc, decide_eq_true (beq_iff_eq.mp hk).symm⟩

theorem near_iff {q : Query} (h : q.Mirrored) (p p' : Position) :
    q.range.near p p' = true ↔ q.range.Contains (p'.x.toNat - p.x.toNat) (p'.y.toNat - p.y.toNat) := by
  obtain ⟨-, ⟨hx, -⟩, hy, -⟩ := h
  unfold Range.near Range.Contains
  rw [decide_eq_true_eq]
  omega

theorem contains_of_not_exceeds {r r' : Range} (h : ¬r.exceeds r') {dx dy : Int} (hc : r.Contains dx dy) :
    r'.Contains dx dy := by
  unfold Range.exceeds at h
  unfold Range.Contains at hc ⊢
  rw [decide_eq_true_eq] at h
  omega

theorem proper_of_not_exceeds {r r' : Range} (h : ¬r.exceeds r') (hr : r.Proper) : r'.Proper := by
  have := contains_of_not_exceeds h ⟨⟨Int.le_refl r.minRangeX, hr.x⟩, Int.le_refl r.minRangeY, hr.y⟩
  exact ⟨Int.le_trans this.1.1 this.1.2, Int.le_trans this.2.1 this.2.2⟩

theorem Query.Mirrored.proper {q : Query} (h : q.Mirrored) : q.range.Proper := by
  obtain ⟨-, ⟨hx, hx'⟩, hy, hy'⟩ := h
  constructor <;> omega

/-- What the filter leaves of a list for the same kind or for all creatures is what the search finds. -/
theorem mem_filtered {m : MapSectors} (hl : m.Linked) (hg : m.Registered) {entry : SpectatorsCache} {q : Query}
    (hb : entry.range.Bounded) (hq : q.Mirrored) (hn : ¬q.range.exceeds entry.range) {multifloor : Bool}
    {only : Option CreatureKind} (ho : only = q.only ∨ only = none) {l : List Creature}
    (hmem : ∀ c, c ∈ l ↔ c ∈ getSpectators m q.centerPos multifloor only entry.range) (c : Creature) :
    c ∈ l.filter (fun c => q.range.near q.centerPos c.position && (q.multifloor || c.position.z == q.centerPos.z) &&
      q.only.all (· == c.kind)) ↔ c ∈ getSpectators m q.centerPos q.multifloor q.only q.range := by
  have hr := proper_of_not_exceeds hn hq.proper
  rw [List.mem_filter, hmem, hq.floor]
  simp only [Bool.false_or, Bool.and_eq_true, beq_iff_eq]
  constructor
  · rintro ⟨hc, ⟨hnear, hz⟩, hk⟩
    rw [mem_getSpectators_floor hl hg hb hr _ _ hz] at hc
    rw [mem_getSpectators_floor hl hg (bounded_range q) hq.proper _ _ hz, ← near_iff hq, listed_iff hg]
    exact ⟨⟨((listed_iff hg only c).mp hc.1).1, hk⟩, hnear⟩
  · intro hc
    have hz := floor_of_mem_getSpectators hl hg hc
    rw [mem_getSpectators_floor hl hg (bounded_range q) hq.proper _ _ hz] at hc
    rw [mem_getSpectators_floor hl hg hb hr _ _ hz, near_iff hq]
    have hlisted := (listed_iff hg q.only c).mp hc.1
    refine ⟨⟨?_, contains_of_not_exceeds hn hc.2⟩, ⟨hc.2, hz⟩, hlisted.2⟩
    rcases ho with rfl | rfl
    · exact hc.1
    · exact hlisted.1

/-! ### `checkCache` -/

theorem checkCache_own {d : FloorData} {multifloor : Bool} {l : List Creature} (h : d.list multifloor = some l)
    (only : Option CreatureKind) (p : Position) (checkDistance : Bool) (r : Range) :
    checkCache d only p checkDistance multifloor r = some (if checkDistance then
      l.filter fun c => r.near p c.position && (multifloor || c.position.z == p.z) && only.all (· == c.kind) else l) := by
  cases multifloor with
  | true =>
    have h : d.multiFloor = some l := h
    simp [checkCache, h]
  | false =>
    have h : d.floor = some l := h
    simp [checkCache, h]

theorem checkCache_other {d : FloorData} {multifloor : Bool} {l : List Creature} (h : d.list multifloor = none)
    (hm : d.multiFloor = some l) (only : Option CreatureKind) (p : Position) (checkDistance : Bool) (r : Range) :
    checkCache d only p checkDistance multifloor r = some (
      l.filter fun c => r.near p c.position && (multifloor || c.position.z == p.z) && only.all (· == c.kind)) := by
  cases multifloor with
  | true => exact absurd (h.symm.trans hm) (by simp)
  | false =>
    have h : d.floor = none := h
    simp [checkCache, h, hm]

theorem checkCache_none {d : FloorData} {multifloor : Bool} (h : ¬d.Filled multifloor) (only : Option CreatureKind)
    (p : Position) (checkDistance : Bool) (r : Range) : checkCache d only p checkDistance multifloor r = none := by
  unfold FloorData.Filled at h
  rw [not_or, Option.not_isSome_iff_eq_none, Option.not_isSome_iff_eq_none] at h
  cases multifloor with
  | true => simp [checkCache, h.2]
  | false =>
    have hf : d.floor = none := h.1
    simp [checkCache, hf, h.2]

/-! ### Calls -/

/-- Without a kind the second look is at the lists of the first one. -/
theorem fromCache_eq (entry : SpectatorsCache) (q : Query) (r : Range) : fromCache entry q r =
    (checkCache (entry.data q.only) q.only q.centerPos (r ≠ entry.range) q.multifloor r).or
      (checkCache entry.creatures q.only q.centerPos true q.multifloor r) := by
  unfold fromCache
  cases hq : q.only with
  | some kind =>
    dsimp only
    cases checkCache (entry.data (some kind)) (some kind) .. <;> rfl
  | none =>
    show checkCache entry.creatures none .. = Option.or (checkCache entry.creatures none ..) _
    cases hc : checkCache entry.creatures none q.centerPos (r ≠ entry.range) q.multifloor r with
    | some l => rfl
    | none =>
      have hnone := Option.map_eq_none_iff.mp hc
      exact (Option.map_eq_none_iff.mpr hnone).symm

/-- An answer from the lists is what the search finds. -/
theorem mem_fromCache {m : MapSectors} (hl : m.Linked) (hg : m.Registered) {entry : SpectatorsCache} {q : Query}
    (he : Fresh m q.centerPos entry) (hf : Fits entry q) (hn : ¬q.range.exceeds entry.range) {l : List Creature}
    (h : fromCache entry q q.range = some l) (c : Creature) :
    c ∈ l ↔ c ∈ getSpectators m q.centerPos q.multifloor q.only q.range := by
  rw [fromCache_eq] at h
  cases hown : (entry.data q.only).list q.multifloor with
  | some l₀ =>
    have hmem := he.lists _ _ l₀ hown
    rw [checkCache_own hown, Option.some_or, Option.some_inj] at h
    subst h
    by_cases hr : q.range = entry.range
    · rw [decide_eq_false (not_not_intro hr), if_neg Bool.false_ne_true, hmem, ← hr]
    · rw [decide_eq_true hr, if_pos rfl]
      have hq := (hf.own hn (by simp [hown])).resolve_left hr
      exact mem_filtered hl hg he.bounded hq hn (.inl rfl) hmem c
  | none =>
    by_cases hfill : (entry.data q.only).Filled q.multifloor
    · have hq := hf.other hn hown (.inl hfill)
      obtain ⟨l₁, hl₁⟩ : ∃ l₁, (entry.data q.only).multiFloor = some l₁ := by
        rw [FloorData.Filled, hown] at hfill
        exact Option.isSome_iff_exists.mp (hfill.resolve_left Bool.false_ne_true)
      rw [checkCache_other hown hl₁, Option.some_or, Option.some_inj] at h
      subst h
      exact mem_filtered hl hg he.bounded hq hn (.inl rfl) (he.lists q.only true l₁ hl₁) c
    · rw [checkCache_none hfill, Option.none_or] at h
      by_cases hcr : entry.creatures.Filled q.multifloor
      · have hq := hf.other hn hown (.inr hcr)
        cases hlist : entry.creatures.list q.multifloor with
        | some l₁ =>
          rw [checkCache_own hlist, if_pos rfl, Option.some_inj] at h
          subst h
          exact mem_filtered hl hg he.bounded hq hn (.inr rfl) (he.lists none _ l₁ hlist) c
        | none =>
          obtain ⟨l₁, hl₁⟩ : ∃ l₁, entry.creatures.multiFloor = some l₁ := by
            rw [FloorData.Filled, hlist] at hcr
            exact Option.isSome_iff_exists.mp (hcr.resolve_left Bool.false_ne_true)
          rw [checkCache_other hlist hl₁, Option.some_inj] at h
          subst h
          exact mem_filtered hl hg he.bounded hq hn (.inr rfl) (he.lists none true l₁ hl₁) c
      · rw [checkCache_none hcr] at h
        exact nomatch h

/-- A list that is filled gives an answer. -/
theorem isSome_checkCache {d : FloorData} {multifloor : Bool} (h : d.Filled multifloor) (only : Option CreatureKind)
    (p : Position) (checkDistance : Bool) (r : Range) : (checkCache d only p checkDistance multifloor r).isSome := by
  cases hlist : d.list multifloor with
  | some l => rw [checkCache_own hlist, Option.isSome_some]
  | none =>
    rw [FloorData.Filled, hlist] at h
    obtain ⟨l, hl⟩ := Option.isSome_iff_exists.mp (h.resolve_left Bool.false_ne_true)
    rw [checkCache_other hlist hl, Option.isSome_some]

/-- Where no list answers, the range of the call is the range of the entry. -/
theorem range_of_fromCache_none {entry : SpectatorsCache} {q : Query} (hf : Fits entry q)
    (hn : ¬q.range.exceeds entry.range) (h : fromCache entry q q.range = none) : q.range = entry.range := by
  rw [fromCache_eq, Option.or_eq_none_iff] at h
  refine hf.first hn (fun hfill => ?_) fun hfill => ?_
  · have := isSome_checkCache hfill q.only q.centerPos (q.range ≠ entry.range) q.range
    rw [h.1] at this
    exact nomatch this
  · have := isSome_checkCache hfill q.only q.centerPos true q.range
    rw [h.2] at this
    exact nomatch this

/-- A call that fits agrees with the search. -/
theorem agrees_of_sound {m : MapSectors} (hl : m.Linked) (hg : m.Registered) {cache : Cache} {q : Query}
    (hc : AllFresh m cache) (hs : Sound cache q) : Agrees m cache q := by
  have hfind : (find m cache { q with useCache := false }).1 = getSpectators m q.centerPos q.multifloor q.only q.range := rfl
  intro c
  rw [hfind]
  unfold find
  cases hu : q.useCache with
  | false => exact Iff.rfl
  | true =>
    simp only [Bool.not_true, Bool.false_eq_true, if_false]
    cases he : cache q.centerPos with
    | none => exact Iff.rfl
    | some entry =>
      have hf := hs hu entry he
      by_cases hx : q.range.exceeds entry.range = true
      · simp only [hx, if_true, (hf.grows hx).1]
        exact Iff.rfl
      · simp only [hx, Bool.false_eq_true, if_false]
        cases hl' : fromCache entry q q.range with
        | none => exact Iff.rfl
        | some l => exact mem_fromCache hl hg (hc _ _ he) hf hx hl' c

theorem AllFresh.put {m : MapSectors} {cache : Cache} (h : AllFresh m cache) {p : Position} {entry : SpectatorsCache}
    (he : Fresh m p entry) : AllFresh m (cache.put p entry) := by
  intro p' entry' he'
  unfold Cache.put at he'
  split at he'
  · rename_i hp
    rw [hp, ← Option.some.inj he']
    exact he
  · exact h p' entry' he'

/-- The filled list is what a search over the range finds, and so are the others if they were. -/
theorem AllFresh.search {m : MapSectors} {cache : Cache} (h : AllFresh m cache) (q : Query) {r : Range} (hb : r.Bounded)
    {entry : SpectatorsCache} (hr : entry.range = r) (hothers : ∀ only multifloor, (only, multifloor) ≠ (q.only, q.multifloor) →
      ∀ l, (entry.data only).list multifloor = some l → ∀ c, c ∈ l ↔ c ∈ getSpectators m q.centerPos multifloor only r) :
    AllFresh m (search m cache q r entry).2 := by
  refine h.put ⟨?_, fun only multifloor l hl => ?_⟩
  · rw [range_setList, hr]
    exact hb
  · rw [range_setList, hr]
    rw [list_setList] at hl
    split at hl
    · rename_i heq
      obtain ⟨rfl, rfl⟩ := Prod.mk.inj heq
      rw [← Option.some.inj hl]
      exact fun _ => Iff.rfl
    · exact hothers only multifloor ‹_› l hl

theorem AllFresh.step {m : MapSectors} {cache : Cache} (h : AllFresh m cache) {q : Query} (hs : Sound cache q) :
    AllFresh m (step m cache q) := by
  unfold Spectators.step find
  cases hu : q.useCache with
  | false => exact h
  | true =>
    simp only [Bool.not_true, Bool.false_eq_true, if_false]
    cases he : cache q.centerPos with
    | none =>
      refine h.search q (bounded_range q) rfl fun only multifloor _ l hl => ?_
      rcases only with _ | _ | _ | _ <;> cases multifloor <;> exact nomatch hl
    | some entry =>
      have hf := hs hu entry he
      by_cases hx : q.range.exceeds entry.range = true
      · obtain ⟨hm, hothers⟩ := hf.grows hx
        simp only [hx, if_true, hm]
        refine h.search q (bounded_range q) rfl fun only multifloor hne l hl => ?_
        rw [data_range, hothers only multifloor hne] at hl
        exact nomatch hl
      · simp only [hx, Bool.false_eq_true, if_false]
        cases hl' : fromCache entry q q.range with
        | none =>
          have hr := range_of_fromCache_none hf hx hl'
          refine h.search q (bounded_range q) hr.symm fun only multifloor _ l hl => ?_
          rw [hr]
          exact (h _ _ he).lists only multifloor l hl
        | some l => exact h

/-- In a run from the cleared cache whose calls all fit, every call agrees with the search. -/
theorem agrees_run {ops : List MapSectors.Op} {calls : List Query}
    (hm : Meets (step (run MapSectors.step .empty ops)) Sound clearCache calls) :
    ∀ xs q ys, calls = xs ++ q :: ys →
      Agrees (run MapSectors.step .empty ops) (run (step (run MapSectors.step .empty ops)) clearCache xs) q := by
  rintro xs q ys rfl
  have hfresh : AllFresh (run MapSectors.step .empty ops) (run (step (run MapSectors.step .empty ops)) clearCache xs) :=
    run_invariant (AllFresh _) (fun _ _ h hs => h.step hs) (fun _ _ h => nomatch h) hm.of_append
  exact agrees_of_sound (linked_run ops) (run_registered ops) hfresh hm.at

/-- A search for all creatures of the floors in view, the same again, and one for players near by. -/
theorem agrees_run_three :
    let center : Position := ⟨100, 100, 7⟩
    let m := run MapSectors.step .empty [.setTile 103 100 7, .placeCreature ⟨1, .player, ⟨103, 100, 7⟩⟩,
      .setTile 100 112 6, .placeCreature ⟨2, .monster, ⟨100, 112, 6⟩⟩]
    ∀ xs q ys, [⟨center, true, none, 0, 0, 0, 0, true⟩, ⟨center, true, none, 0, 0, 0, 0, true⟩,
        ⟨center, false, some .player, 5, 5, 5, 5, true⟩] = xs ++ q :: ys →
      Agrees m (run (step m) clearCache xs) q := by
  intro center m
  refine agrees_run ⟨fun _ _ h => (nomatch h), fun _ entry h => ?_, fun _ entry h => ?_, trivial⟩
  · obtain rfl := Option.some.inj h
    exact ⟨fun h => absurd h (by decide), fun _ _ => .inl rfl, fun _ h => (nomatch h), fun _ _ _ => rfl⟩
  · obtain rfl := Option.some.inj h
    exact ⟨fun h => absurd h (by decide), fun _ h => (nomatch h),
      fun _ _ _ => ⟨rfl, by decide, by decide⟩, fun _ _ h => absurd (.inr rfl) h⟩

/-- Two players' searches with one for monsters in between: the range of the entry has grown, its list of
    players has not. -/
theorem players_stay_narrow : ¬∀ (ops : List MapSectors.Op) (calls : List Query) xs q ys, calls = xs ++ q :: ys →
    Agrees (run MapSectors.step .empty ops) (run (step (run MapSectors.step .empty ops)) clearCache xs) q := by
  intro h
  have ha := h [.setTile 103 100 7, .placeCreature ⟨1, .player, ⟨103, 100, 7⟩⟩] _
    [⟨⟨100, 100, 7⟩, false, some .player, 1, 1, 1, 1, true⟩, ⟨⟨100, 100, 7⟩, false, some .monster, 5, 5, 5, 5, true⟩]
    ⟨⟨100, 100, 7⟩, false, some .player, 5, 5, 5, 5, true⟩ [] rfl ⟨1, .player, ⟨103, 100, 7⟩⟩
  exact absurd (ha.mpr (by decide)) (by decide)

end Spectators
end CrystalServer
