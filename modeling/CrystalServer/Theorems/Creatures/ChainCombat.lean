import CrystalServer.Creatures.Combat.ChainCombat
import CrystalServer.Theorems.Map.SpectatorsCache

/-! # The links of a chain

The picker keeps to the flags of its own parameters: what it picks is a legal chain, and without backtracking it is one path.
`doCombatChain` hands the two flags over in the order of the declaration, so the chain is legal for the flags exchanged. -/

namespace CrystalServer.ChainGame
open Lib Spectators

/-- A creature that is chosen, and the link from which it is. -/
structure Link where
  origin : Creature
  chosen : Creature

/-- On one floor, and not more than so many squares away. -/
def Near (chainDistance : UInt8) (p q : Position) : Prop :=
  q.z = p.z ∧ p.areInRange chainDistance.toNat chainDistance.toNat q

section
variable (game : ChainGame) (caster : Creature) (target : Option Creature) (chainDistance maxTargets : UInt8)

/-- The initial target, as the first link. -/
def opening : List Link := ((target.filter (· ≠ caster)).map (Link.mk caster)).toList

/-- Where the search begins. -/
def root : Creature := (target.filter (· ≠ caster)).getD caster

/-- The creature that is chosen last, if one is. -/
def arrived (links : List Link) : Creature := (links.map Link.chosen).getLastD (root caster target)

/-- A creature that may be chosen from a link: in reach of it, in clear sight, and open to the caster's attack. -/
structure Accepts (aggressive : Bool) (origin c : Creature) : Prop where
  onMap : game.sectors.Listed none c
  near : Near chainDistance origin.position c.position
  sight : game.map.isSightClear origin.position c.position true
  combat : game.canDoCombat caster c aggressive = .NOERROR

/-- A legal chain, for the maximum and the flags of the caller; `links` follow the opening. -/
structure Legal (aggressive backtracking : Bool) (links : List Link) : Prop where
  once : ((opening caster target ++ links).map (·.chosen.id)).Nodup
  spared : ∀ l ∈ opening caster target ++ links, l.chosen ≠ caster
  reached : ∀ xs l ys, links = xs ++ l :: ys → l.origin ∈ root caster target :: xs.map Link.chosen ∧
    Accepts game caster chainDistance aggressive l.origin l.chosen
  path : backtracking = false → ∀ xs l ys, links = xs ++ l :: ys → l.origin = arrived caster target xs
  stops : backtracking = false → ∀ xs ys, links = xs ++ ys →
    (∀ c, c ≠ caster → (∀ l ∈ opening caster target ++ xs, l.chosen.id ≠ c.id) →
      ¬Accepts game caster chainDistance aggressive (arrived caster target xs) c) → ys = []
  few : backtracking = false → (opening caster target ++ links).length ≤ maxTargets.toNat + 1

/-- The vector that the picker returns for some links. -/
def recordAll (links : List Link) : List (Position × List Nat) :=
  links.foldl (fun resultMap l => record resultMap l.origin.position l.chosen.id) []

/-- A search around any place finds only creatures of the map within the distance. -/
def Finds (cache : Cache) : Prop :=
  ∀ pos, ∀ c ∈ (find game.sectors cache (query chainDistance pos)).1,
    game.sectors.Listed none c ∧ Near chainDistance pos c.position

end

/-! ### The search around a link -/

section
variable {game : ChainGame} {chainDistance : UInt8} {cache : Cache}

/-- A list that is entered answers the same search from then on. -/
theorem find_search_subset (m : MapSectors) (cache : Cache) (q : Query) (hq : q.useCache = true) {range : Range}
    {entry : SpectatorsCache} (hr : ¬q.range.exceeds entry.range) (honly : q.only = none) (hfloor : q.multifloor = false) :
    ∀ c ∈ (find m (search m cache q range entry).2 q).1, c ∈ (search m cache q range entry).1 := by
  intro c hc
  have hput : (search m cache q range entry).2 q.centerPos =
      some (entry.setList false (search m cache q range entry).1 none) := by
    simp [search, Cache.put, honly, hfloor]
  have hnot : q.range.exceeds (entry.setList false (search m cache q range entry).1 none).range = false := by
    simpa [SpectatorsCache.setList] using hr
  simp only [find, hq, Bool.not_true, Bool.false_eq_true, if_false, hput, hnot] at hc
  simp only [fromCache, honly, hfloor, checkCache, SpectatorsCache.setList, FloorData.setList, Bool.false_or, Bool.false_eq_true,
    if_false, Option.isNone_some, Option.map_some, Bool.not_false, Bool.true_and, Bool.or_false] at hc
  split at hc
  · exact (List.mem_filter.mp hc).1
  · exact hc

theorem not_exceeds_merge (r r' : Range) : ¬r.exceeds (r.merge r') := by
  simp [Range.exceeds, Range.merge]

theorem not_exceeds_empty (r : Range) : ¬r.exceeds (SpectatorsCache.empty r).range := by
  simp [Range.exceeds, SpectatorsCache.empty]

/-- A search through the cache leaves it as it is, or enters the list that it finds. -/
theorem find_cases (m : MapSectors) (cache : Cache) (q : Query) (hq : q.useCache = true) :
    (find m cache q).2 = cache ∨
      ∃ range entry, ¬q.range.exceeds entry.range ∧ find m cache q = search m cache q range entry := by
  unfold find
  simp only [hq, Bool.not_true, Bool.false_eq_true, if_false]
  split
  · rename_i entry _
    split
    · exact .inr ⟨_, _, not_exceeds_merge _ _, rfl⟩
    · rename_i hr
      split
      · exact .inl rfl
      · exact .inr ⟨_, _, hr, rfl⟩
  · exact .inr ⟨q.range, .empty q.range, not_exceeds_empty q.range, rfl⟩

/-- The same search again finds nothing else. -/
theorem find_again (m : MapSectors) (cache : Cache) (q : Query) (hq : q.useCache = true) (honly : q.only = none)
    (hfloor : q.multifloor = false) : ∀ c ∈ (find m (find m cache q).2 q).1, c ∈ (find m cache q).1 := by
  intro c hc
  rcases find_cases m cache q hq with h | ⟨range, entry, hr, h⟩
  · rwa [h] at hc
  · rw [h] at hc ⊢
    exact find_search_subset m cache q hq hr honly hfloor c hc

/-- A search around another place reads another entry. -/
theorem find_elsewhere (m : MapSectors) (cache : Cache) {q q' : Query} (hne : q'.centerPos ≠ q.centerPos) :
    (find m (find m cache q).2 q').1 = (find m cache q').1 := by
  have hsame : (find m cache q).2 q'.centerPos = cache q'.centerPos := by
    cases hq : q.useCache with
    | false => simp [find, hq]
    | true =>
      rcases find_cases m cache q hq with h | ⟨range, entry, -, h⟩
      · rw [h]
      · simp [h, search, Cache.put, hne]
  unfold find at hsame ⊢
  rw [hsame]
  cases q'.useCache <;> simp only [Bool.not_true, Bool.not_false, Bool.false_eq_true, if_false, if_true]
  split
  · split
    · rfl
    · split <;> rfl
  · rfl

/-- What the searches find stays within the distance while the picker goes on. -/
theorem Finds.find (h : Finds game chainDistance cache) (pos : Position) :
    Finds game chainDistance (Spectators.find game.sectors cache (query chainDistance pos)).2 := by
  intro pos' c hc
  by_cases hpos : pos' = pos
  · subst hpos
    exact h pos' c (find_again _ _ _ rfl rfl rfl c hc)
  · rw [find_elsewhere _ _ hpos] at hc
    exact h pos' c hc

end

/-! ### A round -/

section
variable {game : ChainGame} {caster : Creature} {target : Option Creature} {chainDistance maxTargets : UInt8}
  {backtracking aggressive : Bool} {links : List Link} {s t : ChainSearch}

/-- What the closest spectator of a loop is. -/
structure Candidate (game : ChainGame) (caster currentTarget : Creature) (aggressive : Bool) (visited : List Nat)
    (c : Creature) : Prop where
  fresh : c.id ∉ visited
  left : game.leavesOut caster c = false
  valid : game.isValidChainTarget caster currentTarget c aggressive

theorem Candidate.ne_caster {cur c : Creature} {visited : List Nat} (h : Candidate game caster cur aggressive visited c) :
    c ≠ caster := by
  rintro rfl
  have hleft := h.left
  simp [leavesOut] at hleft

theorem Candidate.anti {cur c : Creature} {visited visited' : List Nat} (hsub : visited ⊆ visited')
    (h : Candidate game caster cur aggressive visited' c) : Candidate game caster cur aggressive visited c :=
  ⟨fun hc => h.fresh (hsub hc), h.left, h.valid⟩

variable (game caster aggressive) in
theorem visited_consider (cur : Creature) (look : Look) (spectator : Creature) :
    look.visited ⊆ (game.consider caster cur aggressive look spectator).visited := by
  simp only [consider]
  split_ifs
  · exact List.Subset.refl _
  · exact List.subset_cons_self _ _
  · exact List.Subset.refl _
  · exact List.Subset.refl _

theorem closest_consider {cur c : Creature} {look : Look} {spectator : Creature} {distance : Nat}
    (h : (game.consider caster cur aggressive look spectator).closest = some (c, distance)) :
    look.closest = some (c, distance) ∨ c = spectator ∧ Candidate game caster cur aggressive look.visited c := by
  simp only [consider] at h
  split_ifs at h with hv ho
  · exact .inl h
  · exact .inl h
  · obtain ⟨rfl, -⟩ := Prod.mk.inj (Option.some.inj h)
    simp only [Bool.or_eq_true, Bool.not_eq_true', not_or, Bool.not_eq_true, Bool.not_eq_false] at ho
    exact .inr ⟨rfl, hv, ho.1, ho.2⟩
  · exact .inl h

variable (game caster aggressive) in
/-- The loop over the spectators: who was visited stays so, and the closest is a spectator that is a candidate. -/
theorem foldl_consider (cur : Creature) (spectators : List Creature) (look : Look) :
    look.visited ⊆ (spectators.foldl (game.consider caster cur aggressive) look).visited ∧
      ∀ c distance, (spectators.foldl (game.consider caster cur aggressive) look).closest = some (c, distance) →
        look.closest = some (c, distance) ∨ c ∈ spectators ∧ Candidate game caster cur aggressive look.visited c := by
  induction spectators generalizing look with
  | nil => exact ⟨List.Subset.refl _, fun c distance h => .inl h⟩
  | cons spectator spectators ih =>
    obtain ⟨hsub, hclosest⟩ := ih (game.consider caster cur aggressive look spectator)
    have hsub' := visited_consider game caster aggressive cur look spectator
    refine ⟨List.Subset.trans hsub' hsub, fun c distance h => ?_⟩
    rcases hclosest c distance h with h | ⟨hc, h⟩
    · rcases closest_consider h with h | ⟨hc, h⟩
      · exact .inl h
      · exact .inr ⟨hc ▸ List.mem_cons_self, h⟩
    · exact .inr ⟨List.mem_cons_of_mem _ hc, h.anti hsub'⟩

/-- A round that goes on chooses a candidate among the spectators of the last link, or goes back from it. -/
theorem pickRound_cases (h : game.pickRound caster chainDistance maxTargets backtracking aggressive s = .inl t) :
    ∃ cur earlier, s.targets = cur :: earlier ∧ s.targets.length ≤ maxTargets.toNat ∧ 0 < s.backtrackingAttempts ∧
      t.cache = (find game.sectors s.cache (query chainDistance cur.position)).2 ∧ s.visited ⊆ t.visited ∧
      ((∃ c ∈ (find game.sectors s.cache (query chainDistance cur.position)).1,
          Candidate game caster cur aggressive s.visited c ∧ c.id ∈ t.visited ∧ t.targets = c :: s.targets ∧
          t.resultMap = record s.resultMap cur.position c.id ∧ t.backtrackingAttempts = s.backtrackingAttempts) ∨
        backtracking = true ∧ t.targets = earlier ∧ t.resultMap = s.resultMap ∧
          t.backtrackingAttempts = s.backtrackingAttempts - 1) := by
  unfold pickRound at h
  split at h
  · cases h
  rename_i cur earlier hstack
  split at h
  · rename_i hgo
    obtain ⟨hsub, hclosest⟩ := foldl_consider game caster aggressive cur
      (find game.sectors s.cache (query chainDistance cur.position)).1 ⟨s.visited, none⟩
    refine ⟨cur, earlier, hstack, hgo.1, hgo.2, ?_⟩
    simp only at h
    split at h
    · rename_i c distance hc
      cases h
      rcases hclosest c distance hc with hnone | ⟨hmem, hcand⟩
      · cases hnone
      · exact ⟨rfl, List.subset_cons_of_subset _ hsub, .inl ⟨c, hmem, hcand, List.mem_cons_self, rfl, rfl, rfl⟩⟩
    · split at h
      · rename_i hback
        cases h
        exact ⟨rfl, hsub, .inr ⟨hback, rfl, rfl, rfl⟩⟩
      · cases h
  · cases h

/-- A round that leaves the loop keeps what was picked. -/
theorem pickRound_leaves (h : game.pickRound caster chainDistance maxTargets backtracking aggressive s = .inr t) :
    t.resultMap = s.resultMap := by
  unfold pickRound at h
  split at h
  · cases h
    rfl
  split at h
  · simp only at h
    split at h
    · cases h
    · split at h
      · cases h
      · cases h
        rfl
  · cases h
    rfl

/-- The rounds that are left: ten times back, and forward to the maximum. -/
theorem rounds_lower (h : game.pickRound caster chainDistance maxTargets backtracking aggressive s = .inl t) :
    2 * t.backtrackingAttempts + (maxTargets.toNat + 1 - t.targets.length) <
      2 * s.backtrackingAttempts + (maxTargets.toNat + 1 - s.targets.length) := by
  obtain ⟨cur, earlier, hstack, hlen, hpos, -, -, hcase⟩ := pickRound_cases h
  rcases hcase with ⟨c, -, -, -, ht, -, ha⟩ | ⟨-, ht, -, ha⟩
  · rw [ht, ha, List.length_cons]
    omega
  · rw [ht, ha]
    rw [hstack, List.length_cons] at hlen ⊢
    omega

variable (game caster chainDistance maxTargets backtracking aggressive) in
/-- The search terminates. -/
theorem pickChainTargets_terminates (initialTarget : Option Creature) (cache : Cache) : ∃ rounds r,
    game.pickChainTargets rounds caster chainDistance maxTargets backtracking aggressive initialTarget cache = some r :=
  loop_leaves (fun _ => True) Nat.lt_wfRel.wf
    (fun s => 2 * s.backtrackingAttempts + ((adjustMaximum caster initialTarget maxTargets).toNat + 1 - s.targets.length))
    (fun _ _ _ _ => trivial) (fun _ _ _ h => rounds_lower h) trivial

/-! ### The chain -/

/-- A spectator that is a candidate may be chosen. -/
theorem Candidate.accepts (hf : Finds game chainDistance s.cache) {cur c : Creature} {visited : List Nat}
    (hc : c ∈ (find game.sectors s.cache (query chainDistance cur.position)).1)
    (h : Candidate game caster cur aggressive visited c) : Accepts game caster chainDistance aggressive cur c := by
  obtain ⟨hmap, hnear⟩ := hf cur.position c hc
  have hvalid := h.valid
  simp only [isValidChainTarget, decide_eq_true_eq] at hvalid
  exact ⟨hmap, hnear, hvalid.2.2, hvalid.1⟩

theorem arrived_concat (xs : List Link) (l : Link) : arrived caster target (xs ++ [l]) = l.chosen := by
  simp [arrived]

/-- Where each link starts from the one before, the chain ends at a creature that has nobody to go on to. -/
theorem stops_of_path
    (hspared : ∀ l ∈ opening caster target ++ links, l.chosen ≠ caster)
    (honce : ((opening caster target ++ links).map (·.chosen.id)).Nodup)
    (hreached : ∀ xs l ys, links = xs ++ l :: ys → l.origin ∈ root caster target :: xs.map Link.chosen ∧
      Accepts game caster chainDistance aggressive l.origin l.chosen)
    (hpath : ∀ xs l ys, links = xs ++ l :: ys → l.origin = arrived caster target xs) (xs ys : List Link)
    (hlinks : links = xs ++ ys)
    (hnone : ∀ c, c ≠ caster → (∀ l ∈ opening caster target ++ xs, l.chosen.id ≠ c.id) →
      ¬Accepts game caster chainDistance aggressive (arrived caster target xs) c) : ys = [] := by
  cases ys with
  | nil => rfl
  | cons l ys =>
    have haccepts := (hreached xs l ys hlinks).2
    rw [hpath xs l ys hlinks] at haccepts
    refine absurd haccepts (hnone l.chosen (hspared l (by simp [hlinks])) fun l' hl' heq => ?_)
    rw [hlinks, ← List.append_assoc, List.map_append, List.map_cons] at honce
    exact (List.nodup_append.mp honce).2.2 _ (List.mem_map_of_mem hl') _ List.mem_cons_self heq

/-- One more link keeps a chain legal. -/
theorem Legal.concat (h : Legal game caster target chainDistance maxTargets aggressive backtracking links) {l : Link}
    (hfresh : ∀ l' ∈ opening caster target ++ links, l'.chosen.id ≠ l.chosen.id) (hne : l.chosen ≠ caster)
    (horigin : l.origin ∈ root caster target :: links.map Link.chosen)
    (haccepts : Accepts game caster chainDistance aggressive l.origin l.chosen)
    (hpath : backtracking = false → l.origin = arrived caster target links ∧
      (opening caster target ++ links).length ≤ maxTargets.toNat) :
    Legal game caster target chainDistance maxTargets aggressive backtracking (links ++ [l]) := by
  have honce : ((opening caster target ++ (links ++ [l])).map (·.chosen.id)).Nodup := by
    rw [← List.append_assoc, List.map_append]
    refine List.nodup_append.mpr ⟨h.once, List.nodup_singleton _, ?_⟩
    rintro _ hid _ hl rfl
    obtain ⟨l', hl', hid⟩ := List.mem_map.mp hid
    exact hfresh l' hl' (hid.trans (List.mem_singleton.mp hl))
  have hspared : ∀ l' ∈ opening caster target ++ (links ++ [l]), l'.chosen ≠ caster := by
    intro l' hl'
    rw [← List.append_assoc, List.mem_append, List.mem_singleton] at hl'
    rcases hl' with hl' | rfl
    · exact h.spared l' hl'
    · exact hne
  have hreached := splits_concat h.reached ⟨horigin, haccepts⟩
  have hpath' := fun hb => splits_concat (h.path hb) (hpath hb).1
  refine ⟨honce, hspared, hreached, hpath', fun hb => stops_of_path hspared honce hreached (hpath' hb), fun hb => ?_⟩
  have := (hpath hb).2
  rw [← List.append_assoc, List.length_append, List.length_singleton]
  omega

/-- What holds at the head of each round, of the links picked so far. -/
structure Picked (game : ChainGame) (caster : Creature) (target : Option Creature) (chainDistance maxTargets : UInt8)
    (backtracking aggressive : Bool) (s : ChainSearch) (links : List Link) : Prop where
  map : s.resultMap = recordAll (opening caster target ++ links)
  visited : ∀ l ∈ opening caster target ++ links, l.chosen.id ∈ s.visited
  stack : s.targets ⊆ root caster target :: links.map Link.chosen
  whole : backtracking = false → s.targets = (root caster target :: links.map Link.chosen).reverse
  finds : Finds game chainDistance s.cache
  legal : Legal game caster target chainDistance maxTargets aggressive backtracking links

theorem opening_some {c : Creature} (h : target.filter (· ≠ caster) = some c) : opening caster target = [⟨caster, c⟩] := by
  rw [opening, h, Option.map_some, Option.toList_some]

theorem opening_none (h : target.filter (· ≠ caster) = none) : opening caster target = [] := by
  rw [opening, h, Option.map_none, Option.toList_none]

/-- No link, or the opening alone, is legal. -/
theorem legal_nil : Legal game caster target chainDistance maxTargets aggressive backtracking [] := by
  have hsplit : ∀ (xs : List Link) (l : Link) ys, [] ≠ xs ++ l :: ys := by simp
  refine ⟨?_, ?_, fun xs l ys hs => absurd hs (hsplit xs l ys), fun _ xs l ys hs => absurd hs (hsplit xs l ys),
    fun _ xs ys hs _ => (List.append_eq_nil_iff.mp hs.symm).2, fun _ => ?_⟩ <;> rw [List.append_nil] <;>
    cases hopen : target.filter (· ≠ caster)
  · simp [opening_none hopen]
  · simp [opening_some hopen]
  · simp [opening_none hopen]
  · simpa [opening_some hopen] using (Option.filter_eq_some_iff.mp hopen).2
  · simp [opening_none hopen]
  · simp [opening_some hopen]

theorem picked_start {cache : Cache} (hf : Finds game chainDistance cache) :
    Picked game caster target chainDistance maxTargets backtracking aggressive (startSearch caster target cache) [] := by
  cases hopen : target.filter (· ≠ caster) with
  | none =>
    have hstart : startSearch caster target cache = ⟨[caster], [], [], 10, cache⟩ := by simp only [startSearch, hopen]
    have hroot : root caster target = caster := by rw [root, hopen, Option.getD_none]
    rw [hstart]
    refine ⟨?_, ?_, ?_, fun _ => ?_, hf, legal_nil⟩
    · simp [opening_none hopen, recordAll]
    · simp [opening_none hopen]
    · simp [hroot]
    · simp [hroot]
  | some c =>
    have hstart : startSearch caster target cache = ⟨[c], [c.id], [(caster.position, [c.id])], 10, cache⟩ := by
      simp only [startSearch, hopen]
    have hroot : root caster target = c := by rw [root, hopen, Option.getD_some]
    rw [hstart]
    refine ⟨?_, ?_, ?_, fun _ => ?_, hf, legal_nil⟩
    · simp [opening_some hopen, recordAll, record]
    · simp [opening_some hopen]
    · simp [hroot]
    · simp [hroot]

/-- The last link is where the search without backtracking goes on from. -/
theorem arrived_of_reverse {cur : Creature} {earlier : List Creature}
    (h : cur :: earlier = (root caster target :: links.map Link.chosen).reverse) : cur = arrived caster target links := by
  rcases List.eq_nil_or_concat links with rfl | ⟨xs, l, rfl⟩
  · exact (List.cons.inj h).1
  · rw [List.concat_eq_append] at h ⊢
    rw [arrived_concat]
    simp only [List.map_append, List.map_cons, List.map_nil, List.reverse_cons, List.reverse_append] at h
    exact (List.cons.inj h).1

/-- A stack within the adjusted maximum leaves room for one more choice. -/
theorem room_of_length (h : (links.map Link.chosen).length + 1 ≤ (adjustMaximum caster target maxTargets).toNat) :
    (opening caster target ++ links).length ≤ maxTargets.toNat := by
  rw [List.length_map] at h
  cases hopen : target.filter (· ≠ caster) with
  | none =>
    simp only [adjustMaximum, hopen, Option.isSome_none, Bool.false_eq_true, if_false, UInt8.toNat_add] at h
    have := maxTargets.toNat_lt
    rw [opening_none hopen, List.nil_append]
    have : (1 : UInt8).toNat = 1 := rfl
    omega
  | some c =>
    simp only [adjustMaximum, hopen, Option.isSome_some, if_true] at h
    rw [opening_some hopen, List.length_append, List.length_singleton]
    omega

/-- A round that goes on from the last link adds one. -/
theorem Picked.forward (h : Picked game caster target chainDistance maxTargets backtracking aggressive s links)
    {cur c : Creature} {earlier : List Creature} (hstack : s.targets = cur :: earlier)
    (hlen : s.targets.length ≤ (adjustMaximum caster target maxTargets).toNat) (hfinds : Finds game chainDistance t.cache)
    (hc : c ∈ (find game.sectors s.cache (query chainDistance cur.position)).1)
    (hcand : Candidate game caster cur aggressive s.visited c) (hsub : s.visited ⊆ t.visited) (hid : c.id ∈ t.visited)
    (ht : t.targets = c :: s.targets) (hm : t.resultMap = record s.resultMap cur.position c.id) :
    Picked game caster target chainDistance maxTargets backtracking aggressive t (links ++ [⟨cur, c⟩]) := by
  have hcur : cur ∈ root caster target :: links.map Link.chosen := h.stack (hstack ▸ List.mem_cons_self)
  have hmap : t.resultMap = recordAll (opening caster target ++ (links ++ [⟨cur, c⟩])) := by
    rw [hm, h.map, ← List.append_assoc, recordAll, recordAll, List.foldl_concat]
  have hvisited : ∀ l ∈ opening caster target ++ (links ++ [⟨cur, c⟩]), l.chosen.id ∈ t.visited := by
    intro l hl
    rw [← List.append_assoc, List.mem_append, List.mem_singleton] at hl
    rcases hl with hl | rfl
    · exact hsub (h.visited l hl)
    · exact hid
  have hstack' : t.targets ⊆ root caster target :: (links ++ [Link.mk cur c]).map Link.chosen := by
    rw [ht, List.map_append, ← List.cons_append]
    exact List.cons_subset.mpr ⟨List.mem_append_right _ List.mem_cons_self,
      List.Subset.trans h.stack (List.subset_append_left _ _)⟩
  have hwhole : backtracking = false →
      t.targets = (root caster target :: (links ++ [Link.mk cur c]).map Link.chosen).reverse := by
    intro hb
    rw [ht, h.whole hb]
    simp
  have hpath : backtracking = false → cur = arrived caster target links ∧
      (opening caster target ++ links).length ≤ maxTargets.toNat := by
    intro hb
    rw [h.whole hb, List.length_reverse, List.length_cons] at hlen
    exact ⟨arrived_of_reverse (hstack ▸ h.whole hb), room_of_length hlen⟩
  exact ⟨hmap, hvisited, hstack', hwhole, hfinds,
    h.legal.concat (fun l hl heq => hcand.fresh (heq ▸ h.visited l hl)) hcand.ne_caster hcur (hcand.accepts h.finds hc) hpath⟩

/-- A round keeps the chain legal, whether it goes on or back. -/
theorem Picked.round (h : Picked game caster target chainDistance maxTargets backtracking aggressive s links)
    (hround : game.pickRound caster chainDistance (adjustMaximum caster target maxTargets) backtracking aggressive s = .inl t) :
    ∃ links', Picked game caster target chainDistance maxTargets backtracking aggressive t links' := by
  obtain ⟨cur, earlier, hstack, hlen, -, hcache, hsub, hcase⟩ := pickRound_cases hround
  have hfinds : Finds game chainDistance t.cache := by
    rw [hcache]
    exact h.finds.find cur.position
  rcases hcase with ⟨c, hc, hcand, hid, ht, hm, -⟩ | ⟨hback, ht, hm, -⟩
  · exact ⟨_, h.forward hstack hlen hfinds hc hcand hsub hid ht hm⟩
  · have hearlier : t.targets ⊆ root caster target :: links.map Link.chosen := by
      rw [ht]
      exact (List.cons_subset.mp (hstack ▸ h.stack)).2
    refine ⟨links, hm.trans h.map, fun l hl => hsub (h.visited l hl), hearlier, fun hb => ?_, hfinds, h.legal⟩
    rw [hback] at hb
    cases hb

/-- The picker picks a legal chain for the flags of its definition. -/
theorem pickChainTargets_legal (hf : Finds game chainDistance cache) {rounds : Nat} {r : ChainSearch}
    (h : game.pickChainTargets rounds caster chainDistance maxTargets backtracking aggressive target cache = some r) :
    ∃ links, r.resultMap = recordAll (opening caster target ++ links) ∧
      Legal game caster target chainDistance maxTargets aggressive backtracking links := by
  obtain ⟨t, ht, hleave⟩ := reaches_of_loop h
  have hinv : ∃ links, Picked game caster target chainDistance maxTargets backtracking aggressive t links := by
    clear hleave
    induction ht with
    | refl => exact ⟨[], picked_start hf⟩
    | tail _ hround ih =>
      obtain ⟨links, hlinks⟩ := ih
      exact hlinks.round hround
  obtain ⟨links, hlinks⟩ := hinv
  exact ⟨links, (pickRound_leaves hleave).trans hlinks.map, hlinks.legal⟩

/-- A creature that may be attacked aggressively may be attacked. -/
theorem Accepts.mono {aggressive' : Bool} (hag : aggressive = true → aggressive' = true) {origin c : Creature}
    (h : Accepts game caster chainDistance aggressive' origin c) : Accepts game caster chainDistance aggressive origin c := by
  refine ⟨h.onMap, h.near, h.sight, ?_⟩
  cases aggressive with
  | false => rfl
  | true => exact hag rfl ▸ h.combat

/-- A chain that is legal for stricter flags is legal. -/
theorem Legal.mono {aggressive' backtracking' : Bool} (hag : aggressive = true → aggressive' = true)
    (hback : backtracking = false → backtracking' = false)
    (h : Legal game caster target chainDistance maxTargets aggressive' backtracking' links) :
    Legal game caster target chainDistance maxTargets aggressive backtracking links where
  once := h.once
  spared := h.spared
  reached xs l ys hl := ⟨(h.reached xs l ys hl).1, (h.reached xs l ys hl).2.mono hag⟩
  path hb := h.path (hback hb)
  stops hb xs ys hl hnone := h.stops (hback hb) xs ys hl fun c hne hfresh hacc => hnone c hne hfresh (hacc.mono hag)
  few hb := h.few (hback hb)

end

/-! ### The spectators of a map -/

section
variable {game : ChainGame} {chainDistance : UInt8} {cache : Cache}

theorem query_range (hd : chainDistance ≠ 0) (pos : Position) :
    (query chainDistance pos).range = ⟨-chainDistance.toNat, chainDistance.toNat, -chainDistance.toNat, chainDistance.toNat⟩ := by
  have hlt := chainDistance.toNat_lt
  have hpos : chainDistance.toNat ≠ 0 := fun h => hd (UInt8.toNat_inj.mp h)
  have hint : (Int32.ofNat chainDistance.toNat).toInt = chainDistance.toNat := Int32.toInt_ofNat_of_lt (by omega)
  have hne : Int32.ofNat chainDistance.toNat ≠ 0 := by
    intro h
    rw [h] at hint
    exact hpos (by simpa using hint.symm)
  simp [Query.range, query, hne, hint]

/-- A cache that answers as a search does keeps the picker within a distance that is not 0. -/
theorem finds_of_agrees (hl : game.sectors.Linked) (hg : game.sectors.Registered) (hd : chainDistance ≠ 0)
    (h : ∀ pos, Agrees game.sectors cache (query chainDistance pos)) : Finds game chainDistance cache := by
  intro pos c hc
  have hc' := (h pos c).mp hc
  change c ∈ getSpectators game.sectors pos false none (query chainDistance pos).range at hc'
  have hz := floor_of_mem_getSpectators hl hg hc'
  rw [query_range hd, mem_getSpectators_floor hl hg ?_ ?_ _ _ hz] at hc'
  · obtain ⟨hlisted, hx, hy⟩ := hc'
    dsimp only at hx hy
    refine ⟨hlisted, hz, decide_eq_true ⟨?_, ?_⟩⟩
    · unfold Position.getDistanceX Position.getOffsetX
      omega
    · unfold Position.getDistanceY Position.getOffsetY
      omega
  · rw [← query_range hd pos]
    exact bounded_range _
  · constructor <;> dsimp only <;> omega

/-- So it is on every map from the cleared cache on. -/
theorem finds_clearCache (hl : game.sectors.Linked) (hg : game.sectors.Registered) (hd : chainDistance ≠ 0) :
    Finds game chainDistance clearCache :=
  finds_of_agrees hl hg hd fun _ _ => Iff.rfl

end

/-! ### The call -/

/-- What `doCombatChain` promises: a search that ends, with a legal chain. -/
def PicksLegally (game : ChainGame) (caster : Creature) (target : Option Creature) (aggressive : Bool)
    (maxTargets chainDistance : UInt8) (backtracking : Bool) (cache : Cache) : Prop :=
  ∃ rounds r links, game.chainTargets rounds caster target aggressive maxTargets chainDistance backtracking cache = some r ∧
    r.resultMap = recordAll (opening caster target ++ links) ∧
    Legal game caster target chainDistance maxTargets aggressive backtracking links

/-- Where no flag is lost in the exchange, the chain is legal. -/
theorem picksLegally_of_flags {game : ChainGame} {chainDistance : UInt8} {cache : Cache} (hf : Finds game chainDistance cache)
    (caster : Creature) (target : Option Creature) (maxTargets : UInt8) {aggressive backtracking : Bool}
    (hflags : aggressive = true → backtracking = true) :
    PicksLegally game caster target aggressive maxTargets chainDistance backtracking cache := by
  obtain ⟨rounds, r, hr⟩ := pickChainTargets_terminates game caster chainDistance maxTargets aggressive backtracking target cache
  obtain ⟨links, hmap, hlegal⟩ := pickChainTargets_legal hf hr
  refine ⟨rounds, r, links, hr, hmap, hlegal.mono hflags fun hb => ?_⟩
  cases aggressive with
  | false => rfl
  | true => rw [hflags rfl] at hb; cases hb

/-- A player whose group may not attack monsters, and a rat beside him. -/
def guest : Creature := ⟨1, .player, ⟨100, 100, 7⟩⟩
def rat : Creature := ⟨2, .monster, ⟨101, 100, 7⟩⟩

def peaceful : ChainGame where
  sectors := run MapSectors.step .empty
    [.setTile 100 100 7, .placeCreature guest, .setTile 101 100 7, .placeCreature rat]
  map := ⟨fun _ _ _ => none⟩
  zone _ _ := false
  worldType := .OPEN
  PROTECTION_LEVEL := 1
  player _ := ⟨100, 1, true, .NONE, false, fun flag => flag ≠ .CannotBeAttacked, false⟩
  getMaster _ := none
  getFaction _ := .DEFAULT
  isEnemyFaction _ _ := false
  getSkullClient _ _ := .NONE
  onTargetCombat _ _ := .NOERROR
  chainPickerCallback := none

/-- The guest may not attack anybody aggressively. -/
theorem canDoCombat_guest (c : Creature) : peaceful.canDoCombat guest c true ≠ .NOERROR := by
  obtain ⟨id, kind, pos⟩ := c
  cases kind <;> simp [canDoCombat, peaceful, guest, Creature.isPlayer, Creature.isMonster, Map.getTile, againstPlayer,
    againstMonster, againstOptional, playerAgainstPlayer, playerMaster]

/-- The chain that the guest is given: the call takes his rat for a target that is not attacked. -/
theorem chainTargets_guest : ∃ r, peaceful.chainTargets 23 guest none true 1 1 false clearCache = some r ∧
    r.resultMap = [(guest.position, [2])] := ⟨_, rfl, by decide⟩

/-- The guest may attack nobody, so the chain is not legal for the aggressive spell that asked for it. -/
theorem not_picksLegally_guest : ¬PicksLegally peaceful guest none true 1 1 false clearCache := by
  rintro ⟨rounds, r, links, hr, hmap, hlegal⟩
  obtain ⟨r', hr', hmap'⟩ := chainTargets_guest
  have hsame : r = r' := by
    have h := loop_mono hr (Nat.le_max_left rounds 23)
    have h' := loop_mono hr' (Nat.le_max_right rounds 23)
    exact Option.some.inj (h.symm.trans h')
  cases links with
  | nil =>
    rw [hsame, hmap'] at hmap
    cases hmap
  | cons l links => exact canDoCombat_guest l.chosen (hlegal.reached [] l links rfl).2.combat

end CrystalServer.ChainGame
