import CrystalServer.Creatures.WheelGems
import CrystalServer.Lib.Keyed
import CrystalServer.Lib.Run

/-! # Wheel gems: the active ones are owned

The revealed gems stay sorted by distinct uuids, and a relog brings them back. The active gems are copies, and stay equal
to what they copy unless the gem that was copied is destroyed, turned to another affinity, or (un)locked. -/

namespace CrystalServer.WheelGems
open Lib

/-- Every active gem is one of the revealed gems, with the affinity of its slot. -/
def ActiveOwned (s : State) : Prop :=
  ∀ affinity gem, s.m_activeGems affinity = some gem → gem ∈ s.m_revealedGems ∧ gem.affinity = affinity

/-- A wheel whose active gems are owned, which a relog restores, and of which only `revealGem` and `destroyGem` change
    which gems there are. -/
structure Owned (s : State) : Prop where
  nodup : (s.m_revealedGems.map (·.uuid)).Nodup
  active : ActiveOwned s
  revealed_relog : (relog s).m_revealedGems = s.m_revealedGems
  active_relog : (relog s).m_activeGems = s.m_activeGems
  grows : ∀ op gem, gem ∈ (step s op).m_revealedGems →
    gem.uuid ∈ s.m_revealedGems.map (·.uuid) ∨ ∃ new paid, op = .revealGem new paid ∧ gem.uuid = new.uuid
  shrinks : ∀ op gem, gem ∈ s.m_revealedGems →
    gem.uuid ∈ (step s op).m_revealedGems.map (·.uuid) ∨ gem.locked = false ∧ ∃ index received, op = .destroyGem index received

/-- A gem that is revealed has a uuid of its own. -/
def Fresh (s : State) : Op → Prop
  | .revealGem gem _ => gem.uuid ∉ s.m_revealedGems.map (·.uuid)
  | _ => True

def Inactive (s : State) (gem : PlayerWheelGem) : Prop := ∀ affinity, s.m_activeGems affinity ≠ some gem

/-- A gem that is destroyed, turned or (un)locked is not active. -/
def Loose (s : State) : Op → Prop
  | .destroyGem index received => ∀ gem, getGem s index = some gem → gem.locked = false → received = true → Inactive s gem
  | .switchGemDomain index paid => ∀ gem, getGem s index = some gem → gem.locked = false → paid = true → Inactive s gem
  | .toggleGemLock index => ∀ gem, getGem s index = some gem → Inactive s gem
  | _ => True

/-- The gems are sorted by their uuids, and what is stored is still there or was destroyed. -/
structure Sorted (s : State) : Prop where
  sorted : (s.m_revealedGems.map (·.uuid.text)).Pairwise (· < ·)
  kept : ∀ uuid ∈ s.kv.revealed.keys, uuid ∈ s.m_revealedGems.map (·.uuid) ∨ uuid ∈ s.m_destroyedGems.map (·.uuid)

variable {s : State} {gem new : PlayerWheelGem} {index : Nat} {op : Op} {uuid : Uuid}

/-! ### The order -/

theorem less_eq (a b : Uuid) : less a b = decide (a.text < b.text) := by
  have : a.text.all Char.isDigit = false := by
    rw [List.all_eq_false]
    exact ⟨'-', a.dash, by decide⟩
  rw [less, this]
  rfl

theorem text_inj {a b : Uuid} (h : a.text = b.text) : a = b := by
  cases a
  cases b
  cases h
  rfl

/-- What is sorted by distinct uuids is sorted strictly. -/
theorem sortBy_sorted {α : Type} (uuid : α → Uuid) {l : List α} (hl : (l.map uuid).Nodup) :
    ((sortBy uuid l).map fun a => (uuid a).text).Pairwise (· < ·) := by
  have hrel (a b : α) : less (uuid b) (uuid a) = false ↔ (uuid a).text ≤ (uuid b).text := by
    rw [less_eq, decide_eq_false_iff_not, not_lt]
  have : Std.Total fun a b : α => less (uuid b) (uuid a) = false :=
    ⟨fun a b => by rw [hrel, hrel]; exact le_total _ _⟩
  have : IsTrans α fun a b => less (uuid b) (uuid a) = false :=
    ⟨fun a b c => by simp only [hrel]; exact le_trans⟩
  have hle := List.pairwise_insertionSort (fun a b : α => less (uuid b) (uuid a) = false) l
  have hnodup : ((sortBy uuid l).map uuid).Nodup := ((List.perm_insertionSort _ l).map uuid).nodup_iff.mpr hl
  rw [List.pairwise_map]
  refine (hle.and (List.pairwise_map.mp hnodup)).imp fun {a b} hab => ?_
  exact lt_of_le_of_ne ((hrel a b).mp hab.1) fun heq => hab.2 (text_inj heq)

theorem mem_sortBy {α : Type} {uuid : α → Uuid} {l : List α} {a : α} : a ∈ sortBy uuid l ↔ a ∈ l :=
  List.mem_insertionSort _

theorem Sorted.nodup (h : Sorted s) : (s.m_revealedGems.map (·.uuid)).Nodup := by
  have := List.pairwise_map.mp h.sorted
  exact List.pairwise_map.mpr (this.imp fun hlt heq => absurd (congrArg Uuid.text heq) (ne_of_lt hlt))

/-! ### Lists -/

/-- A list around one of its entries. -/
theorem split_at {α : Type} {l : List α} {a : α} {i : Nat} (h : l[i]? = some a) :
    ∃ xs ys, l = xs ++ a :: ys ∧ l.eraseIdx i = xs ++ ys ∧ ∀ b, l.set i b = xs ++ b :: ys := by
  obtain ⟨hi, rfl⟩ := List.getElem?_eq_some_iff.mp h
  refine ⟨l.take i, l.drop (i + 1), ?_, List.eraseIdx_eq_take_drop_succ l i, fun b => ?_⟩
  · rw [List.getElem_cons_drop, List.take_append_drop]
  · rw [List.set_eq_take_append_cons_drop, if_pos hi]

/-! ### Save and load -/

theorem deserialize_serialize (gem : PlayerWheelGem) : .deserialize gem.uuid gem.serialize = gem := by
  have haff (a : WheelGemAffinity) : WheelGemAffinity.ofInt a.toInt = a := by cases a <;> rfl
  simp [PlayerWheelGem.deserialize, PlayerWheelGem.serialize, haff]

theorem mem_foldl_erase (l : List PlayerWheelGem) (kv : AList fun _ : Uuid => GemMap) :
    uuid ∈ (l.foldl (fun kv gem => kv.erase gem.uuid) kv).keys ↔ uuid ∈ kv.keys ∧ uuid ∉ l.map (·.uuid) := by
  induction l generalizing kv with
  | nil => simp
  | cons gem l ih =>
    rw [List.foldl_cons, ih, ← AList.mem_keys, ← AList.mem_keys, AList.mem_erase]
    simp only [List.map_cons, List.mem_cons, not_or]
    tauto

theorem mem_foldl_insert (l : List PlayerWheelGem) (kv : AList fun _ : Uuid => GemMap) :
    uuid ∈ (l.foldl (fun kv gem => kv.insert gem.uuid gem.serialize) kv).keys ↔
      uuid ∈ kv.keys ∨ uuid ∈ l.map (·.uuid) := by
  induction l generalizing kv with
  | nil => simp
  | cons gem l ih =>
    rw [List.foldl_cons, ih, ← AList.mem_keys, ← AList.mem_keys, AList.mem_insert]
    simp only [List.map_cons, List.mem_cons]
    tauto

theorem lookup_foldl_insert {l : List PlayerWheelGem} (hl : (l.map (·.uuid)).Nodup)
    (kv : AList fun _ : Uuid => GemMap) :
    (∀ gem ∈ l, (l.foldl (fun kv gem => kv.insert gem.uuid gem.serialize) kv).lookup gem.uuid = some gem.serialize) ∧
      ∀ uuid, uuid ∉ l.map (·.uuid) →
        (l.foldl (fun kv gem => kv.insert gem.uuid gem.serialize) kv).lookup uuid = kv.lookup uuid := by
  induction l generalizing kv with
  | nil => exact ⟨nofun, fun _ _ => rfl⟩
  | cons gem l ih =>
    obtain ⟨hgem, hl⟩ := List.nodup_cons.mp hl
    obtain ⟨hin, hout⟩ := ih hl (kv.insert gem.uuid gem.serialize)
    refine ⟨fun g hg => ?_, fun uuid hu => ?_⟩
    · rcases List.mem_cons.mp hg with rfl | hg
      · exact (hout g.uuid hgem).trans (AList.lookup_insert kv)
      · exact hin g hg
    · rw [List.map_cons, List.mem_cons, not_or] at hu
      exact (hout uuid hu.2).trans (AList.lookup_insert_ne hu.1)

theorem Sorted.mem_saved (h : Sorted s) : uuid ∈ (save s).kv.revealed.keys ↔ uuid ∈ s.m_revealedGems.map (·.uuid) := by
  simp only [save, saveActiveGems, saveRevealedGems]
  rw [mem_foldl_insert, mem_foldl_erase]
  refine or_iff_right_of_imp fun hk => ?_
  exact (h.kept uuid hk.1).resolve_right hk.2

theorem Sorted.relog_revealed (h : Sorted s) : (relog s).m_revealedGems = s.m_revealedGems := by
  have hkeys : sortBy id (save s).kv.revealed.keys = s.m_revealedGems.map (·.uuid) := by
    have : Std.Antisymm fun a b : Uuid => a.text < b.text := ⟨fun a b hab hba => absurd hab (lt_asymm hba)⟩
    have : Std.Irrefl fun a b : Uuid => a.text < b.text := ⟨fun a => lt_irrefl a.text⟩
    have hsaved := sortBy_sorted id (l := (save s).kv.revealed.keys) (by rw [List.map_id]; exact (save s).kv.revealed.keys_nodup)
    refine List.Pairwise.eq_of_mem_iff (List.pairwise_map.mp hsaved) ?_ fun uuid => ?_
    · rw [List.pairwise_map]
      exact List.pairwise_map.mp h.sorted
    · rw [mem_sortBy]
      exact h.mem_saved
  show [] ++ (sortBy id (save s).kv.revealed.keys).filterMap (fun uuid =>
    ((save s).kv.revealed.lookup uuid).map (PlayerWheelGem.deserialize uuid)) = s.m_revealedGems
  rw [List.nil_append, hkeys, List.filterMap_map]
  refine (List.filterMap_congr fun gem hgem => ?_).trans List.filterMap_some
  have hlookup := (lookup_foldl_insert h.nodup
    (s.m_destroyedGems.foldl (fun kv gem => kv.erase gem.uuid) s.kv.revealed)).1 gem hgem
  show ((save s).kv.revealed.lookup gem.uuid).map _ = some gem
  simp only [save, saveActiveGems, saveRevealedGems]
  rw [hlookup, Option.map_some, deserialize_serialize]

theorem Sorted.relog_active (h : Sorted s) (ha : ActiveOwned s) : (relog s).m_activeGems = s.m_activeGems := by
  have hrevealed := h.relog_revealed
  funext affinity
  have hactive : (loadRevealedGems (fresh (save s))).kv.active affinity = (s.m_activeGems affinity).map (·.uuid) := rfl
  rw [relog, loadActiveGems]
  dsimp only
  rw [hactive]
  cases hgem : s.m_activeGems affinity with
  | none => rfl
  | some gem =>
    have hfound : (loadRevealedGems (fresh (save s))).m_revealedGems.find? (fun g => g.uuid = gem.uuid) = some gem := by
      change (relog s).m_revealedGems.find? _ = _
      rw [hrevealed]
      exact (find?_eq_some_iff_mem (·.uuid) h.nodup).mpr ⟨(ha affinity gem hgem).1, rfl⟩
    rw [Option.map_some]
    dsimp only
    rw [hfound]

theorem Sorted.relog (h : Sorted s) : Sorted (relog s) where
  sorted := by
    rw [h.relog_revealed]
    exact h.sorted
  kept uuid hu := by
    rw [h.relog_revealed]
    exact .inl (h.mem_saved.mp hu)

/-! ### Steps -/

/-- A change of the gem at an index, or its end. -/
theorem getGem_split (h : getGem s index = some gem) : ∃ xs ys, s.m_revealedGems = xs ++ gem :: ys ∧
    s.m_revealedGems.eraseIdx index = xs ++ ys ∧ ∀ b, s.m_revealedGems.set index b = xs ++ b :: ys :=
  split_at h

/-- Nothing happens to a gem that is locked. -/
theorem loose_of_locked {P : PlayerWheelGem → Prop} (hgem : getGem s index = some gem) (hl : gem.locked = true) :
    ∀ g, getGem s index = some g → g.locked = false → P g := by
  intro g hg hfree
  obtain rfl := Option.some.inj (hgem.symm.trans hg)
  exact absurd (hl.symm.trans hfree) (by decide)

theorem destroyGem_cases (s : State) (index : Nat) (received : Bool) :
    (destroyGem s index received = s ∧ Loose s (.destroyGem index received)) ∨
      ∃ gem xs ys, getGem s index = some gem ∧ gem.locked = false ∧ received = true ∧ s.m_revealedGems = xs ++ gem :: ys ∧
        destroyGem s index received =
          { s with m_destroyedGems := s.m_destroyedGems ++ [gem], m_revealedGems := xs ++ ys } := by
  unfold destroyGem
  cases hgem : getGem s index with
  | none => exact .inl ⟨rfl, fun _ h => absurd (hgem.symm.trans h) nofun⟩
  | some gem =>
    dsimp only
    cases hl : gem.locked with
    | true => exact .inl ⟨rfl, loose_of_locked hgem hl⟩
    | false =>
      cases received with
      | false => exact .inl ⟨rfl, fun _ _ _ => nofun⟩
      | true =>
        obtain ⟨xs, ys, hlist, herase, -⟩ := getGem_split hgem
        rw [herase]
        exact .inr ⟨gem, xs, ys, rfl, hl, rfl, hlist, rfl⟩

theorem switchGemDomain_cases (s : State) (index : Nat) (paid : Bool) :
    (switchGemDomain s index paid = s ∧ Loose s (.switchGemDomain index paid)) ∨
      ∃ gem xs ys, getGem s index = some gem ∧ gem.locked = false ∧ paid = true ∧ s.m_revealedGems = xs ++ gem :: ys ∧
        switchGemDomain s index paid =
          { s with m_revealedGems := xs ++ { gem with affinity := gem.affinity.toDomain } :: ys } := by
  unfold switchGemDomain
  cases hgem : getGem s index with
  | none => exact .inl ⟨rfl, fun _ h => absurd (hgem.symm.trans h) nofun⟩
  | some gem =>
    dsimp only
    cases hl : gem.locked with
    | true => exact .inl ⟨rfl, loose_of_locked hgem hl⟩
    | false =>
      cases paid with
      | false => exact .inl ⟨rfl, fun _ _ _ => nofun⟩
      | true =>
        obtain ⟨xs, ys, hlist, -, hset⟩ := getGem_split hgem
        rw [hset]
        exact .inr ⟨gem, xs, ys, rfl, hl, rfl, hlist, by rw [hl]; rfl⟩

theorem toggleGemLock_cases (s : State) (index : Nat) :
    (toggleGemLock s index = s ∧ Loose s (.toggleGemLock index)) ∨
      ∃ gem xs ys, getGem s index = some gem ∧ s.m_revealedGems = xs ++ gem :: ys ∧
        toggleGemLock s index = { s with m_revealedGems := xs ++ { gem with locked := !gem.locked } :: ys } := by
  unfold toggleGemLock
  cases hgem : getGem s index with
  | none => exact .inl ⟨rfl, fun _ h => absurd (hgem.symm.trans h) nofun⟩
  | some gem =>
    obtain ⟨xs, ys, hlist, -, hset⟩ := getGem_split hgem
    dsimp only
    rw [hset]
    exact .inr ⟨gem, xs, ys, rfl, hlist, rfl⟩

theorem setActiveGem_cases (s : State) (affinity : WheelGemAffinity) (index : Nat) :
    setActiveGem s affinity index = s ∨
      ∃ gem, getGem s index = some gem ∧ gem.affinity = affinity ∧
        setActiveGem s affinity index = { s with m_activeGems := Function.update s.m_activeGems affinity (some gem) } := by
  unfold setActiveGem
  split
  · exact .inl rfl
  · rename_i gem hgem
    split_ifs with haff
    · exact .inl rfl
    · exact .inr ⟨gem, hgem, not_not.mp haff, rfl⟩

/-- One gem is replaced under its uuid. -/
theorem Sorted.replace {xs ys : List PlayerWheelGem} (h : Sorted s) (hl : s.m_revealedGems = xs ++ gem :: ys)
    (huuid : new.uuid = gem.uuid) : Sorted { s with m_revealedGems := xs ++ new :: ys } := by
  obtain ⟨hsorted, hkept⟩ := h
  rw [hl] at hsorted hkept
  refine ⟨?_, fun uuid hu => ?_⟩
  · simpa [huuid] using hsorted
  · simpa [huuid] using hkept uuid hu

theorem sorted_step (h : Sorted s) (hf : Fresh s op) : Sorted (step s op) := by
  cases op with
  | revealGem gem paid =>
    simp only [step, revealGem]
    split
    · exact h
    refine ⟨sortBy_sorted PlayerWheelGem.uuid ?_, fun uuid hu => (h.kept uuid hu).imp_left fun hk => ?_⟩
    · rw [List.map_append, List.nodup_append]
      refine ⟨h.nodup, List.nodup_singleton _, ?_⟩
      rintro a ha b hb rfl
      exact hf (List.mem_singleton.mp hb ▸ ha)
    · obtain ⟨g, hg, rfl⟩ := List.mem_map.mp hk
      exact List.mem_map_of_mem (mem_sortBy.mpr (List.mem_append_left _ hg))
  | destroyGem index received =>
    change Sorted (destroyGem s index received)
    obtain ⟨hsame, -⟩ | ⟨gem, xs, ys, -, -, -, hl, hstep⟩ := destroyGem_cases s index received
    · rwa [hsame]
    obtain ⟨hsorted, hkept⟩ := h
    rw [hl] at hsorted hkept
    rw [hstep]
    refine ⟨hsorted.sublist (List.Sublist.map _ ?_), fun uuid hu => ?_⟩
    · exact List.Sublist.append_left (List.sublist_cons_self gem ys) xs
    · have := hkept uuid hu
      simp only [List.map_append, List.map_cons, List.map_nil, List.mem_append, List.mem_cons, List.not_mem_nil, or_false] at this ⊢
      tauto
  | switchGemDomain index paid =>
    change Sorted (switchGemDomain s index paid)
    obtain ⟨hsame, -⟩ | ⟨gem, xs, ys, -, -, -, hl, hstep⟩ := switchGemDomain_cases s index paid
    · rwa [hsame]
    · rw [hstep]
      exact h.replace hl rfl
  | toggleGemLock index =>
    change Sorted (toggleGemLock s index)
    obtain ⟨hsame, -⟩ | ⟨gem, xs, ys, -, hl, hstep⟩ := toggleGemLock_cases s index
    · rwa [hsame]
    · rw [hstep]
      exact h.replace hl rfl
  | setActiveGem affinity index =>
    change Sorted (setActiveGem s affinity index)
    obtain hsame | ⟨gem, -, -, hstep⟩ := setActiveGem_cases s affinity index
    · rwa [hsame]
    · rw [hstep]
      exact ⟨h.sorted, h.kept⟩
  | removeActiveGem affinity => exact ⟨h.sorted, h.kept⟩
  | save => exact ⟨h.sorted, fun uuid hu => .inl (h.mem_saved.mp hu)⟩
  | relog => exact h.relog

/-- With one gem replaced or gone, the active gems are still owned unless that one is active. -/
theorem activeOwned_iff (h : Sorted s) (ha : ActiveOwned s) {xs ys zs : List PlayerWheelGem}
    (hl : s.m_revealedGems = xs ++ gem :: ys) {s' : State} (hl' : s'.m_revealedGems = xs ++ zs ++ ys)
    (hzs : ∀ g ∈ zs, g ≠ gem ∧ g.uuid = gem.uuid) (hactive : s'.m_activeGems = s.m_activeGems) :
    ActiveOwned s' ↔ Inactive s gem := by
  have hnodup := h.nodup
  rw [hl, List.map_append, List.map_cons, List.nodup_middle, List.nodup_cons, ← List.map_append] at hnodup
  have hout : gem ∉ xs ++ ys := fun hm => hnodup.1 (List.mem_map_of_mem hm)
  unfold ActiveOwned
  rw [hl', hactive]
  constructor
  · intro h' affinity hgem
    obtain ⟨hm, -⟩ := h' affinity gem hgem
    rw [List.mem_append, List.mem_append] at hm
    rcases hm with (hm | hm) | hm
    · exact hout (List.mem_append_left _ hm)
    · exact (hzs gem hm).1 rfl
    · exact hout (List.mem_append_right _ hm)
  · intro hin affinity g hg
    obtain ⟨hm, haff⟩ := ha affinity g hg
    refine ⟨?_, haff⟩
    rw [hl, List.mem_append, List.mem_cons] at hm
    rw [List.mem_append, List.mem_append]
    rcases hm with hm | rfl | hm
    · exact .inl (.inl hm)
    · exact absurd hg (hin affinity)
    · exact .inr hm

theorem toDomain_ne (a : WheelGemAffinity) : a.toDomain ≠ a := by cases a <;> exact nofun

theorem activeOwned_step (h : Sorted s) (ha : ActiveOwned s) : ActiveOwned (step s op) ↔ Loose s op := by
  cases op with
  | revealGem gem paid =>
    refine iff_of_true ?_ trivial
    simp only [step, revealGem]
    split
    · exact ha
    · intro affinity g hg
      obtain ⟨hm, haff⟩ := ha affinity g hg
      exact ⟨mem_sortBy.mpr (List.mem_append_left _ hm), haff⟩
  | destroyGem index received =>
    change ActiveOwned (destroyGem s index received) ↔ _
    obtain ⟨hsame, hloose⟩ | ⟨gem, xs, ys, hgem, hfree, hpaid, hl, hstep⟩ := destroyGem_cases s index received
    · exact iff_of_true (by rwa [hsame]) hloose
    have hiff : ActiveOwned (destroyGem s index received) ↔ Inactive s gem := by
      have hcut : xs ++ ys = xs ++ [] ++ ys := by rw [List.append_nil]
      rw [hstep]
      exact activeOwned_iff h ha hl hcut nofun rfl
    refine hiff.trans ⟨fun hin g hg _ _ => ?_, fun hloose => hloose gem hgem hfree hpaid⟩
    obtain rfl := Option.some.inj (hgem.symm.trans hg)
    exact hin
  | switchGemDomain index paid =>
    change ActiveOwned (switchGemDomain s index paid) ↔ _
    obtain ⟨hsame, hloose⟩ | ⟨gem, xs, ys, hgem, hfree, hpaid, hl, hstep⟩ := switchGemDomain_cases s index paid
    · exact iff_of_true (by rwa [hsame]) hloose
    have hiff : ActiveOwned (switchGemDomain s index paid) ↔ Inactive s gem := by
      rw [hstep]
      refine activeOwned_iff h ha hl (List.append_cons ..) (fun g hg => ?_) rfl
      rw [List.mem_singleton.mp hg]
      exact ⟨fun heq => toDomain_ne gem.affinity (congrArg PlayerWheelGem.affinity heq), rfl⟩
    refine hiff.trans ⟨fun hin g hg _ _ => ?_, fun hloose => hloose gem hgem hfree hpaid⟩
    obtain rfl := Option.some.inj (hgem.symm.trans hg)
    exact hin
  | toggleGemLock index =>
    change ActiveOwned (toggleGemLock s index) ↔ _
    obtain ⟨hsame, hloose⟩ | ⟨gem, xs, ys, hgem, hl, hstep⟩ := toggleGemLock_cases s index
    · exact iff_of_true (by rwa [hsame]) hloose
    have hiff : ActiveOwned (toggleGemLock s index) ↔ Inactive s gem := by
      rw [hstep]
      refine activeOwned_iff h ha hl (List.append_cons ..) (fun g hg => ?_) rfl
      rw [List.mem_singleton.mp hg]
      exact ⟨fun heq => by simpa using congrArg PlayerWheelGem.locked heq, rfl⟩
    refine hiff.trans ⟨fun hin g hg => ?_, fun hloose => hloose gem hgem⟩
    obtain rfl := Option.some.inj (hgem.symm.trans hg)
    exact hin
  | setActiveGem affinity index =>
    refine iff_of_true ?_ trivial
    change ActiveOwned (setActiveGem s affinity index)
    obtain hsame | ⟨gem, hgem, haff, hstep⟩ := setActiveGem_cases s affinity index
    · rwa [hsame]
    rw [hstep]
    intro a g hg
    by_cases haa : a = affinity
    · subst haa
      cases (Function.update_self ..).symm.trans hg
      exact ⟨List.mem_of_getElem? hgem, haff⟩
    · exact ha a g ((Function.update_of_ne haa ..).symm.trans hg)
  | removeActiveGem affinity =>
    refine iff_of_true (fun a g hg => ?_) trivial
    by_cases haa : a = affinity
    · subst haa
      exact absurd ((Function.update_self ..).symm.trans hg) nofun
    · exact ha a g ((Function.update_of_ne haa ..).symm.trans hg)
  | save => exact iff_of_true ha trivial
  | relog =>
    refine iff_of_true ?_ trivial
    intro a g hg
    simp only [step] at hg ⊢
    rw [h.relog_active ha] at hg
    rw [h.relog_revealed]
    exact ha a g hg

/-! ### Runs -/

/-- What a step does to the revealed gems: nothing, one comes, one goes, or one is replaced under its uuid. -/
theorem revealed_step (h : Sorted s) (op : Op) :
    (step s op).m_revealedGems = s.m_revealedGems ∨
    (∃ new paid, op = .revealGem new paid ∧
      (step s op).m_revealedGems = sortBy PlayerWheelGem.uuid (s.m_revealedGems ++ [{ new with locked := false }])) ∨
    (∃ xs gem ys, s.m_revealedGems = xs ++ gem :: ys ∧ (step s op).m_revealedGems = xs ++ ys ∧ gem.locked = false ∧
      ∃ index received, op = .destroyGem index received) ∨
    ∃ xs gem new ys, s.m_revealedGems = xs ++ gem :: ys ∧ (step s op).m_revealedGems = xs ++ new :: ys ∧
      new.uuid = gem.uuid := by
  cases op with
  | revealGem new paid =>
    simp only [step, revealGem]
    split
    · exact .inl rfl
    · exact .inr (.inl ⟨new, paid, rfl, rfl⟩)
  | destroyGem index received =>
    obtain ⟨hsame, -⟩ | ⟨gem, xs, ys, -, hfree, -, hl, hstep⟩ := destroyGem_cases s index received
    · exact .inl (congrArg State.m_revealedGems hsame)
    · exact .inr (.inr (.inl ⟨xs, gem, ys, hl, congrArg State.m_revealedGems hstep, hfree, index, received, rfl⟩))
  | switchGemDomain index paid =>
    obtain ⟨hsame, -⟩ | ⟨gem, xs, ys, -, -, -, hl, hstep⟩ := switchGemDomain_cases s index paid
    · exact .inl (congrArg State.m_revealedGems hsame)
    · exact .inr (.inr (.inr ⟨xs, gem, _, ys, hl, congrArg State.m_revealedGems hstep, rfl⟩))
  | toggleGemLock index =>
    obtain ⟨hsame, -⟩ | ⟨gem, xs, ys, -, hl, hstep⟩ := toggleGemLock_cases s index
    · exact .inl (congrArg State.m_revealedGems hsame)
    · exact .inr (.inr (.inr ⟨xs, gem, _, ys, hl, congrArg State.m_revealedGems hstep, rfl⟩))
  | setActiveGem affinity index =>
    obtain hsame | ⟨gem, -, -, hstep⟩ := setActiveGem_cases s affinity index
    · exact .inl (congrArg State.m_revealedGems hsame)
    · refine .inl ?_
      change (setActiveGem s affinity index).m_revealedGems = _
      rw [hstep]
  | removeActiveGem affinity => exact .inl rfl
  | save => exact .inl rfl
  | relog => exact .inl h.relog_revealed

theorem grows_of_sorted (h : Sorted s) (op : Op) (hgem : gem ∈ (step s op).m_revealedGems) :
    gem.uuid ∈ s.m_revealedGems.map (·.uuid) ∨ ∃ new paid, op = .revealGem new paid ∧ gem.uuid = new.uuid := by
  obtain hsame | ⟨new, paid, rfl, hstep⟩ | ⟨xs, g, ys, hl, hstep, -⟩ | ⟨xs, g, new, ys, hl, hstep, huuid⟩ := revealed_step h op
  · exact .inl (List.mem_map_of_mem (hsame ▸ hgem))
  · rw [hstep] at hgem
    rcases List.mem_append.mp (mem_sortBy.mp hgem) with hg | hg
    · exact .inl (List.mem_map_of_mem hg)
    · exact .inr ⟨new, paid, rfl, by rw [List.mem_singleton.mp hg]⟩
  · rw [hstep] at hgem
    rw [hl]
    exact .inl (List.mem_map_of_mem ((List.sublist_cons_self g ys).append_left xs |>.subset hgem))
  · rw [hstep] at hgem
    have hu : gem.uuid ∈ (xs ++ new :: ys).map (·.uuid) := List.mem_map_of_mem hgem
    rw [hl]
    exact .inl (by simpa [huuid] using hu)

theorem shrinks_of_sorted (h : Sorted s) (op : Op) (hgem : gem ∈ s.m_revealedGems) :
    gem.uuid ∈ (step s op).m_revealedGems.map (·.uuid) ∨
      gem.locked = false ∧ ∃ index received, op = .destroyGem index received := by
  obtain hsame | ⟨new, paid, rfl, hstep⟩ | ⟨xs, g, ys, hl, hstep, hfree, hop⟩ | ⟨xs, g, new, ys, hl, hstep, huuid⟩ :=
    revealed_step h op
  · exact .inl (hsame ▸ List.mem_map_of_mem hgem)
  · rw [hstep]
    exact .inl (List.mem_map_of_mem (mem_sortBy.mpr (List.mem_append_left _ hgem)))
  · rw [hl, List.mem_append, List.mem_cons] at hgem
    rw [hstep, List.map_append, List.mem_append]
    rcases hgem with hm | rfl | hm
    · exact .inl (.inl (List.mem_map_of_mem hm))
    · exact .inr ⟨hfree, hop⟩
    · exact .inl (.inr (List.mem_map_of_mem hm))
  · have hu : gem.uuid ∈ (xs ++ g :: ys).map (·.uuid) := hl ▸ List.mem_map_of_mem hgem
    rw [hstep]
    exact .inl (by simpa [huuid] using hu)

theorem Sorted.owned_iff (h : Sorted s) : Owned s ↔ ActiveOwned s :=
  ⟨Owned.active, fun ha =>
    ⟨h.nodup, ha, h.relog_revealed, h.relog_active ha, fun op _ => grows_of_sorted h op, fun op _ => shrinks_of_sorted h op⟩⟩

theorem sorted_run {ops : List Op} (h : Meets step Fresh .start ops) : Sorted (run step .start ops) :=
  run_invariant Sorted (fun _ _ hs hf => sorted_step hs hf) ⟨List.Pairwise.nil, nofun⟩ h

/-- In a run whose gems have fresh uuids, the wheel is in order all along exactly if no active gem is destroyed, turned
    or (un)locked. -/
theorem owned_iff_loose {ops : List Op} (h : Meets step Fresh .start ops) :
    Meets step Loose .start ops ↔ ∀ xs, xs <+: ops → Owned (run step .start xs) := by
  have hpart : ∀ xs, xs <+: ops → (Owned (run step .start xs) ↔ ActiveOwned (run step .start xs)) := by
    rintro xs ⟨ys, rfl⟩
    exact (sorted_run h.of_append).owned_iff
  rw [meets_iff_forall_part_of Sorted ActiveOwned (fun _ _ hs hf => sorted_step hs hf) (fun _ _ hs ha _ => activeOwned_step hs ha)
    (⟨List.Pairwise.nil, nofun⟩ : Sorted .start) nofun h]
  exact forall₂_congr fun xs hxs => (hpart xs hxs).symm

def sampleGem (c : Char) (affinity : WheelGemAffinity) : PlayerWheelGem :=
  ⟨⟨[c, '-'], by simp⟩, false, affinity, 0, 1, 0, 0⟩

/-- A gem is revealed, set and saved; another one is turned and destroyed. -/
def sampleOps : List Op :=
  [.revealGem (sampleGem '2' .Red) true, .revealGem (sampleGem '1' .Blue) true, .setActiveGem .Red 1,
    .switchGemDomain 0 true, .relog, .destroyGem 0 true]

theorem owned_iff_loose_sample :
    Meets step Fresh .start sampleOps ∧
      (Meets step Loose .start sampleOps ↔ ∀ xs, xs <+: sampleOps → Owned (run step .start xs)) := by
  have hfresh : Meets step Fresh .start sampleOps := by
    refine ⟨List.not_mem_nil, ?_, trivial, trivial, trivial, trivial, trivial⟩
    show (sampleGem '1' .Blue).uuid ∉ _
    decide
  exact ⟨hfresh, owned_iff_loose hfresh⟩

/-- An active gem that is destroyed stays active. -/
theorem destroyed_gem_active :
    ¬Owned (run step .start [.revealGem (sampleGem '1' .Red) true, .setActiveGem .Red 0, .destroyGem 0 true]) := by
  intro h
  obtain ⟨hm, -⟩ := h.active .Red (sampleGem '1' .Red) rfl
  exact absurd hm List.not_mem_nil

end CrystalServer.WheelGems
