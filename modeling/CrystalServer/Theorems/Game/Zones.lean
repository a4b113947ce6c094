import CrystalServer.Game.Zones
import CrystalServer.Theorems.Items.Tile

/-! # Zones know their items

A tile tells its zones of what it takes off, and of what `internalAddThing` puts on; `addThing` and `replaceThing` tell them
nothing of the new item. So a zone's cache is exact just as long as nothing comes onto its tiles by these two, and
`internalAddThing` finds room there. -/

namespace CrystalServer.Zones
open Lib TileWorld
variable {env : TileEnv} {isStatic : ZoneRef → Bool} {w w' : TileWorld} {s : World} {r x old : Ref} {t : TileRef} {z : ZoneRef}

/-! ### Calls -/

theorem mem_foldl_thingAdded (items : List Ref) (cache : Finset Ref) :
    x ∈ (items.map Call.thingAdded).foldl Call.apply cache ↔ x ∈ cache ∨ x ∈ items := by
  induction items generalizing cache with
  | nil => simp
  | cons r items ih =>
    rw [List.map_cons, List.foldl_cons, ih, List.mem_cons]
    change x ∈ insert r cache ∨ _ ↔ _
    rw [Finset.mem_insert]
    tauto

theorem mem_foldl_itemRemoved (items : List Ref) (cache : Finset Ref) :
    x ∈ (items.map Call.itemRemoved).foldl Call.apply cache ↔ x ∈ cache ∧ x ∉ items := by
  induction items generalizing cache with
  | nil => simp
  | cons r items ih =>
    rw [List.map_cons, List.foldl_cons, ih, List.mem_cons]
    change x ∈ cache.erase r ∧ _ ↔ _
    rw [Finset.mem_erase]
    tauto

theorem removeThingCalls_cases (env : TileEnv) (w : TileWorld) (r : Ref) (count : UInt32) :
    (takesAway env w r count ∧ removeThingCalls env w r count = [.itemRemoved r]) ∨
    (¬takesAway env w r count ∧ removeThingCalls env w r count = []) := by
  unfold removeThingCalls
  split_ifs with hi hg ht hr hr hc
  · refine .inr ⟨fun h => getThingIndex_ne_iff.mpr ?_ hi, rfl⟩
    exact h.imp_right (.imp_right fun h => ⟨h.1, h.2.1⟩)
  · exact .inl ⟨.inl hg, rfl⟩
  · exact .inl ⟨.inr (.inl ⟨ht, hr⟩), rfl⟩
  · refine .inr ⟨?_, rfl⟩
    rintro (h | ⟨-, h⟩ | ⟨h, -⟩)
    · exact hg h
    · exact hr h
    · exact h ht
  · refine .inr ⟨?_, rfl⟩
    rintro (h | ⟨h, -⟩ | ⟨-, -, h⟩)
    · exact hg h
    · exact ht h
    · exact h hc
  · exact .inl ⟨.inr (.inr ⟨ht, hr, hc⟩), rfl⟩
  · refine .inr ⟨?_, rfl⟩
    rintro (h | ⟨h, -⟩ | ⟨-, h, -⟩)
    · exact hg h
    · exact ht h
    · exact hr h

/-- What is taken away leaves the list. -/
theorem items_takes (h : Takes env r w w') (hs : Sound w) : w'.items = w.items.erase r := by
  have hnodup : (w.downItems ++ w.topItems).Nodup := by
    rw [downItems_append_topItems]
    exact hs.nodup_items
  rw [← downItems_append_topItems w, ← downItems_append_topItems w']
  rcases h.place with ⟨hg, -, hd, ht⟩ | ⟨-, hr, hd, ht⟩ | ⟨-, hr, hd, ht⟩
  · have hnot := hs.not_mem_of_ground hg
    rw [← downItems_append_topItems] at hnot
    rw [hd, ht, List.erase_of_not_mem hnot]
  · have hnot : r ∉ w.downItems := fun hdown => (List.nodup_append.mp hnodup).2.2 r hdown r hr rfl
    rw [hd, ht, List.erase_append_right _ hnot]
  · rw [hd, ht, List.erase_append_left _ hr]

theorem removeThing_spec (hs : Sound w) (env : TileEnv) (r : Ref) (count : UInt32) :
    (removeThingCalls env w r count = [.itemRemoved r] ∧ r ∈ w.present ∧
      (w.removeThing env (.item r) count).items = w.items.erase r) ∨
    (removeThingCalls env w r count = [] ∧ (w.removeThing env (.item r) count).items = w.items) := by
  rcases removeThingCalls_cases env w r count with ⟨htake, hcalls⟩ | ⟨hnot, hcalls⟩
  · rcases removeThing_cases hs env r count with ⟨-, h⟩ | ⟨hnot, -⟩
    · exact .inl ⟨hcalls, h.present.mem_iff.mpr List.mem_cons_self, items_takes h hs⟩
    · exact absurd htake hnot
  · rcases removeThing_cases hs env r count with ⟨htake, -⟩ | ⟨-, h | ⟨-, n, h⟩⟩
    · exact absurd htake hnot
    · exact .inr ⟨hcalls, by rw [h]⟩
    · exact .inr ⟨hcalls, by rw [h]; rfl⟩

theorem present_removeThing (hs : Sound w) (count : UInt32) (hx : x ∈ (w.removeThing env (.item r) count).present) :
    x ∈ w.present := by
  rcases removeThing_cases hs env r count with ⟨-, h⟩ | ⟨-, h | ⟨-, n, h⟩⟩
  · exact h.present.mem_iff.mpr (List.mem_cons_of_mem _ hx)
  · rwa [h] at hx
  · rw [h] at hx
    exact hx

/-! ### What comes onto a tile -/

/-- `addThing` finds room for an item, and no field that stands against it. -/
def Lands (env : TileEnv) (w : TileWorld) (r : Ref) : Prop :=
  w.items.length < 0xFFFF ∧ (w.isAlwaysOnTop env r ∨ ¬(w.itemType env r).isMagicField ∨
    ∀ old, w.oldField env = some old → (w.itemType env old).replaceable)

theorem present_addTopItem (hs : Sound w) (r : Ref) :
    r ∈ (w.addTopItem env r).items ∧ ∀ x ∈ (w.addTopItem env r).present, x = r ∨ x ∈ w.present := by
  have hinsert {w₁ : TileWorld} (before : Ref → Bool) (hs₁ : Sound w₁) (hsub : ∀ x ∈ w₁.present, x ∈ w.present) :
      r ∈ (w₁.insertTop before r).items ∧ ∀ x ∈ (w₁.insertTop before r).present, x = r ∨ x ∈ w.present := by
    have hins := inserts_insertTop (r := r) before hs₁
    refine ⟨hins.perm.mem_iff.mpr List.mem_cons_self, fun x hx => ?_⟩
    exact (List.mem_cons.mp (hins.present.mem_iff.mp hx)).imp_right (hsub x)
  unfold addTopItem
  dsimp only
  split
  · split_ifs
    · obtain ⟨hs', hsub⟩ := sound_displace hs env _
      exact hinsert _ hs' hsub
    · exact hinsert _ hs fun _ hx => hx
  · exact hinsert _ hs fun _ hx => hx

theorem present_addDownItem (hs : Sound w) (env : TileEnv) (r : Ref) :
    r ∈ (w.addDownItem env r).items ∧ ∀ x ∈ (w.addDownItem env r).present, x = r ∨ x ∈ w.present := by
  have hsame := samePlaces_setWaterball env w r
  have hins := inserts_insertDown (r := r) (hsame.sound hs).count_le
  refine ⟨hins.perm.mem_iff.mpr List.mem_cons_self, fun x hx => ?_⟩
  rw [← hsame.present]
  exact List.mem_cons.mp (hins.present.mem_iff.mp hx)

/-- An item other than a ground lands, or it changes nothing and nobody is told. -/
theorem addThing_spec (hs : Sound w) (hr : ¬(w.itemType env r).isGroundTile) :
    (Lands env w r ∧ r ∈ (w.addThing env (.item r)).items ∧
      ∀ x ∈ (w.addThing env (.item r)).present, x = r ∨ x ∈ w.present) ∨
    (¬Lands env w r ∧ SamePlaces w (w.addThing env (.item r)) ∧ addThingCalls env w r = []) := by
  have hs' : Sound (w.setParent (.item r)) := (samePlaces_setParent ..).sound hs
  have htype (x : Ref) : itemType env (w.setParent (.item r)) x = w.itemType env x := rfl
  have htop : isAlwaysOnTop env (w.setParent (.item r)) r = w.isAlwaysOnTop env r := rfl
  have hold : oldField env (w.setParent (.item r)) = w.oldField env := rfl
  unfold addThing addThingCalls Lands
  dsimp only
  simp only [htype, htop, hold]
  by_cases hfull : w.items.length ≥ 0xFFFF
  · rw [if_pos hfull, if_pos hfull]
    exact .inr ⟨fun h => absurd hfull (Nat.not_le.mpr h.1), ⟨rfl, rfl, rfl, rfl⟩, rfl⟩
  have hlt := Nat.lt_of_not_le hfull
  rw [if_neg hfull, if_neg hfull, if_neg hr, if_neg hr]
  by_cases ht : w.isAlwaysOnTop env r
  · rw [if_pos ht]
    exact .inl ⟨⟨hlt, .inl ht⟩, present_addTopItem hs' r⟩
  rw [if_neg ht, if_neg ht]
  by_cases hfield : (w.itemType env r).isMagicField
  · rw [if_pos hfield, if_pos hfield]
    cases hof : w.oldField env with
    | none => exact .inl ⟨⟨hlt, .inr (.inr fun old h => absurd h (by simp))⟩, present_addDownItem hs' env r⟩
    | some old =>
      dsimp only
      split_ifs with hrep
      · obtain ⟨hs₁, hsub⟩ := sound_displace hs' env old
        obtain ⟨hmem, hpresent⟩ := present_addDownItem hs₁ env r
        refine .inl ⟨⟨hlt, .inr (.inr fun o ho => ?_)⟩, hmem, fun x hx => (hpresent x hx).imp_right (hsub x)⟩
        rwa [← Option.some.inj ho]
      · refine .inr ⟨?_, ⟨rfl, rfl, rfl, rfl⟩, rfl⟩
        rintro ⟨-, htop | hnot | hall⟩
        · exact ht htop
        · exact hnot hfield
        · exact hrep (hall old rfl)
  · rw [if_neg hfield, if_neg hfield]
    exact .inl ⟨⟨hlt, .inr (.inl hfield)⟩, present_addDownItem hs' env r⟩

theorem addThingCalls_cases (env : TileEnv) (w : TileWorld) (r : Ref) :
    addThingCalls env w r = [] ∨ ∃ old, addThingCalls env w r = removeThingCalls env w old 1 := by
  unfold addThingCalls
  cases w.oldSplash env <;> cases w.oldField env <;> dsimp only <;> split_ifs <;>
    first
    | exact .inl rfl
    | exact .inr ⟨_, rfl⟩

/-- `addThing` tells of no new item. -/
theorem mem_of_mem_addThingCalls {cache : Finset Ref} (hx : x ∈ (addThingCalls env w r).foldl Call.apply cache) :
    x ∈ cache := by
  rcases addThingCalls_cases env w r with hcalls | ⟨old, hcalls⟩
  · rwa [hcalls] at hx
  · rcases removeThingCalls_cases env w old 1 with ⟨-, hremove⟩ | ⟨-, hremove⟩
    · rw [hcalls, hremove] at hx
      exact Finset.mem_of_mem_erase hx
    · rwa [hcalls, hremove] at hx

theorem internalAddThing_spec (hs : Sound w) (hr : ¬(w.itemType env r).isGroundTile) :
    (w.items.length < 0xFFFF ∧ (w.internalAddThing env (.item r)).items.Perm (r :: w.items) ∧
      (w.internalAddThing env (.item r)).present.Perm (r :: w.present)) ∨
    (¬w.items.length < 0xFFFF ∧ SamePlaces w (w.internalAddThing env (.item r))) := by
  have hs' : Sound (w.setParent (.item r)) := (samePlaces_setParent ..).sound hs
  have htype : itemType env (w.setParent (.item r)) r = w.itemType env r := rfl
  have htop : isAlwaysOnTop env (w.setParent (.item r)) r = w.isAlwaysOnTop env r := rfl
  unfold internalAddThing
  dsimp only
  rw [htype, htop, if_neg hr]
  split_ifs with hfull ht
  · exact .inr ⟨Nat.not_lt.mpr hfull, ⟨rfl, rfl, rfl, rfl⟩⟩
  · have hins := inserts_insertTop (r := r)
      (fun x => (w.itemType env r).alwaysOnTopOrder < (w.itemType env x).alwaysOnTopOrder) hs'
    exact .inl ⟨Nat.lt_of_not_le hfull, hins.perm, hins.present⟩
  · have hins := inserts_insertDown (r := r) hs'.count_le
    exact .inl ⟨Nat.lt_of_not_le hfull, hins.perm, hins.present⟩

theorem ground_replaceAbove {pos : Nat} (h : w.replaceAbove pos r = some (old, w')) : w'.ground = w.ground := by
  unfold replaceAbove at h
  dsimp only at h
  split_ifs at h
  all_goals
    obtain ⟨_, -, hput⟩ := Option.map_eq_some_iff.mp h
    obtain ⟨-, rfl⟩ := Prod.mk.inj hput
    rfl

theorem ground_replaceAt {index : Nat} (hindex : w.ground.isSome → index ≠ 0) (h : w.replaceAt index r = some (old, w')) :
    w'.ground = w.ground := by
  unfold replaceAt at h
  split at h
  · rename_i hg
    exact absurd rfl (hindex (by rw [hg]; rfl))
  · exact ground_replaceAbove h
  · exact ground_replaceAbove h

/-- Where a thing other than the ground is an item, the new item takes its place. -/
theorem replaceThing_spec (hs : Sound w) (env : TileEnv) {index : Nat} (hindex : w.ground.isSome → index ≠ 0)
    (hr : r ∉ w.present) :
    ((∃ old, w.getThing index = some (.item old)) ∧ r ∈ (w.replaceThing env index (.item r)).items ∧
      ∀ x ∈ (w.replaceThing env index (.item r)).present, x = r ∨ x ∈ w.present) ∨
    ((∀ old, w.getThing index ≠ some (.item old)) ∧ w.replaceThing env index (.item r) = w) := by
  rcases replaceAt_cases hs index r with ⟨old, w', h, hget, hswap⟩ | ⟨h, hget⟩
  · have hplace : SamePlaces w' (w.replaceThing env index (.item r)) := by
      rw [replaceThing, h]
      exact ⟨rfl, rfl, rfl, rfl⟩
    refine .inl ⟨⟨old, hget⟩, ?_, fun x hx => ?_⟩
    · rw [hplace.items, TileWorld.mem_items]
      rcases hswap.place with ⟨-, hg, -⟩ | ⟨-, l, l', ⟨-, ht, -⟩ | ⟨-, hd, -⟩⟩
      · have hground := (ground_replaceAt hindex h).symm.trans hg
        exact absurd (mem_present.mpr (.inl hground)) hr
      · exact .inr (ht ▸ by simp)
      · exact .inl (hd ▸ by simp)
    · obtain ⟨l, hl, hl'⟩ := hswap.present
      rw [hplace.present] at hx
      rcases List.mem_cons.mp (hl'.mem_iff.mp hx) with heq | hmem
      · exact .inl heq
      · exact .inr (hl.mem_iff.mpr (List.mem_cons_of_mem _ hmem))
  · refine .inr ⟨hget, ?_⟩
    rw [replaceThing, h]

/-! ### One step -/

/-- Tiles are sound, and nothing lies on two of them. -/
structure Sorted (s : World) : Prop where
  sound : ∀ t, Sound (s.tile t)
  apart : ∀ {t t' x}, x ∈ (s.tile t).present → x ∈ (s.tile t').present → t = t'

/-- The cache of a zone holds exactly what lies on its tiles, beside their grounds. -/
def Exact (z : ZoneRef) (s : World) : Prop :=
  ∀ x, x ∈ s.itemsCache z ↔ ∃ t, z ∈ s.zones t ∧ x ∈ (s.tiles t).items

/-- What comes onto a tile is an item other than a ground that lies on no tile yet, and takes the place of no ground. -/
def Proper (env : TileEnv) (s : World) : Operation → Prop
  | .addThing t item | .internalAddThing t item =>
    (∀ t', item ∉ (s.tile t').present) ∧ ¬((s.tile t).itemType env item).isGroundTile
  | .replaceThing t index item =>
    (∀ t', item ∉ (s.tile t').present) ∧ ¬((s.tile t).itemType env item).isGroundTile ∧
      ((s.tile t).ground.isSome → index ≠ 0)
  | _ => True

/-- Nothing comes onto a tile of the zone by `addThing` or `replaceThing`, and `internalAddThing` finds room there. -/
def Told (env : TileEnv) (z : ZoneRef) (s : World) : Operation → Prop
  | .addThing t item => z ∈ s.zones t → ¬Lands env (s.tile t) item
  | .internalAddThing t _ => z ∈ s.zones t → (s.tile t).items.length < 0xFFFF
  | .replaceThing t index _ => z ∈ s.zones t → ∀ old, (s.tile t).getThing index ≠ some (.item old)
  | _ => True

theorem tile_setTile_self (s : World) (t : TileRef) (w : TileWorld) : SamePlaces w ((s.setTile t w).tile t) := by
  simp only [World.tile, World.setTile, Function.update_self]
  exact ⟨rfl, rfl, rfl, rfl⟩

theorem tile_setTile_of_ne {t' : TileRef} (h : t' ≠ t) (s : World) (w : TileWorld) :
    SamePlaces (s.tile t') ((s.setTile t w).tile t') := by
  simp only [World.tile, World.setTile, Function.update_of_ne h]
  exact ⟨rfl, rfl, rfl, rfl⟩

theorem Sorted.setTile (h : Sorted s) (hw : Sound w)
    (hsub : ∀ x ∈ w.present, x ∈ (s.tile t).present ∨ ∀ t', x ∉ (s.tile t').present) : Sorted (s.setTile t w) := by
  have hback {t' : TileRef} {x : Ref} (hne : t' ≠ t) (hx : x ∈ ((s.setTile t w).tile t').present) : x ∈ (s.tile t').present := by
    rwa [(tile_setTile_of_ne hne s w).present] at hx
  have hother {t' : TileRef} {x : Ref} (hne : t' ≠ t) (hx : x ∈ w.present) : x ∉ (s.tile t').present := by
    intro hx'
    rcases hsub x hx with hmem | hnone
    · exact hne (h.apart hx' hmem)
    · exact hnone t' hx'
  refine ⟨fun t' => ?_, fun {t₁ t₂ x} h₁ h₂ => ?_⟩
  · by_cases ht : t' = t
    · subst ht
      exact (tile_setTile_self s t' w).sound hw
    · exact (tile_setTile_of_ne ht s w).sound (h.sound t')
  · by_cases ht₁ : t₁ = t <;> by_cases ht₂ : t₂ = t
    · rw [ht₁, ht₂]
    · subst ht₁
      rw [(tile_setTile_self s t₁ w).present] at h₁
      exact absurd (hback ht₂ h₂) (hother ht₂ h₁)
    · subst ht₂
      rw [(tile_setTile_self s t₂ w).present] at h₂
      exact absurd (hback ht₁ h₁) (hother ht₁ h₂)
    · exact h.apart (hback ht₁ h₁) (hback ht₂ h₂)

/-- The cache is exact again just if the calls turn the old list of the tile into the new one. -/
theorem exact_report_iff (h : Sorted s) (hexact : Exact z s) (w : TileWorld) (calls : List Call) :
    Exact z ((s.setTile t w).report t calls) ↔ (z ∈ s.zones t → ∀ x, x ∈ calls.foldl Call.apply (s.itemsCache z) ↔
      x ∈ w.items ∨ x ∈ s.itemsCache z ∧ x ∉ (s.tiles t).items) := by
  have hself : ((s.setTile t w).tiles t).items = w.items := by simp [World.setTile]
  have hother {t' : TileRef} (hne : t' ≠ t) : (s.setTile t w).tiles t' = s.tiles t' := by simp [World.setTile, hne]
  have hpresent {t' : TileRef} {x : Ref} (hx : x ∈ (s.tiles t').items) : x ∈ (s.tile t').present := mem_present.mpr (.inr hx)
  by_cases hz : z ∈ s.zones t
  · rw [forall_prop_of_true hz]
    refine forall_congr' fun x => ?_
    have hcache : ((s.setTile t w).report t calls).itemsCache z = calls.foldl Call.apply (s.itemsCache z) := if_pos hz
    rw [hcache]
    refine iff_congr Iff.rfl ?_
    constructor
    · rintro ⟨t', hz', hx⟩
      by_cases ht : t' = t
      · subst ht
        exact .inl (hself ▸ hx)
      · have hx' : x ∈ (s.tiles t').items := hother ht ▸ hx
        exact .inr ⟨(hexact x).mpr ⟨t', hz', hx'⟩, fun hmem => ht (h.apart (hpresent hx') (hpresent hmem))⟩
    · rintro (hx | ⟨hx, hnot⟩)
      · exact ⟨t, hz, hself ▸ hx⟩
      · obtain ⟨t', hz', hx'⟩ := (hexact x).mp hx
        have ht : t' ≠ t := by
          rintro rfl
          exact hnot hx'
        exact ⟨t', hz', (hother ht).symm ▸ hx'⟩
  · refine iff_of_true (fun x => ?_) fun hmem => absurd hmem hz
    have hcache : ((s.setTile t w).report t calls).itemsCache z = s.itemsCache z := if_neg hz
    rw [hcache, hexact]
    refine exists_congr fun t' => and_congr_right fun hz' => ?_
    have ht : t' ≠ t := by
      rintro rfl
      exact hz hz'
    exact iff_of_eq (congrArg (fun tile : Tile => x ∈ tile.items) (hother ht).symm)

theorem Exact.mem_of_present (hexact : Exact z s) (h : Sorted s) (hx : x ∈ s.itemsCache z) (hmem : x ∈ (s.tile t).present) :
    x ∈ (s.tiles t).items := by
  obtain ⟨t', -, hx'⟩ := (hexact x).mp hx
  rwa [h.apart hmem (mem_present.mpr (.inr hx') : x ∈ (s.tile t').present)]

theorem Exact.not_mem_of_fresh (hexact : Exact z s) (hr : ∀ t, r ∉ (s.tile t).present) : r ∉ s.itemsCache z := by
  intro hmem
  obtain ⟨t, -, hx⟩ := (hexact r).mp hmem
  exact hr t (mem_present.mpr (.inr hx))

theorem Exact.mem (hexact : Exact z s) (hz : z ∈ s.zones t) (hx : x ∈ (s.tiles t).items) : x ∈ s.itemsCache z :=
  (hexact x).mpr ⟨t, hz, hx⟩

/-- The list of the tile stays, and nothing is told. -/
theorem Exact.same (hexact : Exact z s) (hz : z ∈ s.zones t) (x : Ref) :
    x ∈ s.itemsCache z ↔ x ∈ (s.tiles t).items ∨ x ∈ s.itemsCache z ∧ x ∉ (s.tiles t).items := by
  have hmem : x ∈ (s.tiles t).items → x ∈ s.itemsCache z := hexact.mem hz
  tauto

theorem exact_removeThing (h : Sorted s) (hexact : Exact z s) (t : TileRef) (r : Ref) (count : UInt32) :
    Exact z (s.removeThing env t r count) := by
  refine (exact_report_iff h hexact _ _).mpr fun hz x => ?_
  rcases removeThing_spec (h.sound t) env r count with ⟨hcalls, hr, hitems⟩ | ⟨hcalls, hitems⟩
  · have hback : r ∈ s.itemsCache z → r ∈ (s.tiles t).items := fun hcache => hexact.mem_of_present h hcache hr
    rw [hcalls, hitems, (h.sound t).nodup_items.mem_erase_iff]
    change x ∈ (s.itemsCache z).erase r ↔ x ≠ r ∧ x ∈ (s.tiles t).items ∨ _
    rw [Finset.mem_erase]
    constructor
    · rintro ⟨hne, hx⟩
      exact ((hexact.same hz x).mp hx).imp_left fun hitem => ⟨hne, hitem⟩
    · rintro (⟨hne, hx⟩ | ⟨hx, hnot⟩)
      · exact ⟨hne, hexact.mem hz hx⟩
      · refine ⟨?_, hx⟩
        rintro rfl
        exact hnot (hback hx)
  · rw [hcalls, hitems]
    exact hexact.same hz x

theorem exact_addThing_iff (h : Sorted s) (hexact : Exact z s) (hproper : Proper env s (.addThing t r)) :
    Exact z (s.addThing env t r) ↔ Told env z s (.addThing t r) := by
  refine (exact_report_iff h hexact _ _).trans (imp_congr_right fun hz => ?_)
  rcases addThing_spec (h.sound t) hproper.2 with ⟨hlands, hr, -⟩ | ⟨hnot, hsame, hcalls⟩
  · refine iff_of_false (fun hall => ?_) fun hno => hno hlands
    exact hexact.not_mem_of_fresh hproper.1 (mem_of_mem_addThingCalls ((hall r).mpr (.inl hr)))
  · refine iff_of_true (fun x => ?_) hnot
    rw [hcalls, hsame.items]
    exact hexact.same hz x

theorem exact_internalAddThing_iff (h : Sorted s) (hexact : Exact z s) (hproper : Proper env s (.internalAddThing t r)) :
    Exact z (s.internalAddThing env t r) ↔ Told env z s (.internalAddThing t r) := by
  refine (exact_report_iff h hexact _ _).trans (imp_congr_right fun hz => ?_)
  rcases internalAddThing_spec (h.sound t) hproper.2 with ⟨hlt, hitems, -⟩ | ⟨hfull, hsame⟩
  · refine iff_of_true (fun x => ?_) hlt
    change x ∈ insert r (s.itemsCache z) ↔ _
    rw [Finset.mem_insert, hitems.mem_iff, List.mem_cons, or_assoc]
    exact or_congr_right (hexact.same hz x)
  · refine iff_of_false (fun hall => ?_) hfull
    have hmem : r ∈ (s.tiles t).items ∨ r ∈ s.itemsCache z ∧ r ∉ (s.tiles t).items := by
      have hcalls := (hall r).mp (Finset.mem_insert_self r _)
      rwa [hsame.items] at hcalls
    rcases hmem with hin | ⟨hin, -⟩
    · exact hproper.1 t (mem_present.mpr (.inr hin))
    · exact hexact.not_mem_of_fresh hproper.1 hin

theorem report_nil (s : World) (t : TileRef) : s.report t [] = s := by
  unfold World.report
  simp only [List.foldl_nil, ite_self]

theorem exact_replaceThing_iff (h : Sorted s) (hexact : Exact z s) {index : Nat}
    (hproper : Proper env s (.replaceThing t index r)) :
    Exact z (s.replaceThing env t index r) ↔ Told env z s (.replaceThing t index r) := by
  unfold World.replaceThing
  rw [← report_nil (s.setTile t _) t]
  refine (exact_report_iff h hexact _ _).trans (imp_congr_right fun hz => ?_)
  rcases replaceThing_spec (h.sound t) env hproper.2.2 (hproper.1 t) with ⟨⟨old, hold⟩, hr, -⟩ | ⟨hnone, hsame⟩
  · refine iff_of_false (fun hall => ?_) fun hno => hno old hold
    exact hexact.not_mem_of_fresh hproper.1 ((hall r).mpr (.inl hr))
  · refine iff_of_true (fun x => ?_) hnone
    rw [hsame]
    exact hexact.same hz x

/-- The lists of the tiles stay. -/
theorem exact_addZone (hexact : Exact z s) (t : TileRef) (zone : ZoneRef) : Exact z (s.addZone t zone) := by
  intro x
  unfold World.addZone
  dsimp only
  by_cases hz : z = zone
  · subst hz
    rw [Function.update_self, mem_foldl_thingAdded, hexact]
    constructor
    · rintro (⟨t', hz', hx⟩ | hx)
      · refine ⟨t', ?_, hx⟩
        by_cases ht : t' = t
        · subst ht
          rw [Function.update_self]
          exact Finset.mem_insert_self ..
        · rwa [Function.update_of_ne ht]
      · exact ⟨t, by rw [Function.update_self]; exact Finset.mem_insert_self .., hx⟩
    · rintro ⟨t', hz', hx⟩
      by_cases ht : t' = t
      · exact .inr (ht ▸ hx)
      · rw [Function.update_of_ne ht] at hz'
        exact .inl ⟨t', hz', hx⟩
  · rw [Function.update_of_ne hz, hexact]
    refine exists_congr fun t' => and_congr_left fun _ => ?_
    by_cases ht : t' = t
    · subst ht
      rw [Function.update_self, Finset.mem_insert, or_iff_right hz]
    · rw [Function.update_of_ne ht]

theorem exact_clearZones (h : Sorted s) (hexact : Exact z s) (t : TileRef) : Exact z (s.clearZones isStatic t) := by
  intro x
  unfold World.clearZones
  dsimp only
  have hother {t' : TileRef} (ht : t' ≠ t) :
      z ∈ Function.update s.zones t ((s.zones t).filter fun zone => isStatic zone) t' ↔ z ∈ s.zones t' := by
    rw [Function.update_of_ne ht]
  split_ifs with hz
  · have hgone : z ∉ Function.update s.zones t ((s.zones t).filter fun zone => isStatic zone) t := by
      rw [Function.update_self, Finset.mem_filter]
      rintro ⟨-, hstatic⟩
      simp [hstatic] at hz
    rw [mem_foldl_itemRemoved, hexact]
    constructor
    · rintro ⟨⟨t', hz', hx⟩, hnot⟩
      have ht : t' ≠ t := by
        rintro rfl
        exact hnot hx
      exact ⟨t', (hother ht).mpr hz', hx⟩
    · rintro ⟨t', hz', hx⟩
      have ht : t' ≠ t := by
        rintro rfl
        exact hgone hz'
      refine ⟨⟨t', (hother ht).mp hz', hx⟩, fun hmem => ht ?_⟩
      exact h.apart (mem_present.mpr (.inr hx) : x ∈ (s.tile t').present) (mem_present.mpr (.inr hmem))
  · rw [hexact]
    refine exists_congr fun t' => and_congr_left fun _ => ?_
    by_cases ht : t' = t
    · subst ht
      rw [Function.update_self, Finset.mem_filter]
      refine ⟨fun hmem => ⟨hmem, ?_⟩, And.left⟩
      by_contra hstatic
      exact hz ⟨hmem, by simpa using hstatic⟩
    · exact (hother ht).symm

theorem exact_step_iff (h : Sorted s) (hexact : Exact z s) {op : Operation} (hproper : Proper env s op) :
    Exact z (step env isStatic s op) ↔ Told env z s op := by
  cases op with
  | addThing t item => exact exact_addThing_iff h hexact hproper
  | internalAddThing t item => exact exact_internalAddThing_iff h hexact hproper
  | replaceThing t index item => exact exact_replaceThing_iff h hexact hproper
  | removeThing t item count => exact iff_of_true (exact_removeThing h hexact t item count) trivial
  | addZone t zone => exact iff_of_true (exact_addZone hexact t zone) trivial
  | clearZones t => exact iff_of_true (exact_clearZones h hexact t) trivial

theorem Sorted.report (h : Sorted s) (t : TileRef) (calls : List Call) : Sorted (s.report t calls) := ⟨h.sound, h.apart⟩

theorem Sorted.step (h : Sorted s) {op : Operation} (hproper : Proper env s op) : Sorted (step env isStatic s op) := by
  have hfresh {t : TileRef} {item : Ref} {w : TileWorld} (hr : ∀ t', item ∉ (s.tile t').present)
      (hsub : ∀ x ∈ w.present, x = item ∨ x ∈ (s.tile t).present) :
      ∀ x ∈ w.present, x ∈ (s.tile t).present ∨ ∀ t', x ∉ (s.tile t').present := by
    intro x hx
    rcases hsub x hx with rfl | hmem
    · exact .inr hr
    · exact .inl hmem
  have hthing {t : TileRef} {item : Ref} (hr : ∀ t', item ∉ (s.tile t').present) : .item item ∉ (s.tile t).things :=
    fun hmem => hr t (item_mem_things.mp hmem)
  cases op with
  | addThing t item =>
    have hw : Sound ((s.tile t).addThing env (.item item)) := sound_addThing (h.sound t) (hthing hproper.1)
    refine (h.setTile hw (hfresh hproper.1 ?_)).report t _
    rcases addThing_spec (h.sound t) hproper.2 with ⟨-, -, hsub⟩ | ⟨-, hsame, -⟩
    · exact hsub
    · exact fun x hx => .inr (hsame.present ▸ hx)
  | internalAddThing t item =>
    have hw : Sound ((s.tile t).internalAddThing env (.item item)) := sound_internalAddThing (h.sound t) (hthing hproper.1)
    refine (h.setTile hw (hfresh hproper.1 ?_)).report t _
    rcases internalAddThing_spec (h.sound t) hproper.2 with ⟨-, -, hperm⟩ | ⟨-, hsame⟩
    · exact fun x hx => List.mem_cons.mp (hperm.mem_iff.mp hx)
    · exact fun x hx => .inr (hsame.present ▸ hx)
  | replaceThing t index item =>
    have hw : Sound ((s.tile t).replaceThing env index (.item item)) :=
      sound_replaceThing (h.sound t) index (hthing hproper.1)
    refine h.setTile hw (hfresh hproper.1 ?_)
    rcases replaceThing_spec (h.sound t) env hproper.2.2 (hproper.1 t) with ⟨-, -, hsub⟩ | ⟨-, hsame⟩
    · exact hsub
    · exact fun x hx => .inr (hsame ▸ hx)
  | removeThing t item count =>
    have hw : Sound ((s.tile t).removeThing env (.item item) count) := sound_removeThing (h.sound t) _ count
    exact (h.setTile hw fun x hx => .inl (present_removeThing (h.sound t) count hx)).report t _
  | addZone t zone => exact ⟨h.sound, h.apart⟩
  | clearZones t => exact ⟨h.sound, h.apart⟩

/-- Items of which a tile reads nothing. -/
def plainEnv : TileEnv where
  items id := plainType id .none
  classOf _ := .Item

/-- Nothing lies anywhere, and the tile 0 belongs to the zone 1. -/
def emptyZone : World where
  tiles _ := (start itemOfType).toTile
  item := itemOfType
  zones t := if t = 0 then {1} else ∅
  itemsCache _ := ∅

theorem sorted_emptyZone : Sorted emptyZone :=
  ⟨fun _ => sound_start itemOfType, fun {_ _ _} hx _ => absurd hx List.not_mem_nil⟩

theorem exact_emptyZone : Exact 1 emptyZone := by
  intro x
  refine iff_of_false (Finset.notMem_empty x) ?_
  rintro ⟨t, -, hx⟩
  exact absurd hx List.not_mem_nil

theorem proper_addThing_emptyZone (t : TileRef) (item : Ref) : Proper plainEnv emptyZone (.addThing t item) :=
  ⟨fun _ => List.not_mem_nil, Bool.false_ne_true⟩

end CrystalServer.Zones
