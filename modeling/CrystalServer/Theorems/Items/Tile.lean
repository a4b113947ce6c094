import CrystalServer.Items.Tile

/-! # Tiles: places

What the mutators do to the vector and its counter, and that `getThing` and `getThingIndex` agree on the order of the
things: ground, items always on top, creatures, other items. -/

namespace CrystalServer
namespace TileWorld

variable {env : TileEnv} {w w' : TileWorld} {r old : Ref} {c : CreatureRef}

/-! ### What lies on the tile -/

/-- The items on the tile. -/
def present (w : TileWorld) : List Ref := w.ground.toList ++ w.items

/-- The things on the tile in the order of their indices. -/
def things (w : TileWorld) : List Thing :=
  w.ground.toList.map .item ++ (w.topItems.map .item ++ (w.creatures.map .creature ++ w.downItems.map .item))

/-- Nothing lies there twice, and the counter stays inside the vector. -/
structure Sound (w : TileWorld) : Prop where
  count_le : w.downItemCount ≤ w.items.length
  nodup : w.present.Nodup
  creatures : w.creatures.Nodup

theorem downItems_append_topItems (w : TileWorld) : w.downItems ++ w.topItems = w.items := List.take_append_drop ..

theorem mem_items : r ∈ w.items ↔ r ∈ w.downItems ∨ r ∈ w.topItems := by
  rw [← downItems_append_topItems, List.mem_append]

theorem mem_present : r ∈ w.present ↔ w.ground = some r ∨ r ∈ w.items := by
  simp [present, Option.mem_toList]

theorem item_mem_things : .item r ∈ w.things ↔ r ∈ w.present := by
  simp [things, mem_present, mem_items, Option.mem_toList, or_comm]

theorem creature_mem_things : .creature c ∈ w.things ↔ c ∈ w.creatures := by simp [things]

namespace Sound

theorem length_downItems (h : Sound w) : w.downItems.length = w.downItemCount := by
  rw [Tile.downItems, List.length_take, Nat.min_eq_left h.count_le]

theorem length_topItems (_ : Sound w) : w.topItems.length = w.getTopItemCount := List.length_drop

theorem nodup_items (h : Sound w) : w.items.Nodup := h.nodup.of_append_right

theorem not_mem_of_ground (h : Sound w) (hg : w.ground = some r) : r ∉ w.items := by
  have hnodup := h.nodup
  rw [present, hg] at hnodup
  exact (List.nodup_cons.mp hnodup).1

end Sound

/-- The vector is given by its two parts. -/
theorem parts_of_eq {w : TileWorld} (down top : List Ref) (hitems : w.items = down ++ top) (hcount : w.downItemCount = down.length) :
    w.downItems = down ∧ w.topItems = top := by
  rw [Tile.downItems, Tile.topItems, hitems, hcount]
  exact ⟨List.take_left, List.drop_left⟩

/-! ### What is put in and taken out -/

/-- An item was put in, into one of the two parts. -/
structure Inserts (r : Ref) (w w' : TileWorld) : Prop where
  ground : w'.ground = w.ground
  creatures : w'.creatures = w.creatures
  parts : (w'.downItems = r :: w.downItems ∧ w'.topItems = w.topItems) ∨
    (w'.downItems = w.downItems ∧ ∃ l l', w.topItems = l ++ l' ∧ w'.topItems = l ++ r :: l')
  count_le : w'.downItemCount ≤ w'.items.length

theorem Inserts.perm (h : Inserts r w w') : w'.items.Perm (r :: w.items) := by
  rw [← downItems_append_topItems w', ← downItems_append_topItems w]
  rcases h.parts with ⟨hd, ht⟩ | ⟨hd, l, l', ht, ht'⟩
  · rw [hd, ht, List.cons_append]
  · rw [hd, ht, ht', ← List.append_assoc, ← List.append_assoc]
    exact List.perm_middle

theorem Inserts.present (h : Inserts r w w') : w'.present.Perm (r :: w.present) := by
  rw [TileWorld.present, TileWorld.present, h.ground]
  exact (h.perm.append_left _).trans List.perm_middle

theorem Inserts.sound (h : Inserts r w w') (hs : Sound w) (hr : r ∉ w.present) : Sound w' where
  count_le := h.count_le
  nodup := h.present.nodup_iff.mpr (List.nodup_cons.mpr ⟨hr, hs.nodup⟩)
  creatures := h.creatures ▸ hs.creatures

theorem inserts_insertDown (hs : w.downItemCount ≤ w.items.length) : Inserts r w (w.insertDown r) where
  ground := rfl
  creatures := rfl
  parts := .inl (by simp [insertDown, Tile.downItems, Tile.topItems])
  count_le := Nat.succ_le_succ hs

theorem inserts_insertTop (before : Ref → Bool) (hs : Sound w) : Inserts r w (w.insertTop before r) := by
  have hparts := parts_of_eq (w := w.insertTop before r) w.downItems
    (w.topItems.takeWhile (fun x => !before x) ++ r :: w.topItems.dropWhile (fun x => !before x))
    (List.append_assoc ..) hs.length_downItems.symm
  refine ⟨rfl, rfl, .inr ⟨hparts.1, _, _, List.takeWhile_append_dropWhile.symm, hparts.2⟩, ?_⟩
  rw [← downItems_append_topItems (w.insertTop before r), hparts.1, List.length_append, hs.length_downItems]
  exact Nat.le_add_right ..

/-- The item was taken off the tile, and its flags reset. -/
structure Takes (env : TileEnv) (r : Ref) (w w' : TileWorld) : Prop where
  place : (w.ground = some r ∧ w'.ground = none ∧ w'.downItems = w.downItems ∧ w'.topItems = w.topItems) ∨
    (w'.ground = w.ground ∧ r ∈ w.topItems ∧ w'.downItems = w.downItems ∧ w'.topItems = w.topItems.erase r) ∨
    (w'.ground = w.ground ∧ r ∈ w.downItems ∧ w'.downItems = w.downItems.erase r ∧ w'.topItems = w.topItems)
  count_le : w'.downItemCount ≤ w'.items.length
  creatures : w'.creatures = w.creatures
  item : w'.item = w.item
  isParentOf : w'.isParentOf = Function.update w.isParentOf (.item r) false
  flags : w'.flags = fun flag => w.flags flag && !(w.gives env r flag && w'.mayReset env r flag)

theorem Takes.present (h : Takes env r w w') : w.present.Perm (r :: w'.present) := by
  rw [TileWorld.present, TileWorld.present, ← downItems_append_topItems w, ← downItems_append_topItems w']
  rcases h.place with ⟨hg, hg', hd, ht⟩ | ⟨hg, hr, hd, ht⟩ | ⟨hg, hr, hd, ht⟩
  · rw [hg, hg', hd, ht]
    rfl
  · rw [hg, hd, ht, ← List.append_assoc, ← List.append_assoc]
    exact ((List.perm_cons_erase hr).append_left _).trans List.perm_middle
  · rw [hg, hd, ht]
    exact (((List.perm_cons_erase hr).append_right _).append_left _).trans List.perm_middle

theorem Takes.sound (h : Takes env r w w') (hs : Sound w) : Sound w' where
  count_le := h.count_le
  nodup := (List.nodup_cons.mp (h.present.nodup_iff.mp hs.nodup)).2
  creatures := h.creatures ▸ hs.creatures

/-- `removeThing` takes the item off, and does not only count it down. -/
def takesAway (env : TileEnv) (w : TileWorld) (r : Ref) (count : UInt32) : Prop :=
  w.ground = some r ∨ (w.isAlwaysOnTop env r ∧ r ∈ w.topItems) ∨
    (¬w.isAlwaysOnTop env r ∧ r ∈ w.downItems ∧
      ¬((w.itemType env r).stackable ∧ count.toNat ≠ (w.item r).getItemCount))

/-- Where `getThingIndex` looks for an item. -/
theorem getThingIndex_ne_iff : w.getThingIndex env (.item r) ≠ -1 ↔
    w.ground = some r ∨ (w.isAlwaysOnTop env r ∧ r ∈ w.topItems) ∨ (¬w.isAlwaysOnTop env r ∧ r ∈ w.downItems) := by
  have hn : (0 : Int) ≤ if w.ground.isSome then 1 else 0 := by split_ifs <;> decide
  rw [getThingIndex]
  generalize (if w.ground.isSome then (1 : Int) else 0) = n at hn ⊢
  split_ifs with hg ht
  · simp [hg]
  · rcases hi : w.topItems.idxOf? r with _ | i
    · have hr : r ∉ w.topItems := List.idxOf?_eq_none_iff.mp hi
      simp [hg, ht, hr]
    · have hr : r ∈ w.topItems := List.isSome_idxOf?.mp (by rw [hi]; rfl)
      refine iff_of_true ?_ (.inr (.inl ⟨ht, hr⟩))
      dsimp only
      omega
  · rcases hi : w.downItems.idxOf? r with _ | i
    · have hr : r ∉ w.downItems := List.idxOf?_eq_none_iff.mp hi
      simp [hg, ht, hr]
    · have hr : r ∈ w.downItems := List.isSome_idxOf?.mp (by rw [hi]; rfl)
      refine iff_of_true ?_ (.inr (.inr ⟨ht, hr⟩))
      dsimp only
      omega

theorem takes_ground (hs : Sound w) (hg : w.ground = some r) :
    Takes env r w (resetTileFlags env { w.resetParent (.item r) with ground := none } r) where
  place := .inl ⟨hg, rfl, rfl, rfl⟩
  count_le := hs.count_le
  creatures := rfl
  item := rfl
  isParentOf := rfl
  flags := rfl

theorem takes_top (hs : Sound w) (hr : r ∈ w.topItems) : Takes env r w
    ((resetTileFlags env { w with items := w.downItems ++ w.topItems.erase r } r).resetParent (.item r)) := by
  have hparts := parts_of_eq (w := (resetTileFlags env { w with items := w.downItems ++ w.topItems.erase r } r).resetParent
    (.item r)) w.downItems (w.topItems.erase r) rfl hs.length_downItems.symm
  refine ⟨.inr (.inl ⟨rfl, hr, hparts⟩), ?_, rfl, rfl, rfl, rfl⟩
  change w.downItemCount ≤ (w.downItems ++ w.topItems.erase r).length
  rw [List.length_append, hs.length_downItems]
  exact Nat.le_add_right ..

theorem takes_down (hs : Sound w) (hr : r ∈ w.downItems) : Takes env r w
    (resetTileFlags env { w.resetParent (.item r) with items := w.downItems.erase r ++ w.topItems
                                                       downItemCount := w.downItemCount - 1 } r) := by
  have hlen : w.downItemCount - 1 = (w.downItems.erase r).length := by
    rw [List.length_erase_of_mem hr, hs.length_downItems]
  have hparts := parts_of_eq (w := resetTileFlags env { w.resetParent (.item r) with
    items := w.downItems.erase r ++ w.topItems, downItemCount := w.downItemCount - 1 } r)
    (w.downItems.erase r) w.topItems rfl hlen
  refine ⟨.inr (.inr ⟨rfl, hr, hparts⟩), ?_, rfl, rfl, rfl, rfl⟩
  change w.downItemCount - 1 ≤ (w.downItems.erase r ++ w.topItems).length
  rw [List.length_append, hlen]
  exact Nat.le_add_right ..

/-- `removeThing` takes an item off, counts it down or does nothing. -/
theorem removeThing_cases (hs : Sound w) (env : TileEnv) (r : Ref) (count : UInt32) :
    (takesAway env w r count ∧ Takes env r w (w.removeThing env (.item r) count)) ∨
    (¬takesAway env w r count ∧ (w.removeThing env (.item r) count = w ∨
      r ∈ w.downItems ∧ ∃ n, w.removeThing env (.item r) count = w.modify r (·.setItemCount n))) := by
  rw [removeThing]
  split_ifs with hi hg ht hr hr hc
  · refine .inr ⟨fun h => ?_, .inl rfl⟩
    refine getThingIndex_ne_iff.mpr ?_ hi
    exact h.imp_right (.imp_right fun h => ⟨h.1, h.2.1⟩)
  · exact .inl ⟨.inl hg, takes_ground hs hg⟩
  · exact .inl ⟨.inr (.inl ⟨ht, hr⟩), takes_top hs hr⟩
  · refine .inr ⟨?_, .inl rfl⟩
    rintro (h | ⟨-, h⟩ | ⟨h, -⟩)
    · exact hg h
    · exact hr h
    · exact h ht
  · refine .inr ⟨?_, .inr ⟨hr, _, rfl⟩⟩
    rintro (h | ⟨h, -⟩ | ⟨-, -, h⟩)
    · exact hg h
    · exact ht h
    · exact h hc
  · exact .inl ⟨.inr (.inr ⟨ht, hr, hc⟩), takes_down hs hr⟩
  · refine .inr ⟨?_, .inl rfl⟩
    rintro (h | ⟨h, -⟩ | ⟨-, h, -⟩)
    · exact hg h
    · exact ht h
    · exact hr h

/-! ### What takes the place of another -/

/-- An item was put in the place of another. -/
structure Swaps (old r : Ref) (w w' : TileWorld) : Prop where
  place : (w.ground = some old ∧ w'.ground = some r ∧ w'.downItems = w.downItems ∧ w'.topItems = w.topItems) ∨
    (w'.ground = w.ground ∧ ∃ l l', (w.topItems = l ++ old :: l' ∧ w'.topItems = l ++ r :: l' ∧
      w'.downItems = w.downItems) ∨ (w.downItems = l ++ old :: l' ∧ w'.downItems = l ++ r :: l' ∧
      w'.topItems = w.topItems))
  count_le : w'.downItemCount ≤ w'.items.length
  creatures : w'.creatures = w.creatures
  flags : w'.flags = w.flags
  item : w'.item = w.item
  isParentOf : w'.isParentOf = w.isParentOf

theorem Swaps.present (h : Swaps old r w w') : ∃ l, w.present.Perm (old :: l) ∧ w'.present.Perm (r :: l) := by
  simp only [TileWorld.present, ← downItems_append_topItems]
  rcases h.place with ⟨hg, hg', hd, ht⟩ | ⟨hg, l, l', ⟨ht, ht', hd⟩ | ⟨hd, hd', ht⟩⟩
  · rw [hg, hg', hd, ht]
    exact ⟨_, .refl _, .refl _⟩
  · rw [hg, hd, ht, ht']
    simp only [← List.append_assoc]
    exact ⟨_, List.perm_middle, List.perm_middle⟩
  · rw [hg, hd, hd', ht]
    simp only [List.append_assoc, List.cons_append]
    simp only [← List.append_assoc w.ground.toList]
    exact ⟨_, List.perm_middle, List.perm_middle⟩

theorem Swaps.sound (h : Swaps old r w w') (hs : Sound w) (hr : r ∉ w.present) : Sound w' := by
  obtain ⟨l, hl, hl'⟩ := h.present
  refine ⟨h.count_le, hl'.nodup_iff.mpr (List.nodup_cons.mpr ⟨fun hm => hr ?_, ?_⟩), h.creatures ▸ hs.creatures⟩
  · exact hl.mem_iff.mpr (List.mem_cons_of_mem _ hm)
  · exact (List.nodup_cons.mp (hl.nodup_iff.mp hs.nodup)).2

/-! ### Index and thing -/

theorem getThingAbove_eq (hs : Sound w) (index : Nat) : w.getThingAbove index
    = (w.topItems.map Thing.item ++ (w.creatures.map Thing.creature ++ w.downItems.map Thing.item))[index]? := by
  have htop := hs.length_topItems
  have hdown := hs.length_downItems
  unfold getThingAbove
  dsimp only
  split_ifs with h₁ h₂ h₃
  · rw [List.getElem?_append_left (by simpa [htop] using h₁), List.getElem?_map, Tile.topItems, List.getElem?_drop]
  · rw [List.getElem?_append_right (by simpa [htop] using h₁), List.getElem?_append_left (by simpa [htop] using h₂),
      List.getElem?_map, List.length_map, htop]
  · rw [List.getElem?_append_right (by simpa [htop] using h₁), List.getElem?_append_right (by simpa [htop] using h₂),
      List.getElem?_map, List.length_map, List.length_map, htop, Tile.downItems, List.getElem?_take_of_lt h₃]
  · rw [List.getElem?_append_right (by simpa [htop] using h₁), List.getElem?_append_right (by simpa [htop] using h₂),
      List.getElem?_eq_none (by simpa [htop, hdown] using h₃)]

/-- `getThing` counts through the things. -/
theorem getThing_eq (hs : Sound w) (index : Nat) : w.getThing index = w.things[index]? := by
  unfold getThing
  split
  · rename_i hg
    rw [things, hg]
    rfl
  · rename_i hg
    rw [things, hg]
    exact getThingAbove_eq hs _
  · rename_i hg
    rw [things, hg]
    exact getThingAbove_eq hs _

theorem getThingCount_eq (w : TileWorld) : w.getThingCount = w.things.length := by
  have hitems : w.items.length = w.downItems.length + w.topItems.length := by
    rw [← List.length_append, downItems_append_topItems]
  simp only [Tile.getThingCount, things, List.length_append, List.length_map, hitems]
  omega

/-- The list before and after what `set` writes. -/
theorem exists_parts_of_getElem? {α : Type*} {l : List α} {i : Nat} {a : α} (h : l[i]? = some a) (b : α) :
    ∃ l₁ l₂, l = l₁ ++ a :: l₂ ∧ l.set i b = l₁ ++ b :: l₂ := by
  obtain ⟨hi, rfl⟩ := List.getElem?_eq_some_iff.mp h
  refine ⟨l.take i, l.drop (i + 1), ?_, List.set_eq_take_append_cons_drop.trans (if_pos hi)⟩
  rw [List.cons_getElem_drop_succ, List.take_append_drop]

theorem swaps_top (hs : Sound w) {pos : Nat} (ho : w.items[w.downItemCount + pos]? = some old) (r : Ref) :
    Swaps old r w { w with items := w.items.set (w.downItemCount + pos) r } := by
  have ho' : w.topItems[pos]? = some old := by rw [Tile.topItems, List.getElem?_drop, ho]
  obtain ⟨l, l', hl, hl'⟩ := exists_parts_of_getElem? ho' r
  refine ⟨.inr ⟨rfl, l, l', .inl ⟨hl, ?_, ?_⟩⟩, ?_, rfl, rfl, rfl, rfl⟩
  · rw [← hl', Tile.topItems, Tile.topItems, List.drop_set, if_neg (Nat.not_lt.mpr (Nat.le_add_right ..)),
      Nat.add_sub_cancel_left]
  · exact List.take_set_of_le (Nat.le_add_right ..)
  · rw [List.length_set]
    exact hs.count_le

theorem swaps_down (hs : Sound w) {pos : Nat} (hp : pos < w.downItemCount) (ho : w.items[pos]? = some old) (r : Ref) :
    Swaps old r w { w with items := w.items.set pos r } := by
  have ho' : w.downItems[pos]? = some old := by rw [Tile.downItems, List.getElem?_take_of_lt hp, ho]
  obtain ⟨l, l', hl, hl'⟩ := exists_parts_of_getElem? ho' r
  refine ⟨.inr ⟨rfl, l, l', .inr ⟨hl, ?_, ?_⟩⟩, ?_, rfl, rfl, rfl, rfl⟩
  · rw [← hl', Tile.downItems, Tile.downItems, List.take_set]
  · exact List.drop_set_of_lt hp
  · rw [List.length_set]
    exact hs.count_le

theorem replaceAbove_cases (hs : Sound w) (pos : Nat) (r : Ref) :
    (∃ old w', w.replaceAbove pos r = some (old, w') ∧ w.getThingAbove pos = some (.item old) ∧ Swaps old r w w') ∨
    (w.replaceAbove pos r = none ∧ ∀ old, w.getThingAbove pos ≠ some (.item old)) := by
  unfold replaceAbove getThingAbove
  dsimp only
  split_ifs with h₁ h₂ h₃
  · rcases ho : w.items[w.downItemCount + pos]? with _ | old
    · exact .inr ⟨rfl, nofun⟩
    · exact .inl ⟨old, _, rfl, rfl, swaps_top hs ho r⟩
  · refine .inr ⟨rfl, fun old => ?_⟩
    cases w.creatures[pos - w.getTopItemCount]? <;> simp
  · rcases ho : w.items[pos - w.getTopItemCount - w.creatures.length]? with _ | old
    · exact .inr ⟨rfl, nofun⟩
    · exact .inl ⟨old, _, rfl, rfl, swaps_down hs h₃ ho r⟩
  · exact .inr ⟨rfl, nofun⟩

/-- The item that `replaceThing` replaces is the one that `getThing` finds. -/
theorem replaceAt_cases (hs : Sound w) (index : Nat) (r : Ref) :
    (∃ old w', w.replaceAt index r = some (old, w') ∧ w.getThing index = some (.item old) ∧ Swaps old r w w') ∨
    (w.replaceAt index r = none ∧ ∀ old, w.getThing index ≠ some (.item old)) := by
  unfold replaceAt getThing
  split
  · rename_i ground hg
    exact .inl ⟨ground, _, rfl, rfl, .inl ⟨hg, rfl, rfl, rfl⟩, hs.count_le, rfl, rfl, rfl, rfl⟩
  · exact replaceAbove_cases hs _ r
  · exact replaceAbove_cases hs _ r

/-! ### Every step -/

/-- A thing is put on the tile only while it is not there. -/
def Fresh (w : TileWorld) : Action → Prop
  | .addThing thing => thing ∉ w.things
  | .internalAddThing thing => thing ∉ w.things
  | .replaceThing _ thing => thing ∉ w.things
  | _ => True

instance (w : TileWorld) : (a : Action) → Decidable (Fresh w a)
  | .addThing thing => inferInstanceAs (Decidable (thing ∉ w.things))
  | .internalAddThing thing => inferInstanceAs (Decidable (thing ∉ w.things))
  | .replaceThing _ thing => inferInstanceAs (Decidable (thing ∉ w.things))
  | .updateThing .. => .isTrue trivial
  | .removeThing .. => .isTrue trivial

/-- Nothing on the tile changes its place. -/
structure SamePlaces (w w' : TileWorld) : Prop where
  ground : w'.ground = w.ground
  items : w'.items = w.items
  downItemCount : w'.downItemCount = w.downItemCount
  creatures : w'.creatures = w.creatures

theorem SamePlaces.present (h : SamePlaces w w') : w'.present = w.present := by
  rw [TileWorld.present, TileWorld.present, h.ground, h.items]

theorem SamePlaces.sound (h : SamePlaces w w') (hs : Sound w) : Sound w' where
  count_le := h.items ▸ h.downItemCount ▸ hs.count_le
  nodup := h.present ▸ hs.nodup
  creatures := h.creatures ▸ hs.creatures

theorem samePlaces_setParent (w : TileWorld) (thing : Thing) : SamePlaces w (w.setParent thing) := ⟨rfl, rfl, rfl, rfl⟩

theorem samePlaces_resetParent (w : TileWorld) (thing : Thing) : SamePlaces w (w.resetParent thing) :=
  ⟨rfl, rfl, rfl, rfl⟩

theorem samePlaces_setTileFlags (w : TileWorld) (r : Ref) : SamePlaces w (w.setTileFlags env r) := ⟨rfl, rfl, rfl, rfl⟩

theorem samePlaces_modify (w : TileWorld) (r : Ref) (f : Item → Item) : SamePlaces w (w.modify r f) :=
  ⟨rfl, rfl, rfl, rfl⟩

/-- What `displace` leaves: the item is off the tile, or it is still there without its parent. -/
theorem displace_cases (hs : Sound w) (env : TileEnv) (old : Ref) :
    (takesAway env w old 1 ∧ Takes env old w (w.displace env old)) ∨
    (¬takesAway env w old 1 ∧ (w.displace env old = w.resetParent (.item old) ∨
      old ∈ w.downItems ∧ ∃ n, w.displace env old = (w.modify old (·.setItemCount n)).resetParent (.item old))) := by
  unfold displace
  rcases removeThing_cases hs env old 1 with ⟨ht, h⟩ | ⟨ht, h | ⟨hd, n, h⟩⟩
  · refine .inl ⟨ht, h.place, h.count_le, h.creatures, h.item, ?_, h.flags⟩
    rw [resetParent, h.isParentOf, Function.update_idem]
  · exact .inr ⟨ht, .inl (by rw [h])⟩
  · exact .inr ⟨ht, .inr ⟨hd, n, by rw [h]⟩⟩

theorem item_displace (hs : Sound w) (hne : r ≠ old) : (w.displace env old).item r = w.item r := by
  rcases displace_cases hs env old with ⟨-, h⟩ | ⟨-, h | ⟨-, n, h⟩⟩
  · exact congrFun h.item r
  · rw [h]
    rfl
  · rw [h]
    exact Function.update_of_ne hne ..

theorem sound_displace (hs : Sound w) (env : TileEnv) (old : Ref) :
    Sound (w.displace env old) ∧ ∀ x ∈ (w.displace env old).present, x ∈ w.present := by
  rcases displace_cases hs env old with ⟨-, h⟩ | ⟨-, h | ⟨-, n, h⟩⟩
  · exact ⟨h.sound hs, fun x hx => h.present.mem_iff.mpr (List.mem_cons_of_mem _ hx)⟩
  · rw [h]
    exact ⟨(samePlaces_resetParent ..).sound hs, fun x hx => hx⟩
  · rw [h]
    exact ⟨(samePlaces_resetParent ..).sound ((samePlaces_modify ..).sound hs), fun x hx => hx⟩

theorem sound_addGround (hs : Sound w) (hr : r ∉ w.present) : Sound (w.addGround env r) := by
  unfold addGround
  split
  · rename_i hg
    refine ⟨hs.count_le, List.nodup_cons.mpr ⟨fun h => hr (mem_present.mpr (.inr h)), hs.nodup_items⟩, hs.creatures⟩
  · refine ⟨hs.count_le, List.nodup_cons.mpr ⟨fun h => hr (mem_present.mpr (.inr h)), hs.nodup_items⟩, hs.creatures⟩

theorem sound_insertTop {before : Ref → Bool} (hs : Sound w) (hr : r ∉ w.present) : Sound (w.insertTop before r) :=
  (inserts_insertTop before hs).sound hs hr

theorem sound_addTopItem (hs : Sound w) (hr : r ∉ w.present) : Sound (w.addTopItem env r) := by
  unfold addTopItem
  refine (samePlaces_setTileFlags ..).sound ?_
  split
  · split_ifs
    · obtain ⟨hs', hsub⟩ := sound_displace hs env _
      exact sound_insertTop hs' fun h => hr (hsub r h)
    · exact sound_insertTop hs hr
  · exact sound_insertTop hs hr

theorem samePlaces_setWaterball (env : TileEnv) (w : TileWorld) (r : Ref) : SamePlaces w (w.setWaterball env r) := by
  unfold setWaterball
  split_ifs <;> exact ⟨rfl, rfl, rfl, rfl⟩

theorem sound_addDownItem (hs : Sound w) (hr : r ∉ w.present) : Sound (w.addDownItem env r) := by
  have hsame := samePlaces_setWaterball env w r
  refine (samePlaces_setTileFlags ..).sound ((inserts_insertDown (hsame.sound hs).count_le).sound (hsame.sound hs) ?_)
  rwa [hsame.present]

theorem sound_addCreature (hs : Sound w) (hc : c ∉ w.creatures) : Sound (w.addCreature c) :=
  ⟨hs.count_le, hs.nodup, List.nodup_cons.mpr ⟨hc, hs.creatures⟩⟩

theorem sound_addThing (hs : Sound w) {thing : Thing} (hf : thing ∉ w.things) : Sound (w.addThing env thing) := by
  cases thing with
  | creature c => exact sound_addCreature hs (mt creature_mem_things.mpr hf)
  | item r =>
    have hr : r ∉ w.present := mt item_mem_things.mpr hf
    have hs' : Sound (w.setParent (.item r)) := (samePlaces_setParent ..).sound hs
    unfold addThing
    dsimp only
    split_ifs
    · exact hs
    · exact sound_addGround hs' hr
    · exact sound_addTopItem hs' hr
    · split
      · split_ifs
        · obtain ⟨hs', hsub⟩ := sound_displace hs' env _
          exact sound_addDownItem hs' fun h => hr (hsub r h)
        · exact (samePlaces_resetParent ..).sound hs'
      · exact sound_addDownItem hs' hr
    · exact sound_addDownItem hs' hr

theorem sound_internalAddThing (hs : Sound w) {thing : Thing} (hf : thing ∉ w.things) :
    Sound (w.internalAddThing env thing) := by
  cases thing with
  | creature c => exact sound_addCreature hs (mt creature_mem_things.mpr hf)
  | item r =>
    have hr : r ∉ w.present := mt item_mem_things.mpr hf
    have hs' : Sound (w.setParent (.item r)) := (samePlaces_setParent ..).sound hs
    unfold internalAddThing
    dsimp only
    split_ifs
    · split
      · exact ⟨hs.count_le, List.nodup_cons.mpr ⟨fun h => hr (mem_present.mpr (.inr h)), hs.nodup_items⟩, hs.creatures⟩
      · exact hs'
    · exact hs'
    · exact (samePlaces_setTileFlags ..).sound (sound_insertTop hs' hr)
    · exact (samePlaces_setTileFlags ..).sound ((inserts_insertDown hs'.count_le).sound hs' hr)

theorem sound_updateThing (hs : Sound w) (thing : Thing) (itemId : UInt16) (count : UInt32) :
    Sound (w.updateThing env thing itemId count) := by
  unfold updateThing
  split
  · exact hs
  · split_ifs
    · exact hs
    · exact ⟨hs.count_le, hs.nodup, hs.creatures⟩

theorem sound_replaceThing (hs : Sound w) (index : Nat) {thing : Thing} (hf : thing ∉ w.things) :
    Sound (w.replaceThing env index thing) := by
  cases thing with
  | creature c => exact hs
  | item r =>
    rcases replaceAt_cases hs index r with ⟨old, w', h, -, hswap⟩ | ⟨h, -⟩
    · have hs' := hswap.sound hs (mt item_mem_things.mpr hf)
      rw [replaceThing, h]
      exact ⟨hs'.count_le, hs'.nodup, hs'.creatures⟩
    · rw [replaceThing, h]
      exact hs

theorem sound_removeThing (hs : Sound w) (thing : Thing) (count : UInt32) :
    Sound (w.removeThing env thing count) := by
  cases thing with
  | creature c => exact ⟨hs.count_le, hs.nodup, hs.creatures.erase c⟩
  | item r =>
    rcases removeThing_cases hs env r count with ⟨-, h⟩ | ⟨-, h | ⟨-, n, h⟩⟩
    · exact h.sound hs
    · rw [h]
      exact hs
    · rw [h]
      exact (samePlaces_modify ..).sound hs

theorem sound_step (hs : Sound w) {a : Action} (hf : Fresh w a) : Sound (step env w a) := by
  cases a with
  | addThing thing => exact sound_addThing hs hf
  | internalAddThing thing => exact sound_internalAddThing hs hf
  | updateThing thing itemId count => exact sound_updateThing hs thing itemId count
  | replaceThing index thing => exact sound_replaceThing hs index hf
  | removeThing thing count => exact sound_removeThing hs thing count

theorem sound_start (item : Ref → Item) : Sound (start item) := ⟨Nat.le_refl _, List.nodup_nil, List.nodup_nil⟩

/-! ### Items for examples -/

/-- A type of which a tile reads nothing. -/
def plainType (id : UInt16) (group : ItemGroup) : TileItemType where
  id := id
  group := group
  stackable := false
  stackSize := 1
  weight := 0
  charges := 0
  decayTime := 0
  decayTo := -1
  stopTime := false
  pickupable := false
  movable := false
  isCorpse := false
  isQuiver := false
  isAmmo := false
  weaponType := .none
  slotPosition := 0
  plain := nofun
  alwaysOnTopOrder := 0
  isMagicField := false
  replaceable := false
  blockSolid := false
  hasHeight := false
  blockProjectile := false
  blockPathFind := false
  isVertical := false
  isHorizontal := false
  floorChange := none

/-- The item of a pointer has the type of the same number. -/
def itemOfType (r : Ref) : Item := ⟨.ofNat r, 1, none, none, none⟩

end TileWorld
end CrystalServer
