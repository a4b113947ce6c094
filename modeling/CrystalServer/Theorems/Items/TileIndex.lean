import CrystalServer.Theorems.Items.Container
import CrystalServer.Theorems.Items.Tile

/-! # Tiles: the representation

One vector holds the items that are not always on top, then the others in their order. `getThingIndex` and `getThing`
go through them in turn, and the things there have the tile as their parent. -/

namespace CrystalServer

/-- Where an item of the type goes. -/
inductive StackingKind where
  | ground
  | alwaysOnTop (order : UInt8)
  | neither
  deriving DecidableEq

def TileItemType.stackingKind (it : TileItemType) : StackingKind :=
  if it.isGroundTile then .ground else if it.alwaysOnTopOrder ≠ 0 then .alwaysOnTop it.alwaysOnTopOrder else .neither

def StackingKind.order : StackingKind → UInt8
  | .alwaysOnTop order => order
  | _ => 0

namespace TileWorld

variable {env : TileEnv} {w w' w₁ : TileWorld} {r old x : Ref}

def kind (env : TileEnv) (w : TileWorld) (r : Ref) : StackingKind := (w.itemType env r).stackingKind

/-! ### Kinds -/

theorem kind_of_top (hg : ¬(w.itemType env r).isGroundTile) (ht : w.isAlwaysOnTop env r) :
    w.kind env r = .alwaysOnTop (w.itemType env r).alwaysOnTopOrder := by
  have ht : (w.itemType env r).alwaysOnTopOrder ≠ 0 := of_decide_eq_true ht
  rw [kind, TileItemType.stackingKind, if_neg hg, if_pos ht]

theorem kind_of_down (hg : ¬(w.itemType env r).isGroundTile) (ht : ¬w.isAlwaysOnTop env r) : w.kind env r = .neither := by
  have ht : ¬(w.itemType env r).alwaysOnTopOrder ≠ 0 := fun h => ht (decide_eq_true h)
  rw [kind, TileItemType.stackingKind, if_neg hg, if_neg ht]

theorem isAlwaysOnTop_of_kind {order : UInt8} (h : w.kind env r = .alwaysOnTop order) : w.isAlwaysOnTop env r := by
  unfold kind TileItemType.stackingKind at h
  split_ifs at h with hg ht
  exact decide_eq_true ht

theorem not_isAlwaysOnTop_of_kind (h : w.kind env r = .neither) : ¬w.isAlwaysOnTop env r := by
  unfold kind TileItemType.stackingKind at h
  split_ifs at h with hg ht
  exact fun h' => ht (of_decide_eq_true h')

theorem order_of_kind {order : UInt8} (h : w.kind env r = .alwaysOnTop order) :
    (w.itemType env r).alwaysOnTopOrder = order := by
  unfold kind TileItemType.stackingKind at h
  split_ifs at h with hg ht
  exact StackingKind.alwaysOnTop.inj h

/-! ### The order of the items -/

/-- Each part of the vector has its kinds, and the items on top are in their order. -/
structure Ordered (env : TileEnv) (w : TileWorld) : Prop where
  sound : Sound w
  down : ∀ r ∈ w.downItems, w.kind env r = .neither
  top : ∀ r ∈ w.topItems, ∃ order, w.kind env r = .alwaysOnTop order
  sorted : w.topItems.Pairwise fun a b => (w.kind env a).order ≤ (w.kind env b).order

theorem SamePlaces.downItems (h : SamePlaces w w') : w'.downItems = w.downItems := by
  rw [Tile.downItems, Tile.downItems, h.items, h.downItemCount]

theorem SamePlaces.topItems (h : SamePlaces w w') : w'.topItems = w.topItems := by
  rw [Tile.topItems, Tile.topItems, h.items, h.downItemCount]

/-- The kinds are read of the items on the tile only. -/
theorem Ordered.of_kinds (h : Ordered env w) (hs : Sound w') (hd : w'.downItems = w.downItems)
    (ht : w'.topItems = w.topItems) (hkind : ∀ x ∈ w.items, w'.kind env x = w.kind env x) : Ordered env w' where
  sound := hs
  down x hx := by
    rw [hd] at hx
    rw [hkind x (mem_items.mpr (.inl hx)), h.down x hx]
  top x hx := by
    rw [ht] at hx
    obtain ⟨order, ho⟩ := h.top x hx
    exact ⟨order, (hkind x (mem_items.mpr (.inr hx))).trans ho⟩
  sorted := by
    rw [ht]
    refine h.sorted.imp_of_mem fun hx hy hle => ?_
    rwa [hkind _ (mem_items.mpr (.inr hx)), hkind _ (mem_items.mpr (.inr hy))]

theorem Ordered.of_same (h : Ordered env w) (hsame : SamePlaces w w')
    (hkind : ∀ x ∈ w.items, w'.kind env x = w.kind env x) : Ordered env w' :=
  h.of_kinds (hsame.sound h.sound) hsame.downItems hsame.topItems hkind

theorem kind_of_item (h : w'.item x = w.item x) : w'.kind env x = w.kind env x := by
  unfold kind itemType
  rw [h]

theorem kind_setItemCount (n : Nat) : (w.modify r (·.setItemCount n)).kind env x = w.kind env x := by
  by_cases h : x = r
  · subst h
    simp [kind, itemType, modify, Item.setItemCount]
  · exact kind_of_item (Function.update_of_ne h ..)

theorem Takes.ordered (h : Takes env old w w') (ho : Ordered env w) : Ordered env w' := by
  have hkind : ∀ x, w'.kind env x = w.kind env x := fun x => kind_of_item (congrFun h.item x)
  have hd : ∀ x ∈ w'.downItems, x ∈ w.downItems := by
    rcases h.place with ⟨-, -, hd, -⟩ | ⟨-, -, hd, -⟩ | ⟨-, -, hd, -⟩
    · exact fun x hx => hd ▸ hx
    · exact fun x hx => hd ▸ hx
    · exact fun x hx => List.mem_of_mem_erase (hd ▸ hx)
  have ht : w'.topItems.Sublist w.topItems := by
    rcases h.place with ⟨-, -, -, ht⟩ | ⟨-, -, -, ht⟩ | ⟨-, -, -, ht⟩
    · exact ht ▸ .refl _
    · exact ht ▸ List.erase_sublist
    · exact ht ▸ .refl _
  refine ⟨h.sound ho.sound, fun x hx => ?_, fun x hx => ?_, ?_⟩
  · rw [hkind]
    exact ho.down x (hd x hx)
  · rw [hkind]
    exact ho.top x (ht.subset hx)
  · simp only [hkind]
    exact ho.sorted.sublist ht

theorem Ordered.insertDown (h : Ordered env w) (hr : r ∉ w.present) (hk : w.kind env r = .neither) :
    Ordered env (w.insertDown r) := by
  have hins := inserts_insertDown (r := r) h.sound.count_le
  have hparts : (w.insertDown r).downItems = r :: w.downItems ∧ (w.insertDown r).topItems = w.topItems := by
    simp [TileWorld.insertDown, Tile.downItems, Tile.topItems]
  refine ⟨hins.sound h.sound hr, fun x hx => ?_, fun x hx => ?_, ?_⟩
  · rw [hparts.1] at hx
    rcases List.mem_cons.mp hx with rfl | hx
    · exact hk
    · exact h.down x hx
  · rw [hparts.2] at hx
    exact h.top x hx
  · rw [hparts.2]
    exact h.sorted

/-- Inserting before the first that is not smaller keeps a list in order. -/
theorem pairwise_insert {α : Type*} {le : α → α → Prop} {l : List α} {a : α} {before : α → Bool} (h : l.Pairwise le)
    (htrans : ∀ x y, le a x → le x y → le a y) (hb : ∀ x ∈ l, before x = true → le a x)
    (hn : ∀ x ∈ l, before x = false → le x a) :
    (l.takeWhile (fun x => !before x) ++ a :: l.dropWhile (fun x => !before x)).Pairwise le := by
  induction l with
  | nil => exact List.pairwise_singleton ..
  | cons y l ih =>
    obtain ⟨hy, hl⟩ := List.pairwise_cons.mp h
    cases hby : before y with
    | true =>
      simp only [List.takeWhile_cons, List.dropWhile_cons, hby, Bool.not_true, Bool.false_eq_true, if_false,
        List.nil_append]
      have hay := hb y List.mem_cons_self hby
      refine List.pairwise_cons.mpr ⟨fun x hx => ?_, h⟩
      rcases List.mem_cons.mp hx with rfl | hx
      · exact hay
      · exact htrans y x hay (hy x hx)
    | false =>
      simp only [List.takeWhile_cons, List.dropWhile_cons, hby, Bool.not_false, if_true, List.cons_append]
      refine List.pairwise_cons.mpr ⟨fun x hx => ?_, ih hl (fun x hx => hb x (List.mem_cons_of_mem _ hx))
        fun x hx => hn x (List.mem_cons_of_mem _ hx)⟩
      rcases List.mem_append.mp hx with hx | hx
      · exact hy x (List.takeWhile_subset _ hx)
      · rcases List.mem_cons.mp hx with rfl | hx
        · exact hn y List.mem_cons_self hby
        · exact hy x (List.dropWhile_subset _ hx)

theorem Ordered.insertTop {before : Ref → Bool} {order : UInt8} (h : Ordered env w) (hr : r ∉ w.present)
    (hk : w.kind env r = .alwaysOnTop order) (hb : ∀ x ∈ w.topItems, before x = true → order ≤ (w.kind env x).order)
    (hn : ∀ x ∈ w.topItems, before x = false → (w.kind env x).order ≤ order) : Ordered env (w.insertTop before r) := by
  have hins := inserts_insertTop (r := r) before h.sound
  obtain ⟨hd, ht⟩ := parts_of_eq (w := w.insertTop before r) w.downItems
    (w.topItems.takeWhile (fun x => !before x) ++ r :: w.topItems.dropWhile (fun x => !before x))
    (List.append_assoc ..) h.sound.length_downItems.symm
  refine ⟨hins.sound h.sound hr, fun x hx => h.down x (hd ▸ hx), fun x hx => ?_, ?_⟩
  · rw [ht] at hx
    rcases List.mem_append.mp hx with hx | hx
    · exact h.top x (List.takeWhile_subset _ hx)
    · rcases List.mem_cons.mp hx with rfl | hx
      · exact ⟨order, hk⟩
      · exact h.top x (List.dropWhile_subset _ hx)
  · rw [ht]
    refine pairwise_insert h.sorted (fun x y => UInt8.le_trans) (fun x hx hbx => ?_) fun x hx hnx => ?_
    · change (w.kind env r).order ≤ _
      rw [hk]
      exact hb x hx hbx
    · change _ ≤ (w.kind env r).order
      rw [hk]
      exact hn x hx hnx

theorem Ordered.kind_order (h : Ordered env w) (hx : x ∈ w.topItems) :
    (w.kind env x).order = (w.itemType env x).alwaysOnTopOrder := by
  obtain ⟨order, ho⟩ := h.top x hx
  rw [ho, order_of_kind ho, StackingKind.order]

theorem Swaps.ordered (h : Swaps old r w w') (ho : Ordered env w) (hr : r ∉ w.present)
    (hk : w.kind env r = w.kind env old) : Ordered env w' := by
  have hkind : ∀ x, w'.kind env x = w.kind env x := fun x => kind_of_item (congrFun h.item x)
  have hs := h.sound ho.sound hr
  rcases h.place with ⟨-, -, hd, ht⟩ | ⟨-, l, l', ⟨ht, ht', hd⟩ | ⟨hd, hd', ht⟩⟩
  · exact ho.of_kinds hs hd ht fun x _ => hkind x
  · refine ⟨hs, fun x hx => (hkind x).trans (ho.down x (hd ▸ hx)), fun x hx => ?_, ?_⟩
    · rw [hkind]
      rw [ht'] at hx
      rcases List.mem_append.mp hx with hx | hx
      · exact ho.top x (ht ▸ List.mem_append_left _ hx)
      · rcases List.mem_cons.mp hx with rfl | hx
        · rw [hk]
          exact ho.top old (ht ▸ List.mem_append_right _ List.mem_cons_self)
        · exact ho.top x (ht ▸ List.mem_append_right _ (List.mem_cons_of_mem _ hx))
    · have hsorted := ho.sorted
      simp only [hkind]
      rw [ht, List.pairwise_append, List.pairwise_cons] at hsorted
      rw [ht', List.pairwise_append, List.pairwise_cons, hk]
      refine ⟨hsorted.1, hsorted.2.1, fun a ha b hb => ?_⟩
      rcases List.mem_cons.mp hb with rfl | hb
      · rw [hk]
        exact hsorted.2.2 a ha old List.mem_cons_self
      · exact hsorted.2.2 a ha b (List.mem_cons_of_mem _ hb)
  · refine ⟨hs, fun x hx => ?_, fun x hx => ?_, ?_⟩
    · rw [hkind]
      rw [hd'] at hx
      rcases List.mem_append.mp hx with hx | hx
      · exact ho.down x (hd ▸ List.mem_append_left _ hx)
      · rcases List.mem_cons.mp hx with rfl | hx
        · rw [hk]
          exact ho.down old (hd ▸ List.mem_append_right _ List.mem_cons_self)
        · exact ho.down x (hd ▸ List.mem_append_right _ (List.mem_cons_of_mem _ hx))
    · rw [hkind]
      exact ho.top x (ht ▸ hx)
    · simp only [hkind]
      rw [ht]
      exact ho.sorted

theorem Ordered.displace (h : Ordered env w) (old : Ref) : Ordered env (w.displace env old) := by
  rcases displace_cases h.sound env old with ⟨-, ht⟩ | ⟨-, h' | ⟨-, n, h'⟩⟩
  · exact ht.ordered h
  · rw [h']
    exact h.of_same (samePlaces_resetParent ..) fun _ _ => rfl
  · rw [h']
    exact (h.of_same (samePlaces_modify ..) fun _ _ => kind_setItemCount n).of_same (samePlaces_resetParent ..)
      fun _ _ => rfl

theorem kind_displace (hs : Sound w) : (w.displace env old).kind env x = w.kind env x := by
  rcases displace_cases hs env old with ⟨-, h⟩ | ⟨-, h | ⟨-, n, h⟩⟩
  · exact kind_of_item (congrFun h.item x)
  · rw [h]
    rfl
  · rw [h]
    exact kind_setItemCount n

/-! ### What each step keeps of the order -/

/-- Updates and replacements keep the stacking kind. -/
def KeepsKind (env : TileEnv) (w : TileWorld) : Action → Prop
  | .addThing (.item r) => (w.item r).id = ITEM_WATERBALL_SPLASH →
    (env.items ITEM_WATERBALL).stackingKind = w.kind env r
  | .updateThing (.item r) itemId _ => (env.items itemId).stackingKind = w.kind env r
  | .replaceThing index (.item r) => ∀ old, w.getThing index = some (.item old) → w.kind env r = w.kind env old
  | _ => True

theorem ordered_addGround (h : Ordered env w) (hr : r ∉ w.present) : Ordered env (w.addGround env r) := by
  refine h.of_kinds (sound_addGround h.sound hr) ?_ ?_ fun x _ => ?_
  all_goals
    unfold addGround
    split <;> rfl

theorem ordered_addTopItem (h : Ordered env w) (hr : r ∉ w.present) (hg : ¬(w.itemType env r).isGroundTile)
    (ht : w.isAlwaysOnTop env r) : Ordered env (w.addTopItem env r) := by
  have hk := kind_of_top hg ht
  -- the order is that of the item when it comes, whatever was taken off for it
  have hinsert : ∀ {w₁ : TileWorld}, Ordered env w₁ → r ∉ w₁.present → w₁.kind env r = w.kind env r →
      Ordered env (w₁.insertTop
        (fun x => (w.itemType env r).alwaysOnTopOrder ≤ (w₁.itemType env x).alwaysOnTopOrder) r) := by
    intro w₁ h₁ hr₁ hk₁
    refine h₁.insertTop hr₁ (hk₁.trans hk) (fun x hx hb => ?_) fun x hx hn => ?_
    · rw [h₁.kind_order hx]
      exact of_decide_eq_true hb
    · rw [h₁.kind_order hx]
      exact UInt8.le_of_lt (UInt8.not_le.mp (of_decide_eq_false hn))
  unfold addTopItem
  refine Ordered.of_same ?_ (samePlaces_setTileFlags ..) fun _ _ => rfl
  split
  · split_ifs
    · refine hinsert (h.displace _) (fun hm => hr ((sound_displace h.sound env _).2 r hm)) (kind_displace h.sound)
    · exact hinsert h hr rfl
  · exact hinsert h hr rfl

theorem kind_setWaterball (hball : (w.item r).id = ITEM_WATERBALL_SPLASH →
    (env.items ITEM_WATERBALL).stackingKind = w.kind env r) : (w.setWaterball env r).kind env x = w.kind env x := by
  unfold setWaterball
  split_ifs with h
  · by_cases hx : x = r
    · subst hx
      rw [← hball h.1]
      obtain ⟨as, has⟩ := Item.setID_eq env.types (w.item x) ITEM_WATERBALL
      simp [kind, itemType, modify, has]
    · exact kind_of_item (Function.update_of_ne hx ..)
  · rfl

theorem ordered_addDownItem (h : Ordered env w) (hr : r ∉ w.present) (hk : w.kind env r = .neither)
    (hball : (w.item r).id = ITEM_WATERBALL_SPLASH → (env.items ITEM_WATERBALL).stackingKind = w.kind env r) :
    Ordered env (w.addDownItem env r) := by
  have hsame := samePlaces_setWaterball env w r
  have h' : Ordered env (w.setWaterball env r) := h.of_same hsame fun _ _ => kind_setWaterball hball
  refine Ordered.of_same (h'.insertDown ?_ ?_) (samePlaces_setTileFlags ..) fun _ _ => rfl
  · rwa [hsame.present]
  · rw [kind_setWaterball hball, hk]

theorem ordered_addThing (h : Ordered env w) (hr : .item r ∉ w.things) (hk : KeepsKind env w (.addThing (.item r))) :
    Ordered env (w.addThing env (.item r)) := by
  have hr : r ∉ w.present := mt item_mem_things.mpr hr
  have h' : Ordered env (w.setParent (.item r)) := h.of_same (samePlaces_setParent ..) fun _ _ => rfl
  unfold addThing
  dsimp only
  split_ifs with hfull hground htop hfield
  · exact h
  · exact ordered_addGround h' hr
  · exact ordered_addTopItem h' hr hground htop
  · have hkind := kind_of_down hground htop
    split
    · rename_i old hold
      split_ifs
      · have hmem : old ∈ w.present :=
          mem_present.mpr (.inr (mem_items.mpr (.inl (List.mem_of_find?_eq_some hold))))
        have hne : r ≠ old := by
          rintro rfl
          exact hr hmem
        refine ordered_addDownItem (h'.displace old) (fun hm => hr ((sound_displace h'.sound env old).2 r hm))
          ((kind_displace h'.sound).trans hkind) fun hid => ?_
        rw [kind_displace h'.sound]
        refine hk ?_
        rwa [item_displace h'.sound hne] at hid
      · exact h'.of_same (samePlaces_resetParent ..) fun _ _ => rfl
    · exact ordered_addDownItem h' hr hkind hk
  · exact ordered_addDownItem h' hr (kind_of_down hground htop) hk

theorem ordered_internalAddThing (h : Ordered env w) (hr : .item r ∉ w.things) :
    Ordered env (w.internalAddThing env (.item r)) := by
  have hr : r ∉ w.present := mt item_mem_things.mpr hr
  have h' : Ordered env (w.setParent (.item r)) := h.of_same (samePlaces_setParent ..) fun _ _ => rfl
  unfold internalAddThing
  dsimp only
  split_ifs with hground hfull htop
  · split
    · exact h'.of_kinds ⟨h.sound.count_le, List.nodup_cons.mpr ⟨fun hm => hr (mem_present.mpr (.inr hm)),
        h.sound.nodup_items⟩, h.sound.creatures⟩ rfl rfl fun _ _ => rfl
    · exact h'
  · exact h'
  · refine Ordered.of_same (h'.insertTop hr (kind_of_top hground htop) (fun x hx hb => ?_) fun x hx hn => ?_)
      (samePlaces_setTileFlags ..) fun _ _ => rfl
    · rw [h'.kind_order hx]
      exact UInt8.le_of_lt (of_decide_eq_true hb)
    · rw [h'.kind_order hx]
      exact UInt8.not_lt.mp (of_decide_eq_false hn)
  · exact Ordered.of_same (h'.insertDown hr (kind_of_down hground htop)) (samePlaces_setTileFlags ..) fun _ _ => rfl

theorem ordered_updateThing (h : Ordered env w) {itemId : UInt16} {count : UInt32}
    (hk : KeepsKind env w (.updateThing (.item r) itemId count)) :
    Ordered env (w.updateThing env (.item r) itemId count) := by
  unfold updateThing
  dsimp only
  split_ifs
  · exact h
  · refine h.of_same ⟨rfl, rfl, rfl, rfl⟩ fun x _ => ?_
    by_cases hx : x = r
    · subst hx
      rw [← show _ = w.kind env x from hk]
      obtain ⟨as, n, has⟩ := Item.setID_setSubType_eq env.types (w.item x) itemId count.toUInt16
      simp [kind, itemType, modify, setTileFlags, resetTileFlags, has]
    · exact kind_of_item (Function.update_of_ne hx ..)

theorem ordered_step (h : Ordered env w) {a : Action} (hf : Fresh w a) (hk : KeepsKind env w a) :
    Ordered env (step env w a) := by
  have hs : Sound (step env w a) := sound_step h.sound hf
  cases a with
  | addThing thing =>
    cases thing with
    | item r => exact ordered_addThing h hf hk
    | creature c => exact h.of_kinds hs rfl rfl fun _ _ => rfl
  | internalAddThing thing =>
    cases thing with
    | item r => exact ordered_internalAddThing h hf
    | creature c => exact h.of_kinds hs rfl rfl fun _ _ => rfl
  | updateThing thing itemId count =>
    cases thing with
    | item r => exact ordered_updateThing h hk
    | creature c => exact h
  | replaceThing index thing =>
    cases thing with
    | item r =>
      change Ordered env (w.replaceThing env index (.item r))
      rcases replaceAt_cases h.sound index r with ⟨old, w', hw, hget, hswap⟩ | ⟨hw, -⟩
      · rw [replaceThing, hw]
        exact (hswap.ordered h (mt item_mem_things.mpr hf) (hk old hget)).of_same ⟨rfl, rfl, rfl, rfl⟩ fun _ _ => rfl
      · rw [replaceThing, hw]
        exact h
    | creature c => exact h
  | removeThing thing count =>
    cases thing with
    | item r =>
      change Ordered env (w.removeThing env (.item r) count)
      rcases removeThing_cases h.sound env r count with ⟨-, ht⟩ | ⟨-, hw | ⟨-, n, hw⟩⟩
      · exact ht.ordered h
      · rw [hw]
        exact h
      · rw [hw]
        exact h.of_same (samePlaces_modify ..) fun _ _ => kind_setItemCount n
    | creature c => exact h.of_kinds hs rfl rfl fun _ _ => rfl

/-! ### Index and thing -/

theorem idxOf?_append {α : Type*} [BEq α] (l l' : List α) (a : α) :
    (l ++ l').idxOf? a = (l.idxOf? a).or ((l'.idxOf? a).map (· + l.length)) :=
  List.findIdx?_append

theorem idxOf?_map {α β : Type*} [DecidableEq α] [DecidableEq β] {f : α → β} (hf : Function.Injective f) (l : List α)
    (a : α) : (l.map f).idxOf? (f a) = l.idxOf? a := by
  rw [List.idxOf?, List.findIdx?_map, List.idxOf?]
  congr 1
  funext x
  rw [Bool.eq_iff_iff]
  simp [hf.eq_iff]

theorem things_nodup (hs : Sound w) : w.things.Nodup := by
  have hitem : Function.Injective Thing.item := fun _ _ => Thing.item.inj
  have hcreature : Function.Injective Thing.creature := fun _ _ => Thing.creature.inj
  have hnodup := hs.nodup
  rw [present, ← downItems_append_topItems, List.nodup_append, List.nodup_append] at hnodup
  obtain ⟨hground, ⟨hdown, htop, hparts⟩, hrest⟩ := hnodup
  refine List.nodup_append.mpr ⟨hground.map hitem, List.nodup_append.mpr ⟨htop.map hitem, List.nodup_append.mpr
    ⟨hs.creatures.map hcreature, hdown.map hitem, by simp⟩, ?_⟩, ?_⟩
  · simp only [List.mem_append, List.mem_map]
    rintro _ ⟨a, ha, rfl⟩ _ (⟨c, -, rfl⟩ | ⟨b, hb, rfl⟩)
    · rintro ⟨⟩
    · exact fun heq => hparts b hb a ha (hitem heq).symm
  · simp only [List.mem_append, List.mem_map]
    rintro _ ⟨a, ha, rfl⟩ _ (⟨b, hb, rfl⟩ | ⟨c, -, rfl⟩ | ⟨b, hb, rfl⟩)
    · exact fun heq => hrest a ha b (List.mem_append_right _ hb) (hitem heq)
    · rintro ⟨⟩
    · exact fun heq => hrest a ha b (List.mem_append_left _ hb) (hitem heq)

/-- `getThingIndex` counts through the things. -/
theorem getThingIndex_eq (h : Ordered env w) (thing : Thing) :
    w.getThingIndex env thing = (w.things.idxOf? thing).elim (-1) Int.ofNat := by
  have hitem : Function.Injective Thing.item := fun _ _ => Thing.item.inj
  have hcreature : Function.Injective Thing.creature := fun _ _ => Thing.creature.inj
  have hni : ∀ (l : List CreatureRef) r, (l.map Thing.creature).idxOf? (.item r) = none := by simp
  have hnc : ∀ (l : List Ref) c, (l.map Thing.item).idxOf? (.creature c) = none := by simp
  have hlen : (w.ground.toList.length : Int) = if w.ground.isSome then 1 else 0 := by cases w.ground <;> rfl
  rw [things]
  cases thing with
  | creature c =>
    unfold getThingIndex
    rw [← hlen]
    simp only [idxOf?_append, hnc, idxOf?_map hcreature, Option.none_or, Option.map_none, Option.or_none,
      List.length_map, h.sound.length_topItems]
    rcases w.creatures.idxOf? c with _ | i
    · rfl
    · simp only [Option.map_some, Option.elim, Int.ofNat_eq_natCast]
      omega
  | item r =>
    have hdown : r ∈ w.downItems → ¬w.isAlwaysOnTop env r := fun hr => not_isAlwaysOnTop_of_kind (h.down r hr)
    have htop : r ∈ w.topItems → w.isAlwaysOnTop env r := fun hr => isAlwaysOnTop_of_kind (h.top r hr).choose_spec
    have hground : w.ground.toList.idxOf? r = if w.ground = some r then some 0 else none := by
      cases hg : w.ground <;> simp [List.idxOf?_cons]
    unfold getThingIndex
    rw [← hlen]
    simp only [idxOf?_append, hni, idxOf?_map hitem, Option.none_or, List.length_map, h.sound.length_topItems, hground]
    split_ifs with hg ht
    · rfl
    · rw [List.idxOf?_eq_none_iff.mpr fun hr => hdown hr ht]
      rcases w.topItems.idxOf? r with _ | i
      · rfl
      · simp only [Option.map_some, Option.some_or, Option.none_or, Option.elim, Int.ofNat_eq_natCast]
        omega
    · rw [List.idxOf?_eq_none_iff.mpr fun hr => ht (htop hr)]
      rcases w.downItems.idxOf? r with _ | i
      · rfl
      · simp only [Option.map_some, Option.none_or, Option.elim, Int.ofNat_eq_natCast]
        omega

/-- The vector and its counter, and index and thing: they agree. -/
structure Indexed (env : TileEnv) (w : TileWorld) : Prop where
  downItemCount : w.downItemCount = (w.items.filter fun r => !w.isAlwaysOnTop env r).length
  down : ∀ r ∈ w.downItems, ¬w.isAlwaysOnTop env r
  top : ∀ r ∈ w.topItems, w.isAlwaysOnTop env r
  sorted : w.topItems.Pairwise fun a b => (w.itemType env a).alwaysOnTopOrder ≤ (w.itemType env b).alwaysOnTopOrder
  nodup : w.things.Nodup
  index_thing : ∀ i, i < w.getThingCount → ∃ thing, w.getThing i = some thing ∧ w.getThingIndex env thing = i
  thing_index : ∀ thing ∈ w.things, ∃ i : Nat, w.getThingIndex env thing = i ∧ w.getThing i = some thing
  absent : ∀ thing, thing ∉ w.things → w.getThingIndex env thing = -1

theorem Ordered.indexed (h : Ordered env w) : Indexed env w := by
  have hdown : ∀ r ∈ w.downItems, ¬w.isAlwaysOnTop env r := fun r hr => not_isAlwaysOnTop_of_kind (h.down r hr)
  have htop : ∀ r ∈ w.topItems, w.isAlwaysOnTop env r := fun r hr => isAlwaysOnTop_of_kind (h.top r hr).choose_spec
  have hnodup := things_nodup h.sound
  refine ⟨?_, hdown, htop, ?_, hnodup, fun i hi => ?_, fun thing ht => ?_, fun thing ht => ?_⟩
  · rw [← downItems_append_topItems, List.filter_append, List.filter_eq_self.mpr (fun r hr => by simpa using hdown r hr),
      List.filter_eq_nil_iff.mpr (fun r hr => by simpa using htop r hr), List.append_nil, h.sound.length_downItems]
  · refine h.sorted.imp_of_mem fun hx hy hle => ?_
    rwa [h.kind_order hx, h.kind_order hy] at hle
  · rw [getThingCount_eq] at hi
    refine ⟨w.things[i], (getThing_eq h.sound i).trans (List.getElem?_eq_getElem hi), ?_⟩
    have hidx : w.things.idxOf? w.things[i] = some i :=
      List.idxOf?_eq_some_iff.mpr ⟨hi, rfl, fun j hj heq => Nat.ne_of_lt hj (hnodup.getElem_inj_iff.mp heq)⟩
    rw [getThingIndex_eq h, hidx]
    rfl
  · rcases hidx : w.things.idxOf? thing with _ | i
    · exact absurd ht (List.idxOf?_eq_none_iff.mp hidx)
    · obtain ⟨hi, rfl, -⟩ := List.idxOf?_eq_some_iff.mp hidx
      refine ⟨i, ?_, (getThing_eq h.sound i).trans (List.getElem?_eq_getElem hi)⟩
      rw [getThingIndex_eq h, hidx]
      rfl
  · rw [getThingIndex_eq h, List.idxOf?_eq_none_iff.mpr ht]
    rfl

/-! ### Parents -/

/-- The tile is the parent of the items on it and of no other, and of the creatures on it. -/
structure Held (w : TileWorld) : Prop where
  items : ∀ x, w.isParentOf (.item x) = true ↔ x ∈ w.present
  creatures : ∀ c ∈ w.creatures, w.isParentOf (.creature c) = true

/-- So it is but for an item that comes, which has its parent already. -/
structure Coming (r : Ref) (w : TileWorld) : Prop where
  fresh : r ∉ w.present
  items : ∀ x, w.isParentOf (.item x) = true ↔ x = r ∨ x ∈ w.present
  creatures : ∀ c ∈ w.creatures, w.isParentOf (.creature c) = true

theorem update_creature (f : Thing → Bool) (r : Ref) (b : Bool) (c : CreatureRef) :
    Function.update f (.item r) b (.creature c) = f (.creature c) :=
  Function.update_of_ne (show Thing.creature c ≠ .item r from nofun) b f

theorem update_item (f : Thing → Bool) (b : Bool) (hx : x ≠ r) : Function.update f (.item r) b (.item x) = f (.item x) :=
  Function.update_of_ne (fun heq => hx (Thing.item.inj heq)) ..

theorem Held.coming (h : Held w) (hr : r ∉ w.present) : Coming r (w.setParent (.item r)) where
  fresh := hr
  items x := by
    by_cases hx : x = r
    · subst hx
      simp [setParent]
    · change Function.update w.isParentOf (.item r) true (.item x) = true ↔ x = r ∨ x ∈ w.present
      rw [update_item _ _ hx, h.items, or_iff_right hx]
  creatures c hc := (update_creature w.isParentOf r true c).trans (h.creatures c hc)

theorem Coming.held (h : Coming r w) (hp : w'.present.Perm (r :: w.present)) (hparent : w'.isParentOf = w.isParentOf)
    (hc : w'.creatures = w.creatures) : Held w' where
  items x := by rw [hparent, h.items, hp.mem_iff, List.mem_cons]
  creatures c hm := by
    rw [hparent]
    exact h.creatures c (hc ▸ hm)

theorem isParentOf_takes {p : TileWorld → Ref → Prop} (h : Takes env old w w') (hs : Sound w)
    (hp : ∀ x, w.isParentOf (.item x) = true ↔ p w x ∨ x ∈ w.present) (hne : ¬p w old) (x : Ref) :
    w'.isParentOf (.item x) = true ↔ p w x ∨ x ∈ w'.present := by
  have hold : old ∉ w'.present := (List.nodup_cons.mp (h.present.nodup_iff.mp hs.nodup)).1
  rw [h.isParentOf]
  by_cases hx : x = old
  · subst hx
    simp [hne, hold]
  · rw [update_item _ _ hx, hp, h.present.mem_iff, List.mem_cons, or_iff_right hx]

theorem Held.takes (h : Held w) (hs : Sound w) (ht : Takes env old w w') : Held w' where
  items x := by
    have := isParentOf_takes (p := fun _ _ => False) ht hs (fun x => by rw [h.items, false_or]) id x
    rwa [false_or] at this
  creatures c hc := by
    rw [ht.isParentOf]
    exact (update_creature ..).trans (h.creatures c (ht.creatures ▸ hc))

theorem Coming.takes (h : Coming r w) (hs : Sound w) (ht : Takes env old w w') (hne : r ≠ old) : Coming r w' where
  fresh hm := h.fresh (ht.present.mem_iff.mpr (List.mem_cons_of_mem _ hm))
  items x := isParentOf_takes (p := fun _ x => x = r) ht hs h.items hne.symm x
  creatures c hc := by
    rw [ht.isParentOf]
    exact (update_creature ..).trans (h.creatures c (ht.creatures ▸ hc))

theorem Held.of_same (h : Held w) (hsame : SamePlaces w w') (hparent : w'.isParentOf = w.isParentOf) : Held w' where
  items x := by rw [hparent, hsame.present, h.items]
  creatures c hc := by
    rw [hparent]
    exact h.creatures c (hsame.creatures ▸ hc)

theorem Coming.of_same (h : Coming r w) (hsame : SamePlaces w w') (hparent : w'.isParentOf = w.isParentOf) :
    Coming r w' where
  fresh := hsame.present ▸ h.fresh
  items x := by rw [hparent, hsame.present, h.items]
  creatures c hc := by
    rw [hparent]
    exact h.creatures c (hsame.creatures ▸ hc)

theorem Coming.reset (h : Coming r w) : Held (w.resetParent (.item r)) where
  items x := by
    by_cases hx : x = r
    · subst hx
      simp only [resetParent, Function.update_self, Bool.false_eq_true, false_iff]
      exact h.fresh
    · change Function.update w.isParentOf (.item r) false (.item x) = true ↔ x ∈ w.present
      rw [update_item _ _ hx, h.items, or_iff_right hx]
  creatures c hc := (update_creature w.isParentOf r false c).trans (h.creatures c hc)

/-! ### What each step keeps of the parents -/

/-- Nothing is turned away after it was given its parent, and a field that is replaced goes as a whole. -/
def Accepted (env : TileEnv) (w : TileWorld) : Action → Prop
  | .addThing (.item r) => (w.itemType env r).isMagicField → ∀ old, w.oldField env = some old →
    (w.itemType env old).replaceable → ¬((w.itemType env old).stackable ∧ (w.item old).getItemCount ≠ 1)
  | .internalAddThing (.item r) =>
    if (w.itemType env r).isGroundTile then w.ground = none else w.items.length < 0xFFFF
  | _ => True

theorem held_addGround (hs : Sound w) (h : Coming r w) : Held (w.addGround env r) := by
  unfold addGround
  split
  · rename_i hg
    refine h.held ?_ rfl rfl
    rw [present, present, hg]
    exact .refl _
  · rename_i ground hg
    have hp : w.present = ground :: w.items := by rw [present, hg]; rfl
    have hout : ground ∉ w.items := hs.not_mem_of_ground hg
    have hne : ground ≠ r := by
      rintro rfl
      exact h.fresh (hp ▸ List.mem_cons_self)
    refine ⟨fun x => ?_, fun c hc => (update_creature w.isParentOf ground false c).trans (h.creatures c hc)⟩
    change Function.update w.isParentOf (.item ground) false (.item x) = true ↔ x ∈ r :: w.items
    by_cases hx : x = ground
    · subst hx
      simp [hne, hout]
    · rw [update_item _ _ hx, h.items, hp, List.mem_cons, List.mem_cons, or_iff_right hx]

theorem held_insertTop (hs : Sound w) (h : Coming r w) (before : Ref → Bool) :
    Held ((w.insertTop before r).setTileFlags env r) :=
  h.held (inserts_insertTop before hs).present rfl rfl

theorem held_addTopItem (ho : Ordered env w) (h : Coming r w) : Held (w.addTopItem env r) := by
  unfold addTopItem
  split
  · rename_i old hold
    have hmem : old ∈ w.topItems := List.mem_of_find?_eq_some hold
    have hne : r ≠ old := by
      rintro rfl
      exact h.fresh (mem_present.mpr (.inr (mem_items.mpr (.inr hmem))))
    have htop : w.isAlwaysOnTop env old := isAlwaysOnTop_of_kind (ho.top old hmem).choose_spec
    dsimp only
    split_ifs
    · rcases displace_cases ho.sound env old with ⟨-, ht⟩ | ⟨hn, -⟩
      · exact held_insertTop (ht.sound ho.sound) (h.takes ho.sound ht hne) _
      · exact absurd (.inr (.inl ⟨htop, hmem⟩)) hn
    · exact held_insertTop ho.sound h _
  · exact held_insertTop ho.sound h _

theorem held_addDownItem (hs : Sound w) (h : Coming r w) : Held (w.addDownItem env r) := by
  have hsame := samePlaces_setWaterball env w r
  have hparent : (w.setWaterball env r).isParentOf = w.isParentOf := by
    unfold setWaterball
    split_ifs <;> rfl
  exact (h.of_same hsame hparent).held (inserts_insertDown (hsame.sound hs).count_le).present rfl rfl

theorem held_addThing (ho : Ordered env w) (h : Held w) (hf : .item r ∉ w.things)
    (ha : Accepted env w (.addThing (.item r))) : Held (w.addThing env (.item r)) := by
  have hr : r ∉ w.present := mt item_mem_things.mpr hf
  have hcoming := h.coming hr
  have ho' : Ordered env (w.setParent (.item r)) := ho.of_same (samePlaces_setParent ..) fun _ _ => rfl
  unfold addThing
  dsimp only
  split_ifs with hfull hground htop hfield
  · exact h
  · exact held_addGround ho'.sound hcoming
  · exact held_addTopItem ho' hcoming
  · split
    · rename_i old hold
      have hmem : old ∈ w.downItems := List.mem_of_find?_eq_some hold
      have hne : r ≠ old := by
        rintro rfl
        exact hr (mem_present.mpr (.inr (mem_items.mpr (.inl hmem))))
      split_ifs with hrep
      · rcases displace_cases ho'.sound env old with ⟨-, ht⟩ | ⟨hn, -⟩
        · exact held_addDownItem (ht.sound ho'.sound) (hcoming.takes ho'.sound ht hne)
        · refine absurd (.inr (.inr ⟨not_isAlwaysOnTop_of_kind (ho'.down old hmem), hmem, ?_⟩)) hn
          exact fun hc => ha hfield old hold hrep ⟨hc.1, Ne.symm hc.2⟩
      · exact hcoming.reset
    · exact held_addDownItem ho'.sound hcoming
  · exact held_addDownItem ho'.sound hcoming

theorem held_internalAddThing (hs : Sound w) (h : Held w) (hf : .item r ∉ w.things)
    (ha : Accepted env w (.internalAddThing (.item r))) : Held (w.internalAddThing env (.item r)) := by
  have hcoming := h.coming (mt item_mem_things.mpr hf)
  have hs' : Sound (w.setParent (.item r)) := (samePlaces_setParent ..).sound hs
  have hground' : ∀ g, (w.itemType env r).isGroundTile = g → if g then w.ground = none else w.items.length < 0xFFFF :=
    fun g hg => hg ▸ ha
  unfold internalAddThing
  dsimp only
  split_ifs with hground hfull htop
  · have hg : w.ground = none := hground' true hground
    split
    · refine hcoming.held ?_ rfl rfl
      rw [present, present, show (w.setParent (.item r)).ground = none from hg]
      exact .refl _
    · rename_i hg'
      cases hg'.symm.trans hg
  · exact absurd hfull (Nat.not_le.mpr (hground' false (Bool.eq_false_of_not_eq_true hground)))
  · exact held_insertTop hs' hcoming _
  · exact hcoming.held (inserts_insertDown hs'.count_le).present rfl rfl

theorem held_addCreature (h : Held w) (c : CreatureRef) : Held (w.addCreature c) where
  items x := by
    change Function.update w.isParentOf (.creature c) true (.item x) = true ↔ x ∈ w.present
    rw [Function.update_of_ne (show Thing.item x ≠ .creature c from nofun), h.items]
  creatures c' hc := by
    change Function.update w.isParentOf (.creature c) true (.creature c') = true
    by_cases hne : c' = c
    · subst hne
      exact Function.update_self ..
    · rw [Function.update_of_ne fun heq => hne (Thing.creature.inj heq)]
      exact h.creatures c' ((List.mem_cons.mp hc).resolve_left hne)

theorem held_replaceThing (hs : Sound w) (h : Held w) (index : Nat) (hf : .item r ∉ w.things) :
    Held (w.replaceThing env index (.item r)) := by
  have hr : r ∉ w.present := mt item_mem_things.mpr hf
  rcases replaceAt_cases hs index r with ⟨old, w', hw, -, hswap⟩ | ⟨hw, -⟩
  · rw [replaceThing, hw]
    obtain ⟨rest, hp, hp'⟩ := hswap.present
    have hn : old ∉ rest := (List.nodup_cons.mp (hp.nodup_iff.mp hs.nodup)).1
    have hne : old ≠ r := by
      rintro rfl
      exact hr (hp.mem_iff.mpr List.mem_cons_self)
    refine ⟨fun x => ?_, fun c hc => ?_⟩
    · change Function.update (Function.update w'.isParentOf (.item r) true) (.item old) false (.item x) = true ↔
        x ∈ w'.present
      rw [hp'.mem_iff, List.mem_cons, hswap.isParentOf]
      by_cases hx : x = old
      · subst hx
        simp [hne, hn]
      · rw [update_item _ _ hx]
        by_cases hxr : x = r
        · subst hxr
          simp
        · rw [update_item _ _ hxr, h.items, hp.mem_iff, List.mem_cons, or_iff_right hx, or_iff_right hxr]
    · change Function.update (Function.update w'.isParentOf (.item r) true) (.item old) false (.creature c) = true
      rw [update_creature, update_creature, hswap.isParentOf]
      exact h.creatures c (hswap.creatures ▸ hc)
  · rw [replaceThing, hw]
    exact h

theorem held_step (ho : Ordered env w) (h : Held w) {a : Action} (hf : Fresh w a) (ha : Accepted env w a) :
    Held (step env w a) := by
  cases a with
  | addThing thing =>
    cases thing with
    | item r => exact held_addThing ho h hf ha
    | creature c => exact held_addCreature h c
  | internalAddThing thing =>
    cases thing with
    | item r => exact held_internalAddThing ho.sound h hf ha
    | creature c => exact held_addCreature h c
  | updateThing thing itemId count =>
    change Held (w.updateThing env thing itemId count)
    unfold updateThing
    split
    · exact h
    · split_ifs
      · exact h
      · exact h.of_same ⟨rfl, rfl, rfl, rfl⟩ rfl
  | replaceThing index thing =>
    cases thing with
    | item r => exact held_replaceThing ho.sound h index hf
    | creature c => exact h
  | removeThing thing count =>
    cases thing with
    | item r =>
      change Held (w.removeThing env (.item r) count)
      rcases removeThing_cases ho.sound env r count with ⟨-, ht⟩ | ⟨-, hw | ⟨-, n, hw⟩⟩
      · exact h.takes ho.sound ht
      · rw [hw]
        exact h
      · rw [hw]
        exact h.of_same (samePlaces_modify ..) rfl
    | creature c => exact ⟨h.items, fun c' hc => h.creatures c' (List.mem_of_mem_erase hc)⟩

/-! ### Runs -/

/-- A thing comes only while it is not there, updates keep the stacking kind, and what has its parent goes in. -/
structure Proper (env : TileEnv) (w : TileWorld) (a : Action) : Prop where
  fresh : Fresh w a
  kind : KeepsKind env w a
  accepted : Accepted env w a

/-- The representation: the vector, the indices and the parents. -/
structure Represented (env : TileEnv) (w : TileWorld) : Prop where
  indexed : Indexed env w
  items : ∀ r, w.isParentOf (.item r) = true ↔ .item r ∈ w.things
  creatures : ∀ c, .creature c ∈ w.things → w.isParentOf (.creature c) = true

theorem represented_run (env : TileEnv) (item : Ref → Item) (ops : List Action)
    (h : Lib.Meets (step env) (Proper env) (start item) ops) :
    Represented env (Lib.run (step env) (start item) ops) := by
  obtain ⟨ho, hheld⟩ := Lib.run_invariant (fun w => Ordered env w ∧ Held w)
    (fun _ _ hw ha => ⟨ordered_step hw.1 ha.fresh ha.kind, held_step hw.1 hw.2 ha.fresh ha.accepted⟩)
    (s := start item) ⟨⟨sound_start item, nofun, nofun, .nil⟩, by simp [start, present], nofun⟩ h
  refine ⟨ho.indexed, fun r => ?_, fun c hc => hheld.creatures c (creature_mem_things.mp hc)⟩
  rw [hheld.items, item_mem_things]

/-! ### A visitor, and a second ground -/

/-- Every type is a ground. -/
def groundsEnv : TileEnv where
  items id := plainType id .ground
  classOf _ := .Item

/-- A creature comes and goes. -/
def visit : List Action := [.addThing (.creature 0), .removeThing (.creature 0) 0]

/-- The second ground replaces the first. -/
def paved : List Action := [.addThing (.item 1), .addThing (.creature 0), .replaceThing 0 (.item 2)]

theorem represented_run_paved : Represented groundsEnv (Lib.run (step groundsEnv) (start itemOfType) paved) :=
  represented_run groundsEnv itemOfType paved
    ⟨⟨by decide, nofun, nofun⟩, ⟨by decide, trivial, trivial⟩, ⟨by decide, fun _ _ => rfl, trivial⟩, trivial⟩

/-- The creature that has gone still has the tile as its parent. -/
theorem parent_after_visit : ¬∀ (env : TileEnv) (item : Ref → Item) (ops : List Action),
    Lib.Meets (step env) (fun w a => Fresh w a ∧ KeepsKind env w a) (start item) ops →
      Indexed env (Lib.run (step env) (start item) ops) ∧ ∀ thing,
        (Lib.run (step env) (start item) ops).isParentOf thing = true ↔ thing ∈ (Lib.run (step env) (start item) ops).things := by
  intro h
  have hparent := (h groundsEnv itemOfType visit ⟨⟨by decide, trivial⟩, ⟨by decide, trivial⟩, trivial⟩).2 (.creature 0)
  exact absurd (hparent.mp (by decide)) (by decide)

end TileWorld
end CrystalServer
