import CrystalServer.Io.PlayerItems

/-! # Items of a player come back

The rows that `saveItems` writes are those of a breadth-first numbering that starts at 101, above all slots and depot ids, so
that the loaders put each item back where it was. -/

namespace CrystalServer
open Lib Tree
variable {α β : Type} {io : ItemIO α β}

namespace IOLoginDataSave

theorem saveContainers_rows (s : SaveState α β) :
    (saveContainers io s).rows = s.rows ++ (Tree.walk s.containers s.runningId).map (toRow io) := by
  induction s using saveContainers.induct io with
  | case1 runningId rows => simp [saveContainers, Tree.walk]
  | case2 runningId parentId itemlist containers rows ih =>
    rw [saveContainers, ih, foldl_saveItem]
    dsimp only
    have hlength : (under parentId itemlist).length = itemlist.length := List.length_map ..
    rw [Tree.walk, List.map_append, List.append_assoc, hlength]

/-- `saveItems` numbers the forest breadth first. -/
theorem saveItems_eq (itemList : List (Nat × ItemTree α β)) : saveItems io itemList = (number itemList 100).map (toRow io) := by
  unfold saveItems number
  rw [saveContainers_rows, foldl_saveItem, List.map_append]
  rfl

end IOLoginDataSave

namespace IOLoginDataLoad
open IOLoginDataSave

/-- An item comes back from its row. -/
def Survives (io : ItemIO α β) (item : α ⊕ β) : Prop :=
  ((io.CreateItem (io.getID item) (io.getSubType item)).bind fun created =>
    io.unserializeAttr created (io.serializeAttr item)) = some item

/-- The entry of a numbered item in the map. -/
def entry (io : ItemIO α β) (r : Row (α ⊕ (Option UInt8 × β))) : Nat × ((α ⊕ β) × Nat) := (r.id, saved io r.value, r.parent)

theorem map_fst_entry (rs : List (Row (α ⊕ (Option UInt8 × β)))) : (rs.map (entry io)).map Prod.fst = rs.map (·.id) := by
  rw [List.map_map]
  rfl

/-- The map of all rows, whatever their order. -/
theorem loadItems_eq {rs : List (Row (α ⊕ (Option UInt8 × β)))} (hsorted : (rs.map (·.id)).Pairwise (· < ·))
    (h : ∀ r ∈ rs, Survives io (saved io r.value)) {result : List ItemRow} (hresult : result.Perm (rs.map (toRow io))) :
    loadItems io result = rs.map (entry io) := by
  obtain ⟨rs', rfl, hperm⟩ := (congrFun (congrFun (List.eq_map_comp_perm (toRow io)) result) rs).mpr hresult
  have hfold : loadItems io (rs'.map (toRow io)) =
      (rs'.map (entry io)).foldl (fun m e => SortedMap.insert e.1 e.2 m) [] := by
    unfold loadItems
    rw [List.foldl_map, List.foldl_map]
    refine List.foldl_ext _ _ _ fun m r hr => ?_
    have hload : loadItem io (toRow io r) = some (saved io r.value) := h r (hperm.mem_iff.mp hr)
    rw [hload]
    rfl
  have hnodup : ((rs'.map (entry io)).map Prod.fst).Nodup := by
    rw [map_fst_entry]
    exact ((hperm.map _).nodup_iff).mpr (hsorted.imp fun hlt => hlt.ne)
  obtain ⟨hinserted, hall⟩ := SortedMap.foldl_insert_perm List.Pairwise.nil hnodup
  rw [hfold]
  refine SortedMap.eq_of_perm hinserted ?_ (hall.trans (hperm.map _))
  exact List.pairwise_map.mpr (List.pairwise_map.mp hsorted)

/-! ### The loop of the loaders -/

/-- What is asked of a place of the player's own: an item comes in first, and has the place as its parent. A place that is not
`shared` takes one item. -/
structure Own (place : Nat → Holder) (top : PlayerItems → Nat → List Nat) (shared : Bool)
    (addOwn : PlayerItems → Nat → Nat → PlayerItems) (pids : List Nat) : Prop where
  parent : ∀ p, ∀ pid ∈ pids, ∀ sid, shared = true ∨ top p pid = [] →
    (addOwn p pid sid).parent = Function.update p.parent sid (some (place pid))
  itemlist : ∀ p, ∀ pid ∈ pids, ∀ sid, (addOwn p pid sid).itemlist = p.itemlist
  first : ∀ p, ∀ pid ∈ pids, ∀ sid, shared = true ∨ top p pid = [] →
    ∀ q, top (addOwn p pid sid) q = if q = pid then sid :: top p q else top p q
  others : ∀ p container sid, top (p.internalAddThing container sid) = top p
  empty : ∀ pid, top .empty pid = []

/-- What was loaded of the last entries of a map. -/
structure Loaded (isOwn : Nat → Bool) (place : Nat → Holder) (top : PlayerItems → Nat → List Nat) (l : ItemsMap α β)
    (p : PlayerItems) : Prop where
  parent : ∀ e ∈ l, p.parent e.1 = some (if isOwn e.2.2 then place e.2.2 else .container e.2.2)
  itemlist : ∀ c, p.itemlist c = (l.filter fun e => !isOwn e.2.2 && e.2.2 == c).map (·.1)
  top : ∀ pid, top p pid = (l.filter fun e => isOwn e.2.2 && e.2.2 == pid).map (·.1)

variable {isOwn : Nat → Bool} {place : Nat → Holder} {top : PlayerItems → Nat → List Nat} {shared : Bool}
  {addOwn : PlayerItems → Nat → Nat → PlayerItems} {pids : List Nat}

theorem loaded_addItems (hown : Own place top shared addOwn pids) (m l : ItemsMap α β) (hnodup : (l.map Prod.fst).Nodup)
    (hpids : ∀ e ∈ l, isOwn e.2.2 = true → e.2.2 ∈ pids)
    (hshared : shared = true ∨ ((l.filter fun e => isOwn e.2.2).map fun e => e.2.2).Nodup)
    (hinside : ∀ e ∈ l, isOwn e.2.2 = false → ∃ b q, m.lookup e.2.2 = some (.inr b, q)) :
    Loaded isOwn place top l (l.foldr (fun (sid, _, pid) p =>
      if isOwn pid then addOwn p pid sid
      else
        match m.lookup pid with
        | some (.inr _, _) => p.internalAddThing pid sid
        | _ => p) .empty) := by
  induction l with
  | nil => exact ⟨nofun, fun _ => rfl, hown.empty⟩
  | cons e l ih =>
    obtain ⟨sid, item, pid⟩ := e
    rw [List.map_cons, List.nodup_cons] at hnodup
    have hrest := ih hnodup.2 (fun e he => hpids e (List.mem_cons_of_mem _ he))
      (hshared.imp_right fun h => h.sublist ((List.sublist_cons_self ..).filter _ |>.map _))
      fun e he => hinside e (List.mem_cons_of_mem _ he)
    rw [List.foldr_cons]
    generalize l.foldr _ PlayerItems.empty = p at hrest
    have hne : ∀ e ∈ l, e.1 ≠ sid := fun e he heq => hnodup.1 (List.mem_map.mpr ⟨e, he, heq⟩)
    dsimp only
    cases hpid : isOwn pid with
    | true =>
      have hmem := hpids _ List.mem_cons_self hpid
      have hfree : shared = true ∨ top p pid = [] := by
        refine hshared.imp_right fun h => ?_
        rw [List.filter_cons_of_pos (by simpa using hpid), List.map_cons, List.nodup_cons] at h
        rw [hrest.top, List.filter_eq_nil_iff.mpr fun e he heq => ?_, List.map_nil]
        rw [Bool.and_eq_true, beq_iff_eq] at heq
        exact h.1 (List.mem_map.mpr ⟨e, List.mem_filter.mpr ⟨he, heq.1⟩, heq.2⟩)
      rw [if_pos rfl]
      refine ⟨fun e he => ?_, fun c => ?_, fun q => ?_⟩
      · rw [hown.parent p pid hmem sid hfree]
        rcases List.mem_cons.mp he with rfl | he
        · rw [Function.update_self]
          dsimp only
          rw [hpid, if_pos rfl]
        · rw [Function.update_of_ne (hne e he), hrest.parent e he]
      · rw [hown.itemlist p pid hmem, hrest.itemlist, List.filter_cons_of_neg (by simp [hpid])]
      · rw [hown.first p pid hmem sid hfree, hrest.top]
        by_cases hq : q = pid
        · rw [if_pos hq, List.filter_cons_of_pos (by simp [hpid, hq]), List.map_cons]
        · rw [if_neg hq, List.filter_cons_of_neg (by simpa [hpid] using fun heq => hq heq.symm)]
    | false =>
      obtain ⟨b, q, hlookup⟩ := hinside _ List.mem_cons_self hpid
      dsimp only at hlookup
      rw [if_neg (by decide), hlookup]
      dsimp only
      refine ⟨fun e he => ?_, fun c => ?_, fun q => ?_⟩
      · change Function.update p.parent sid _ e.1 = _
        rcases List.mem_cons.mp he with rfl | he
        · rw [Function.update_self]
          dsimp only
          rw [hpid, if_neg (by decide)]
        · rw [Function.update_of_ne (hne e he), hrest.parent e he]
      · change Function.update p.itemlist pid (sid :: p.itemlist pid) c = _
        rw [Function.update_apply, hrest.itemlist, hrest.itemlist]
        split_ifs with hc
        · rw [List.filter_cons_of_pos (by simp [hpid, hc]), List.map_cons, hc]
        · rw [List.filter_cons_of_neg (by simpa [hpid] using fun heq => hc heq.symm)]
      · rw [hown.others, hrest.top, List.filter_cons_of_neg (by simp [hpid])]

/-! ### The forest -/

/-- The item that was loaded under an id, and what it is in. -/
def object (itemsMap : ItemsMap α β) (p : PlayerItems) (sid : Nat) : Option (Holder × (α ⊕ β)) :=
  (p.parent sid).bind fun parent => (itemsMap.lookup sid).map fun pair => (parent, pair.1)

/-- The items that were loaded are those of the list, each tree in its place with all that it holds in its order, and each
item is in one of them once. -/
def SameForest (io : ItemIO α β) (itemList : List (Nat × ItemTree α β)) (place : Nat → Holder)
    (top : PlayerItems → Nat → List Nat) (itemsMap : ItemsMap α β) (p : PlayerItems) : Prop :=
  ∃ L : List (Nat × Tree (Nat × α) (Nat × (Option UInt8 × β))), (L.map fun e => (e.1, e.2.erase)) = itemList ∧
    (∀ pid, top p pid = (L.filter fun e => e.1 == pid).map fun e => e.2.label) ∧
    (∀ e ∈ L, e.2.Holds (object itemsMap p) p.itemlist .container (saved io) (place e.1)) ∧
    (L.flatMap fun e => e.2.labels).Nodup ∧ (L.flatMap fun e => e.2.labels).Perm (itemsMap.map Prod.fst)

theorem lookup_entry {rs : List (Row (α ⊕ (Option UInt8 × β)))} (hnodup : (rs.map (·.id)).Nodup)
    {r : Row (α ⊕ (Option UInt8 × β))} (hr : r ∈ rs) :
    (rs.map (entry io)).lookup r.id = some (saved io r.value, r.parent) := by
  induction rs with
  | nil => cases hr
  | cons x rs ih =>
    rw [List.map_cons, List.nodup_cons] at hnodup
    rw [List.map_cons, entry, List.lookup_cons]
    rcases List.mem_cons.mp hr with rfl | hr
    · rw [beq_self_eq_true]
    · have hne : (r.id == x.id) = false := beq_eq_false_iff_ne.mpr fun heq => hnodup.1 (heq ▸ List.mem_map_of_mem hr)
      rw [hne]
      exact ih hnodup.2 hr

theorem filter_map_entry (rs : List (Row (α ⊕ (Option UInt8 × β)))) (test : Nat → Bool) :
    (((rs.map (entry io)).filter fun e => test e.2.2).map (·.1)) = (rs.filter fun r => test r.parent).map (·.id) := by
  rw [List.filter_map, List.map_map]
  rfl

/-- Lists that agree in two columns agree in the second one where the first one is chosen. -/
theorem map_filter_congr {σ τ : Type*} {l : List σ} {l' : List τ} {f g : σ → Nat} {f' g' : τ → Nat}
    (hf : l.map f = l'.map f') (hg : l.map g = l'.map g') (test : Nat → Bool) :
    (l.filter fun a => test (f a)).map g = (l'.filter fun a => test (f' a)).map g' := by
  induction l generalizing l' with
  | nil =>
    rw [List.map_nil, eq_comm, List.map_eq_nil_iff] at hf
    subst hf
    rfl
  | cons a l ih =>
    cases l' with
    | nil => cases hf
    | cons b l' =>
      obtain ⟨hf1, hf2⟩ := List.cons.inj hf
      obtain ⟨hg1, hg2⟩ := List.cons.inj hg
      rw [List.filter_cons, List.filter_cons, hf1]
      split_ifs
      · rw [List.map_cons, List.map_cons, hg1, ih hf2 hg2]
      · exact ih hf2 hg2

section
variable {itemList : List (Nat × ItemTree α β)} (hpids : ∀ e ∈ itemList, isOwn e.1 = true)
  (hids : ∀ pid, isOwn pid = true → pid ≤ 100)
include hpids hids

/-- A row is one of the player's own places, or of a container with a smaller id. -/
theorem own_or_deeper {r : Row (α ⊕ (Option UInt8 × β))} (hr : r ∈ number itemList 100) :
    (r ∈ rows 100 itemList ∧ r.parent ∈ itemList.map (·.1) ∧ isOwn r.parent = true) ∨
      isOwn r.parent = false ∧ 100 < r.parent ∧ r.parent < r.id := by
  obtain ⟨-, hparents, -⟩ :=
    number_holds (fun pid => pid) (fun v => v) itemList 100 fun e he => hids _ (hpids e he)
  rcases hparents r hr with hrow | hlt
  · have hmem : r.parent ∈ (rows 100 itemList).map (·.parent) := List.mem_map_of_mem hrow
    rw [map_parent_rows] at hmem
    obtain ⟨e, he, heq⟩ := List.mem_map.mp hmem
    exact .inl ⟨hrow, hmem, heq ▸ hpids e he⟩
  · exact .inr ⟨Bool.eq_false_iff.mpr fun hown => Nat.not_le.mpr hlt.1 (hids _ hown), hlt⟩

/-- The rows of the player's own places are those of the first loop. -/
theorem filter_own_number (hnodup : ((number itemList 100).map (·.id)).Nodup) :
    (number itemList 100).filter (fun r => isOwn r.parent) = rows 100 itemList := by
  have hsplit : number itemList 100 = rows 100 itemList ++ Tree.walk (pending 100 itemList) (100 + itemList.length) := rfl
  have hrows : ∀ r ∈ rows 100 itemList, isOwn r.parent = true := fun r hr => by
    rcases own_or_deeper hpids hids (hsplit ▸ List.mem_append_left _ hr) with ⟨-, -, hown⟩ | ⟨hfalse, -⟩
    · exact hown
    · have hmem : r.parent ∈ (rows 100 itemList).map (·.parent) := List.mem_map_of_mem hr
      rw [map_parent_rows] at hmem
      obtain ⟨e, he, heq⟩ := List.mem_map.mp hmem
      exact heq ▸ hpids e he
  rw [hsplit, List.map_append, List.nodup_append] at hnodup
  rw [hsplit, List.filter_append, List.filter_eq_self.mpr hrows, List.filter_eq_nil_iff.mpr fun r hr hownr => ?_,
    List.append_nil]
  rcases own_or_deeper hpids hids (hsplit ▸ List.mem_append_right _ hr) with ⟨hrow, -⟩ | ⟨hfalse, -⟩
  · exact hnodup.2.2 r.id (List.mem_map_of_mem hrow) r.id (List.mem_map_of_mem hr) rfl
  · rw [hfalse] at hownr
    cases hownr

theorem loaded_number (hown : Own place top shared addOwn (itemList.map (·.1)))
    (hnumbers : (number itemList 100).map (·.id) = List.range' 101 (number itemList 100).length)
    (hshared : shared = true ∨ (itemList.map (·.1)).Nodup) :
    Loaded isOwn place top ((number itemList 100).map (entry io))
      (addItems ((number itemList 100).map (entry io)) isOwn addOwn) := by
  have hl : ∀ e ∈ itemList, e.1 ≤ 100 := fun e he => hids _ (hpids e he)
  have hnodup : ((number itemList 100).map (·.id)).Nodup := hnumbers ▸ List.nodup_range'
  refine loaded_addItems hown _ _ (by rwa [map_fst_entry]) ?_ (hshared.imp_right fun h => ?_) ?_
  · intro e he hownr
    obtain ⟨r, hr, rfl⟩ := List.mem_map.mp he
    rcases own_or_deeper hpids hids hr with ⟨-, hmem, -⟩ | ⟨hfalse, -⟩
    · exact hmem
    · exact absurd (hownr.symm.trans hfalse) (by decide)
  · have hcolumn : (((number itemList 100).map (entry io)).filter fun e => isOwn e.2.2).map (fun e => e.2.2) =
        (rows 100 itemList).map (·.parent) := by
      rw [List.filter_map, List.map_map, ← filter_own_number hpids hids hnodup]
      rfl
    rw [hcolumn, map_parent_rows]
    exact h
  · intro e he hfalse
    obtain ⟨r, hr, rfl⟩ := List.mem_map.mp he
    rcases own_or_deeper hpids hids hr with ⟨-, -, hownr⟩ | ⟨-, hlt⟩
    · exact absurd (hownr.symm.trans hfalse) (by decide)
    have hparent : r.parent ∈ (number itemList 100).map (·.id) := by
      have hid : r.id ∈ (number itemList 100).map (·.id) := List.mem_map_of_mem hr
      rw [hnumbers, List.mem_range'_1] at hid ⊢
      omega
    obtain ⟨r', hr', heq⟩ := List.mem_map.mp hparent
    have hlookup := @lookup_entry _ _ io _ hnodup _ hr'
    rw [heq] at hlookup
    cases hvalue : r'.value with
    | inl a =>
      have hkids := kids_leaf itemList 100 hl hr' hvalue
      have hkid : r.id ∈ kids (number itemList 100) r'.id := by
        unfold kids
        exact List.mem_map_of_mem (List.mem_filter.mpr ⟨hr, decide_eq_true heq.symm⟩)
      rw [hkids] at hkid
      cases hkid
    | inr b =>
      rw [hvalue] at hlookup
      exact ⟨_, _, hlookup⟩

end

/-- A forest comes back from its rows through a loop whose places take the ids of the list. -/
theorem sameForest (itemList : List (Nat × ItemTree α β)) (hown : Own place top shared addOwn (itemList.map (·.1)))
    (hpids : ∀ e ∈ itemList, isOwn e.1 = true) (hids : ∀ pid, isOwn pid = true → pid ≤ 100)
    (hshared : shared = true ∨ (itemList.map (·.1)).Nodup)
    (hsurvives : ∀ e ∈ itemList, ∀ v ∈ e.2.values, Survives io (saved io v)) {result : List ItemRow}
    (hresult : result.Perm (saveItems io itemList)) :
    SameForest io itemList place top (loadItems io result) (addItems (loadItems io result) isOwn addOwn) := by
  have hl : ∀ e ∈ itemList, e.1 ≤ 100 := fun e he => hids _ (hpids e he)
  obtain ⟨hnumbers, -, L, herase, hlabel, hholds, hperm⟩ :=
    number_holds (fun pid => if isOwn pid then place pid else .container pid) (saved io) itemList 100 hl
  have hnodup : ((number itemList 100).map (·.id)).Nodup := hnumbers ▸ List.nodup_range'
  have hmap : loadItems io result = (number itemList 100).map (entry io) := by
    refine loadItems_eq (hnumbers ▸ List.pairwise_lt_range') (fun r hr => ?_) (saveItems_eq itemList ▸ hresult)
    obtain ⟨e, he, hv⟩ := value_mem_values itemList 100 hl hr
    exact hsurvives e he _ hv
  have hlater : ∀ r ∈ number itemList 100, isOwn r.id = false := fun r hr =>
    Bool.eq_false_iff.mpr fun hownr => Nat.not_le.mpr (mem_range_of_ids hnumbers hr) (hids _ hownr)
  have hfirst := filter_own_number hpids hids hnodup
  have hloaded : Loaded isOwn place top ((number itemList 100).map (entry io)) _ :=
    loaded_number hpids hids hown hnumbers hshared
  rw [hmap]
  refine ⟨L, herase, fun pid => ?_, fun e he => ?_, ?_, ?_⟩
  · have hcolumn : (L.map fun e => e.1) = (rows 100 itemList).map (·.parent) := by
      rw [map_parent_rows, ← herase, List.map_map]
      rfl
    rw [hloaded.top, filter_map_entry _ fun parent => isOwn parent && parent == pid,
      map_filter_congr hcolumn hlabel fun parent => parent == pid, ← hfirst, List.filter_filter]
    simp only [Bool.and_comm]
  · have hmem : e.1 ∈ itemList.map (·.1) := by
      rw [← herase, List.map_map]
      exact List.mem_map_of_mem he
    obtain ⟨e', he', heq⟩ := List.mem_map.mp hmem
    have hplace := hholds e he
    rw [if_pos (heq ▸ hpids e' he')] at hplace
    refine hplace.mono (fun i v hv => ?_) (fun i v hv => ?_) fun i v hv => ?_
    · obtain ⟨r, hr, rfl⟩ := exists_of_stored hv
      rw [stored_of_mem hnodup hr] at hv
      have hparent := hloaded.parent (entry io r) (List.mem_map_of_mem hr)
      change PlayerItems.parent _ r.id = _ at hparent
      unfold object
      rw [hparent, lookup_entry hnodup hr]
      exact hv
    · obtain ⟨r, hr, rfl⟩ := exists_of_stored hv
      have hown' := hlater r hr
      rw [hloaded.itemlist, filter_map_entry _ fun parent => !isOwn parent && parent == r.id]
      unfold kids
      congr 1
      refine List.filter_congr fun x _ => ?_
      by_cases hx : x.parent = r.id
      · simp [hx, hown']
      · simp [hx]
    · obtain ⟨r, hr, rfl⟩ := exists_of_stored hv
      rw [if_neg (by simp [hlater r hr])]
  · exact hperm.nodup_iff.mpr hnodup
  · rw [map_fst_entry]
    exact hperm

theorem nodup_itemList (inventory : Nat → Option (ItemTree α β)) : ((itemList inventory).map (·.1)).Nodup := by
  have hsame : (itemList inventory).map (·.1) =
      (List.range' CONST_SLOT_FIRST.toNat (CONST_SLOT_LAST + 1 - CONST_SLOT_FIRST).toNat).filter fun slotId =>
        (inventory slotId).isSome := by
    unfold itemList
    rw [List.map_filterMap, ← List.filterMap_eq_filter]
    refine List.filterMap_congr fun slotId _ => ?_
    cases h : inventory slotId <;> simp [h, Option.guard]
  rw [hsame]
  exact List.Nodup.filter _ List.nodup_range'

theorem mem_itemList {inventory : Nat → Option (ItemTree α β)} {e : Nat × ItemTree α β} (he : e ∈ itemList inventory) :
    CONST_SLOT_FIRST ≤ e.1 ∧ e.1 ≤ CONST_SLOT_LAST := by
  unfold itemList at he
  obtain ⟨slotId, hslot, hitem⟩ := List.mem_filterMap.mp he
  obtain ⟨item, -, rfl⟩ := Option.map_eq_some_iff.mp hitem
  rw [List.mem_range'_1] at hslot
  unfold CONST_SLOT_FIRST CONST_SLOT_LAST at *
  dsimp only
  omega

theorem own_slots (inventory : Nat → Option (ItemTree α β)) :
    Own .slot (fun p slot => (p.inventory slot).toList) false PlayerItems.addToSlot ((itemList inventory).map (·.1)) := by
  have hadd : ∀ p pid sid, pid ∈ (itemList inventory).map (·.1) → (p.inventory pid).toList = [] →
      PlayerItems.addToSlot p pid sid =
        { p with inventory := Function.update p.inventory pid (some sid) }.setParent sid (.slot pid) := by
    intro p pid sid hpid hfree
    obtain ⟨e, he, rfl⟩ := List.mem_map.mp hpid
    have hnone : (p.inventory e.1).isSome = false := by
      cases h : p.inventory e.1 with
      | none => rfl
      | some item => simp [h] at hfree
    unfold PlayerItems.addToSlot
    rw [if_pos (mem_itemList he), hnone, if_neg (by decide)]
  refine ⟨fun p pid hpid sid hfree => ?_, fun p pid hpid sid => ?_, fun p pid hpid sid hfree q => ?_, fun _ _ _ => rfl,
    fun _ => rfl⟩
  · rw [hadd p pid sid hpid (hfree.resolve_left (by decide))]
    rfl
  · unfold PlayerItems.addToSlot
    split_ifs <;> rfl
  · have hfree := hfree.resolve_left (by decide)
    rw [hadd p pid sid hpid hfree]
    change (Function.update p.inventory pid (some sid) q).toList = _
    rw [Function.update_apply]
    split_ifs with hq
    · subst hq
      rw [hfree]
      rfl
    · rfl

theorem own_depotChests (pids : List Nat) :
    Own .depotChest (fun p depotId => p.depotChests depotId) true PlayerItems.addToDepotChest pids := by
  refine ⟨fun _ _ _ _ _ => rfl, fun _ _ _ _ => rfl, fun p pid _ sid _ q => ?_, fun _ _ _ => rfl, fun _ => rfl⟩
  change Function.update p.depotChests pid (sid :: p.depotChests pid) q = _
  rw [Function.update_apply]
  split_ifs with hq
  · rw [hq]
  · rfl

theorem own_inbox (inbox : List (ItemTree α β)) :
    Own (fun _ => .inbox) (fun p pid => if pid = 0 then p.inbox else []) true (fun p _ sid => p.addToInbox sid)
      ((inboxList inbox).map (·.1)) := by
  refine ⟨fun _ _ _ _ _ => rfl, fun _ _ _ _ => rfl, fun p pid hpid sid _ q => ?_, fun _ _ _ => rfl, fun pid => ?_⟩
  · have hzero : pid = 0 := by
      unfold inboxList at hpid
      rw [List.map_map] at hpid
      obtain ⟨item, -, rfl⟩ := List.mem_map.mp hpid
      rfl
    subst hzero
    split_ifs <;> rfl
  · split_ifs <;> rfl

/-- What a player holds in his slots, his depot chests and his inbox comes back from the rows that are written of it, in whatever
order the rows are read, if each item by itself comes back from its row. -/
theorem sameForest_player (io : ItemIO α β) (inventory : Nat → Option (ItemTree α β))
    (depotChests : List (Nat × List (ItemTree α β))) (inbox : List (ItemTree α β)) (hdepot : ∀ chest ∈ depotChests, chest.1 < 100)
    (hsurvives : ∀ e ∈ itemList inventory ++ depotList depotChests ++ inboxList inbox, ∀ v ∈ e.2.values,
      Survives io (saved io v)) {items depotItems inboxItems : List ItemRow}
    (hitems : items.Perm (saveItems io (itemList inventory)))
    (hdepotItems : depotItems.Perm (saveItems io (depotList depotChests)))
    (hinboxItems : inboxItems.Perm (saveItems io (inboxList inbox))) :
    SameForest io (itemList inventory) .slot (fun p slot => (p.inventory slot).toList) (loadItems io items)
        (loadPlayerInventoryItems (loadItems io items)) ∧
      SameForest io (depotList depotChests) .depotChest (fun p depotId => p.depotChests depotId) (loadItems io depotItems)
        (loadPlayerDepotItems (loadItems io depotItems)) ∧
      SameForest io (inboxList inbox) (fun _ => .inbox) (fun p pid => if pid = 0 then p.inbox else []) (loadItems io inboxItems)
        (loadPlayerInboxItems (loadItems io inboxItems)) := by
  refine ⟨sameForest _ (own_slots inventory) (fun e he => ?_) (fun pid hpid => ?_) (Or.inr (nodup_itemList inventory))
      (fun e he => hsurvives e ?_) hitems,
    sameForest _ (own_depotChests _) (fun e he => ?_) (fun pid hpid => ?_) (Or.inl rfl) (fun e he => hsurvives e ?_) hdepotItems,
    sameForest _ (own_inbox inbox) (fun e he => ?_) (fun pid hpid => ?_) (Or.inl rfl) (fun e he => hsurvives e ?_) hinboxItems⟩
  · exact decide_eq_true (mem_itemList he)
  · have hslot := of_decide_eq_true hpid
    unfold CONST_SLOT_FIRST CONST_SLOT_LAST at hslot
    omega
  · exact List.mem_append_left _ (List.mem_append_left _ he)
  · unfold depotList at he
    obtain ⟨chest, hchest, hitem⟩ := List.mem_flatMap.mp he
    obtain ⟨item, -, rfl⟩ := List.mem_map.mp hitem
    exact decide_eq_true (hdepot chest hchest)
  · exact (of_decide_eq_true hpid).le
  · exact List.mem_append_left _ (List.mem_append_right _ he)
  · unfold inboxList at he
    obtain ⟨item, -, rfl⟩ := List.mem_map.mp he
    rfl
  · exact (of_decide_eq_true hpid).le
  · exact List.mem_append_right _ he

/-- Items that are an id with a count, and bags that are an id with `OPENCONTAINER`. -/
def plainItems : ItemIO (UInt16 × UInt16) (UInt16 × Option UInt8) where
  getID
    | .inl item => item.1
    | .inr container => container.1
  getSubType
    | .inl item => item.2
    | .inr _ => 1
  serializeAttr
    | .inl item => [15, item.2.toUInt8]
    | .inr (_, some openContainer) => [36, openContainer]
    | .inr (_, none) => []
  CreateItem type count := some (if type = 2853 then .inr (type, none) else .inl (type, count))
  unserializeAttr
    | .inl item, [15, count] => some (.inl (item.1, count.toUInt16))
    | .inr container, [36, openContainer] => some (.inr (container.1, some openContainer))
    | item, [] => some item
    | _, _ => none
  getOpenContainer container := (container.2.getD 0).toUInt64.toInt64
  setOpenContainer container openContainer := (container.1, some openContainer.toUInt64.toUInt8)

/-- An open bag with coins and a bag with more of them in the backpack slot, a coin in a depot chest, a bag in the inbox. -/
theorem sameForest_player_bags :
    let inventory slot := if slot = 3 then some (.inner (some 0, 2853, none)
      [.leaf (3031, 100), .inner (none, 2853, some 2) [.leaf (3035, 7)], .leaf (3031, 20)]) else none
    let depotChests := [(1, [.leaf (3043, 1), .leaf (3031, 5)])]
    let inbox := [.inner (none, 2853, none) []]
    let items := (saveItems plainItems (itemList inventory)).reverse
    let depotItems := saveItems plainItems (depotList depotChests)
    let inboxItems := saveItems plainItems (inboxList inbox)
    SameForest plainItems (itemList inventory) .slot (fun p slot => (p.inventory slot).toList) (loadItems plainItems items)
        (loadPlayerInventoryItems (loadItems plainItems items)) ∧
      SameForest plainItems (depotList depotChests) .depotChest (fun p depotId => p.depotChests depotId)
        (loadItems plainItems depotItems) (loadPlayerDepotItems (loadItems plainItems depotItems)) ∧
      SameForest plainItems (inboxList inbox) (fun _ => .inbox) (fun p pid => if pid = 0 then p.inbox else [])
        (loadItems plainItems inboxItems) (loadPlayerInboxItems (loadItems plainItems inboxItems)) := by
  intro inventory depotChests inbox items depotItems inboxItems
  refine sameForest_player plainItems inventory depotChests inbox (by decide) ?_ (List.reverse_perm _) (.refl _) (.refl _)
  have hall : itemList inventory ++ depotList depotChests ++ inboxList inbox =
      [(3, .inner (some 0, 2853, none)
          [.leaf (3031, 100), .inner (none, 2853, some 2) [.leaf (3035, 7)], .leaf (3031, 20)]),
        (1, .leaf (3043, 1)), (1, .leaf (3031, 5)), (0, .inner (none, 2853, none) [])] := rfl
  rw [hall]
  simp only [List.forall_mem_cons, List.not_mem_nil, false_imp_iff, implies_true, and_true, Tree.values, List.flatMap_cons,
    List.flatMap_nil, List.append_nil, List.cons_append, List.nil_append]
  refine ⟨⟨?_, ?_, ?_, ?_, ?_⟩, ?_, ?_, ?_⟩ <;> rfl

end IOLoginDataLoad
end CrystalServer
