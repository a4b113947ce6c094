import CrystalServer.Creatures.PlayerQuery
import CrystalServer.Theorems.Items.ContainerQuery

/-! # Containers that lie in each other

Here a list may name an item whose parent is elsewhere: only the links to the parents matter. They stay a forest
where none is added, and where an item comes into a container that lies neither in it nor is it. -/

namespace CrystalServer

namespace World
variable {w w' w'' : World} {r x c : Ref}

/-- No container lies inside itself, and the links, lists and slots lead to items in memory. -/
structure Nested (w : World) : Prop where
  acyclic : Lib.Acyclic w.getParentContainer
  made : ∀ r c, w.getParentContainer r = some c → r < w.next ∧ c < w.next
  listed : ∀ c r, r ∈ w.itemlist c → r < w.next
  slots : ∀ p s r, (w.players p).inventory s = some r → r < w.next

/-- The container is the item, or lies inside it. -/
def Inside (w : World) (c x : Ref) : Prop := c = x ∨ Lib.Below w.getParentContainer c x

/-- No link is added, and the lists and slots still lead to items in memory. -/
structure Loosens (w w' : World) : Prop where
  next : w.next ≤ w'.next
  parent : ∀ r c, w'.getParentContainer r = some c → w.getParentContainer r = some c
  listed : ∀ c r, r ∈ w'.itemlist c → r ∈ w.itemlist c ∨ r < w'.next
  slots : ∀ p s r, (w'.players p).inventory s = some r → (w.players p).inventory s = some r ∨ r < w'.next

theorem Forest.nested (h : w.Forest) (hslots : ∀ p s r, (w.players p).inventory s = some r → r < w.next) :
    w.Nested where
  acyclic := h.acyclic
  made := h.made
  listed c r hr := (h.made r c ((h.lists.mem_iff r c).mp hr)).1
  slots := hslots

namespace Nested

theorem ends (h : w.Nested) (r : Ref) : Lib.Ends w.getParentContainer w.next r := by
  have := h.acyclic.ends (Finset.range w.next) r fun y _ hy => by
    obtain ⟨c, hc⟩ := Option.isSome_iff_exists.mp hy
    exact Finset.mem_range.mpr (h.made y c hc).1
  rwa [Finset.card_range] at this

theorem loosens (h : w.Nested) (hl : Loosens w w') : w'.Nested where
  acyclic := h.acyclic.mono hl.parent
  made r c hr := by
    obtain ⟨hrn, hcn⟩ := h.made r c (hl.parent r c hr)
    exact ⟨hrn.trans_le hl.next, hcn.trans_le hl.next⟩
  listed c r hr := by
    rcases hl.listed c r hr with hr | hr
    · exact (h.listed c r hr).trans_le hl.next
    · exact hr
  slots p s r hr := by
    rcases hl.slots p s r hr with hr | hr
    · exact (h.slots p s r hr).trans_le hl.next
    · exact hr

/-- What has just been put in memory holds nothing. -/
theorem not_inside_next (h : w.Nested) (hc : c < w.next) : ¬w.Inside c w.next := by
  rintro (rfl | hb)
  · exact lt_irrefl _ hc
  · obtain ⟨y, -, hy⟩ := (Relation.TransGen.tail'_iff).mp hb
    exact lt_irrefl _ (h.made y w.next hy).2

end Nested

namespace Loosens

theorem refl (w : World) : Loosens w w := ⟨le_rfl, fun _ _ h => h, fun _ _ h => .inl h, fun _ _ _ h => .inl h⟩

theorem trans (h : Loosens w w') (h' : Loosens w' w'') : Loosens w w'' where
  next := h.next.trans h'.next
  parent r c hr := h.parent r c (h'.parent r c hr)
  listed c r hr := by
    rcases h'.listed c r hr with hr | hr
    · exact (h.listed c r hr).imp_right fun hr => hr.trans_le h'.next
    · exact .inr hr
  slots p s r hr := by
    rcases h'.slots p s r hr with hr | hr
    · exact (h.slots p s r hr).imp_right fun hr => hr.trans_le h'.next
    · exact .inr hr

theorem not_inside (h : Loosens w w') (hx : ¬w.Inside c x) : ¬w'.Inside c x := fun hin =>
  hx (hin.imp_right (Lib.below_mono h.parent))

theorem same (h : SameButTotals w w') : Loosens w w' where
  next := h.next.ge
  parent r c hr := by rwa [h.getParentContainer] at hr
  listed c r hr := by
    rw [h.itemlist] at hr
    exact .inl hr
  slots p s r hr := by
    rw [h.players] at hr
    exact .inl hr

/-- An item changes in itself. -/
theorem modify {f : Item → Item} (hp : (f (w.item r)).m_parent = (w.item r).m_parent)
    (hl : (f (w.item r)).container = (w.item r).container) : Loosens w (w.modify r f) where
  next := le_rfl
  parent x c hx := by
    rwa [getParentContainer_congr (congrFun (proj_modify Item.m_parent hp) x)] at hx
  listed c x hx := by
    have : (w.modify r f).itemlist = w.itemlist := proj_modify Item.getItemList (by rw [Item.getItemList, hl]; rfl)
    rw [this] at hx
    exact .inl hx
  slots p s x hx := .inl hx

theorem resetParent (w : World) (r : Ref) : Loosens w (w.resetParent r) where
  next := le_rfl
  parent x c hx := by
    rw [getParentContainer_resetParent] at hx
    by_cases hxr : x = r
    · rw [hxr, Function.update_self] at hx
      exact nomatch hx
    · rwa [Function.update_of_ne hxr] at hx
  listed c x hx := by
    rw [itemlist_resetParent] at hx
    exact .inl hx
  slots p s x hx := .inl hx

/-- An item goes to a player. -/
theorem setParent_player (w : World) (r : Ref) (p : PlayerRef) : Loosens w (w.setParent r (.player p)) where
  next := le_rfl
  parent x c hx := by
    have : (w.setParent r (.player p)).getParentContainer = Function.update w.getParentContainer r none :=
      proj_modify_update (fun i => i.m_parent.bind (·.getContainer)) _
    rw [this] at hx
    by_cases hxr : x = r
    · rw [hxr, Function.update_self] at hx
      exact nomatch hx
    · rwa [Function.update_of_ne hxr] at hx
  listed c x hx := by
    rw [itemlist_setParent] at hx
    exact .inl hx
  slots p s x hx := .inl hx

theorem mem_setItemlist {l : List Ref} {d : Ref} (h : x ∈ (w.setItemlist c l).itemlist d) :
    x ∈ l ∨ x ∈ w.itemlist d := by
  by_cases hc : w.isContainer c
  · rw [itemlist_setItemlist hc] at h
    by_cases hd : d = c
    · rw [hd, Function.update_self] at h
      exact .inl h
    · rw [Function.update_of_ne hd] at h
      exact .inr h
  · have hn : (w.item c).container = none := Option.not_isSome_iff_eq_none.mp hc
    have : (w.setItemlist c l).itemlist = w.itemlist := proj_modify Item.getItemList (by simp only [Item.getItemList, hn, Option.map_none])
    rw [this] at h
    exact .inr h

theorem setItemlist {l : List Ref} (hl : ∀ x ∈ l, x ∈ w.itemlist c) (hw : w.Nested) :
    Loosens w (w.setItemlist c l) where
  next := le_rfl
  parent x d hx := by rwa [getParentContainer_setItemlist] at hx
  listed d x hx := by
    rcases mem_setItemlist hx with hx | hx
    · exact .inr (hw.listed c x (hl x hx))
    · exact .inl hx
  slots p s x hx := .inl hx

theorem inventory_setInventory (w : World) (p q : PlayerRef) (slot s : Nat) (item : Option Ref) :
    ((w.setInventory p slot item).players q).inventory s =
      if q = p ∧ s = slot then item else (w.players q).inventory s := by
  unfold World.setInventory
  by_cases hq : q = p
  · subst hq
    simp [Function.update_apply]
  · simp [hq]

theorem setInventory {p : PlayerRef} {slot : Nat} {item : Option Ref} (h : ∀ x, item = some x → x < w.next) :
    Loosens w (w.setInventory p slot item) where
  next := le_rfl
  parent x c hx := hx
  listed c x hx := .inl hx
  slots q s x hx := by
    rw [inventory_setInventory] at hx
    split at hx
    · exact .inr (h x hx)
    · exact .inl hx

/-- A new item that lies nowhere and lists nothing. -/
theorem new {i : Item} (hp : i.m_parent = none) (hc : i.container = none) : Loosens w (w.new i) where
  next := Nat.le_succ _
  parent x c hx := by
    by_cases hxn : x = w.next
    · rw [getParentContainer, getParent, item_new, hxn, Function.update_self, hp] at hx
      cases hx
    · rwa [getParentContainer, getParent, item_new, Function.update_of_ne hxn] at hx
  listed c x hx := by
    by_cases hcn : c = w.next
    · rw [World.itemlist, item_new, hcn, Function.update_self, Item.getItemList, hc] at hx
      exact absurd hx List.not_mem_nil
    · rw [World.itemlist, item_new, Function.update_of_ne hcn] at hx
      exact .inl hx
  slots p s x hx := .inl hx

end Loosens
end World

/-! ### The walks up -/

namespace World
variable {w : World} {r c : Ref}

/-- The walks over the parents end by themselves: more rounds than the model gives them change nothing. -/
structure WalksEnd (w : World) : Prop where
  getTopParent : ∀ n r prevaux aux, w.getParent r = some aux → w.next < n →
    w.getTopParentLoop n prevaux aux = w.getTopParentLoop (w.next + 1) prevaux aux
  getTopParentContainer : ∀ n prevThing thing, w.next ≤ n →
    w.getTopParentContainerLoop n prevThing thing = w.getTopParentContainerLoop w.next prevThing thing
  queryAdd : ∀ n this item noLimit, w.next ≤ n →
    Container.queryAddParents w item noLimit n (w.getParent this) =
      Container.queryAddParents w item noLimit w.next (w.getParent this)
  updateItemWeight : ∀ n this diff, w.next ≤ n →
    Container.updateItemWeightLoop diff n this w = Container.updateItemWeight w this diff

/-- A parent is a container, a player or nothing. -/
theorem getParent_cases (w : World) (r : Ref) :
    (∃ c, w.getParent r = some (.container c) ∧ w.getParentContainer r = some c) ∨
      (∃ p, w.getParent r = some (.player p) ∧ w.getParentContainer r = none) ∨
        w.getParent r = none ∧ w.getParentContainer r = none := by
  unfold getParentContainer
  rcases w.getParent r with _ | c | p
  · exact .inr (.inr ⟨rfl, rfl⟩)
  · exact .inl ⟨c, rfl, rfl⟩
  · exact .inr (.inl ⟨p, rfl, rfl⟩)

theorem getTopParentLoop_player {n m : Nat} (prevaux : Option Cylinder) (p : PlayerRef) :
    w.getTopParentLoop (n + 1) prevaux (.player p) = w.getTopParentLoop (m + 1) prevaux (.player p) := rfl

theorem getTopParentLoop_of_ends {k n : Nat} (hc : Lib.Ends w.getParentContainer k c) (hn : k + 2 ≤ n)
    (prevaux : Option Cylinder) :
    w.getTopParentLoop n prevaux (.container c) = w.getTopParentLoop (k + 2) prevaux (.container c) := by
  induction k generalizing n c prevaux with
  | zero =>
    obtain ⟨n, rfl⟩ := Nat.exists_eq_add_of_le' hn
    rw [getTopParentLoop, getTopParentLoop]
    rcases getParent_cases w c with ⟨d, -, hd⟩ | ⟨p, hp, -⟩ | ⟨hnone, -⟩
    · exact absurd (hd.symm.trans hc) nofun
    · rw [hp]
      exact getTopParentLoop_player _ p
    · rw [hnone]
  | succ k ih =>
    obtain ⟨n, rfl⟩ := Nat.exists_eq_add_of_le' hn
    rw [← Nat.add_assoc, getTopParentLoop, getTopParentLoop]
    rcases getParent_cases w c with ⟨d, hd, hd'⟩ | ⟨p, hp, -⟩ | ⟨hnone, -⟩
    · rw [hd]
      exact ih (hc d hd') (by omega) _
    · rw [hp]
      exact getTopParentLoop_player _ p
    · rw [hnone]

theorem getTopParentContainerLoop_of_ends {k n : Nat} (hc : Lib.Ends w.getParentContainer k c) (hn : k ≤ n)
    (prevThing : Ref) :
    w.getTopParentContainerLoop n prevThing c = w.getTopParentContainerLoop k prevThing c := by
  induction k generalizing n c prevThing with
  | zero =>
    cases n with
    | zero => rfl
    | succ n =>
      have hc : w.getParentContainer c = none := hc
      simp only [getTopParentContainerLoop, hc]
  | succ k ih =>
    obtain ⟨n, rfl⟩ := Nat.exists_eq_add_of_le' hn
    rw [← Nat.add_assoc, getTopParentContainerLoop, getTopParentContainerLoop]
    cases hp : w.getParentContainer c with
    | none => rfl
    | some d => exact ih (hc d hp) (by omega) c

theorem queryAddParents_of_ends {k n : Nat} (hc : Lib.Ends w.getParentContainer k c) (hn : k ≤ n) (item : Ref)
    (noLimit : Bool) :
    Container.queryAddParents w item noLimit n (w.getParent c) =
      Container.queryAddParents w item noLimit k (w.getParent c) := by
  induction k generalizing n c with
  | zero =>
    rcases getParent_cases w c with ⟨d, -, hd⟩ | ⟨p, hp, -⟩ | ⟨hnone, -⟩
    · exact absurd (hd.symm.trans hc) nofun
    · rw [hp]
      cases n <;> rfl
    · rw [hnone]
      cases n <;> rfl
  | succ k ih =>
    obtain ⟨n, rfl⟩ := Nat.exists_eq_add_of_le' hn
    rcases getParent_cases w c with ⟨d, hd, hd'⟩ | ⟨p, hp, -⟩ | ⟨hnone, -⟩
    · rw [hd, ← Nat.add_assoc, Container.queryAddParents, Container.queryAddParents, ih (hc d hd') (by omega)]
    · rw [hp]
      rfl
    · rw [hnone]
      rfl

theorem updateItemWeightLoop_of_ends {k n : Nat} (hc : Lib.Ends w.getParentContainer k c) (hn : k ≤ n)
    (diff : UInt32) :
    Container.updateItemWeightLoop diff n c w = Container.updateItemWeightLoop diff k c w := by
  induction k generalizing n c w with
  | zero =>
    cases n with
    | zero => rfl
    | succ n =>
      have hc : w.getParentContainer c = none := hc
      simp only [Container.updateItemWeightLoop, hc]
  | succ k ih =>
    obtain ⟨n, rfl⟩ := Nat.exists_eq_add_of_le' hn
    rw [← Nat.add_assoc, Container.updateItemWeightLoop, Container.updateItemWeightLoop]
    cases hp : w.getParentContainer c with
    | none => rfl
    | some d =>
      have hsame := sameButTotals_setTotalWeight w c (w.totalWeight c + diff)
      refine ih ?_ (by omega)
      rw [hsame.getParentContainer]
      exact hc d hp

theorem Nested.walksEnd (h : w.Nested) : w.WalksEnd where
  getTopParent n r prevaux aux hr hn := by
    cases aux with
    | player p =>
      obtain ⟨n, rfl⟩ := Nat.exists_eq_add_of_lt hn
      exact getTopParentLoop_player prevaux p
    | container c =>
      have hrc : w.getParentContainer r = some c := by rw [getParentContainer, hr]; rfl
      have hpos : 0 < w.next := (Nat.zero_le r).trans_lt (h.made r c hrc).1
      obtain ⟨k, hk⟩ := Nat.exists_eq_add_of_lt hpos
      have hends := h.ends r
      rw [hk] at hends hn ⊢
      rw [Nat.zero_add] at hends hn ⊢
      exact getTopParentLoop_of_ends (hends c hrc) hn prevaux
  getTopParentContainer n prevThing thing hn := getTopParentContainerLoop_of_ends (h.ends thing) hn prevThing
  queryAdd n this item noLimit hn := queryAddParents_of_ends (h.ends this) hn item noLimit
  updateItemWeight n this diff hn := updateItemWeightLoop_of_ends (h.ends this) hn diff

end World

/-! ### What the cylinders do -/

namespace Container
open World
variable {items : UInt16 → ItemType} {w : World} {this x : Ref}

theorem updateThing_loosens (items : UInt16 → ItemType) (w : World) (this x : Ref) (itemId : UInt16) (count : UInt32) :
    Loosens w (updateThing items w this x itemId count) := by
  by_cases hx : x ∈ w.itemlist this
  · rw [updateThing_of_mem hx]
    obtain ⟨as, k, he⟩ := Item.setID_setSubType_eq items (w.item x) itemId count.toUInt16
    exact (Loosens.modify (by rw [he]) (by rw [he])).trans (.same (updateItemWeight_same _ _ _))
  · rw [updateThing, if_neg hx]
    exact .refl w

theorem removeThing_loosens (items : UInt16 → ItemType) (hw : w.Nested) (this x : Ref) (count : UInt32) :
    Loosens w (removeThing items w this x count) := by
  by_cases hx : x ∈ w.itemlist this
  · by_cases hcount : (w.item x).isStackable items ∧ count.toNat ≠ (w.item x).getItemCount
    · rw [removeThing_part hx hcount]
      exact (Loosens.modify (f := (·.setItemCount _)) rfl rfl).trans (.same (updateItemWeight_same _ _ _))
    · rw [removeThing_whole hx hcount]
      have hup := (Loosens.same (updateItemWeight_same w this (-w.getWeight items x))).trans (.resetParent _ x)
      refine hup.trans (.setItemlist (fun y hy => ?_) (hw.loosens hup))
      rw [itemlist_resetParent, (updateItemWeight_same _ _ _).itemlist]
      exact List.mem_of_mem_erase hy
  · rw [removeThing, if_neg hx]
    exact .refl w

/-- An item comes into a container that lies neither in it nor is it. -/
theorem addThing_nested (items : UInt16 → ItemType) (index : Int) (hw : w.Nested) (hthis : this < w.next)
    (hx : x < w.next) (hin : ¬w.Inside this x) : (addThing items w this index (some x)).Nested := by
  unfold addThing
  split
  · exact hw
  have hpar : ((w.setParent x (.container this)).setItemlist this (x :: w.itemlist this)).getParentContainer =
      Function.update w.getParentContainer x (some this) :=
    (getParentContainer_setItemlist _ _ _).trans (getParentContainer_setParent w x this)
  have hlinked : ((w.setParent x (.container this)).setItemlist this (x :: w.itemlist this)).Nested := by
    refine ⟨?_, fun r c hr => ?_, fun c r hr => ?_, hw.slots⟩
    · rw [hpar]
      exact hw.acyclic.hang (fun he => hin (.inl he)) fun hb => hin (.inr hb)
    · rw [hpar] at hr
      by_cases hrx : r = x
      · rw [hrx, Function.update_self] at hr
        cases hr
        exact ⟨hrx ▸ hx, hthis⟩
      · rw [Function.update_of_ne hrx] at hr
        exact hw.made r c hr
    · rcases Loosens.mem_setItemlist hr with hr | hr
      · rcases List.mem_cons.mp hr with rfl | hr
        · exact hx
        · exact hw.listed this r hr
      · rw [itemlist_setParent] at hr
        exact hw.listed c r hr
  exact hlinked.loosens (.same (updateItemWeight_same _ _ _))

end Container

namespace Player
open World
variable {env : Env} {w : World} {x : Ref}

theorem updateThing_loosens (env : Env) (w : World) (this : PlayerRef) (x : Ref) (itemId : UInt16) (count : UInt32) :
    Loosens w (updateThing env w this x itemId count) := by
  unfold updateThing
  cases getThingIndex w this x with
  | none => exact .refl w
  | some i =>
    obtain ⟨as, k, he⟩ := Item.setID_setSubType_eq env.items (w.item x) itemId count.toUInt16
    exact .modify (by rw [he]) (by rw [he])

theorem removeThing_loosens (env : Env) (w : World) (this : PlayerRef) (x : Ref) (count : UInt32) :
    Loosens w (removeThing env w this x count) := by
  unfold removeThing
  cases getThingIndex w this x with
  | none => exact .refl w
  | some i =>
    dsimp only
    split
    · exact .modify rfl rfl
    · exact (Loosens.resetParent w x).trans (.setInventory nofun)

theorem addThing_loosens (w : World) (this : PlayerRef) (index : Int) (hx : x < w.next) :
    Loosens w (addThing w this index (some x)) := by
  unfold addThing
  dsimp only
  split
  · exact .refl w
  · refine (Loosens.setParent_player w x this).trans (.setInventory fun y hy => ?_)
    cases hy
    exact hx

end Player
end CrystalServer
