import CrystalServer.Creatures.Npc
import CrystalServer.Theorems.Game.Money
import CrystalServer.Theorems.Game.PlayerAddItem

/-! # Selling to an NPC: what is taken

The items of the list are looked at from the outside in, so that no item that is taken makes a later one eligible. What
the second pass takes is what the counts of the eligible items before it say. -/

namespace CrystalServer

variable {τ : Type} {env : NpcEnv τ} {items : UInt16 → ItemType} {w w' : World} {p : PlayerRef} {x y d : Ref}

/-! ### The list of items -/

namespace Player

theorem slots_eq (w : World) (p : PlayerRef) :
    (List.range' 1 11).filterMap (w.players p).inventory = Game.things w (.player p) := by
  refine List.filterMap_congr fun i hi => ?_
  have hi' : CONST_SLOT_FIRST ≤ (i : Int) ∧ (i : Int) ≤ CONST_SLOT_LAST := by
    have := List.mem_range'_1.mp hi
    simp only [CONST_SLOT_FIRST, CONST_SLOT_LAST]
    omega
  rw [Cylinder.getThing, Player.getThing, if_pos hi', Int.toNat_natCast]

/-- An item in a slot, and what its iterator meets, from the outside in. -/
theorem slot_pairwise (env : Env) (hw : Carried items w) (hd : w.getParent d = some (.player p)) :
    (d :: Container.iterator env w d).Pairwise fun x y => x ≠ y ∧ w.getParentContainer x ≠ some y := by
  have hfree : w.getParentContainer d = none := by
    rw [World.getParentContainer, hd]
    rfl
  have hparents := Container.iterator_parents env hw.forest hfree
  refine List.Pairwise.and (Container.iterator_spec env d hw.forest).1 (List.pairwise_cons.mpr ⟨fun y _ h => ?_, hparents⟩)
  cases hfree.symm.trans h

/-- What is listed for a slot is the item in it or lies in this one. -/
theorem mem_slot {env : Env} {itemId : UInt16} {ignore : Bool} (hw : w.Forest)
    (hx : x ∈ (if !ignore ∧ (w.item d).id = itemId then [d] else []) ++
      if w.isContainer d then (Container.iterator env w d).filter fun r => (w.item r).id = itemId else []) :
    (w.item x).id = itemId ∧ (x = d ∨ Lib.Below w.getParentContainer x d) := by
  rcases List.mem_append.mp hx with hx | hx
  · split_ifs at hx with h
    · rw [List.mem_singleton.mp hx]
      exact ⟨h.2, .inl rfl⟩
    · exact absurd hx List.not_mem_nil
  · split_ifs at hx
    · obtain ⟨hmem, hid⟩ := List.mem_filter.mp hx
      exact ⟨of_decide_eq_true hid, .inr ((Container.iterator_spec env d hw).2 x hmem).1⟩
    · exact absurd hx List.not_mem_nil

theorem sublist_slot (env : Env) (w : World) (d : Ref) (itemId : UInt16) (ignore : Bool) :
    ((if !ignore ∧ (w.item d).id = itemId then [d] else []) ++
      if w.isContainer d then (Container.iterator env w d).filter fun r => (w.item r).id = itemId else []).Sublist
      (d :: Container.iterator env w d) := by
  change List.Sublist _ ([d] ++ Container.iterator env w d)
  refine List.Sublist.append ?_ ?_
  · split_ifs
    · exact List.Sublist.refl _
    · exact List.nil_sublist _
  · split_ifs
    · exact List.filter_sublist
    · exact List.nil_sublist _

/-- No item is listed twice, nor after one that lies in it. -/
theorem inventoryItems_pairwise (env : Env) (hw : Carried items w) (hs : Slotted w) (p : PlayerRef) (itemId : UInt16) (ignore : Bool) :
    (getInventoryItemsFromId env w p itemId ignore).Pairwise fun x y => x ≠ y ∧ w.getParentContainer x ≠ some y := by
  unfold getInventoryItemsFromId
  rw [slots_eq, List.pairwise_flatMap]
  refine ⟨fun d hd => ?_, ?_⟩
  · exact (slot_pairwise env hw ((Game.mem_things hw hs).mp hd)).sublist (sublist_slot env w d itemId ignore)
  · refine List.Pairwise.imp_of_mem (fun {d d'} hd hd' hne x hx y hy => ?_) (Game.nodup_things hw hs (.player p))
    have hdp := (Game.mem_things hw hs).mp hd
    have hdp' := (Game.mem_things hw hs).mp hd'
    have hxd := (mem_slot hw.forest hx).2
    -- nothing lies in two slots
    have hout : ¬(x = d' ∨ Lib.Below w.getParentContainer x d') := fun hxd' => by
      rcases hxd with rfl | hxd <;> rcases hxd' with hxd' | hxd'
      · exact hne hxd'
      · exact Game.not_below_thing hw.forest hdp hdp' hxd'
      · exact Game.not_below_thing hw.forest hdp' hdp (hxd' ▸ hxd)
      · rcases Lib.below_linear hxd hxd' with h | h | h
        · exact hne h
        · exact Game.not_below_thing hw.forest hdp hdp' h
        · exact Game.not_below_thing hw.forest hdp' hdp h
    rcases (mem_slot hw.forest hy).2 with hyd | hyd
    · exact ⟨fun hxy => hout (.inl (hxy.trans hyd)), fun hxy => hout (.inr (Lib.below_of_parent (hyd ▸ hxy)))⟩
    · exact ⟨fun hxy => hout (.inr (hxy ▸ hyd)), fun hxy => hout (.inr (.head hxy hyd))⟩

theorem mem_inventoryItems {env : Env} (hw : Carried items w) (hs : Slotted w) {itemId : UInt16} {ignore : Bool}
    (hx : x ∈ getInventoryItemsFromId env w p itemId ignore) :
    (w.item x).id = itemId ∧ Lib.Below w.holder (.container x) (.player p) := by
  unfold getInventoryItemsFromId at hx
  rw [slots_eq] at hx
  obtain ⟨d, hd, hx⟩ := List.mem_flatMap.mp hx
  obtain ⟨hid, hxd⟩ := mem_slot hw.forest hx
  exact ⟨hid, Game.below_cylinder_iff.mpr ⟨d, (Game.mem_things hw hs).mp hd, hxd⟩⟩

end Player

namespace Npc
open Game

/-! ### Weighing -/

/-- Only weights change. -/
theorem weighed (env : Env) (w : World) (p : PlayerRef) : ∃ players, Player.updateInventoryWeight env w p = { w with players := players } ∧
    ∀ q, (players q).inventory = (w.players q).inventory := by
  unfold Player.updateInventoryWeight
  dsimp only
  split_ifs
  · exact ⟨w.players, rfl, fun _ => rfl⟩
  · refine ⟨_, rfl, fun q => ?_⟩
    by_cases hq : q = p
    · rw [hq, Function.update_self]
    · rw [Function.update_of_ne hq]

theorem orders_weighed (env : Env) (p : PlayerRef) (hw : Carried items w) :
    Orders items w (Player.updateInventoryWeight env w p) := by
  obtain ⟨players, heq, hinv⟩ := weighed env w p
  rw [heq]
  refine ⟨⟨⟨hw.forest.lists, hw.forest.acyclic, hw.forest.made⟩, hw.single, fun q i r hr => hw.slots q i r ?_, hw.made⟩,
    fun hs => ⟨fun q r hr => ?_, fun q i j r hi hj => ?_⟩⟩
  · rw [← hinv]
    exact hr
  · change ∃ i ∈ _, (players q).inventory i = _
    rw [hinv]
    exact hs.slot q r hr
  · change (players q).inventory i = _ at hi
    change (players q).inventory j = _ at hj
    rw [hinv] at hi hj
    exact hs.once q i j r hi hj

theorem keeps_weighed (env : Env) (w : World) (p : PlayerRef) (x : Ref) : Keeps w (Player.updateInventoryWeight env w p) x := by
  obtain ⟨players, heq, -⟩ := weighed env w p
  rw [heq]
  exact ⟨le_rfl, fun _ _ h => h, fun _ _ _ h => h, fun _ _ => rfl, fun _ _ => rfl⟩

theorem held_weighed (env : Env) (p : PlayerRef) (hw : Carried items w) (dest : Cylinder) (id : UInt16) :
    (Player.updateInventoryWeight env w p).held items dest id = w.held items dest id := by
  rw [World.held_eq items (orders_weighed env p hw).carried.forest, World.held_eq items hw.forest]
  obtain ⟨players, heq, -⟩ := weighed env w p
  rw [heq]
  rfl

/-! ### Eligible items -/

/-- A container with something in it is not eligible. So an item is judged by itself, and by where it lies. -/
theorem isEligible_congr {parent : Option Ref} (hplain : (w'.item x).plain = (w.item x).plain)
    (hcon : w'.isContainer x = w.isContainer x) (hempty : w'.itemlist x = [] ↔ w.itemlist x = [])
    (hparent : w'.getParent x = w.getParent x) : isEligible env w' parent x = isEligible env w parent x := by
  have same : ∀ {α : Type} (f : Item → α), (∀ i, f i.plain = f i) → f (w'.item x) = f (w.item x) :=
    fun f hf => by rw [← hf, hplain, hf]
  have hid := same Item.id fun _ => rfl
  have hattr := same Item.attributePtr fun _ => rfl
  have htier := same (Item.getTier env.itemEnv) fun _ => rfl
  have hstore := same Item.isStoreItem fun _ => rfl
  have howner := same Item.getOwnerId fun _ => rfl
  unfold isEligible
  dsimp only
  rw [htier, hid, hattr, hcon, World.getParentContainer, World.getParentContainer, hparent]
  by_cases hfull : w.isContainer x ∧ w.itemlist x ≠ []
  · simp [hfull.1, hfull.2, hempty]
  have hnil : w.itemlist x = [] := by
    by_contra hne
    refine hfull ⟨?_, hne⟩
    by_contra hcx
    exact hne (World.getItemList_of_none (Option.not_isSome_iff_eq_none.mp hcx))
  have hown : ∀ v : World, v.itemlist x = [] → v.hasOwner x = ((v.item x).getOwnerId != 0) := fun v hv => by
    unfold World.hasOwner World.getOwnerId World.getOwnerIdLoop
    dsimp only
    rw [hv]
    split_ifs with h
    · rfl
    · simp [UInt32.not_lt.mp h |> UInt32.le_zero_iff.mp]
  have hmarket : hasMarketAttributes env w' x = hasMarketAttributes env w x := by
    unfold hasMarketAttributes
    dsimp only
    rw [htier, hid, hattr, hstore, hown w' (hempty.mpr hnil), hown w hnil, howner]
  simp only [hmarket, hnil, hempty.mpr hnil]

/-! ### One item -/

/-- So many units of an item are taken: all of it, or a part of a stack. -/
def Gives (items : UInt16 → ItemType) (w w' : World) (x : Ref) (n : Nat) : Prop :=
  Cuts w w' x ∧ ((w.item x).isStackable items → n = (w.item x).getItemCount) ∨
    (w.item x).isStackable items ∧ n < (w.item x).getItemCount ∧ Recounts w w' x ((w.item x).getItemCount - n)

theorem internalRemoveItem_gives {env : MoneyEnv} (hw : Carried env.items w) (hs : Slotted w) {k : Cylinder}
    (hk : w.getParent x = some k) (hrem : Removable env x) {n : Nat} (hpos : 0 < n)
    (hle : n ≤ (w.item x).getItemCount) :
    ∃ w', internalRemoveItem env w x n = (w', .NOERROR) ∧ Gives env.items w w' x n := by
  have hcount : (w.item x).getItemCount < 256 := (w.item x).count.toNat_lt
  have hn : (UInt32.ofInt (n : Int)).toNat = n := ofInt_natCast_toNat (by omega)
  have heq : internalRemoveItem env w x n = _ :=
    internalRemoveItem_eq hw hs hk hrem (n := .ofInt n) (by rw [if_neg (by omega)])
  rw [if_neg] at heq
  swap
  · rintro (hz | ⟨-, hlt⟩)
    · rw [hz] at hn
      exact hpos.ne hn
    · rw [hn] at hlt
      exact absurd hle (not_le.mpr hlt)
  refine ⟨_, heq, ?_⟩
  by_cases hpart : (w.item x).isStackable env.items ∧ n ≠ (w.item x).getItemCount
  · have hlt := lt_of_le_of_ne hle hpart.2
    have hrecounts := recounts_removeThing hw hs hk hpart.1 (n := .ofInt n) (by rwa [hn])
    rw [hn] at hrecounts
    exact Or.inr ⟨hpart.1, hlt, hrecounts⟩
  · have hcuts := cuts_removeThing hw hs hk (n := .ofInt n) (by rwa [hn])
    exact Or.inl ⟨hcuts, fun hst => of_not_not fun hne => hpart ⟨hst, hne⟩⟩

namespace Gives
variable {n : Nat}

theorem orders (h : Gives items w w' x n) (hw : Carried items w) : Orders items w w' := by
  rcases h with ⟨h, -⟩ | ⟨-, -, h⟩
  · exact ⟨h.carried hw, h.slotted⟩
  · exact h.orders hw

theorem below (h : Gives items w w' x n) (hx : ∀ k, ¬Lib.Below w.holder k (.container x)) (hne : y ≠ x) {dest : Cylinder}
    (hb : Lib.Below w.holder (.container y) dest) : Lib.Below w'.holder (.container y) dest := by
  rcases h with ⟨h, -⟩ | ⟨-, -, h⟩
  · exact h.below hx hne hb
  · rw [h.holder]
    exact hb

/-- The others stay as they are and where they are. -/
theorem others (h : Gives items w w' x n) (hne : y ≠ x) : (w'.item y).plain = (w.item y).plain ∧
    w'.getParent y = w.getParent y := by
  rcases h with ⟨h, -⟩ | ⟨-, -, h⟩
  · exact ⟨h.plain y, h.getParent_of_ne hne⟩
  · exact ⟨h.plain y hne, h.parent y⟩

theorem container (h : Gives items w w' x n) (r : Ref) : w'.isContainer r = w.isContainer r := by
  rcases h with ⟨h, -⟩ | ⟨-, -, h⟩
  · exact h.container r
  · exact h.container r

theorem next (h : Gives items w w' x n) : w'.next = w.next := by
  rcases h with ⟨h, -⟩ | ⟨-, -, h⟩
  · exact h.next
  · exact h.next

/-- A container is taken whole. -/
theorem gone (h : Gives items w w' x n) (hw : Carried items w) (hx : w.isContainer x) : w'.getParent x = none := by
  rcases h with ⟨h, -⟩ | ⟨hst, -, -⟩
  · rw [h.parent, Function.update_self]
  · exact absurd hst (by rw [hw.single x hx]; exact Bool.false_ne_true)

theorem itemlist_nil (h : Gives items w w' x n) (hw : Carried items w) (hpar : w.getParentContainer x ≠ some y) :
    w'.itemlist y = [] ↔ w.itemlist y = [] := by
  have hmem : ∀ r, r ∈ w'.itemlist y ↔ r ∈ w.itemlist y := fun r => by
    rw [(h.orders hw).carried.forest.lists.mem_iff, hw.forest.lists.mem_iff]
    by_cases hrx : r = x
    · rw [hrx]
      refine iff_of_false (fun hr => ?_) hpar
      rcases h with ⟨h, -⟩ | ⟨-, -, h⟩
      · rw [World.getParentContainer, h.parent, Function.update_self] at hr
        cases hr
      · rw [World.getParentContainer, h.parent] at hr
        exact hpar hr
    · rw [World.getParentContainer, World.getParentContainer, (h.others hrx).2]
  rw [List.eq_nil_iff_forall_not_mem, List.eq_nil_iff_forall_not_mem]
  exact forall_congr' fun r => not_congr (hmem r)

/-- The cylinder has the units less. -/
theorem held (h : Gives items w w' x n) (hw : Carried items w) (hx : ∀ k, ¬Lib.Below w.holder k (.container x))
    {dest : Cylinder} (hb : Lib.Below w.holder (.container x) dest) (id : UInt16) :
    w'.held items dest id + (if (w.item x).id = id then if (w.item x).isStackable items then n else 1 else 0) =
      w.held items dest id := by
  obtain ⟨k, hk, -⟩ := Lib.below_cases hb
  rcases h with ⟨h, hwhole⟩ | ⟨hst, hlt, h⟩
  · have hheld : w'.held items dest id + _ = _ := h.held hw.forest hx (hw.made x k hk) hb id
    rw [← hheld, Item.units, Item.part]
    split_ifs with hid hst
    · rw [hwhole hst]
    · rfl
    · rfl
  · have hheld := h.held hw hst hb id
    rw [World.part_of_stackable hst, World.part_of_stackable hst] at hheld
    rw [if_pos hst]
    split_ifs at hheld ⊢ <;> omega

end Gives

/-! ### The second pass -/

/-- The player is in order, and holds the containers that are set for loot and for what he obtains. -/
structure Trading (env : NpcEnv τ) (s : SaleState τ) (p : PlayerRef) : Prop where
  carried : Carried env.items s.world
  slotted : Slotted s.world
  obtained : Managed s.world s.looting p
  loot : Managed s.world s.collecting.looting p

instance {env : MoneyEnv} {r : Ref} : Decidable (Removable env r) := inferInstanceAs (Decidable (_ ∧ _))

/-- What the second pass takes of each item. -/
def removals (env : NpcEnv τ) (w : World) (parent : Option Ref) : List Ref → UInt16 → List (Ref × UInt16)
  | [], _ => []
  | item :: rest, toRemove =>
    let removeCount := min toRemove (.ofNat (w.item item).getItemCount)
    if isEligible env w parent item ∧ Removable env.toMoneyEnv item ∧ removeCount ≠ 0 then
      (item, removeCount) :: removals env w parent rest (toRemove - removeCount)
    else removals env w parent rest toRemove

/-- What the code counts for what it takes. -/
def counted (l : List (Ref × UInt16)) : Nat := (l.map fun e => e.2.toNat).sum

/-- The units that go: the pieces of stacks, or the items where these do not stack. -/
def units (items : UInt16 → ItemType) (itemId : UInt16) (l : List (Ref × UInt16)) : Nat :=
  if (items itemId).stackable then counted l else l.length

variable {parent : Option Ref} {s : SaleState τ}

theorem min_toNat (a b : UInt16) : (min a b).toNat = min a.toNat b.toNat := by
  have hmin : min a b = if a ≤ b then a else b := rfl
  rw [hmin]
  split_ifs with h
  · exact (min_eq_left (UInt16.le_iff_toNat_le.mp h)).symm
  · exact (min_eq_right (not_le.mp fun h' => h (UInt16.le_iff_toNat_le.mpr h')).le).symm

theorem removals_zero (env : NpcEnv τ) (w : World) (parent : Option Ref) (l : List Ref) : removals env w parent l 0 = [] := by
  induction l with
  | nil => rfl
  | cons x l ih =>
    have hzero : min (0 : UInt16) (.ofNat (w.item x).getItemCount) = 0 := by
      refine UInt16.toNat_inj.mp ?_
      rw [min_toNat]
      exact Nat.zero_min _
    unfold removals
    rw [hzero, if_neg fun h => h.2.2 rfl]
    exact ih

theorem removals_congr {l : List Ref} (h : ∀ x ∈ l, isEligible env w' parent x = isEligible env w parent x ∧
    (w'.item x).plain = (w.item x).plain) (toRemove : UInt16) :
    removals env w' parent l toRemove = removals env w parent l toRemove := by
  induction l generalizing toRemove with
  | nil => rfl
  | cons x l ih =>
    obtain ⟨heligible, hplain⟩ := h x List.mem_cons_self
    have hcount : (w'.item x).getItemCount = (w.item x).getItemCount := by
      have := congrArg Item.getItemCount hplain
      exact this
    have hrest := ih fun y hy => h y (List.mem_cons_of_mem x hy)
    unfold removals
    dsimp only
    rw [heligible, hcount, hrest, hrest]

/-- What is managed is not what was taken. -/
theorem managed_taken {looting : Looting} {n : Nat} (hw : Carried env.items w) (h : Gives env.items w w' x n)
    (hx : ∀ k, ¬Lib.Below w.holder k (.container x)) (hm : Managed w looting p) (category : ObjectCategory) (c : Ref) :
    let v := Player.updateInventoryWeight env.toEnv w' p
    (if v.isContainer x then Player.checkLootContainers env.toEnv v p x looting.m_managedContainers
      else looting.m_managedContainers) category = some c → HeldBy v p c := by
  intro v hc
  obtain ⟨players, hv, -⟩ := weighed env.toEnv w' p
  have hcontainer : ∀ r, v.isContainer r = w.isContainer r := fun r => by
    rw [← h.container r, show v = _ from hv]
    rfl
  have hold : looting.m_managedContainers category = some c ∧ c ≠ x := by
    split_ifs at hc with hcon
    · obtain ⟨hc, hcheck⟩ := Option.filter_eq_some_iff.mp hc
      refine ⟨hc, ?_⟩
      rintro rfl
      have hgone : v.getParent c = none := by
        rw [show v = _ from hv]
        exact h.gone hw (hcontainer c ▸ hcon)
      have hfree : Player.getHoldingPlayer v c = none := by
        rw [Player.getHoldingPlayer, hgone]
        rfl
      simp [hfree] at hcheck
    · refine ⟨hc, ?_⟩
      rintro rfl
      rw [hcontainer] at hcon
      exact hcon (hm category c hc).1.1
  have hheld := hm category c hold.1
  refine (keeps_weighed env.toEnv w' p x).heldBy ⟨⟨?_, h.next ▸ hheld.1.2⟩, h.below hx hold.2 hheld.2⟩
  rw [h.container]
  exact hheld.1.1

/-- An item was taken from the player. -/
theorem trading_taken {n : Nat} (ht : Trading env s p) (h : Gives env.items s.world w' x n)
    (hx : ∀ k, ¬Lib.Below s.world.holder k (.container x)) :
    Trading env (postRemoveNotification env { s with world := w' } p x) p := by
  have horders := h.orders ht.carried
  have hweighed := orders_weighed env.toEnv p horders.carried
  refine ⟨hweighed.carried, hweighed.slotted (horders.slotted ht.slotted), fun category c hc => ?_, fun category c hc => ?_⟩
  · exact managed_taken ht.carried h hx ht.obtained category c hc
  · exact managed_taken ht.carried h hx ht.loot category c hc

/-- Items of the player, from the outside in. -/
structure Listed (w : World) (p : PlayerRef) (itemId : UInt16) (l : List Ref) : Prop where
  order : l.Pairwise fun x y => x ≠ y ∧ w.getParentContainer x ≠ some y
  mem : ∀ x ∈ l, (w.item x).id = itemId ∧ Lib.Below w.holder (.container x) (.player p)

/-- Nothing lies in an eligible item. -/
theorem alone_of_eligible (hw : w.Forest) (h : isEligible env w parent x) (k : Cylinder) :
    ¬Lib.Below w.holder k (.container x) := by
  by_cases hcon : w.isContainer x
  · refine World.not_below_empty hw ?_ k
    unfold isEligible at h
    by_contra hne
    simp [hcon, hne] at h
  · exact World.not_below_single hw hcon k

theorem listed_rest {itemId : UInt16} {l : List Ref} {n : Nat} (hl : Listed w p itemId (x :: l))
    (h : Gives items w w' x n) (hx : ∀ k, ¬Lib.Below w.holder k (.container x)) : Listed w' p itemId l := by
  obtain ⟨hfirst, hrest⟩ := List.pairwise_cons.mp hl.order
  refine ⟨hrest.imp_of_mem fun {y z} hy _ hyz => ⟨hyz.1, ?_⟩, fun y hy => ?_⟩
  · rw [World.getParentContainer, (h.others (hfirst y hy).1.symm).2]
    exact hyz.2
  · obtain ⟨hid, hb⟩ := hl.mem y (List.mem_cons_of_mem x hy)
    have := congrArg Item.id (h.others (hfirst y hy).1.symm).1
    exact ⟨Eq.trans this hid, h.below hx (hfirst y hy).1.symm hb⟩

theorem listed_weighed (env : Env) {itemId : UInt16} {l : List Ref} (hl : Listed w p itemId l) :
    Listed (Player.updateInventoryWeight env w p) p itemId l := by
  obtain ⟨players, heq, -⟩ := weighed env w p
  rw [heq]
  exact ⟨hl.order, hl.mem⟩

/-- What is taken makes no difference to the items that come later. -/
theorem removals_rest {itemId : UInt16} {l : List Ref} {n : Nat} (hw : Carried items w) (hl : Listed w p itemId (x :: l))
    (h : Gives items w w' x n) (toRemove : UInt16) :
    removals env (Player.updateInventoryWeight env.toEnv w' p) parent l toRemove = removals env w parent l toRemove := by
  obtain ⟨players, heq, -⟩ := weighed env.toEnv w' p
  rw [heq]
  refine removals_congr (fun y hy => ?_) toRemove
  obtain ⟨hne, hpar⟩ := (List.pairwise_cons.mp hl.order).1 y hy
  obtain ⟨hplain, hparent⟩ := h.others hne.symm
  exact ⟨isEligible_congr hplain (h.container y) (h.itemlist_nil hw hpar) hparent, hplain⟩

/-- What the second pass comes to. -/
structure Taking (env : NpcEnv τ) (p : PlayerRef) (itemId : UInt16) (s s' : SaleState τ) (plan : List (Ref × UInt16)) : Prop where
  trading : Trading env s' p
  held : ∀ id, s'.world.held env.items (.player p) id + (if itemId = id then units env.items itemId plan else 0) =
    s.world.held env.items (.player p) id
  tile : s'.tile = s.tile
  bank : s'.bankBalance = s.bankBalance
  none : plan = [] → s' = s

theorem internalRemoveItem_fails {env : MoneyEnv} {k : Cylinder} (hw : Carried env.items w) (hs : Slotted w)
    (hk : w.getParent x = some k) {n : Nat} (h : ¬(Removable env x ∧ n ≠ 0)) :
    ∃ ret, internalRemoveItem env w x n = (w, ret) ∧ ret ≠ .NOERROR := by
  by_cases hrem : Removable env x
  · obtain rfl : n = 0 := of_not_not fun hn => h ⟨hrem, hn⟩
    refine ⟨.NOTPOSSIBLE, ?_, nofun⟩
    rw [internalRemoveItem_eq hw hs hk hrem (n := 0) rfl, if_pos (Or.inl rfl)]
  · unfold internalRemoveItem
    rw [hk]
    dsimp only
    by_cases hquery : k.queryRemove env.toEnv w x (.ofInt (if (n : Int) = -1 then (w.item x).getItemCount else n))
        FLAG_IGNORENOTMOVABLE = .NOERROR
    · rw [if_neg (not_not.mpr hquery)]
      by_cases hcan : env.canRemove x
      · rw [if_neg (by simp [hcan]), if_pos (of_not_not fun hdecays => hrem ⟨hcan, hdecays⟩)]
        exact ⟨_, rfl, nofun⟩
      · rw [if_pos (by simp [hcan])]
        exact ⟨_, rfl, nofun⟩
    · rw [if_pos hquery]
      exact ⟨_, rfl, hquery⟩

theorem sellLoop_spec {itemId : UInt16} {l : List Ref} (ht : Trading env s p) (hl : Listed s.world p itemId l) (toRemove : UInt16) :
    let res := sellLoop env p parent l s toRemove
    let plan := removals env s.world parent l toRemove
    Taking env p itemId s res.1 plan ∧ res.2.toNat + counted plan = toRemove.toNat := by
  induction l generalizing s toRemove with
  | nil =>
    refine ⟨⟨ht, fun id => ?_, rfl, rfl, fun _ => rfl⟩, Nat.add_zero _⟩
    have hnone : units env.items itemId (removals env s.world parent [] toRemove) = 0 := ite_self 0
    rw [hnone, ite_self, add_zero]
    rfl
  | cons x l ih =>
    dsimp only
    unfold sellLoop removals
    dsimp only
    by_cases heligible : isEligible env s.world parent x
    swap
    · rw [if_pos (by simpa using heligible), if_neg fun h => heligible h.1]
      exact ih ht ⟨(List.pairwise_cons.mp hl.order).2, fun y hy => hl.mem y (List.mem_cons_of_mem x hy)⟩ toRemove
    rw [if_neg (by simpa using heligible)]
    obtain ⟨hid, hb⟩ := hl.mem x List.mem_cons_self
    obtain ⟨k, hk, -⟩ := Lib.below_cases hb
    have hcount : (s.world.item x).getItemCount < 256 := (s.world.item x).count.toNat_lt
    have hmin := min_toNat toRemove (.ofNat (s.world.item x).getItemCount)
    rw [UInt16.toNat_ofNat', Nat.mod_eq_of_lt (by omega)] at hmin
    generalize min toRemove (.ofNat (s.world.item x).getItemCount) = removeCount at hmin ⊢
    by_cases htakes : Removable env.toMoneyEnv x ∧ removeCount.toNat ≠ 0
    swap
    · obtain ⟨ret, hres, hne⟩ := internalRemoveItem_fails ht.carried ht.slotted hk htakes
      rw [hres]
      dsimp only
      rw [if_pos hne, if_neg fun h => htakes ⟨h.2.1, fun hz => h.2.2 (UInt16.toNat_inj.mp hz)⟩]
      exact ih ht ⟨(List.pairwise_cons.mp hl.order).2, fun y hy => hl.mem y (List.mem_cons_of_mem x hy)⟩ toRemove
    obtain ⟨w', hres, hgives⟩ := internalRemoveItem_gives ht.carried ht.slotted hk htakes.1
      (Nat.pos_of_ne_zero htakes.2) (hmin.le.trans (Nat.min_le_right ..))
    have hsold : isEligible env s.world parent x ∧ Removable env.toMoneyEnv x ∧ removeCount ≠ 0 :=
      ⟨heligible, htakes.1, fun hz => htakes.2 (by rw [hz]; rfl)⟩
    rw [hres, if_pos hsold]
    dsimp only
    rw [if_neg (not_not.mpr rfl)]
    have halone := alone_of_eligible ht.carried.forest heligible
    have htrading := trading_taken ht hgives halone
    have hrest := listed_weighed env.toEnv (listed_rest hl hgives halone)
    have hplan : removals env (Player.updateInventoryWeight env.toEnv w' p) parent l _ = _ :=
      removals_rest ht.carried hl hgives (toRemove - removeCount)
    have hleft : (toRemove - removeCount).toNat + removeCount.toNat = toRemove.toNat := by
      rw [UInt16.toNat_sub_of_le _ _ (UInt16.le_iff_toNat_le.mpr (hmin.le.trans (Nat.min_le_left ..)))]
      omega
    have hheld : ∀ id, (postRemoveNotification env { s with world := w' } p x).world.held env.items (.player p) id +
        (if itemId = id then if (env.items itemId).stackable then removeCount.toNat else 1 else 0) =
          s.world.held env.items (.player p) id := fun id => by
      have hstep := hgives.held ht.carried halone hb id
      rw [Item.isStackable, hid] at hstep
      rw [← hstep]
      exact congrArg (· + _) (held_weighed env.toEnv p (hgives.orders ht.carried).carried (.player p) id)
    split_ifs with hz
    · rw [hz, removals_zero]
      rw [hz] at hleft
      refine ⟨⟨htrading, fun id => ?_, rfl, rfl, (by rintro ⟨⟩)⟩, hleft⟩
      exact hheld id
    · obtain ⟨htake, hcounted⟩ := ih htrading hrest (toRemove - removeCount)
      change Taking env p itemId _ _ (removals env (Player.updateInventoryWeight env.toEnv w' p) parent l _) at htake
      change _ + counted (removals env (Player.updateInventoryWeight env.toEnv w' p) parent l _) = _ at hcounted
      rw [hplan] at htake hcounted
      refine ⟨⟨htake.trading, fun id => ?_, htake.tile, htake.bank, (by rintro ⟨⟩)⟩, ?_⟩
      · rw [← hheld id, ← htake.held id]
        unfold units counted
        rw [List.map_cons, List.sum_cons, List.length_cons]
        dsimp only
        split_ifs <;> omega
      · unfold counted at hcounted ⊢
        rw [List.map_cons, List.sum_cons]
        dsimp only
        omega

end Npc
end CrystalServer
