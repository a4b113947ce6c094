import CrystalServer.Game.Money
import CrystalServer.Theorems.Game.AddItem
import Mathlib.Algebra.BigOperators.Ring.Finset

/-! # Gathering coins

The walk over a cylinder meets every item in it once, so that what it counts is the worth of all coins in it. -/

namespace CrystalServer

/-- What units of the coins come to. -/
def coinWorth (units : UInt16 → Nat) : Nat :=
  units ITEM_GOLD_COIN + units ITEM_PLATINUM_COIN * 100 + units ITEM_CRYSTAL_COIN * 10000

/-- What one piece of a coin is worth. -/
def coinUnit (id : UInt16) : Nat :=
  if id = ITEM_GOLD_COIN then 1 else if id = ITEM_PLATINUM_COIN then 100 else if id = ITEM_CRYSTAL_COIN then 10000 else 0

/-- All kinds of coins stack. -/
structure CoinsStack (items : UInt16 → ItemType) : Prop where
  gold : (items ITEM_GOLD_COIN).stackable
  platinum : (items ITEM_PLATINUM_COIN).stackable
  crystal : (items ITEM_CRYSTAL_COIN).stackable

variable {items : UInt16 → ItemType} {w : World} {cyl : Cylinder} {r : Ref}

/-! ### Worth -/

namespace Item

/-- The ids of coins. -/
def isCoin (i : Item) : Prop := i.id = ITEM_GOLD_COIN ∨ i.id = ITEM_PLATINUM_COIN ∨ i.id = ITEM_CRYSTAL_COIN

theorem isStackable_of_isCoin (hc : CoinsStack items) {i : Item} (h : i.isCoin) : i.isStackable items := by
  rcases h with h | h | h
  · rw [isStackable, h]
    exact hc.gold
  · rw [isStackable, h]
    exact hc.platinum
  · rw [isStackable, h]
    exact hc.crystal

theorem toNat_getWorth (i : Item) : i.getWorth.toNat = i.getItemCount * coinUnit i.id := by
  have hcount : i.getItemCount < 256 := i.count.toNat_lt
  unfold getWorth coinUnit
  split_ifs
  · rw [UInt32.toNat_ofNat', Nat.mod_eq_of_lt (by omega), Nat.mul_one]
  · rw [UInt32.toNat_ofNat', Nat.mod_eq_of_lt (by omega)]
  · rw [UInt32.toNat_ofNat', Nat.mod_eq_of_lt (by omega)]
  · rfl

theorem isCoin_of_coinUnit {i : Item} (h : coinUnit i.id ≠ 0) : i.isCoin := by
  unfold coinUnit at h
  split_ifs at h with h₁ h₂ h₃
  · exact .inl h₁
  · exact .inr (.inl h₂)
  · exact .inr (.inr h₃)
  · exact absurd rfl h

theorem coinWorth_part (hc : CoinsStack items) (i : Item) (n : Nat) :
    coinWorth (fun id => i.part items id n) = n * coinUnit i.id := by
  have hgp : ITEM_GOLD_COIN ≠ ITEM_PLATINUM_COIN := by decide
  have hgc : ITEM_GOLD_COIN ≠ ITEM_CRYSTAL_COIN := by decide
  have hpc : ITEM_PLATINUM_COIN ≠ ITEM_CRYSTAL_COIN := by decide
  unfold coinWorth part coinUnit
  by_cases hg : i.id = ITEM_GOLD_COIN
  · rw [if_pos (isStackable_of_isCoin hc (.inl hg))]
    simp [hg, hgp, hgc]
  by_cases hp : i.id = ITEM_PLATINUM_COIN
  · rw [if_pos (isStackable_of_isCoin hc (.inr (.inl hp)))]
    simp [hp, hgp.symm, hpc]
  by_cases hr : i.id = ITEM_CRYSTAL_COIN
  · rw [if_pos (isStackable_of_isCoin hc (.inr (.inr hr)))]
    simp [hr, hgc.symm, hpc.symm]
  · simp [hg, hp, hr]

theorem coinWorth_eq_getWorth (hc : CoinsStack items) (i : Item) : coinWorth (i.units items) = i.getWorth.toNat := by
  rw [toNat_getWorth]
  exact coinWorth_part hc i i.getItemCount

end Item

theorem coinWorth_add (f g : UInt16 → Nat) : coinWorth (fun id => f id + g id) = coinWorth f + coinWorth g := by
  unfold coinWorth
  ring

/-- The worth of the coins in a cylinder. -/
def World.inventoryWorth (items : UInt16 → ItemType) (w : World) (cyl : Cylinder) : Nat := coinWorth (w.held items cyl)

open Classical in
theorem World.inventoryWorth_eq (hc : CoinsStack items) (hw : w.Forest) (cyl : Cylinder) :
    w.inventoryWorth items cyl = ∑ r ∈ Finset.range w.next,
      if Lib.Below w.holder (.container r) cyl then (w.item r).getWorth.toNat else 0 := by
  unfold World.inventoryWorth coinWorth
  rw [World.held_eq items hw, World.held_eq items hw, World.held_eq items hw, Finset.sum_mul, Finset.sum_mul,
    ← Finset.sum_add_distrib, ← Finset.sum_add_distrib]
  refine Finset.sum_congr rfl fun r _ => ?_
  split_ifs
  · exact Item.coinWorth_eq_getWorth hc (w.item r)
  · rfl

namespace Game

/-! ### The loops -/

/-- The coins of a list, with their worth. -/
def coinsOf (w : World) (l : List Ref) : List (UInt32 × Ref) :=
  l.filterMap fun r => if !w.isContainer r && (w.item r).getWorth != 0 then some ((w.item r).getWorth, r) else none

theorem coinsOf_append (w : World) (l l' : List Ref) : coinsOf w (l ++ l') = coinsOf w l ++ coinsOf w l' :=
  List.filterMap_append

/-- What was counted is what the coins come to, in the arithmetic of the code. -/
def Gathered.Counts (g : Gathered) : Prop := g.moneyCount = (g.moneyItems.map fun e => e.1.toUInt64).sum

theorem foldl_gatherItem (w : World) (l : List Ref) (g : Gathered) :
    (l.foldl (gatherItem w) g).containers = g.containers ++ l.filter w.isContainer ∧
      (l.foldl (gatherItem w) g).moneyItems = g.moneyItems ++ coinsOf w l ∧
      (Gathered.Counts g → Gathered.Counts (l.foldl (gatherItem w) g)) := by
  induction l generalizing g with
  | nil => exact ⟨(List.append_nil _).symm, (List.append_nil _).symm, id⟩
  | cons r l ih =>
    obtain ⟨hcont, hitems, hcount⟩ := ih (gatherItem w g r)
    rw [List.foldl_cons, hcont, hitems]
    unfold gatherItem coinsOf at *
    by_cases hr : w.isContainer r
    · simp only [hr, if_true, List.filter_cons_of_pos, List.filterMap_cons, Bool.not_true, Bool.false_and,
        Bool.false_eq_true, if_false, List.append_assoc, List.singleton_append, true_and] at hcount ⊢
      exact hcount
    · by_cases hz : (w.item r).getWorth = 0
      · simp only [hr, hz, Bool.false_eq_true, if_false, ne_eq, not_true_eq_false, not_false_eq_true,
          List.filter_cons_of_neg, List.filterMap_cons, bne_self_eq_false, Bool.and_false, true_and] at hcount ⊢
        exact hcount
      · simp only [hr, hz, Bool.false_eq_true, if_false, ne_eq, not_false_eq_true, if_true, List.filter_cons_of_neg,
          List.filterMap_cons, Bool.not_false, Bool.true_and, bne_iff_ne, List.append_assoc, List.singleton_append,
          true_and] at hcount ⊢
        refine fun hg => hcount ?_
        unfold Gathered.Counts at hg ⊢
        rw [hg, List.map_append, List.sum_append, List.map_singleton, List.sum_singleton]

/-- The loop over the containers is a walk. -/
theorem gatherLoop_eq (w : World) (n : Nat) (g : Gathered) :
    (gatherLoop w n g).moneyItems =
        g.moneyItems ++ coinsOf w ((Lib.walk w.itemlist w.isContainer n g.containers).flatMap w.itemlist) ∧
      (Gathered.Counts g → Gathered.Counts (gatherLoop w n g)) := by
  induction n generalizing g with
  | zero => exact ⟨(List.append_nil _).symm, id⟩
  | succ n ih =>
    unfold gatherLoop
    cases hg : g.containers with
    | nil => exact ⟨(List.append_nil _).symm, id⟩
    | cons c todo =>
      dsimp only
      obtain ⟨hcont, hitems, hcount⟩ := foldl_gatherItem w (w.itemlist c) { g with containers := todo }
      obtain ⟨hloop, hloops⟩ := ih ((w.itemlist c).foldl (gatherItem w) { g with containers := todo })
      rw [hloop, hitems, hcont, Lib.walk, List.flatMap_cons, coinsOf_append, List.append_assoc]
      exact ⟨rfl, fun h => hloops (hcount h)⟩

/-- The items that the walk meets. -/
def reached (w : World) (cyl : Cylinder) : List Ref :=
  things w cyl ++ (Lib.walk w.itemlist w.isContainer w.next ((things w cyl).filter w.isContainer)).flatMap w.itemlist

theorem gather_eq (w : World) (cyl : Cylinder) :
    (gather w cyl).moneyItems = coinsOf w (reached w cyl) ∧ Gathered.Counts (gather w cyl) := by
  obtain ⟨hcont, hitems, hcount⟩ := foldl_gatherItem w (things w cyl) ⟨[], [], 0⟩
  obtain ⟨hloop, hloops⟩ := gatherLoop_eq w w.next ((things w cyl).foldl (gatherItem w) ⟨[], [], 0⟩)
  refine ⟨?_, hloops (hcount rfl)⟩
  rw [gather, hloop, hitems, hcont, List.nil_append, List.nil_append, ← coinsOf_append]
  rfl

/-! ### What is met -/

theorem things_container (w : World) (c : Ref) : things w (.container c) = w.itemlist c := by
  have hget : ∀ i : Nat, Cylinder.getThing w i (.container c) = (w.itemlist c)[i]? := fun i => by
    change (if (i : Int) < 0 then none else (w.itemlist c)[(i : Int).toNat]?) = _
    rw [if_neg (by omega), Int.toNat_natCast]
  unfold things Cylinder.getFirstIndex Cylinder.getLastIndex Container.size
  simp only [hget]
  rw [Nat.sub_zero, ← List.range_eq_range']
  induction w.itemlist c with
  | nil => rfl
  | cons x l ih =>
    rw [List.length_cons, List.range_succ_eq_map, List.filterMap_cons, List.filterMap_map]
    simpa using ih

theorem mem_things_player {p : PlayerRef} :
    r ∈ things w (.player p) ↔ ∃ i ∈ List.range' 1 11, (w.players p).inventory i = some r := by
  unfold things
  rw [List.mem_filterMap]
  refine exists_congr fun i => and_congr_right fun hi => ?_
  have hi' : CONST_SLOT_FIRST ≤ (i : Int) ∧ (i : Int) ≤ CONST_SLOT_LAST := by
    have := List.mem_range'_1.mp hi
    simp only [Cylinder.getFirstIndex, Cylinder.getLastIndex, CONST_SLOT_FIRST, CONST_SLOT_LAST] at this ⊢
    omega
  rw [Cylinder.getThing, Player.getThing, if_pos hi', Int.toNat_natCast]

theorem mem_things (hw : Carried items w) (hs : Slotted w) : r ∈ things w cyl ↔ w.getParent r = some cyl := by
  cases cyl with
  | container c =>
    rw [things_container]
    exact (hw.forest.lists.mem_iff r c).trans
      ⟨World.getParent_of_getParentContainer, World.getParentContainer_of_getParent⟩
  | player p =>
    rw [mem_things_player]
    exact ⟨fun ⟨i, _, hi⟩ => hw.slots p i r hi, hs.slot p r⟩

theorem nodup_things (hw : Carried items w) (hs : Slotted w) (cyl : Cylinder) : (things w cyl).Nodup := by
  cases cyl with
  | container c =>
    rw [things_container]
    exact hw.forest.lists.nodup c
  | player p =>
    refine List.Nodup.filterMap (fun i j r hi hj => ?_) (List.nodup_range' ..)
    have slot : ∀ i : Nat, ∀ r, Cylinder.getThing w i (.player p) = some r → (w.players p).inventory i = some r :=
      fun i r h => by
        unfold Cylinder.getThing Player.getThing at h
        split_ifs at h
        rwa [Int.toNat_natCast] at h
    exact hs.once p i j r (slot i r hi) (slot j r hj)

/-- What lies in a cylinder lies in it itself, or in one of the things in it. -/
theorem below_cylinder_iff : Lib.Below w.holder (.container r) cyl ↔
    ∃ d, w.getParent d = some cyl ∧ (r = d ∨ Lib.Below w.getParentContainer r d) := by
  constructor
  · intro h
    obtain ⟨k, hk, hd⟩ : ∃ k, (Cylinder.container r = k ∨ Lib.Below w.holder (.container r) k) ∧ w.holder k = some cyl := by
      cases h with
      | single h => exact ⟨_, .inl rfl, h⟩
      | tail hb h => exact ⟨_, .inr hb, h⟩
    cases k with
    | container d => exact ⟨d, hd, hk.imp (fun h => Cylinder.container.inj h) World.below_container⟩
    | player p => exact nomatch hd
  · rintro ⟨d, hd, rfl | hb⟩
    · exact Lib.below_of_parent hd
    · induction hb using Relation.TransGen.head_induction_on with
      | single h => exact .head (World.getParent_of_getParentContainer h) (Lib.below_of_parent hd)
      | head h _ ih => exact .head (World.getParent_of_getParentContainer h) ih

/-- Things in one cylinder do not lie in each other. -/
theorem not_below_thing (hw : w.Forest) {d d' : Ref} (hd : w.getParent d = some cyl) (hd' : w.getParent d' = some cyl) :
    ¬Lib.Below w.getParentContainer d d' := fun hb => by
  obtain ⟨c, hc, hcd⟩ := Lib.below_cases hb
  have hcyl : cyl = .container c := Option.some.inj (hd.symm.trans (World.getParent_of_getParentContainer hc))
  subst hcyl
  have hc' := World.getParentContainer_of_getParent hd'
  rcases hcd with rfl | hcd
  · exact hw.acyclic c (Lib.below_of_parent hc')
  · exact hw.acyclic d' (.head hc' hcd)

/-- The containers that the walk visits. -/
theorem mem_walk (hw : Carried items w) (hs : Slotted w) (cyl : Cylinder) :
    (Lib.walk w.itemlist w.isContainer w.next ((things w cyl).filter w.isContainer)).Nodup ∧
      ∀ c, c ∈ Lib.walk w.itemlist w.isContainer w.next ((things w cyl).filter w.isContainer) ↔
        w.isContainer c ∧ Lib.Below w.holder (.container c) cyl := by
  have hthing : ∀ d ∈ (things w cyl).filter w.isContainer, w.getParent d = some cyl := fun d hd =>
    (mem_things hw hs).mp (List.mem_filter.mp hd).1
  have hmade : ∀ k, (k ∈ (things w cyl).filter w.isContainer ∨
      ∃ d ∈ (things w cyl).filter w.isContainer, Lib.Below w.getParentContainer k d) → k ∈ Finset.range w.next := by
    rintro k (hk | ⟨d, -, hb⟩)
    · exact Finset.mem_range.mpr (hw.made k cyl (hthing k hk))
    · obtain ⟨p, hp, -⟩ := Lib.below_cases hb
      exact Finset.mem_range.mpr (hw.forest.made k p hp).1
  obtain ⟨hnodup, hmem⟩ := Lib.mem_walk_iff hw.forest.lists
    ((nodup_things hw hs cyl).filter w.isContainer) (fun d hd => (List.mem_filter.mp hd).2)
    (fun d hd d' hd' => not_below_thing hw.forest (hthing d hd) (hthing d' hd')) hmade
    (Finset.card_range w.next).le (fun k p hp => hw.forest.isContainer hp)
  refine ⟨hnodup, fun c => (hmem c).trans (and_congr_right fun hc => ?_)⟩
  rw [below_cylinder_iff]
  constructor
  · rintro (hr | ⟨d, hd, hb⟩)
    · exact ⟨c, hthing c hr, .inl rfl⟩
    · exact ⟨d, hthing d hd, .inr hb⟩
  · rintro ⟨d, hd, rfl | hb⟩
    · exact .inl (List.mem_filter.mpr ⟨(mem_things hw hs).mpr hd, hc⟩)
    · have hdc : w.isContainer d := by
        obtain ⟨k, hk⟩ : ∃ k, w.getParentContainer k = some d := by
          cases hb with
          | single h => exact ⟨_, h⟩
          | tail _ h => exact ⟨_, h⟩
        exact hw.forest.isContainer hk
      exact .inr ⟨d, List.mem_filter.mpr ⟨(mem_things hw hs).mpr hd, hdc⟩, hb⟩

/-- The walk meets what lies in the cylinder, and each item once. -/
theorem mem_reached (hw : Carried items w) (hs : Slotted w) (cyl : Cylinder) :
    (reached w cyl).Nodup ∧ ∀ r, r ∈ reached w cyl ↔ Lib.Below w.holder (.container r) cyl := by
  obtain ⟨hnodup, hmem⟩ := mem_walk hw hs cyl
  have hlists := hw.forest.lists
  constructor
  · refine List.nodup_append.mpr ⟨nodup_things hw hs cyl, List.nodup_flatMap.mpr ⟨fun c _ => hlists.nodup c, ?_⟩, ?_⟩
    · refine hnodup.imp fun {a b} hab => List.disjoint_left.mpr fun x hxa hxb => hab ?_
      exact Option.some.inj (((hlists.mem_iff x a).mp hxa).symm.trans ((hlists.mem_iff x b).mp hxb))
    · rintro d hd k hk rfl
      obtain ⟨c, hc, hdc⟩ := List.mem_flatMap.mp hk
      have hd := (mem_things hw hs).mp hd
      have hcyl : cyl = .container c :=
        Option.some.inj (hd.symm.trans (World.getParent_of_getParentContainer ((hlists.mem_iff d c).mp hdc)))
      subst hcyl
      exact hw.forest.acyclic c (World.below_container ((hmem c).mp hc).2)
  · intro r
    rw [World.below_holder_iff, reached, List.mem_append, mem_things hw hs, List.mem_flatMap]
    refine or_congr_right (exists_congr fun c => ?_)
    rw [hmem c, hlists.mem_iff]
    exact ⟨fun ⟨⟨_, hb⟩, hp⟩ => ⟨hp, hb⟩, fun ⟨hp, hb⟩ => ⟨⟨hw.forest.isContainer hp, hb⟩, hp⟩⟩

/-! ### The sum -/

theorem mem_coinsOf {l : List Ref} {e : UInt32 × Ref} : e ∈ coinsOf w l ↔
    e.2 ∈ l ∧ ¬w.isContainer e.2 ∧ (w.item e.2).getWorth ≠ 0 ∧ e.1 = (w.item e.2).getWorth := by
  unfold coinsOf
  rw [List.mem_filterMap]
  constructor
  · rintro ⟨r, hr, he⟩
    obtain ⟨hc, he⟩ := Option.ite_none_right_eq_some.mp he
    simp only [Bool.and_eq_true, Bool.not_eq_true', bne_iff_ne] at hc
    cases he
    exact ⟨hr, by rw [hc.1]; exact Bool.false_ne_true, hc.2, rfl⟩
  · rintro ⟨hr, hc, hz, he⟩
    refine ⟨e.2, hr, ?_⟩
    rw [if_pos (by simp [hc, hz]), ← he]

theorem nodup_coinsOf {l : List Ref} (hl : l.Nodup) : ((coinsOf w l).map (·.2)).Nodup := by
  refine (List.Sublist.nodup ?_ hl)
  unfold coinsOf
  induction l with
  | nil => exact List.Sublist.slnil
  | cons r l ih =>
    rw [List.filterMap_cons]
    split_ifs
    · exact (ih hl.of_cons).cons_cons r
    · exact (ih hl.of_cons).cons r

theorem sum_coinsOf (hc : CoinsStack items) (hw : Carried items w) (l : List Ref) :
    ((coinsOf w l).map fun e => e.1.toNat).sum = (l.map fun r => (w.item r).getWorth.toNat).sum := by
  unfold coinsOf
  induction l with
  | nil => rfl
  | cons r l ih =>
    rw [List.filterMap_cons, List.map_cons, List.sum_cons]
    split_ifs with h
    · rw [List.map_cons, List.sum_cons, ih]
    · have hz : (w.item r).getWorth.toNat = 0 := by
        by_cases hr : w.isContainer r
        · rw [Item.toNat_getWorth]
          refine Nat.mul_eq_zero.mpr (.inr (of_not_not fun hu => ?_))
          have := Item.isStackable_of_isCoin hc (Item.isCoin_of_coinUnit hu)
          exact Bool.false_ne_true ((hw.single r hr).symm.trans this)
        · have hworth : (w.item r).getWorth = 0 := by simpa [hr] using h
          rw [hworth]
          rfl
      rw [ih, hz, Nat.zero_add]

/-- What is gathered comes to the worth of the coins in the cylinder. -/
theorem sum_gather (hc : CoinsStack items) (hw : Carried items w) (hs : Slotted w) (cyl : Cylinder) :
    ((gather w cyl).moneyItems.map fun e => e.1.toNat).sum = w.inventoryWorth items cyl := by
  classical
  obtain ⟨hnodup, hmem⟩ := mem_reached hw hs cyl
  rw [(gather_eq w cyl).1, sum_coinsOf hc hw, World.inventoryWorth_eq hc hw.forest, ← Finset.sum_filter,
    ← List.sum_toFinset _ hnodup]
  refine Finset.sum_congr (Finset.ext fun r => ?_) fun _ _ => rfl
  rw [List.mem_toFinset, Finset.mem_filter, Finset.mem_range, hmem]
  refine ⟨fun hb => ⟨?_, hb⟩, And.right⟩
  obtain ⟨k, hk, -⟩ := Lib.below_cases hb
  exact hw.made r k hk

end Game
end CrystalServer
