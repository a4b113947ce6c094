import CrystalServer.Theorems.Items.Container
import CrystalServer.Lib.Run

/-! # Containers: the cached weight

A container caches the weight of what it holds. Every function that changes containers makes this good on the
way up, but for `removeItem`. -/

namespace CrystalServer.Container
open World

section
variable (items : UInt16 → ItemType)

/-- What an item weighs with everything nested in it. -/
def nestedWeight (w : World) (r : Ref) : UInt32 :=
  Lib.subtreeSum w.itemlist (fun r => (w.item r).getWeight items) (w.next + 1) r

/-- Every container has the weight of its items as its total, and weighs what is nested in it. -/
def TrueWeights (w : World) : Prop :=
  ∀ c, w.isContainer c → w.totalWeight c = ((w.itemlist c).map (w.getWeight items)).sum ∧
    w.getWeight items c = nestedWeight items w c

/-- The call takes no item with a weight out by `removeItem`. -/
def KeepsWeights (w : World) : Op → Prop
  | .removeItem this (some thing) => thing ∈ w.itemlist this → w.getWeight items thing = 0
  | _ => True

end

/-- No item lies in a container. -/
def Empty (w : World) : Prop := ∀ r, w.getParentContainer r = none ∧ w.itemlist r = [] ∧ w.totalWeight r = 0

/-- The call is to a container, and an item that comes in lies in no container and is not above this one. -/
def Proper (w : World) : Op → Prop
  | .addThing this _ thing | .internalAddThing this thing | .replaceThing this _ thing =>
    (w.isContainer this ∧ this < w.next) ∧ ∀ x, thing = some x → Outside w this x
  | .addItemBack this item => (w.isContainer this ∧ this < w.next) ∧ Outside w this item
  | .updateThing this _ _ _ | .removeThing this _ _ | .removeItem this _ => w.isContainer this ∧ this < w.next

variable {items : UInt16 → ItemType} {w : World}

theorem Empty.forest (h : Empty w) : w.Forest where
  lists := by
    constructor
    · intro x p
      rw [(h p).2.1, (h x).1]
      exact iff_of_false List.not_mem_nil nofun
    · intro p
      rw [(h p).2.1]
      exact List.nodup_nil
  acyclic x hx := by
    obtain ⟨p, hp, -⟩ := Lib.below_cases hx
    rw [(h x).1] at hp
    exact nomatch hp
  made r c hr := by
    rw [(h r).1] at hr
    exact nomatch hr

theorem lack_of_not_container {c : Ref} (hc : ¬w.isContainer c) : w.lack items c = 0 := by
  have hk : (w.item c).container = none := Option.not_isSome_iff_eq_none.mp hc
  rw [lack_eq, World.itemlist, World.totalWeight, Item.getItemList, Item.getTotalWeight, hk]
  exact sub_self 0

theorem trueWeights_iff (h : w.Forest) : TrueWeights items w ↔ ∀ c, w.lack items c = 0 := by
  constructor
  · intro ht c
    by_cases hc : w.isContainer c
    · rw [lack_eq, (ht c hc).1, sub_self]
    · exact lack_of_not_container hc
  · intro hl c _
    exact ⟨(sub_eq_zero.mp (hl c)).symm, Lib.add_total_eq_subtreeSum hl (h.low c)⟩

/-- What one call does: nothing is lacking after it that was not before, but for `removeItem`. -/
theorem step_spec (h : w.Forest) {op : Op} (hp : Proper w op) :
    (step items w op).Forest ∧ ((∀ c, w.lack items c = 0) →
      ((∀ c, (step items w op).lack items c = 0) ↔ KeepsWeights items w op)) := by
  have keeps : ∀ {w' : World}, (w'.Forest ∧ ∀ c, w'.lack items c = w.lack items c) →
      w'.Forest ∧ ((∀ c, w.lack items c = 0) → ((∀ c, w'.lack items c = 0) ↔ True)) :=
    fun hw => ⟨hw.1, fun h0 => iff_of_true (fun c => (hw.2 c).trans (h0 c)) trivial⟩
  have same : w.Forest ∧ ∀ c, w.lack items c = w.lack items c := ⟨h, fun _ => rfl⟩
  cases op with
  | addThing this index thing =>
    refine keeps ?_
    rw [step, addThing]
    split_ifs
    · exact same
    · cases thing with
      | none => exact same
      | some x => exact internalAddThing_spec items h hp.1.1 hp.1.2 (hp.2 x rfl)
  | addItemBack this item => exact keeps (addItemBack_spec items h hp.1.1 hp.1.2 hp.2)
  | internalAddThing this thing =>
    cases thing with
    | none => exact keeps same
    | some x => exact keeps (internalAddThing_spec items h hp.1.1 hp.1.2 (hp.2 x rfl))
  | updateThing this thing itemId count => exact keeps (updateThing_spec items h itemId count)
  | replaceThing this index thing =>
    cases thing with
    | none => exact keeps same
    | some x => exact keeps (replaceThing_spec items h index (hp.2 x rfl))
  | removeThing this thing count => exact keeps (removeThing_spec items h count)
  | removeItem this thing =>
    cases thing with
    | none => exact keeps same
    | some x =>
      by_cases hx : x ∈ w.itemlist this
      · obtain ⟨hf, hl⟩ := removeItem_spec items h hx
        refine ⟨hf, fun h0 => ⟨fun h1 _ => ?_, fun h1 c => ?_⟩⟩
        · have hlack := hl this
          rw [if_pos rfl, h0, zero_sub] at hlack
          exact neg_eq_zero.mp (hlack.symm.trans (h1 this))
        · rw [step, hl c, h0, h1 hx]
          split_ifs <;> rfl
      · have heq : step items w (.removeItem this (some x)) = w := by rw [step, removeItem, if_neg hx]
        rw [heq]
        exact ⟨h, fun h0 => iff_of_true h0 fun hm => absurd hm hx⟩

theorem forest_run {ops : List Op} (h : w.Forest) (hp : Lib.Meets (step items) Proper w ops) :
    (Lib.run (step items) w ops).Forest :=
  Lib.run_invariant World.Forest (fun _ _ hw ha => (step_spec hw ha).1) h hp

/-- The weights stay true all along a run from empty containers just when no call of it takes an item with a
    weight out by `removeItem`. -/
theorem trueWeights_run (items : UInt16 → ItemType) {w : World} {ops : List Op} (he : Empty w)
    (hp : Lib.Meets (step items) Proper w ops) :
    (∀ xs, xs <+: ops → TrueWeights items (Lib.run (step items) w xs)) ↔
      Lib.Meets (step items) (KeepsWeights items) w ops := by
  have hf := he.forest
  have h0 : ∀ c, w.lack items c = 0 := fun c => by
    rw [lack_eq, (he c).2.1, (he c).2.2]
    exact sub_self 0
  rw [Lib.meets_iff_forall_part_of World.Forest (fun w => ∀ c, w.lack items c = 0)
    (fun w op hw ha => (step_spec hw ha).1) (fun w op hw hl ha => (step_spec hw ha).2 hl) hf h0 hp]
  refine forall₂_congr fun xs hxs => ?_
  obtain ⟨ys, rfl⟩ := hxs
  exact trueWeights_iff (forest_run hf hp.of_append)

/-! ### A bag and a thing of weight 10 -/

/-- A type that weighs 10. -/
def tenType (id : UInt16) : ItemType where
  id := id
  group := .none
  stackable := false
  stackSize := 1
  weight := 10
  charges := 0
  decayTime := 0
  decayTo := -1
  stopTime := false
  pickupable := true
  movable := true
  isCorpse := false
  isQuiver := false
  isAmmo := false
  weaponType := .none
  slotPosition := 0
  plain := ItemType.plain_none false

/-- A bag at 0, a thing at 1. -/
def bagWorld : World where
  item
    | 0 => ⟨2853, 1, none, none, some ⟨2000, 8, 0, [], true, false, false⟩⟩
    | _ + 1 => ⟨3264, 1, none, none, none⟩
  next := 2
  players _ := ⟨fun _ => none, none, false, false, 0, 0, false⟩

def putAndTake : List Op := [.addThing 0 0 (some 1), .removeItem 0 (some 1)]

theorem bagWorld_empty : Empty bagWorld := by
  intro r
  cases r <;> exact ⟨rfl, rfl, rfl⟩

theorem putAndTake_proper : Lib.Meets (step tenType) Proper bagWorld putAndTake := by
  refine ⟨⟨⟨rfl, by decide⟩, fun x hx => ?_⟩, ⟨by decide, by decide⟩, trivial⟩
  cases hx
  refine ⟨rfl, by decide, by decide, fun hb => ?_⟩
  obtain ⟨p, hp, -⟩ := Lib.below_cases hb
  exact nomatch hp

theorem trueWeights_run_putAndTake :
    ¬∀ xs, xs <+: putAndTake → TrueWeights tenType (Lib.run (step tenType) bagWorld xs) := by
  rw [trueWeights_run tenType bagWorld_empty putAndTake_proper]
  exact fun h => absurd (h.2.1 (by decide)) (by decide)

theorem trueWeights_lost : ¬∀ (items : UInt16 → ItemType) (w : World) (ops : List Op), Empty w →
    Lib.Meets (step items) Proper w ops → TrueWeights items (Lib.run (step items) w ops) := by
  intro h
  have h0 := (h tenType bagWorld putAndTake bagWorld_empty putAndTake_proper 0 (by decide)).1
  exact absurd h0 (by decide)

end CrystalServer.Container
