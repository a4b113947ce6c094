import CrystalServer.Game.Cylinders
import CrystalServer.Theorems.Items.ContainerWeight
import CrystalServer.Theorems.Items.Nested
import CrystalServer.Theorems.Items.Taken

/-! # Moving and adding between cylinders: containers stay acyclic

Each of the two functions hangs at most three items: the one that is exchanged, the one that is moved or added,
and a new one for a rest. The class `Container` lets none of them into itself. -/

namespace CrystalServer
open World

/-- A container made before `bound`, or a player. -/
def Cylinder.Made (bound : Ref) (k : Cylinder) : Prop := ∀ c, k = .container c → c < bound

def Place.Made (bound : Ref) (place : Place) : Prop :=
  place.cylinder.Made bound ∧ ∀ t, place.destItem = some t → t < bound

/-- The cylinder is not the item, nor does it lie inside it. -/
def Cylinder.Clear (w : World) (x : Ref) (k : Cylinder) : Prop := ∀ c, k = .container c → ¬w.Inside c x

/-- The links, lists and slots lead to what was made before `bound`. -/
structure World.Within (w : World) (bound : Ref) : Prop where
  parent : ∀ r c, w.getParentContainer r = some c → c < bound
  listed : ∀ c r, r ∈ w.itemlist c → r < bound
  slots : ∀ p s r, (w.players p).inventory s = some r → r < bound

variable {env : Env} {classOf : Ref → ContainerClass} {w : World} {bound item : Ref}

theorem World.Nested.within (h : w.Nested) : w.Within w.next where
  parent r c hr := (h.made r c hr).2
  listed := h.listed
  slots := h.slots

/-- A new item leaves what leads to older ones. -/
theorem World.Nested.within_new (h : w.Nested) {i : Item} (hp : i.m_parent = none) (hc : i.container = none) :
    (w.new i).Within w.next where
  parent r c hr := (h.made r c ((Loosens.new hp hc).parent r c hr)).2
  listed c r hr := by
    by_cases hcn : c = w.next
    · rw [World.itemlist, item_new, hcn, Function.update_self, Item.getItemList, hc] at hr
      exact absurd hr List.not_mem_nil
    · rw [World.itemlist, item_new, Function.update_of_ne hcn] at hr
      exact h.listed c r hr
  slots := h.slots

theorem made_player (p : PlayerRef) : (Cylinder.player p).Made bound := nofun

theorem made_container {c : Ref} (h : c < bound) : (Cylinder.container c).Made bound := by
  rintro d hd
  cases hd
  exact h

theorem Cylinder.Made.mono {bound' : Ref} {k : Cylinder} (h : k.Made bound) (hle : bound ≤ bound') : k.Made bound' :=
  fun c hc => (h c hc).trans_le hle

/-! ### Where the queries lead -/

section
variable {index : Int} {flags : UInt32} {destItem : Option Ref}

theorem container_queryDestination_made (hw : w.Within bound) {c : Ref} (hc : c < bound)
    (hd : ∀ t, destItem = some t → t < bound) :
    ((Cylinder.container c).queryDestination env w index item destItem flags).Made bound := by
  have stack : ∀ {index : Int} {destItem : Option Ref}, (∀ t, destItem = some t → t < bound) →
      (Place.mk (.container (Container.queryDestinationStack env w c index item destItem flags).cylinder)
        (Container.queryDestinationStack env w c index item destItem flags).index
        (Container.queryDestinationStack env w c index item destItem flags).destItem).Made bound := by
    intro index destItem hd
    refine ⟨?_, fun t ht => ?_⟩
    · rw [Container.cylinder_queryDestinationStack]
      exact made_container hc
    · simp only [Container.queryDestinationStack] at ht
      split at ht
      · split at ht
        · exact hd t ht
        split at ht
        · exact hw.listed c t (List.mem_of_getElem? ht)
        · exact hd t ht
      · exact hd t ht
  unfold Cylinder.queryDestination Container.queryDestination
  dsimp only
  split
  · exact ⟨made_container hc, nofun⟩
  split
  · refine ⟨made_container ?_, nofun⟩
    cases hp : w.getParentContainer c with
    | none => exact hc
    | some p => exact hw.parent c p hp
  generalize (if index = 255 ∨ index ≥ ((Container.capacity w c).toNat : Int) ∧
    (!Container.hasPagination w c) = true then INDEX_WHEREEVER else index) = index'
  have hd' : ∀ t, (if index = 255 ∨ index ≥ ((Container.capacity w c).toNat : Int) ∧
      (!Container.hasPagination w c) = true then none else destItem) = some t → t < bound := by
    intro t ht
    split at ht
    · exact nomatch ht
    · exact hd t ht
  revert hd'
  generalize (if index = 255 ∨ index ≥ ((Container.capacity w c).toNat : Int) ∧
    (!Container.hasPagination w c) = true then none else destItem) = destItem'
  intro hd'
  split
  · have hor : ∀ t, ((Container.getItemByIndex w c index').or destItem') = some t → t < bound := by
      intro t ht
      rcases Option.or_eq_some_iff.mp ht with ht | ⟨-, ht⟩
      · exact hw.listed c t (Container.getItemByIndex_mem ht)
      · exact hd' t ht
    split
    · rename_i sub hsub
      split
      · exact ⟨made_container (hor sub hsub), nofun⟩
      · exact stack hor
    · exact stack hor
  · exact stack hd'

theorem queryDestinationSlots_made (hw : w.Within bound) {p : PlayerRef} (slots : List Nat) (containers : List Ref)
    (hcs : ∀ c ∈ containers, c < bound) {found : Place ⊕ List Ref}
    (h : Player.queryDestinationSlots env w p item flags slots containers = found) :
    found.elim (Place.Made bound) (fun containers => ∀ c ∈ containers, c < bound) := by
  induction slots generalizing containers with
  | nil =>
    subst h
    exact hcs
  | cons s slots ih =>
    rw [Player.queryDestinationSlots] at h
    cases hs : (w.players p).inventory s with
    | none =>
      simp only [hs] at h
      split at h
      · subst h
        exact ⟨made_player p, nofun⟩
      · exact ih containers hcs h
    | some r =>
      have hr : r < bound := hw.slots p s r hs
      simp only [hs] at h
      split at h
      · exact ih containers hcs h
      split at h
      · subst h
        refine ⟨made_player p, fun t ht => ?_⟩
        cases ht
        exact hr
      · refine ih _ (fun c hc => ?_) h
        split at hc
        · rcases List.mem_append.mp hc with hc | hc
          · exact hcs c hc
          · rwa [List.mem_singleton.mp hc]
        · exact hcs c hc

theorem stackLoop_made {p : PlayerRef} {c : Ref} (hc : c < bound) (l : List Ref) (n : Nat) (containers : List Ref)
    (hl : ∀ r ∈ l, r < bound) (hcs : ∀ d ∈ containers, d < bound) {found : Place ⊕ Nat × List Ref}
    (h : Player.stackLoop env w p c item l n containers = found) :
    found.elim (Place.Made bound) (fun found => ∀ d ∈ found.2, d < bound) := by
  induction l generalizing n containers with
  | nil =>
    subst h
    exact hcs
  | cons r l ih =>
    have hr : r < bound := hl r List.mem_cons_self
    have hrest : ∀ x ∈ l, x < bound := fun x hx => hl x (List.mem_cons_of_mem r hx)
    rw [Player.stackLoop] at h
    split at h
    · exact ih n containers hrest hcs h
    split at h
    · subst h
      refine ⟨made_container hc, fun t ht => ?_⟩
      cases ht
      exact hr
    · refine ih _ _ hrest (fun d hd => ?_) h
      split at hd
      · rcases List.mem_append.mp hd with hd | hd
        · exact hcs d hd
        · rwa [List.mem_singleton.mp hd]
      · exact hcs d hd

theorem queryDestinationContainers_made (hw : w.Within bound) (p : PlayerRef) (fuel : Nat) (containers : List Ref)
    (hcs : ∀ c ∈ containers, c < bound) {place : Place}
    (h : Virtual.queryDestinationContainers env classOf w p item flags fuel containers = some place) :
    place.Made bound := by
  induction fuel generalizing containers with
  | zero => exact nomatch h
  | succ fuel ih =>
    cases containers with
    | nil => exact nomatch h
    | cons c containers =>
      have hc : c < bound := hcs c List.mem_cons_self
      have hrest : ∀ d ∈ containers, d < bound := fun d hd => hcs d (List.mem_cons_of_mem c hd)
      rw [Virtual.queryDestinationContainers] at h
      dsimp only at h
      split at h
      · split at h
        · cases h
          exact ⟨made_container hc, nofun⟩
        · refine ih _ (fun d hd => ?_) h
          rcases List.mem_append.mp hd with hd | hd
          · exact hrest d hd
          · exact hw.listed c d (List.mem_filter.mp hd).1
      · split at h
        · rename_i hfound
          cases h
          exact stackLoop_made hc (w.itemlist c) 0 containers (hw.listed c) hrest hfound
        · rename_i hfound
          have hcs' := stackLoop_made hc (w.itemlist c) 0 containers (hw.listed c) hrest hfound
          split at h
          · cases h
            exact ⟨made_container hc, nofun⟩
          · exact ih _ hcs' h

theorem queryDestination_made (hw : w.Within bound) {k : Cylinder} (hk : k.Made bound)
    (hd : ∀ t, destItem = some t → t < bound) :
    (Virtual.queryDestination env classOf w index item destItem flags k).Made bound := by
  cases k with
  | container c => exact container_queryDestination_made hw (hk c rfl) hd
  | player p =>
    rw [Virtual.queryDestination]
    split
    · split
      · rename_i hfound
        exact queryDestinationSlots_made hw _ [] nofun hfound
      · rename_i containers hfound
        have hcs := queryDestinationSlots_made hw _ [] nofun hfound
        cases hq : Virtual.queryDestinationContainers env classOf w p item flags (w.next + 1) containers with
        | none => exact ⟨made_player p, nofun⟩
        | some place => exact queryDestinationContainers_made hw p _ _ hcs hq
    · rename_i hindex
      have hthing : ∀ t, Player.getThing w p index = some t → t < bound := by
        intro t ht
        unfold Player.getThing at ht
        split at ht
        · exact hw.slots p _ t ht
        · exact nomatch ht
      have hor : ∀ t, (Player.getThing w p index).or destItem = some t → t < bound := by
        intro t ht
        rcases Option.or_eq_some_iff.mp ht with ht | ⟨-, ht⟩
        · exact hthing t ht
        · exact hd t ht
      unfold Player.queryDestination
      rw [if_neg hindex]
      dsimp only
      split
      · exact ⟨made_player p, hor⟩
      · split
        · rename_i sub hsub
          split
          · exact ⟨made_container (hthing sub hsub), nofun⟩
          · exact ⟨made_player p, hor⟩
        · exact ⟨made_player p, hor⟩

theorem destinationLoop_made (env : Env) (classOf : Ref → ContainerClass) (item : Ref) (hw : w.Within bound) (n : Nat)
    {place : Place} (hp : place.Made bound) :
    (Virtual.destinationLoop env classOf w item n place 0).1.Made bound ∧
      (Virtual.destinationLoop env classOf w item n place 0).2 = 0 := by
  induction n generalizing place with
  | zero => exact ⟨hp, rfl⟩
  | succ n ih =>
    have hsub : (Virtual.queryDestination env classOf w place.index item place.destItem 0 place.cylinder).Made bound :=
      queryDestination_made hw hp.1 hp.2
    simp only [Virtual.destinationLoop]
    split
    · exact ⟨hsub, rfl⟩
    · exact ih hsub

end

/-! ### What the cylinders do -/

namespace Cylinder

theorem updateThing_loosens (env : Env) (w : World) (x : Ref) (itemId : UInt16) (count : UInt32) (k : Cylinder) :
    Loosens w (k.updateThing env w x itemId count) := by
  cases k with
  | container c => exact Container.updateThing_loosens env.items w c x itemId count
  | player p => exact Player.updateThing_loosens env w p x itemId count

theorem removeThing_loosens (env : Env) (hw : w.Nested) (x : Ref) (count : UInt32) (k : Cylinder) :
    Loosens w (k.removeThing env w x count) := by
  cases k with
  | container c => exact Container.removeThing_loosens env.items hw c x count
  | player p => exact Player.removeThing_loosens env w p x count

theorem addThing_nested (hw : w.Nested) {k : Cylinder} (hk : k.Made w.next) (hx : item < w.next)
    (hclear : k.Clear w item) (index : Int) : (k.addThing env w index (some item)).Nested := by
  cases k with
  | container c => exact Container.addThing_nested env.items index hw (hk c rfl) hx (hclear c rfl)
  | player p => exact hw.loosens (Player.addThing_loosens w p index hx)

theorem addThingFront_nested (hw : w.Nested) {k : Cylinder} (hk : k.Made w.next) (hx : item < w.next)
    (hclear : k.Clear w item) : (k.addThingFront env w item).Nested := by
  cases k with
  | container c => exact Container.addThing_nested env.items 0 hw (hk c rfl) hx (hclear c rfl)
  | player p => exact hw

theorem addThingFront_next (w : World) (x : Ref) (k : Cylinder) : (k.addThingFront env w x).next = w.next := by
  cases k with
  | container c =>
    rw [addThingFront, Container.addThing]
    split
    · rfl
    · exact (Container.updateItemWeight_same _ _ _).next
  | player p => rfl

theorem Clear.loosens {w' : World} {k : Cylinder} {x : Ref} (h : k.Clear w x) (hl : Loosens w w') : k.Clear w' x :=
  fun c hc => hl.not_inside (h c hc)

end Cylinder

/-! ### What the queries let in -/

/-- No reward container takes in an item that it lies inside. -/
def Virtual.Guards (env : Env) (classOf : Ref → ContainerClass) (w : World) (item : Ref) (actor : Bool)
    (k : Cylinder) : Prop :=
  ∀ c, k = .container c → override env classOf w c item actor = some .NOERROR → ¬w.Inside c item

section
variable {index : Int} {count : UInt32} {actor : Bool} {k : Cylinder}

theorem cylinderQueryAdd_clear (hw : w.Nested) (hguard : Virtual.Guards env classOf w item actor k)
    (h : Virtual.cylinderQueryAdd env classOf w index item count 0 actor k = .NOERROR) : k.Clear w item := by
  rintro c rfl
  simp only [Virtual.cylinderQueryAdd, Virtual.queryAdd] at h
  split at h
  · rename_i ret hret
    rw [h] at hret
    exact hguard c rfl hret
  · split at h
    · rename_i hor
      exact absurd h (hor.resolve_right (by decide))
    · rename_i hor
      obtain ⟨hne, hb⟩ := Container.queryAdd_noerror (hw.ends c) (not_not.mp (not_or.mp hor).1)
      rintro (rfl | hin)
      · exact hne rfl
      · exact hb hin

theorem override_ne_needexchange {c : Ref} : Virtual.override env classOf w c item actor ≠ some .NEEDEXCHANGE := by
  unfold Virtual.override
  split
  · exact nofun
  · unfold Reward.queryAdd
    split_ifs <;> exact nofun
  · unfold RewardChest.queryAdd
    split_ifs <;> exact nofun

/-- Only a player asks for an exchange. -/
theorem player_of_needexchange (h : Virtual.cylinderQueryAdd env classOf w index item count 0 actor k = .NEEDEXCHANGE) :
    ∃ p, k = .player p := by
  cases k with
  | player p => exact ⟨p, rfl⟩
  | container c =>
    exfalso
    simp only [Virtual.cylinderQueryAdd, Virtual.queryAdd] at h
    split at h
    · rename_i ret hret
      rw [h] at hret
      exact override_ne_needexchange hret
    · split at h
      · exact Container.queryAdd_ne_needexchange h
      split at h
      · rename_i top _
        cases ho : Virtual.override env classOf w top item actor with
        | none =>
          rw [ho] at h
          exact nomatch h
        | some ret =>
          rw [ho] at h
          have hret : ret = .NEEDEXCHANGE := h
          exact override_ne_needexchange (ho.trans (congrArg some hret))
      · exact nomatch h

end

/-! ### Moving -/

section
variable {k : Cylinder}

/-- A new item comes in. -/
theorem addThing_new_nested (hw : w.Nested) (hk : k.Made w.next) {i : Item} (hp : i.m_parent = none)
    (hc : i.container = none) (index : Int) : (k.addThing env (w.new i) index (some w.next)).Nested := by
  have hl : Loosens w (w.new i) := .new hp hc
  have hclear : k.Clear w w.next := fun c hkc => hw.not_inside_next (hk c hkc)
  exact Cylinder.addThing_nested (hw.loosens hl) (hk.mono hl.next) (Nat.lt_succ_self _) (hclear.loosens hl) index

theorem moveRest_nested (hw : w.Nested) (hk : k.Made w.next) (index : Int) (item : Ref) (newCount : Int) :
    (Virtual.moveRest env w k index item newCount).Nested := by
  unfold Virtual.moveRest
  split
  · obtain ⟨as, n, he⟩ := Item.clone_eq env.items (w.item item)
    exact addThing_new_nested hw hk (by rw [he]; rfl) (by rw [he]; rfl) index
  · exact hw

theorem moveStack_nested (hw : w.Nested) (hk : k.Made w.next) (index : Int) (item : Ref) (m : UInt32)
    (toItem : Option Ref) : (Virtual.moveStack env w k index item m toItem).Nested := by
  unfold Virtual.moveStack
  split
  · have hl := Cylinder.updateThing_loosens env w
    exact moveRest_nested (hw.loosens (hl _ _ _ k)) (hk.mono (hl _ _ _ k).next) index item _
  · exact moveRest_nested hw hk index item _

theorem moveThing_nested (hw : w.Nested) (fromCylinder : Cylinder) (hk : k.Made w.next) (hx : item < w.next)
    (hclear : k.Clear w item) (index : Int) (m : UInt32) (toItem : Option Ref) :
    (Virtual.moveThing env w fromCylinder k index item m toItem).Nested := by
  have hl := Cylinder.removeThing_loosens env hw item m fromCylinder
  unfold Virtual.moveThing
  dsimp only
  split
  · exact moveStack_nested (hw.loosens hl) (hk.mono hl.next) index item m toItem
  · exact Cylinder.addThing_nested (hw.loosens hl) (hk.mono hl.next) (hx.trans_le hl.next) (hclear.loosens hl) index

/-- The exchange hangs the item that stands in the way, and no other. -/
theorem moveExchange_nested (hw : w.Nested) {fromCylinder : Cylinder} (hfrom : fromCylinder.Made w.next)
    {place : Place} (hp : place.Made w.next)
    (hguard : ∀ t, place.destItem = some t → Virtual.Guards env classOf w t false fromCylinder) (item : Ref)
    (count flags : UInt32) :
    (Virtual.moveExchange env classOf w fromCylinder place item count flags).1.Nested ∧
      w.next ≤ (Virtual.moveExchange env classOf w fromCylinder place item count flags).1.next := by
  unfold Virtual.moveExchange
  split
  · exact ⟨hw, le_rfl⟩
  · rename_i toItem htoItem
    dsimp only
    split
    · exact ⟨hw, le_rfl⟩
    rename_i hadds
    split
    · exact ⟨hw, le_rfl⟩
    split
    · have hclear := cylinderQueryAdd_clear hw (hguard toItem htoItem) (not_not.mp hadds)
      have hl := Cylinder.removeThing_loosens env hw toItem (.ofNat (w.item toItem).getItemCount) place.cylinder
      refine ⟨Cylinder.addThingFront_nested (hw.loosens hl) (hfrom.mono hl.next) ?_ (hclear.loosens hl), ?_⟩
      · exact (hp.2 toItem htoItem).trans_le hl.next
      · rw [Cylinder.addThingFront_next]
        exact hl.next
    · exact ⟨hw, le_rfl⟩

end

namespace Virtual

/-- What a call finds in memory. -/
def Op.Made (w : World) : Op → Prop
  | .internalMoveItem fromCylinder toCylinder _ item _ _ _ =>
    fromCylinder.Made w.next ∧ toCylinder.Made w.next ∧ item < w.next
  | .internalAddItem toCylinder item _ _ => toCylinder.Made w.next ∧ item < w.next

/-- No reward container takes in an item that it lies inside: neither the destination that `queryDestination`
    settles on nor, where the destination asks for an exchange, the source. -/
def Op.Guarded (env : Env) (classOf : Ref → ContainerClass) (w : World) : Op → Prop
  | .internalMoveItem fromCylinder toCylinder index item count actor _ =>
    let d := (destinationLoop env classOf w item Game.MAP_MAX_LAYERS ⟨toCylinder, index, none⟩ 0).1
    let count := moveUpCount env w fromCylinder d.cylinder item count
    Guards env classOf w item actor d.cylinder ∧
      (cylinderQueryAdd env classOf w d.index item count 0 actor d.cylinder = .NEEDEXCHANGE →
        ∀ toItem, d.destItem = some toItem → Guards env classOf w toItem false fromCylinder)
  | .internalAddItem toCylinder item index _ =>
    Guards env classOf w item false (queryDestination env classOf w index item none 0 toCylinder).cylinder

/-- Where there are no reward containers, no call goes wrong. -/
theorem guarded_of_container (h : ∀ r, classOf r = .Container) (w : World) (op : Op) : op.Guarded env classOf w := by
  have hguard : ∀ x actor k, Guards env classOf w x actor k := by
    rintro x actor k c - hov
    rw [override, h c] at hov
    exact nomatch hov
  cases op with
  | internalMoveItem fromCylinder toCylinder index item count actor tradeItem =>
    exact ⟨hguard _ _ _, fun _ t _ => hguard t _ _⟩
  | internalAddItem toCylinder item index test => exact hguard _ _ _

theorem internalMoveItem_nested (hw : w.Nested) {fromCylinder toCylinder : Cylinder} {index : Int} {count : UInt32}
    {actor : Bool} {tradeItem : Option Ref}
    (hmade : (Op.internalMoveItem fromCylinder toCylinder index item count actor tradeItem).Made w)
    (hguard : (Op.internalMoveItem fromCylinder toCylinder index item count actor tradeItem).Guarded env classOf w) :
    (internalMoveItem env classOf w fromCylinder toCylinder index item count 0 actor tradeItem).1.Nested := by
  obtain ⟨hfrom, hto, hx⟩ := hmade
  obtain ⟨hguard, hswap⟩ := hguard
  have hloop := destinationLoop_made env classOf item hw.within Game.MAP_MAX_LAYERS
    (show Place.Made w.next ⟨toCylinder, index, none⟩ from ⟨hto, nofun⟩)
  unfold internalMoveItem
  revert hguard hswap hloop
  generalize destinationLoop env classOf w item Game.MAP_MAX_LAYERS ⟨toCylinder, index, none⟩ 0 = loop
  obtain ⟨d, flags⟩ := loop
  rintro hguard hswap ⟨hd, rfl⟩
  dsimp only at hguard hswap hd ⊢
  split
  · exact hw
  split
  · exact hw
  -- the world, the answer and the item once the exchange was made or was not needed
  have hexchange : ∀ r : World × ReturnValue × Option Ref,
      (if cylinderQueryAdd env classOf w d.index item (moveUpCount env w fromCylinder d.cylinder item count) 0 actor
          d.cylinder = .NEEDEXCHANGE then
        moveExchange env classOf w fromCylinder d item (moveUpCount env w fromCylinder d.cylinder item count) 0
      else (w, cylinderQueryAdd env classOf w d.index item (moveUpCount env w fromCylinder d.cylinder item count) 0
        actor d.cylinder, d.destItem)) = r →
      r.1.Nested ∧ w.next ≤ r.1.next ∧ (r.2.1 = .NOERROR → d.cylinder.Clear r.1 item) := by
    rintro r rfl
    split
    · rename_i hneed
      obtain ⟨hn, hle⟩ := moveExchange_nested hw hfrom hd (hswap hneed) item
        (moveUpCount env w fromCylinder d.cylinder item count) 0
      obtain ⟨p, hp⟩ := player_of_needexchange hneed
      refine ⟨hn, hle, fun _ c hc => ?_⟩
      exact nomatch hp.symm.trans hc
    · exact ⟨hw, le_rfl, fun h => cylinderQueryAdd_clear hw hguard h⟩
  revert hexchange
  generalize (if cylinderQueryAdd env classOf w d.index item (moveUpCount env w fromCylinder d.cylinder item count) 0
      actor d.cylinder = .NEEDEXCHANGE then _ else _ : World × ReturnValue × Option Ref) = r
  intro hexchange
  obtain ⟨hn, hle, hclear⟩ := hexchange r rfl
  obtain ⟨w₁, ret, toItem⟩ := r
  dsimp only at hn hle hclear ⊢
  split
  · exact hn
  rename_i hret
  split
  · exact hn
  split
  · exact hn
  split
  · exact hn
  exact moveThing_nested hn fromCylinder (hd.1.mono hle) (hx.trans_le hle) (hclear (not_not.mp hret)) d.index _ toItem

/-- The call for a remainder adds a new item, which holds nothing. -/
theorem internalAddItemLoop_nested (fuel : Nat) (hw : w.Nested) {dest : Cylinder} (hdest : dest.Made w.next)
    (hx : item < w.next) {index : Int} {test : Bool} {bound : Ref} (hbound : bound ≤ w.next)
    (hplace : (queryDestination env classOf w index item none 0 dest).Made bound)
    (hguard : Guards env classOf w item false (queryDestination env classOf w index item none 0 dest).cylinder) :
    (internalAddItemLoop env classOf fuel w dest item index 0 test).1.Nested := by
  induction fuel generalizing w item index test bound with
  | zero => exact hw
  | succ fuel ih =>
    rw [internalAddItemLoop]
    revert hplace hguard
    generalize queryDestination env classOf w index item none 0 dest = place
    intro hplace hguard
    have hk : place.cylinder.Made w.next := hplace.1.mono hbound
    dsimp only
    split
    · exact hw
    rename_i hadds
    have hclear := cylinderQueryAdd_clear hw hguard (not_not.mp hadds)
    split
    · exact hw
    split
    · exact hw
    split
    · rename_i toItem _
      generalize hw₁ : place.cylinder.updateThing env w toItem (w.item toItem).id _ = w₁
      have hl : Loosens w w₁ := hw₁ ▸ Cylinder.updateThing_loosens env w toItem _ _ place.cylinder
      have hn := hw.loosens hl
      split
      · split
        · obtain ⟨as, n, he⟩ := Item.clone_eq env.items (w₁.item item)
          generalize hi : ((w₁.item item).clone env.items).setItemCount _ = i
          have hp : i.m_parent = none := by rw [← hi, he]; rfl
          have hc : i.container = none := by rw [← hi, he]; rfl
          have hnew : Loosens w₁ (w₁.new i) := .new hp hc
          have hplace' : (queryDestination env classOf (w₁.new i) INDEX_WHEREEVER w₁.next none 0 dest).Made w₁.next :=
            queryDestination_made (hn.within_new hp hc) (hdest.mono hl.next) nofun
          refine ih (hn.loosens hnew) (hdest.mono (hl.next.trans hnew.next)) (Nat.lt_succ_self _) hnew.next hplace' ?_
          exact fun c hc' _ => hnew.not_inside (hn.not_inside_next (hplace'.1 c hc'))
        · exact Cylinder.addThing_nested hn (hk.mono hl.next) (hx.trans_le hl.next) (hclear.loosens hl) place.index
      · exact hn
    · exact Cylinder.addThing_nested hw hk hx hclear place.index

theorem step_nested (hw : w.Nested) {op : Op} (hmade : op.Made w) (hguard : op.Guarded env classOf w) :
    (step env classOf w op).Nested := by
  cases op with
  | internalMoveItem fromCylinder toCylinder index item count actor tradeItem =>
    exact internalMoveItem_nested hw hmade hguard
  | internalAddItem toCylinder item index test =>
    obtain ⟨hdest, hx⟩ := hmade
    exact internalAddItemLoop_nested _ hw hdest hx le_rfl (queryDestination_made hw.within hdest nofun) hguard

/-- In every state that calls reach whose reward containers take in nothing that they lie inside, no container lies
    inside itself, and the walks over the parents end. -/
theorem acyclic_run (env : Env) (classOf : Ref → ContainerClass) {w : World} (hw : w.Forest)
    (hslots : ∀ p s r, (w.players p).inventory s = some r → r < w.next) (ops : List Op)
    (hops : Lib.Meets (step env classOf) (fun w op => op.Made w ∧ op.Guarded env classOf w) w ops) :
    ∀ xs, xs <+: ops → Lib.Acyclic (Lib.run (step env classOf) w xs).getParentContainer ∧
      (Lib.run (step env classOf) w xs).WalksEnd := by
  rintro xs ⟨ys, rfl⟩
  have hn : (Lib.run (step env classOf) w xs).Nested :=
    Lib.run_invariant World.Nested (fun w op hw h => step_nested hw h.1 h.2) (hw.nested hslots) hops.of_append
  exact ⟨hn.acyclic, hn.walksEnd⟩

/-! ### A reward container in a bag -/

/-- Settings under which nothing is refused. -/
def bagEnv : Env where
  items := Container.tenType
  MAX_CONTAINER := 500
  MAX_CONTAINER_DEPTH := 200
  ENABLE_PLAYER_PUT_ITEM_IN_AMMO_SLOT := false
  isOwner _ _ := true
  onPlayerEquip _ _ _ _ := true

/-- A bag at 0, a reward container at 1 that lies in it, and another bag at 2. -/
def rewardWorld : World where
  item
    | 0 => ⟨2853, 1, none, none, some ⟨2000, 8, 10, [1], true, false, false⟩⟩
    | 1 => ⟨ITEM_REWARD_CONTAINER, 1, none, some (.container 0), some ⟨2000, 32, 0, [], false, true, false⟩⟩
    | 2 => ⟨2853, 1, none, none, some ⟨2000, 8, 0, [], true, false, false⟩⟩
    | _ + 3 => ⟨2853, 1, none, none, none⟩
  next := 3
  players _ := ⟨fun _ => none, none, false, false, 0, 0, false⟩

def rewardClass (r : Ref) : ContainerClass := if r = 1 then .Reward else .Container

theorem rewardWorld_parent {r c : Ref} (h : rewardWorld.getParentContainer r = some c) : r = 1 ∧ c = 0 := by
  match r with
  | 0 | 2 | _ + 3 => exact nomatch h
  | 1 =>
    cases h
    exact ⟨rfl, rfl⟩

theorem rewardWorld_below {r c : Ref} (h : Lib.Below rewardWorld.getParentContainer r c) : r = 1 ∧ c = 0 := by
  obtain ⟨d, hd, h⟩ := Lib.below_cases h
  obtain ⟨rfl, rfl⟩ := rewardWorld_parent hd
  rcases h with rfl | h
  · exact ⟨rfl, rfl⟩
  · obtain ⟨e, he, -⟩ := Lib.below_cases h
    exact absurd (rewardWorld_parent he).1 (by decide)

theorem rewardWorld_forest : rewardWorld.Forest where
  lists := by
    constructor
    · intro x c
      constructor
      · intro hx
        match c with
        | 1 | 2 | _ + 3 => exact absurd hx List.not_mem_nil
        | 0 =>
          cases List.mem_singleton.mp hx
          rfl
      · intro hx
        obtain ⟨rfl, rfl⟩ := rewardWorld_parent hx
        exact List.mem_singleton_self 1
    · intro c
      match c with
      | 1 | 2 | _ + 3 => exact List.nodup_nil
      | 0 => exact List.nodup_singleton 1
  acyclic x hx := by
    obtain ⟨rfl, h⟩ := rewardWorld_below hx
    exact absurd h (by decide)
  made r c hr := by
    obtain ⟨rfl, rfl⟩ := rewardWorld_parent hr
    decide

/-- The other bag goes into the reward container, and then the outer bag is to go into the other one. -/
def rewardOps : List Op :=
  [.internalAddItem (.container 1) 2 INDEX_WHEREEVER false, .internalAddItem (.container 2) 0 INDEX_WHEREEVER false]

theorem acyclic_run_reward :
    Lib.Acyclic (Lib.run (step bagEnv rewardClass) rewardWorld rewardOps).getParentContainer ∧
      (Lib.run (step bagEnv rewardClass) rewardWorld rewardOps).WalksEnd := by
  refine acyclic_run bagEnv rewardClass rewardWorld_forest nofun rewardOps ⟨⟨?_, ?_⟩, ⟨?_, ?_⟩, trivial⟩ rewardOps
    List.prefix_rfl
  · exact ⟨made_container (by decide), by decide⟩
  · rintro c hc -
    cases hc
    rintro (h | h)
    · exact absurd h (by decide)
    · exact absurd (rewardWorld_below h).2 (by decide)
  · exact ⟨made_container (by decide), by decide⟩
  · rintro c hc ho
    cases hc
    exact nomatch ho

/-- The bag goes into the reward container that lies in it. -/
theorem reward_takes_its_bag : ¬∀ (env : Env) (classOf : Ref → ContainerClass) (w : World), w.Forest →
    (∀ p s r, (w.players p).inventory s = some r → r < w.next) → ∀ ops : List Op,
    Lib.Meets (step env classOf) (fun w op => op.Made w) w ops →
    ∀ xs, xs <+: ops → Lib.Acyclic (Lib.run (step env classOf) w xs).getParentContainer := by
  intro h
  have hops : Lib.Meets (step bagEnv rewardClass) (fun w op => op.Made w) rewardWorld
      [.internalAddItem (.container 1) 0 INDEX_WHEREEVER false] :=
    ⟨⟨made_container (by decide), by decide⟩, trivial⟩
  refine h bagEnv rewardClass rewardWorld rewardWorld_forest nofun _ hops _ List.prefix_rfl 0 ?_
  refine .head (b := 1) ?_ (.single ?_)
  · decide
  · decide

end Virtual
end CrystalServer
