import CrystalServer.Game.AddItem
import CrystalServer.Theorems.Items.Taken
import CrystalServer.Theorems.Items.ContainerWeight

/-! # Adding items: what is stored and what is reported

An item that is added goes to a stack first, and what is left of it to another call. Everything is stored or
reported unless more is asked than `queryMaxCount` allows and nobody minds, the place is one that `addThing` does
not take, a copy gets another id, or a later call is refused and its caller does not pass this on. -/

namespace CrystalServer

/-- A container in memory, or a player. -/
def Cylinder.InMemory (w : World) : Cylinder → Prop
  | .container c => w.isContainer c ∧ c < w.next
  | .player _ => True

theorem Cylinder.inMemory_player (w : World) (p : PlayerRef) : (Cylinder.player p).InMemory w := trivial

/-- The cylinder itself, or one around it. -/
def Cylinder.Within (w : World) (dest top : Cylinder) : Prop := dest = top ∨ Lib.Below w.holder dest top

/-- Only the count of the item at `t` changed. -/
structure Recounts (w w' : World) (t : Ref) (k : Nat) : Prop where
  next : w'.next = w.next
  players : w'.players = w.players
  parent : ∀ r, w'.getParent r = w.getParent r
  container : ∀ r, w'.isContainer r = w.isContainer r
  forest : w.Forest → w'.Forest
  plain : ∀ r, r ≠ t → (w'.item r).plain = (w.item r).plain
  id : (w'.item t).id = (w.item t).id
  count : (w'.item t).getItemCount = k

variable {items : UInt16 → ItemType} {w w' : World} {dest top : Cylinder} {t : Ref}

theorem Cylinder.Within.below {k : Cylinder} (h : dest.Within w top) (hk : Lib.Below w.holder k dest) :
    Lib.Below w.holder k top := by
  rcases h with rfl | h
  · exact hk
  · exact Relation.TransGen.trans hk h

theorem Cylinder.Within.trans {k : Cylinder} (h : dest.Within w top) (hk : k.Within w dest) : k.Within w top := by
  rcases hk with rfl | hk
  · exact h
  · exact Or.inr (h.below hk)

namespace Recounts

theorem carried {k : Nat} (h : Recounts w w' t k) (hw : Carried items w) : Carried items w' where
  forest := h.forest hw.forest
  single r hr := by
    rw [h.container] at hr
    have hid : (w'.item r).id = (w.item r).id := by
      by_cases hrt : r = t
      · rw [hrt, h.id]
      · have := congrArg Item.id (h.plain r hrt)
        exact this
    have := hw.single r hr
    rwa [Item.isStackable, ← hid] at this
  slots p s r hr := by
    rw [h.players] at hr
    rw [h.parent]
    exact hw.slots p s r hr
  made r k hr := by
    rw [h.parent] at hr
    rw [h.next]
    exact hw.made r k hr

theorem holder {k : Nat} (h : Recounts w w' t k) : w'.holder = w.holder := by
  funext c
  cases c with
  | container r => exact h.parent r
  | player p => rfl

/-- What a cylinder holds after a stack in it got another count. -/
theorem held {k : Nat} (h : Recounts w w' t k) (hw : Carried items w) (hs : (w.item t).isStackable items)
    (hheld : Lib.Below w.holder (.container t) dest) (id : UInt16) :
    w'.held items dest id + (w.item t).part items id (w.item t).getItemCount =
      w.held items dest id + (w.item t).part items id k := by
  obtain ⟨p, hp, -⟩ := Lib.below_cases hheld
  have : w'.held items dest id + (w.item t).units items id = w.held items dest id + (w'.item t).units items id :=
    World.held_of_change hw.forest (h.forest hw.forest) h.next h.parent h.plain (hw.made t p hp) hheld id
  have hs' : (w'.item t).isStackable items := by rwa [Item.isStackable, h.id]
  rw [Item.units, Item.units, h.count, World.part_of_stackable hs', h.id, World.part_of_stackable hs] at this
  rwa [World.part_of_stackable hs, World.part_of_stackable hs]

end Recounts

/-! ### A stack gets another count -/

theorem item_modify_recount {t : Ref} (hs : (w.item t).isStackable items) (k : UInt32) :
    ∃ as, (((w.item t).setID items (w.item t).id).setSubType items k.toUInt16) =
      { w.item t with attributePtr := as, count := .ofNat (k.toNat % 256) } := by
  obtain ⟨as, he⟩ := Item.plain_setID_setSubType hs k.toUInt16
  refine ⟨as, he.trans ?_⟩
  have : UInt8.ofNat k.toUInt16.toNat = UInt8.ofNat (k.toNat % 256) := by
    refine UInt8.toNat_inj.mp ?_
    rw [UInt8.toNat_ofNat', UInt8.toNat_ofNat', UInt32.toNat_toUInt16]
    omega
  rw [this]

theorem recounts_modify {f : Item → Item} {k : Nat} (hk : k < 256)
    (hf : ∃ as, f (w.item t) = { w.item t with attributePtr := as, count := .ofNat k }) :
    Recounts w (w.modify t f) t k := by
  obtain ⟨as, hf⟩ := hf
  have hparent : ∀ r, (w.modify t f).getParent r = w.getParent r := fun r =>
    congrFun (World.proj_modify Item.m_parent (by rw [hf])) r
  have hlist : (w.modify t f).itemlist = w.itemlist :=
    World.proj_modify Item.getItemList (by rw [hf]; rfl)
  refine ⟨rfl, rfl, hparent, ?_, fun h => ?_, fun r hr => ?_, ?_, ?_⟩
  · exact fun r => congrFun (World.proj_modify (fun i => i.container.isSome) (by rw [hf])) r
  · have hpar : (w.modify t f).getParentContainer = w.getParentContainer :=
      funext fun r => World.getParentContainer_congr (hparent r)
    refine ⟨?_, ?_, ?_⟩
    · rw [hpar, hlist]
      exact h.lists
    · rw [hpar]
      exact h.acyclic
    · rw [hpar]
      exact h.made
  · rw [World.item_modify, Function.update_of_ne hr]
  · rw [World.item_modify, Function.update_self, hf]
  · rw [World.item_modify, Function.update_self, hf, Item.getItemCount, UInt8.toNat_ofNat', Nat.mod_eq_of_lt hk]

theorem Recounts.same {w'' : World} {k : Nat} (h : Recounts w w' t k) (hs : World.SameButTotals w' w'') :
    Recounts w w'' t k where
  next := hs.next.trans h.next
  players := hs.players.trans h.players
  parent r := (hs.m_parent r).trans (h.parent r)
  container r := (Bool.eq_iff_iff.mpr hs.isContainer).trans (h.container r)
  forest hw := (h.forest hw).same hs
  plain r hr := (hs.plain r).trans (h.plain r hr)
  id := by
    have := congrArg Item.id (hs.plain t)
    exact this.trans h.id
  count := by
    have := congrArg Item.getItemCount (hs.plain t)
    exact this.trans h.count

theorem recounts_container {c : Ref} (ht : t ∈ w.itemlist c) (hs : (w.item t).isStackable items) (k : UInt32) :
    Recounts w (Container.updateThing items w c t (w.item t).id k) t (k.toNat % 256) := by
  rw [Container.updateThing_of_mem ht]
  exact (recounts_modify (Nat.mod_lt _ (by decide)) (item_modify_recount hs k)).same
    (Container.updateItemWeight_same _ _ _)

theorem recounts_player {env : Env} {p : PlayerRef} {s : Nat} (hsr : s ∈ List.range' 1 11)
    (ht : (w.players p).inventory s = some t) (hs : (w.item t).isStackable env.items) (k : UInt32) :
    Recounts w (Player.updateThing env w p t (w.item t).id k) t (k.toNat % 256) := by
  unfold Player.updateThing
  cases hi : Player.getThingIndex w p t with
  | none =>
    have := List.find?_eq_none.mp hi s hsr
    exact absurd ht (by simpa using this)
  | some i => exact recounts_modify (Nat.mod_lt _ (by decide)) (item_modify_recount hs k)

/-- An item that was just made: it lies nowhere, nothing lies in it, and no container stacks. -/
structure Item.Fresh (items : UInt16 → ItemType) (i : Item) : Prop where
  free : i.m_parent = none
  empty : i.getItemList = []
  single : i.container.isSome → i.isStackable items = false

theorem Item.fresh_of_none {i : Item} (hp : i.m_parent = none) (hc : i.container = none) : i.Fresh items :=
  ⟨hp, World.getItemList_of_none hc, fun h => by rw [hc] at h; exact nomatch h⟩

theorem carried_new {i : Item} (hi : i.Fresh items) (hw : Carried items w) : Carried items (w.new i) := by
  have hnext : w.getParent w.next = none :=
    Option.eq_none_iff_forall_ne_some.mpr fun k hk => absurd (hw.made _ k hk) (lt_irrefl _)
  have hparent := World.getParent_new hi.free hnext
  refine ⟨World.forest_new hi.free hi.empty hw.forest, fun r hr => ?_, fun p s r hr => ?_, fun r k hr => ?_⟩
  · by_cases hrn : r = w.next
    · rw [hrn, World.isContainer, World.item_new, Function.update_self] at hr
      rw [hrn, World.item_new, Function.update_self]
      exact hi.single hr
    · rw [World.isContainer, World.item_new, Function.update_of_ne hrn] at hr
      rw [World.item_new, Function.update_of_ne hrn]
      exact hw.single r hr
  · rw [hparent]
    exact hw.slots p s r hr
  · rw [hparent] at hr
    exact Nat.lt_succ_of_lt (hw.made r k hr)

/-- The new item stands alone, and what is held stays the same. -/
theorem fresh_spec {i : Item} (hi : i.Fresh items) (hw : Carried items w) :
    (w.new i).getParent w.next = none ∧ (∀ k, ¬Lib.Below (w.new i).holder k (.container w.next)) ∧
      (∀ dest id, (w.new i).held items dest id = w.held items dest id) ∧
        ∀ id, (w.new i).brought items w.next id = i.units items id := by
  have hnext : w.getParent w.next = none :=
    Option.eq_none_iff_forall_ne_some.mpr fun k hk => absurd (hw.made _ k hk) (lt_irrefl _)
  have hcarried := carried_new hi hw
  have halone : ∀ k, ¬Lib.Below (w.new i).holder k (.container w.next) :=
    World.not_below_empty hcarried.forest (by rw [World.itemlist, World.item_new, Function.update_self, hi.empty])
  refine ⟨by rw [World.getParent_new hi.free hnext, hnext], halone, fun dest id => ?_, fun id => ?_⟩
  · exact World.held_new hi.free hi.empty hw.forest hnext id
  · rw [World.brought_alone hcarried.forest halone, World.item_new, Function.update_self]

/-! ### Where an item goes -/

/-- What `queryDestination` settles on: the cylinder itself or a container that a player holds, with a stack there
    that takes more. -/
structure Placed (env : Env) (w : World) (item : Ref) (dest : Cylinder) (place : Place) : Prop where
  inside : place.cylinder = dest ∨ (∃ p, dest = .player p) ∧ Lib.Below w.holder place.cylinder dest
  inMemory : place.cylinder.InMemory w
  takes : ∀ t, place.destItem = some t → Container.takesMore env w t item
  found : ∀ t, place.destItem = some t → match place.cylinder with
    | .container c => t ∈ w.itemlist c
    | .player p => ∃ s ∈ List.range' 1 11, (w.players p).inventory s = some t

section
variable {env : Env} {item : Ref} {flags : UInt32}

theorem placed_none {k : Cylinder} {index : Int}
    (hin : k = dest ∨ (∃ p, dest = .player p) ∧ Lib.Below w.holder k dest) (hk : k.InMemory w) :
    Placed env w item dest ⟨k, index, none⟩ :=
  ⟨hin, hk, nofun, nofun⟩

theorem placed_container {c : Ref} (hc : (Cylinder.container c).InMemory w) :
    Placed env w item (.container c)
      ((Cylinder.container c).queryDestination env w INDEX_WHEREEVER item none flags) := by
  have stack : ∀ index, Placed env w item (.container c)
      ⟨.container (Container.queryDestinationStack env w c index item none flags).cylinder,
        (Container.queryDestinationStack env w c index item none flags).index,
        (Container.queryDestinationStack env w c index item none flags).destItem⟩ := fun index => by
    unfold Container.queryDestinationStack
    simp only [Option.any_none, Bool.false_eq_true, if_false]
    split_ifs
    · cases hf : (w.itemlist c).findIdx? fun listItem => listItem ≠ item && Container.takesMore env w listItem item with
      | none => exact placed_none (.inl rfl) hc
      | some n =>
        dsimp only
        refine ⟨.inl rfl, hc, fun t ht => ?_, fun t ht => List.mem_of_getElem? ht⟩
        obtain ⟨hn, hpred, -⟩ := List.findIdx?_eq_some_iff_getElem.mp hf
        rw [List.getElem?_eq_getElem hn] at ht
        cases ht
        exact (Bool.and_eq_true_iff.mp hpred).2
    · exact placed_none (.inl rfl) hc
  unfold Cylinder.queryDestination Container.queryDestination
  dsimp only
  split
  · exact placed_none (.inl rfl) hc
  rw [if_neg (by decide), ite_self, if_neg (by simp [INDEX_WHEREEVER]), ite_self]
  exact stack INDEX_WHEREEVER

/-- A container that a player holds. -/
def HeldBy (w : World) (p : PlayerRef) (c : Ref) : Prop :=
  (Cylinder.container c).InMemory w ∧ Lib.Below w.holder (.container c) (.player p)

variable {p : PlayerRef}

theorem heldBy_nested (hw : Carried items w) {c k : Ref} (hc : HeldBy w p c) (hk : k ∈ w.itemlist c)
    (hcon : w.isContainer k) : HeldBy w p k := by
  have hpar := World.getParent_of_getParentContainer ((hw.forest.lists.mem_iff k c).mp hk)
  exact ⟨⟨hcon, hw.made k _ hpar⟩, .head hpar hc.2⟩

theorem heldBy_slot (hw : Carried items w) {s : Nat} {k : Ref} (hs : (w.players p).inventory s = some k)
    (hcon : w.isContainer k) : HeldBy w p k :=
  ⟨⟨hcon, hw.made k _ (hw.slots p s k hs)⟩, Lib.below_of_parent (hw.slots p s k hs)⟩

theorem placed_slots (env : Env) (item : Ref) (flags : UInt32) (hw : Carried items w) {slots : List Nat}
    {containers : List Ref}
    (hslots : ∀ s ∈ slots, s ∈ List.range' 1 11) (hcon : ∀ c ∈ containers, HeldBy w p c) :
    match Player.queryDestinationSlots env w p item flags slots containers with
    | .inl place => Placed env w item (.player p) place
    | .inr containers => ∀ c ∈ containers, HeldBy w p c := by
  induction slots generalizing containers with
  | nil => exact hcon
  | cons s slots ih =>
    have hrest := fun s' hs' => hslots s' (List.mem_cons_of_mem s hs')
    unfold Player.queryDestinationSlots
    dsimp only
    cases hs : (w.players p).inventory s with
    | none =>
      dsimp only
      split_ifs
      · exact placed_none (.inl rfl) trivial
      · exact ih hrest hcon
    | some k =>
      dsimp only
      split_ifs with h₁ h₂ h₃
      · exact ih hrest hcon
      · refine ⟨.inl rfl, trivial, fun t ht => ?_, fun t ht => ?_⟩
        · cases ht
          exact h₂.2.2.2
        · cases ht
          exact ⟨s, hslots s List.mem_cons_self, hs⟩
      · refine ih hrest fun c hc => ?_
        rcases List.mem_append.mp hc with hc | hc
        · exact hcon c hc
        · rw [List.mem_singleton.mp hc]
          exact heldBy_slot hw hs h₃
      · exact ih hrest hcon

theorem placed_stacks (env : Env) (item : Ref) (hw : Carried items w) {c : Ref} (hc : HeldBy w p c) {l containers : List Ref}
    (hl : ∀ t ∈ l, t ∈ w.itemlist c) (n : Nat) (hcon : ∀ c ∈ containers, HeldBy w p c) :
    match Player.stackLoop env w p c item l n containers with
    | .inl place => Placed env w item (.player p) place
    | .inr (_, containers) => ∀ c ∈ containers, HeldBy w p c := by
  induction l generalizing n containers with
  | nil => exact hcon
  | cons k l ih =>
    have hrest := fun t ht => hl t (List.mem_cons_of_mem k ht)
    unfold Player.stackLoop
    split_ifs with h₁ h₂ h₃
    · exact ih hrest n hcon
    · refine ⟨.inr ⟨⟨p, rfl⟩, hc.2⟩, hc.1, fun t ht => ?_, fun t ht => ?_⟩
      · cases ht
        exact h₂
      · cases ht
        exact hl k List.mem_cons_self
    · refine ih hrest (n + 1) fun c' hc' => ?_
      rcases List.mem_append.mp hc' with hc' | hc'
      · exact hcon c' hc'
      · rw [List.mem_singleton.mp hc']
        exact heldBy_nested hw hc (hl k List.mem_cons_self) h₃
    · exact ih hrest (n + 1) hcon

theorem placed_containers (hw : Carried items w) (fuel : Nat) {containers : List Ref}
    (hcon : ∀ c ∈ containers, HeldBy w p c) {place : Place}
    (h : Player.queryDestinationContainers env w p item flags fuel containers = some place) :
    Placed env w item (.player p) place := by
  induction fuel generalizing containers with
  | zero => exact nomatch h
  | succ fuel ih =>
    cases containers with
    | nil => exact nomatch h
    | cons c containers =>
      have hc := hcon c List.mem_cons_self
      have hrest := fun k hk => hcon k (List.mem_cons_of_mem c hk)
      unfold Player.queryDestinationContainers at h
      dsimp only at h
      split at h
      · split at h
        · cases h
          exact placed_none (.inr ⟨⟨p, rfl⟩, hc.2⟩) hc.1
        · refine ih (fun k hk => ?_) h
          rcases List.mem_append.mp hk with hk | hk
          · exact hrest k hk
          · exact heldBy_nested hw hc (List.mem_filter.mp hk).1 (List.mem_filter.mp hk).2
      · have hstack := placed_stacks env item hw hc (fun t ht => ht) 0 hrest
        split at h
        · rename_i place' hs
          rw [hs] at hstack
          cases h
          exact hstack
        · rename_i n containers' hs
          rw [hs] at hstack
          split at h
          · cases h
            exact placed_none (.inr ⟨⟨p, rfl⟩, hc.2⟩) hc.1
          · exact ih hstack h

theorem placed_player (hw : Carried items w) :
    Placed env w item (.player p) ((Cylinder.player p).queryDestination env w INDEX_WHEREEVER item none flags) := by
  unfold Cylinder.queryDestination Player.queryDestination
  dsimp only
  rw [if_pos (.inr rfl)]
  have hnone : ∀ c ∈ ([] : List Ref), HeldBy w p c := fun _ h => absurd h List.not_mem_nil
  have hslots := placed_slots env item flags hw (by decide : ∀ s ∈ List.range' 1 10, s ∈ List.range' 1 11) hnone
  split
  · rename_i place hs
    rw [hs] at hslots
    exact hslots
  · rename_i containers hs
    rw [hs] at hslots
    cases hc : Player.queryDestinationContainers env w p item flags (w.next + 1) containers with
    | none => exact placed_none (.inl rfl) trivial
    | some place => exact placed_containers hw _ hslots hc

theorem placed (hw : Carried items w) (hd : dest.InMemory w) :
    Placed env w item dest (dest.queryDestination env w INDEX_WHEREEVER item none flags) := by
  cases dest with
  | container c => exact placed_container hd
  | player p => exact placed_player hw

end

/-! ### One call -/

namespace Game

section
variable (env : Env) (w : World) (dest : Cylinder) (item : Ref)

def addCount : UInt32 := .ofNat (w.item item).getItemCount

/-- Where the item goes. -/
def addPlace : Place := dest.queryDestination env w INDEX_WHEREEVER item none 0

/-- How much the destination takes of it, with the answer. -/
def addMaxCount : ReturnValue × UInt32 := dest.queryMaxCount env w INDEX_WHEREEVER item (addCount w item) 0

/-- No query stands against the item. -/
structure AddLetThrough : Prop where
  adds : (addPlace env w dest item).cylinder.queryAdd env w (addPlace env w dest item).index item (addCount w item) 0
    = .NOERROR
  takes : ¬((addMaxCount env w dest item).1 ≠ .NOERROR ∧
    (dest.getItem.any fun addedItem => (w.item addedItem).id != ITEM_REWARD_CONTAINER))

/-- The stack that the item is merged into. -/
def mergeItem : Option Ref :=
  (addPlace env w dest item).destItem.filter fun toItem =>
    (w.item item).isStackable env.items && w.equals item toItem

/-- `addThing` does not return early. -/
def TakesPlace (place : Place) : Prop :=
  match place.cylinder with
  | .container c => place.index < (Container.capacity w c).toNat
  | .player _ => CONST_SLOT_FIRST ≤ place.index ∧ place.index ≤ CONST_SLOT_LAST

/-- The pieces that a call deals with. -/
def addTaken : UInt32 := min (addCount w item) (addMaxCount env w dest item).2

/-- The world after the merge. -/
def mergedWorld (t : Ref) : World :=
  (addPlace env w dest item).cylinder.updateThing env w t (w.item t).id
    (.ofNat (w.item t).getItemCount + min (room env.items (w.item t)) (addTaken env w dest item))

/-- What does not go on the stack, as the code computes it. -/
def addRest (t : Ref) : Int :=
  (addTaken env w dest item - min (room env.items (w.item t)) (addTaken env w dest item)).toInt32.toInt

/-- The world in which the call for the remainder starts, with the remainder at its last reference. -/
def remainderWorld (t : Ref) : World :=
  (mergedWorld env w dest item t).new ((((mergedWorld env w dest item t).item item).clone env.items).setItemCount
    (UInt8.ofInt (addRest env w dest item t)).toNat)

/-- The call for the remainder. -/
def remainderCall (fuel : Nat) (t : Ref) : World × ReturnValue × Nat :=
  internalAddItemLoop env fuel (remainderWorld env w dest item t) dest (mergedWorld env w dest item t).next
    INDEX_WHEREEVER 0 false

/-- What one call does. -/
inductive AddLevel (fuel : Nat) (res : World × ReturnValue × Nat) : Prop
  | refused (h : ¬AddLetThrough env w dest item) (hret : res.2.1 ≠ .NOERROR) (hw : res.1 = w) (hrest : res.2.2 = 0)
  | added (h : AddLetThrough env w dest item) (hm : mergeItem env w dest item = none)
      (hret : res.2 = (.NOERROR, 0))
      (hheld : TakesPlace w (addPlace env w dest item) →
        ∀ top, dest.Within w top → ∀ id, res.1.held env.items top id =
          w.held env.items top id + w.brought env.items item id)
      (hlost : ¬TakesPlace w (addPlace env w dest item) → res.1 = w)
  | merged (t : Ref) (h : AddLetThrough env w dest item) (hm : mergeItem env w dest item = some t)
      (hle : addTaken env w dest item ≤ room env.items (w.item t)) (hret : res.2 = (.NOERROR, 0))
      (hheld : ∀ top, dest.Within w top → ∀ id, res.1.held env.items top id =
        w.held env.items top id + (w.item item).part env.items id (addTaken env w dest item).toNat)
  | split (t : Ref) (h : AddLetThrough env w dest item) (hm : mergeItem env w dest item = some t)
      (hlt : room env.items (w.item t) < addTaken env w dest item)
      (hworld : res.1 = (remainderCall env w dest item fuel t).1)
      (hret : res.2 = (.NOERROR, if (remainderCall env w dest item fuel t).2.1 ≠ .NOERROR then
        (addTaken env w dest item).toNat - (room env.items (w.item t)).toNat else 0))

end

variable {env : Env} {item : Ref}

/-- A stack that takes more has room up to its size. -/
theorem room_of_takesMore (h : Container.takesMore env w t item) :
    0 < (room env.items (w.item t)).toNat ∧
      (w.item t).getItemCount + (room env.items (w.item t)).toNat = (w.item t).getStackSize env.items ∧
      (w.item t).getStackSize env.items < 256 := by
  have hlt : (w.item t).getItemCount < (w.item t).getStackSize env.items :=
    of_decide_eq_true (Bool.and_eq_true_iff.mp h).2
  have hs : (w.item t).getStackSize env.items < 256 := by
    unfold Item.getStackSize
    split_ifs
    · exact (env.items (w.item t).id).stackSize.toNat_lt
    · decide
  have hroom : (room env.items (w.item t)).toNat = (w.item t).getStackSize env.items - (w.item t).getItemCount := by
    rw [room, UInt32.toNat_sub_of_le _ _ (UInt32.le_iff_toNat_le.mpr ?_), UInt32.toNat_ofNat', UInt32.toNat_ofNat',
      Nat.mod_eq_of_lt (by omega), Nat.mod_eq_of_lt (by omega)]
    rw [UInt32.toNat_ofNat', UInt32.toNat_ofNat', Nat.mod_eq_of_lt (by omega), Nat.mod_eq_of_lt (by omega)]
    exact hlt.le
  omega

theorem addCount_toNat (w : World) (item : Ref) : (addCount w item).toNat = (w.item item).getItemCount := by
  have hcount : (w.item item).getItemCount < 256 := (w.item item).count.toNat_lt
  rw [addCount, UInt32.toNat_ofNat', Nat.mod_eq_of_lt (by omega)]

theorem addTaken_le (env : Env) (w : World) (dest : Cylinder) (item : Ref) :
    (addTaken env w dest item).toNat ≤ (w.item item).getItemCount := by
  rw [← addCount_toNat, addTaken]
  rcases UInt32.le_total (addCount w item) (addMaxCount env w dest item).2 with h | h
  · rw [show min (addCount w item) (addMaxCount env w dest item).2 = addCount w item from if_pos h]
  · rw [min_of_le h]
    exact UInt32.le_iff_toNat_le.mp h

/-- The stack that an item is merged into: it is in the cylinder and takes more of the item. -/
theorem mergeItem_spec (hw : Carried env.items w) (hd : dest.InMemory w) (hm : mergeItem env w dest item = some t) :
    (w.item item).isStackable env.items ∧ (w.item t).id = (w.item item).id ∧ Container.takesMore env w t item ∧
      Lib.Below w.holder (.container t) dest ∧
      ∀ k, Recounts w ((addPlace env w dest item).cylinder.updateThing env w t (w.item t).id k) t (k.toNat % 256) := by
  obtain ⟨hdest, hpred⟩ := Option.filter_eq_some_iff.mp hm
  obtain ⟨hs, heq⟩ := Bool.and_eq_true_iff.mp hpred
  have hid := id_of_equals heq
  have hst : (w.item t).isStackable env.items := by rwa [Item.isStackable, ← hid]
  have hp : Placed env w item dest (addPlace env w dest item) := placed hw hd
  have hfound := hp.found t hdest
  have hin := hp.inside
  refine ⟨hs, hid.symm, hp.takes t hdest, ?_⟩
  generalize (addPlace env w dest item).cylinder = k at hfound hin ⊢
  cases k with
  | container c =>
    have hpar := World.getParent_of_getParentContainer ((hw.forest.lists.mem_iff t c).mp hfound)
    refine ⟨?_, fun k => recounts_container hfound hst k⟩
    rcases hin with rfl | ⟨-, hb⟩
    · exact Lib.below_of_parent hpar
    · exact .head hpar hb
  | player p =>
    obtain ⟨s, hsr, hslot⟩ := hfound
    have hpar := hw.slots p s t hslot
    refine ⟨?_, fun k => recounts_player hsr hslot hst k⟩
    rcases hin with rfl | ⟨-, hb⟩
    · exact Lib.below_of_parent hpar
    · exact absurd hb (Lib.not_below_of_root rfl)

/-- What the destination, or a cylinder around it, holds after the merge. -/
theorem mergedWorld_spec (hw : Carried env.items w) (hd : dest.InMemory w) (hx : w.getParent item = none)
    (hm : mergeItem env w dest item = some t) :
    Carried env.items (mergedWorld env w dest item t) ∧ (mergedWorld env w dest item t).next = w.next ∧
      (∀ c, (mergedWorld env w dest item t).isContainer c = w.isContainer c) ∧
      ((mergedWorld env w dest item t).item item).plain = (w.item item).plain ∧
      (mergedWorld env w dest item t).holder = w.holder ∧
      ∀ top, dest.Within w top → ∀ id, (mergedWorld env w dest item t).held env.items top id =
        w.held env.items top id +
          (w.item item).part env.items id (min (room env.items (w.item t)) (addTaken env w dest item)).toNat := by
  obtain ⟨hs, hid, htakes, hheld, hrec⟩ := mergeItem_spec hw hd hm
  obtain ⟨hpos, hfull, hsize⟩ := room_of_takesMore htakes
  have hst : (w.item t).isStackable env.items := by rwa [Item.isStackable, hid]
  have hle : (min (room env.items (w.item t)) (addTaken env w dest item)).toNat ≤ (room env.items (w.item t)).toNat := by
    rcases UInt32.le_total (room env.items (w.item t)) (addTaken env w dest item) with h | h
    · rw [show min (room env.items (w.item t)) (addTaken env w dest item) = room env.items (w.item t) from if_pos h]
    · rw [min_of_le h]
      exact UInt32.le_iff_toNat_le.mp h
  have hk : (UInt32.ofNat (w.item t).getItemCount + min (room env.items (w.item t)) (addTaken env w dest item)).toNat % 256
      = (w.item t).getItemCount + (min (room env.items (w.item t)) (addTaken env w dest item)).toNat := by
    rw [UInt32.toNat_add, UInt32.toNat_ofNat']
    omega
  have hr := hrec (.ofNat (w.item t).getItemCount + min (room env.items (w.item t)) (addTaken env w dest item))
  rw [hk] at hr
  have hne : item ≠ t := by
    rintro rfl
    obtain ⟨p, hp, -⟩ := Lib.below_cases hheld
    cases hx.symm.trans hp
  refine ⟨hr.carried hw, hr.next, hr.container, hr.plain item hne, hr.holder, fun top htop id => ?_⟩
  have hpart : ∀ k, (w.item t).part env.items id k = if (w.item item).id = id then k else 0 := fun k => by
    rw [World.part_of_stackable hst, hid]
  have hmerged : (mergedWorld env w dest item t).held env.items top id + (w.item t).part env.items id
      (w.item t).getItemCount = _ := hr.held hw hst (htop.below hheld) id
  rw [hpart, hpart] at hmerged
  rw [World.part_of_stackable hs]
  split_ifs at hmerged ⊢ <;> omega

/-- What the destination, or a cylinder around it, holds after `addThing`. -/
theorem addThing_held (hw : Carried env.items w) (hd : dest.InMemory w) (hx : w.getParent item = none)
    (hxn : item < w.next) (h : AddLetThrough env w dest item) :
    let place := addPlace env w dest item
    let w' := place.cylinder.addThing env w place.index (some item)
    (TakesPlace w place → ∀ top, dest.Within w top → ∀ id,
      w'.held env.items top id = w.held env.items top id + w.brought env.items item id) ∧
      (¬TakesPlace w place → w' = w) := by
  have hp : Placed env w item dest (addPlace env w dest item) := placed hw hd
  have hin := hp.inside
  have hmem := hp.inMemory
  have hadds := h.adds
  unfold TakesPlace
  dsimp only
  generalize (addPlace env w dest item).cylinder = k at hin hmem hadds ⊢
  generalize (addPlace env w dest item).index = index at hadds ⊢
  have hfree : w.getParentContainer item = none := by
    rw [World.getParentContainer, hx]
    rfl
  have hplayer : ∀ p, Cylinder.player p ≠ .container item := fun p h => Cylinder.noConfusion h
  have hroot : ∀ p, ¬Lib.Below w.holder (.player p) (.container item) := fun p => Lib.not_below_of_root rfl
  cases k with
  | container c =>
    obtain ⟨hne, hb⟩ := Container.queryAdd_noerror (hw.forest.ends _) hadds
    have ho : Container.Outside w c item := ⟨hfree, hxn, hne.symm, hb⟩
    dsimp only [Cylinder.addThing]
    unfold Container.addThing
    refine ⟨fun hlt top htop id => ?_, fun hlt => if_pos (not_lt.mp hlt)⟩
    rw [if_neg (not_le.mpr hlt)]
    have htouch := World.internalAddThing_touches env.items w c item
    have hdest : dest ≠ .container item ∧ ¬Lib.Below w.holder dest (.container item) := by
      rcases hin with rfl | ⟨⟨p, rfl⟩, -⟩
      · exact ⟨fun h => hne (Cylinder.container.inj h).symm, fun h => hb (World.below_container h)⟩
      · exact ⟨hplayer p, hroot p⟩
    have hself : top ≠ .container item ∧ ¬Lib.Below w.holder top (.container item) := by
      rcases htop with rfl | htop
      · exact hdest
      · refine ⟨fun h => hdest.2 (h ▸ htop), fun h => hdest.2 (Relation.TransGen.trans htop h)⟩
    refine World.held_of_hang hw.forest (Container.internalAddThing_spec env.items hw.forest hmem.1 hmem.2 ho).1
      htouch.next (fun r => World.plain_internalAddThing r) (funext fun k => ?_) hx hxn
      (htop.trans (hin.imp_right (·.2))) hself.1 hself.2 id
    cases k with
    | container r =>
      by_cases hr : r = item
      · rw [hr, Function.update_self]
        exact World.m_parent_internalAddThing
      · rw [Function.update_of_ne (fun h => hr (Cylinder.container.inj h))]
        exact htouch.parent r hr
    | player p => rw [Function.update_of_ne (hplayer p)]; rfl
  | player p =>
    have hdest : dest = .player p := by
      rcases hin with rfl | ⟨-, hb⟩
      · rfl
      · exact absurd hb (Lib.not_below_of_root rfl)
    subst hdest
    dsimp only [Cylinder.addThing]
    unfold Player.addThing
    refine ⟨fun hr top htop id => ?_, fun hr => if_pos (by omega)⟩
    obtain rfl : Cylinder.player p = top := htop.resolve_right (Lib.not_below_of_root rfl)
    have hnot : ¬(index < CONST_SLOT_FIRST ∨ index > CONST_SLOT_LAST) := by omega
    dsimp only
    rw [if_neg hnot]
    have hpar : ((w.setParent item (.player p)).setInventory p index.toNat (some item)).getParentContainer =
        w.getParentContainer := by
      funext r
      by_cases hri : r = item
      · rw [hri, hfree]
        change ((Function.update w.item item _ item).m_parent).bind _ = none
        rw [Function.update_self]
        rfl
      · exact World.getParentContainer_congr (congrArg Item.m_parent (Function.update_of_ne hri _ _))
    have hf : ((w.setParent item (.player p)).setInventory p index.toNat (some item)).Forest := by
      have hlist : ((w.setParent item (.player p)).setInventory p index.toNat (some item)).itemlist = w.itemlist :=
        World.itemlist_setParent w item (.player p)
      refine ⟨?_, ?_, ?_⟩
      · rw [hpar, hlist]
        exact hw.forest.lists
      · rw [hpar]
        exact hw.forest.acyclic
      · rw [hpar]
        exact hw.forest.made
    refine World.held_of_hang hw.forest hf rfl (fun r => World.plain_setParent (x := r) (.player p)) (funext fun k => ?_)
      hx hxn (.inl rfl) (hplayer p) (hroot p) id
    cases k with
    | container r =>
      by_cases hr : r = item
      · rw [hr, Function.update_self]
        change (Function.update w.item item _ item).m_parent = _
        rw [Function.update_self]
      · rw [Function.update_of_ne (fun h => hr (Cylinder.container.inj h))]
        exact congrArg Item.m_parent (Function.update_of_ne hr _ _)
    | player q => rw [Function.update_of_ne (hplayer q)]; rfl

/-- A call, by what its queries answer. -/
theorem internalAddItemLoop_eq (fuel : Nat) : internalAddItemLoop env (fuel + 1) w dest item INDEX_WHEREEVER 0 false =
    if (addPlace env w dest item).cylinder.queryAdd env w (addPlace env w dest item).index item (addCount w item) 0 ≠
        .NOERROR then
      (w, (addPlace env w dest item).cylinder.queryAdd env w (addPlace env w dest item).index item (addCount w item) 0,
        0)
    else if (addMaxCount env w dest item).1 ≠ .NOERROR ∧
        (dest.getItem.any fun addedItem => (w.item addedItem).id != ITEM_REWARD_CONTAINER) then
      (w, (addMaxCount env w dest item).1, 0)
    else match mergeItem env w dest item with
      | none => ((addPlace env w dest item).cylinder.addThing env w (addPlace env w dest item).index (some item),
          .NOERROR, 0)
      | some t =>
        if addRest env w dest item t > 0 then
          if (addCount w item).toNat ≠ addRest env w dest item t then
            ((remainderCall env w dest item fuel t).1, .NOERROR,
              if (remainderCall env w dest item fuel t).2.1 ≠ .NOERROR then (addRest env w dest item t).toNat else 0)
          else ((addPlace env w dest item).cylinder.addThing env (mergedWorld env w dest item t)
            (addPlace env w dest item).index (some item), .NOERROR, 0)
        else (mergedWorld env w dest item t, .NOERROR, 0) := by
  unfold internalAddItemLoop
  refine ite_congr rfl (fun _ => rfl) fun _ => ite_congr rfl (fun _ => rfl) fun _ => ?_
  rw [if_neg Bool.false_ne_true]
  have hmerge : (dest.queryDestination env w INDEX_WHEREEVER item none 0).destItem.filter (fun toItem =>
      (w.item item).isStackable env.items && w.equals item toItem) = mergeItem env w dest item := rfl
  dsimp only
  rw [hmerge]
  cases mergeItem env w dest item with
  | none => rfl
  | some t =>
    dsimp only
    refine ite_congr rfl (fun _ => ite_congr rfl (fun _ => ?_) fun _ => ?_) fun _ => ?_
    · rfl
    · rfl
    · rfl

theorem addRest_of_le (h : addTaken env w dest item ≤ room env.items (w.item t)) : addRest env w dest item t = 0 := by
  rw [addRest, min_of_le h, UInt32.sub_self]
  rfl

theorem addRest_of_lt (h : room env.items (w.item t) < addTaken env w dest item) :
    addRest env w dest item t =
      ((addTaken env w dest item).toNat - (room env.items (w.item t)).toNat : Nat) := by
  have hle := addTaken_le env w dest item
  have hcount : (w.item item).getItemCount < 256 := (w.item item).count.toNat_lt
  have hsub := UInt32.toNat_sub_of_le _ _ (UInt32.le_of_lt h)
  rw [addRest, min_of_lt h, Lib.toInt_toInt32_of_lt (by omega), hsub]

theorem addLevel (hw : Carried env.items w) (hd : dest.InMemory w) (hx : w.getParent item = none)
    (hxn : item < w.next) (fuel : Nat) :
    AddLevel env w dest item fuel (internalAddItemLoop env (fuel + 1) w dest item INDEX_WHEREEVER 0 false) := by
  rw [internalAddItemLoop_eq]
  split
  · rename_i hadds
    exact .refused (fun h => hadds h.adds) hadds rfl rfl
  rename_i hadds
  split
  · rename_i htakes
    exact .refused (fun h => h.takes htakes) htakes.1 rfl rfl
  rename_i htakes
  have hlet : AddLetThrough env w dest item := ⟨not_not.mp hadds, htakes⟩
  cases hm : mergeItem env w dest item with
  | none =>
    have hheld := addThing_held hw hd hx hxn hlet
    exact .added hlet hm rfl hheld.1 hheld.2
  | some t =>
    dsimp only
    by_cases hlt : room env.items (w.item t) < addTaken env w dest item
    · have hpos := (room_of_takesMore (mergeItem_spec hw hd hm).2.2.1).1
      have htaken := addTaken_le env w dest item
      have hnat := UInt32.lt_iff_toNat_lt.mp hlt
      rw [addRest_of_lt hlt, if_pos (by omega), if_pos (by rw [addCount_toNat]; omega)]
      exact .split t hlet hm hlt rfl rfl
    · have hle := UInt32.not_lt.mp hlt
      have hmerged := (mergedWorld_spec hw hd hx hm).2.2.2.2.2
      rw [min_of_le hle] at hmerged
      rw [addRest_of_le hle, if_neg (lt_irrefl _)]
      exact .merged t hlet hm hle rfl hmerged

/-! ### All calls -/

/-- The copy that stands for the remainder. -/
theorem remainder_spec (hw : Carried env.items w) (hd : dest.InMemory w) (hx : w.getParent item = none)
    (hm : mergeItem env w dest item = some t) (hlt : room env.items (w.item t) < addTaken env w dest item) :
    let rest := (mergedWorld env w dest item t).next
    let w' := remainderWorld env w dest item t
    Carried env.items w' ∧ dest.InMemory w' ∧ w'.getParent rest = none ∧ rest < w'.next ∧ ¬w'.isContainer rest ∧
      (w'.item rest).id = cloneId (w.item item).id ∧
      (w'.item rest).getItemCount = (addTaken env w dest item).toNat - (room env.items (w.item t)).toNat ∧
      ∀ top, dest.Within w top → dest.Within w' top ∧ ∀ id, w'.held env.items top id = w.held env.items top id +
        (w.item item).part env.items id (room env.items (w.item t)).toNat := by
  intro rest w'
  obtain ⟨hcarried, hnext, hcont, hplain, hholder, hheld⟩ := mergedWorld_spec hw hd hx hm
  obtain ⟨as, k, hclone⟩ := Item.clone_eq env.items ((mergedWorld env w dest item t).item item)
  have hid : ((mergedWorld env w dest item t).item item).id = (w.item item).id := by
    have := congrArg Item.id hplain
    exact this
  have hitem : w'.item rest = ((((mergedWorld env w dest item t).item item).clone env.items).setItemCount
      (UInt8.ofInt (addRest env w dest item t)).toNat) :=
    Function.update_self ..
  have hparent : (w'.item rest).m_parent = none := by
    rw [hitem, hclone]
    rfl
  have hcontainer : (w'.item rest).container = none := by
    rw [hitem, hclone]
    rfl
  have hp := hitem ▸ hparent
  have hc := hitem ▸ hcontainer
  have hnone : (mergedWorld env w dest item t).getParent rest = none :=
    Option.eq_none_iff_forall_ne_some.mpr fun k hk => absurd (hcarried.made _ k hk) (lt_irrefl _)
  have hkept : w'.holder = w.holder := by
    rw [← hholder]
    funext k
    cases k with
    | container r => exact congrFun (World.getParent_new hp hnone) r
    | player p => rfl
  refine ⟨carried_new (Item.fresh_of_none hp hc) hcarried, ?_, hparent, Nat.lt_succ_self _, ?_, ?_, ?_, fun top htop => ⟨?_, fun id => ?_⟩⟩
  · cases dest with
    | container c =>
      have hne : c ≠ rest := by
        have : c < rest := by
          rw [show rest = w.next from hnext]
          exact hd.2
        exact Nat.ne_of_lt this
      have hsame : w'.item c = (mergedWorld env w (.container c) item t).item c := Function.update_of_ne hne ..
      refine ⟨?_, Nat.lt_succ_of_lt (hnext ▸ hd.2)⟩
      rw [World.isContainer, hsame]
      exact (hcont c).trans hd.1
    | player p => trivial
  · rw [World.isContainer, hcontainer]
    exact Bool.false_ne_true
  · rw [hitem, hclone, hid]
    rfl
  · have hle := addTaken_le env w dest item
    have hcount : (w.item item).getItemCount < 256 := (w.item item).count.toNat_lt
    rw [hitem, Item.setItemCount, Item.getItemCount, addRest_of_lt hlt, World.toNat_ofInt_natCast, UInt8.toNat_ofNat']
    omega
  · unfold Cylinder.Within
    rw [hkept]
    exact htop
  · rw [show w'.held env.items top id = _ from World.held_new hp (World.getItemList_of_none hc) hcarried.forest hnone id,
      hheld top htop id, min_of_lt hlt]

/-- A call, with those that follow it, stores the whole item. -/
def AddStores (env : Env) : Nat → World → Cylinder → Ref → Prop
  | 0, _, _, _ => False
  | fuel + 1, w, dest, item => AddLetThrough env w dest item ∧
    match mergeItem env w dest item with
    | none => TakesPlace w (addPlace env w dest item)
    | some t => addCount w item ≤ (addMaxCount env w dest item).2 ∧
      (addTaken env w dest item ≤ room env.items (w.item t) ∨
        AddStores env fuel (remainderWorld env w dest item t) dest (mergedWorld env w dest item t).next)

theorem addTaken_eq (h : addCount w item ≤ (addMaxCount env w dest item).2) :
    (addTaken env w dest item).toNat = (w.item item).getItemCount := by
  rw [addTaken, show min (addCount w item) (addMaxCount env w dest item).2 = addCount w item from if_pos h,
    addCount_toNat]

theorem addTaken_lt (h : ¬addCount w item ≤ (addMaxCount env w dest item).2) :
    (addTaken env w dest item).toNat < (w.item item).getItemCount := by
  have hlt := UInt32.not_le.mp h
  rw [addTaken, min_of_le (UInt32.le_of_lt hlt), ← addCount_toNat]
  exact UInt32.lt_iff_toNat_lt.mp hlt

theorem units_of_ne {i : Item} {id : UInt16} (h : i.id ≠ id) : i.units items id = 0 := by
  rw [Item.units, Item.part, if_neg h]

theorem units_self {i : Item} (h : 1 ≤ i.getItemCount) : 1 ≤ i.units items i.id := by
  rw [Item.units, Item.part, if_pos rfl]
  split_ifs
  · exact h
  · exact le_rfl

theorem units_of_stackable {i : Item} (h : i.isStackable items) : i.units items i.id = i.getItemCount := by
  rw [Item.units, World.part_of_stackable h, if_pos rfl]

/-- A call for a remainder: an error is a refusal that changes nothing, else only the item's own id is stored, and
    not more than there is of it. -/
theorem remainderCalls (fuel : Nat) (hw : Carried env.items w) (hd : dest.InMemory w) (htop : dest.Within w top)
    (hx : w.getParent item = none) (hxn : item < w.next) (hplain : ¬w.isContainer item) (hclone : cloneId (w.item item).id = (w.item item).id)
    (hpos : 1 ≤ (w.item item).getItemCount) (hfuel : (w.item item).getItemCount ≤ fuel) :
    let res := internalAddItemLoop env fuel w dest item INDEX_WHEREEVER 0 false
    (res.2.1 ≠ .NOERROR → res.1 = w ∧ ¬AddLetThrough env w dest item) ∧
      (res.2.1 = .NOERROR → AddLetThrough env w dest item ∧
        (∀ id, id ≠ (w.item item).id → res.1.held env.items top id = w.held env.items top id) ∧
        res.1.held env.items top (w.item item).id ≤
          w.held env.items top (w.item item).id + (w.item item).units env.items (w.item item).id ∧
        (res.1.held env.items top (w.item item).id =
          w.held env.items top (w.item item).id + (w.item item).units env.items (w.item item).id ↔
          AddStores env fuel w dest item)) := by
  induction fuel generalizing w item with
  | zero => omega
  | succ fuel ih =>
    intro res
    have hunits : 1 ≤ (w.item item).units env.items (w.item item).id := units_self hpos
    rcases addLevel hw hd hx hxn fuel with ⟨h, hret, hworld, -⟩ | ⟨h, hm, hret, hheld, hlost⟩ | ⟨t, h, hm, hle, hret, hheld⟩ |
      ⟨t, h, hm, hlt, hworld, hret⟩
    · exact ⟨fun _ => ⟨hworld, h⟩, fun h' => absurd h' hret⟩
    · refine ⟨fun h' => absurd (congrArg Prod.fst hret) h', fun _ => ⟨h, ?_⟩⟩
      rw [AddStores, hm]
      simp only [h, true_and]
      by_cases hplace : TakesPlace w (addPlace env w dest item)
      · replace hheld := hheld hplace top htop
        simp only [World.brought_single hw.forest hplain] at hheld
        refine ⟨fun id hid => ?_, (hheld _).le, iff_of_true (hheld _) hplace⟩
        rw [hheld, units_of_ne hid.symm, add_zero]
      · have hworld : res.1 = w := hlost hplace
        rw [hworld]
        exact ⟨fun id _ => rfl, by omega, iff_of_false (by omega) hplace⟩
    · obtain ⟨hs, -⟩ := mergeItem_spec hw hd hm
      replace hheld := hheld top htop
      simp only [World.part_of_stackable hs] at hheld
      refine ⟨fun h' => absurd (congrArg Prod.fst hret) h', fun _ => ⟨h, fun id hid => ?_, ?_, ?_⟩⟩
      · rw [hheld, if_neg hid.symm, add_zero]
      · have hle := addTaken_le env w dest item
        rw [hheld, if_pos rfl, units_of_stackable hs]
        omega
      · rw [hheld, if_pos rfl, units_of_stackable hs, AddStores, hm, Nat.add_left_cancel_iff]
        simp only [h, true_and, hle, true_or, and_true]
        exact ⟨fun heq => of_not_not fun hmax => absurd heq (addTaken_lt hmax).ne, addTaken_eq⟩
    · obtain ⟨hs, -, htakes, -⟩ := mergeItem_spec hw hd hm
      have hroom := (room_of_takesMore htakes).1
      have hlt' := UInt32.lt_iff_toNat_lt.mp hlt
      have hle := addTaken_le env w dest item
      obtain ⟨hcarried, hmem, hfree, hnext, hcont, hid, hcount, haround⟩ := remainder_spec hw hd hx hm hlt
      obtain ⟨hwithin, hheld⟩ := haround top htop
      rw [hclone] at hid
      have hsrest : ((remainderWorld env w dest item t).item (mergedWorld env w dest item t).next).isStackable
          env.items := by
        rw [Item.isStackable, hid]
        exact hs
      have hrest := ih hcarried hmem hwithin hfree hnext hcont (by rw [hid, hclone]) (by omega) (by omega)
      rw [units_of_stackable hsrest, hcount, hid] at hrest
      simp only [World.part_of_stackable hs] at hheld
      refine ⟨fun h' => absurd (congrArg Prod.fst hret) h', fun _ => ⟨h, ?_⟩⟩
      rw [AddStores, hm, units_of_stackable hs]
      simp only [h, true_and, UInt32.not_le.mpr hlt, false_or]
      have hown := hheld (w.item item).id
      rw [if_pos rfl] at hown
      have hres : res.1 = (remainderCall env w dest item fuel t).1 := hworld
      rw [hres]
      by_cases hinner : (remainderCall env w dest item fuel t).2.1 = .NOERROR
      · obtain ⟨-, hothers, hmost, hexact⟩ := hrest.2 hinner
        change (remainderCall env w dest item fuel t).1.held env.items top _ ≤ _ at hmost
        refine ⟨fun id hne => ?_, by omega, ?_⟩
        · refine (hothers id hne).trans ?_
          rw [hheld, if_neg hne.symm, add_zero]
        · change (remainderCall env w dest item fuel t).1.held env.items top _ = _ ↔ _ at hexact
          rw [← hexact]
          refine ⟨fun heq => ?_, fun hall => ?_⟩
          · have hmax : addCount w item ≤ (addMaxCount env w dest item).2 := of_not_not fun hmax => by
              have := addTaken_lt hmax
              omega
            have := addTaken_eq hmax
            exact ⟨hmax, by omega⟩
          · obtain ⟨hmax, heq⟩ := hall
            have := addTaken_eq hmax
            omega
      · obtain ⟨hsame, hno⟩ := hrest.1 hinner
        have hsame : (remainderCall env w dest item fuel t).1 = remainderWorld env w dest item t := hsame
        rw [hsame]
        refine ⟨fun id hne => ?_, by omega, iff_of_false (by omega) fun hall => ?_⟩
        · rw [hheld, if_neg hne.symm, add_zero]
        · obtain ⟨-, hst⟩ := hall
          cases fuel with
          | zero => exact hst
          | succ fuel => exact hno hst.1

/-- What is not stored is reported: `queryMaxCount` allows all that is merged, `addThing` takes the place, and a call
    for a remainder is refused at once or stores it all under the same id. -/
def AddReports (env : Env) (w : World) (dest : Cylinder) (item : Ref) : Prop :=
  AddLetThrough env w dest item →
    match mergeItem env w dest item with
    | none => TakesPlace w (addPlace env w dest item)
    | some t => addCount w item ≤ (addMaxCount env w dest item).2 ∧
      (addTaken env w dest item ≤ room env.items (w.item t) ∨
        ¬AddLetThrough env (remainderWorld env w dest item t) dest (mergedWorld env w dest item t).next ∨
        cloneId (w.item item).id = (w.item item).id ∧ AddStores env (w.item item).getItemCount
          (remainderWorld env w dest item t) dest (mergedWorld env w dest item t).next)

/-- The call for the remainder is refused, and that is reported. -/
def AddRests (env : Env) (w : World) (dest : Cylinder) (item : Ref) : Prop :=
  match mergeItem env w dest item with
  | none => False
  | some t => room env.items (w.item t) < addTaken env w dest item ∧
    ¬AddLetThrough env (remainderWorld env w dest item t) dest (mergedWorld env w dest item t).next

/-- What a call answers, and that an error leaves all as it is. -/
theorem addAnswer_iff (fuel : Nat) (hw : Carried env.items w) (hd : dest.InMemory w) (hx : w.getParent item = none)
    (hxn : item < w.next) :
    let res := internalAddItemLoop env (fuel + 1) w dest item INDEX_WHEREEVER 0 false
    (res.2.1 = .NOERROR ↔ AddLetThrough env w dest item) ∧ (res.2.1 ≠ .NOERROR → res.1 = w ∧ res.2.2 = 0) := by
  intro res
  rcases addLevel hw hd hx hxn fuel with ⟨h, hret, hworld, hrest⟩ | ⟨h, -, hret, -, -⟩ | ⟨t, h, -, -, hret, -⟩ |
    ⟨t, h, -, -, -, hret⟩
  · exact ⟨iff_of_false hret h, fun _ => ⟨hworld, hrest⟩⟩
  · exact ⟨iff_of_true (congrArg Prod.fst hret) h, fun hne => absurd (congrArg Prod.fst hret) hne⟩
  · exact ⟨iff_of_true (congrArg Prod.fst hret) h, fun hne => absurd (congrArg Prod.fst hret) hne⟩
  · exact ⟨iff_of_true (congrArg Prod.fst hret) h, fun hne => absurd (congrArg Prod.fst hret) hne⟩

/-- What is reported is a part of a stack, and did not come in. -/
theorem addRests_spec (hw : Carried env.items w) (hd : dest.InMemory w) (hx : w.getParent item = none)
    (hxn : item < w.next) :
    let res := internalAddItem env w dest item INDEX_WHEREEVER 0 false
    res.2.2 = 0 ∧ (AddLetThrough env w dest item → ¬AddRests env w dest item) ∨
      AddLetThrough env w dest item ∧ AddRests env w dest item ∧ (w.item item).isStackable env.items ∧ 0 < res.2.2 ∧
        res.2.2 < 256 ∧ Carried env.items res.1 ∧ (res.1.item item).id = (w.item item).id ∧ ∀ top, dest.Within w top →
          res.1.held env.items top (w.item item).id + res.2.2 ≤
            w.held env.items top (w.item item).id + (w.item item).getItemCount := by
  intro res
  rcases addLevel hw hd hx hxn (w.item item).getItemCount with ⟨h, hret, hworld, hrest⟩ | ⟨h, hm, hret, -, -⟩ |
    ⟨t, h, hm, hle, hret, -⟩ | ⟨t, h, hm, hlt, hworld, hret⟩
  · exact Or.inl ⟨hrest, fun hlet => absurd hlet h⟩
  · refine Or.inl ⟨congrArg Prod.snd hret, fun _ hrests => ?_⟩
    rw [AddRests, hm] at hrests
    exact hrests
  · refine Or.inl ⟨congrArg Prod.snd hret, fun _ hrests => ?_⟩
    rw [AddRests, hm] at hrests
    exact UInt32.not_lt.mpr hle hrests.1
  · obtain ⟨hcarried, hmem, hfree, hnext, -, -, -, haround⟩ := remainder_spec hw hd hx hm hlt
    have hpos : 1 ≤ (w.item item).getItemCount :=
      Nat.one_le_iff_ne_zero.mpr fun hz => by
        have := UInt32.lt_iff_toNat_lt.mp hlt
        have := addTaken_le env w dest item
        omega
    obtain ⟨n, hn⟩ := Nat.exists_eq_add_of_le' hpos
    have hcall := addAnswer_iff n hcarried hmem hfree hnext
    rw [← hn] at hcall
    obtain ⟨hanswer, hsame⟩ : ((remainderCall env w dest item (w.item item).getItemCount t).2.1 = .NOERROR ↔ _) ∧
      ((remainderCall env w dest item (w.item item).getItemCount t).2.1 ≠ .NOERROR → _) := hcall
    have hret : res.2 = (.NOERROR, if (remainderCall env w dest item (w.item item).getItemCount t).2.1 ≠ .NOERROR then
      (addTaken env w dest item).toNat - (room env.items (w.item t)).toNat else 0) := hret
    have hrests : AddRests env w dest item ↔
        (remainderCall env w dest item (w.item item).getItemCount t).2.1 ≠ .NOERROR := by
      rw [AddRests, hm, ne_eq, hanswer]
      exact and_iff_right hlt
    by_cases hdone : (remainderCall env w dest item (w.item item).getItemCount t).2.1 = .NOERROR
    · rw [if_neg (not_not.mpr hdone)] at hret
      exact Or.inl ⟨congrArg Prod.snd hret, fun _ hr => hrests.mp hr hdone⟩
    · rw [if_pos hdone] at hret
      have hlt' := UInt32.lt_iff_toNat_lt.mp hlt
      have hle := addTaken_le env w dest item
      have hcount : (w.item item).getItemCount < 256 := (w.item item).count.toNat_lt
      have hworld : res.1 = (remainderCall env w dest item (w.item item).getItemCount t).1 := hworld
      have hleft : res.2.2 = (addTaken env w dest item).toNat - (room env.items (w.item t)).toNat := congrArg Prod.snd hret
      have hs := (mergeItem_spec hw hd hm).1
      rw [show (remainderCall env w dest item (w.item item).getItemCount t).1 = remainderWorld env w dest item t
        from (hsame hdone).1] at hworld
      have hid : ((remainderWorld env w dest item t).item item).id = (w.item item).id := by
        obtain ⟨-, hmnext, -, hplain, -⟩ := mergedWorld_spec hw hd hx hm
        have hne : item ≠ (mergedWorld env w dest item t).next := by
          rw [hmnext]
          exact Nat.ne_of_lt hxn
        rw [remainderWorld, World.item_new, Function.update_of_ne hne]
        have := congrArg Item.id hplain
        exact this
      refine Or.inr ⟨h, hrests.mpr hdone, hs, by omega, by omega, hworld ▸ hcarried, by rw [hworld, hid], fun top htop => ?_⟩
      have hheld := (haround top htop).2 (w.item item).id
      rw [World.part_of_stackable hs, if_pos rfl] at hheld
      rw [hworld]
      omega

theorem units_eq_count {i : Item} (hpos : 1 ≤ i.getItemCount) (hsize : i.getItemCount ≤ i.getStackSize items) :
    i.units items i.id = i.getItemCount := by
  by_cases hs : i.isStackable items
  · exact units_of_stackable hs
  · rw [Item.getStackSize, if_neg hs] at hsize
    rw [Item.units, World.part_of_single hs, if_pos rfl]
    omega

/-- The units that come in and those that are reported make up the item, or nothing changes, exactly when all calls
    report. -/
theorem addReports_iff (hw : Carried env.items w) (hd : dest.InMemory w) (htop : dest.Within w top)
    (hx : w.getParent item = none) (hxn : item < w.next) (hpos : 1 ≤ (w.item item).getItemCount)
    (hunits : (w.item item).units env.items (w.item item).id = (w.item item).getItemCount) :
    let res := internalAddItem env w dest item INDEX_WHEREEVER 0 false
    let id := (w.item item).id
    ((res.2.1 = .NOERROR → res.1.held env.items top id + res.2.2 = w.held env.items top id +
        ((w.item item).getItemCount + w.held env.items (.container item) id)) ∧ (res.2.1 ≠ .NOERROR → res.1 = w)) ↔
      AddReports env w dest item := by
  intro res
  dsimp only
  have hsingle : ∀ t, mergeItem env w dest item = some t → w.held env.items (.container item) (w.item item).id = 0 := fun t hm => by
    have hs := (mergeItem_spec hw hd hm).1
    have hplain : ¬w.isContainer item := fun hc => absurd hs (by rw [hw.single item hc]; exact Bool.false_ne_true)
    have : w.brought env.items item (w.item item).id = _ := World.brought_single hw.forest hplain _
    rw [World.brought] at this
    omega
  rw [AddReports]
  rcases addLevel hw hd hx hxn (w.item item).getItemCount with ⟨h, hret, hworld, -⟩ | ⟨h, hm, hret, hheld, hlost⟩ |
    ⟨t, h, hm, hle, hret, hheld⟩ | ⟨t, h, hm, hlt, hworld, hret⟩
  · exact iff_of_true ⟨fun h' => absurd h' hret, fun _ => hworld⟩ fun h' => absurd h' h
  · have hret : res.2 = (.NOERROR, 0) := hret
    simp only [hret, hm, h, true_imp_iff, ne_eq, not_true_eq_false, false_imp_iff, and_true, add_zero]
    by_cases hplace : TakesPlace w (addPlace env w dest item)
    · refine iff_of_true ((hheld hplace top htop (w.item item).id).trans ?_) hplace
      rw [World.brought, hunits]
    · have hworld : res.1 = w := hlost hplace
      rw [hworld]
      exact iff_of_false (by omega) hplace
  · obtain ⟨hs, -⟩ := mergeItem_spec hw hd hm
    have hret : res.2 = (.NOERROR, 0) := hret
    have hown : res.1.held env.items top (w.item item).id = _ := hheld top htop (w.item item).id
    rw [World.part_of_stackable hs, if_pos rfl] at hown
    simp only [hret, hm, h, true_imp_iff, ne_eq, not_true_eq_false, false_imp_iff, and_true, add_zero, hsingle t hm,
      hle, true_or, hown, Nat.add_left_cancel_iff]
    exact ⟨fun heq => of_not_not fun hmax => absurd heq (addTaken_lt hmax).ne, addTaken_eq⟩
  · obtain ⟨hs, -, htakes, -⟩ := mergeItem_spec hw hd hm
    have hroom := (room_of_takesMore htakes).1
    have hlt' := UInt32.lt_iff_toNat_lt.mp hlt
    have hle := addTaken_le env w dest item
    obtain ⟨hcarried, hmem, hfree, hnext, hcont, hid, hcount, haround⟩ := remainder_spec hw hd hx hm hlt
    obtain ⟨hwithin, hheld⟩ := haround top htop
    have hown := hheld (w.item item).id
    rw [World.part_of_stackable hs, if_pos rfl] at hown
    have hmax : (addTaken env w dest item).toNat = (w.item item).getItemCount ↔
        addCount w item ≤ (addMaxCount env w dest item).2 :=
      ⟨fun heq => of_not_not fun hmax => absurd heq (addTaken_lt hmax).ne, addTaken_eq⟩
    have hrest := remainderCalls (w.item item).getItemCount hcarried hmem hwithin hfree hnext hcont
      (by rw [hid, cloneId_cloneId]) (by omega) (by omega)
    have hworld : res.1 = (remainderCall env w dest item (w.item item).getItemCount t).1 := hworld
    have hret : res.2 = (.NOERROR, _) := hret
    simp only [hret, hm, h, true_imp_iff, ne_eq, not_true_eq_false, false_imp_iff, and_true, hsingle t hm, add_zero,
      UInt32.not_le.mpr hlt, false_or, hworld, ← hmax]
    by_cases hinner : (remainderCall env w dest item (w.item item).getItemCount t).2.1 = .NOERROR
    · obtain ⟨hlet, hothers, hmost, hexact⟩ := hrest.2 hinner
      change (remainderCall env w dest item _ t).1.held env.items top _ ≤ _ at hmost
      change (remainderCall env w dest item _ t).1.held env.items top _ = _ ↔ _ at hexact
      simp only [hinner, not_true_eq_false, if_false, add_zero, hlet, false_or]
      by_cases hclone : cloneId (w.item item).id = (w.item item).id
      · have hsrest : ((remainderWorld env w dest item t).item (mergedWorld env w dest item t).next).isStackable
            env.items := by
          rw [Item.isStackable, hid, hclone]
          exact hs
        rw [units_of_stackable hsrest, hcount, hid, hclone] at hmost hexact
        simp only [hclone, true_and, ← hexact]
        omega
      · have hnone : (remainderCall env w dest item _ t).1.held env.items top (w.item item).id = _ :=
          hothers (w.item item).id (by rw [hid]; exact Ne.symm hclone)
        simp only [hclone, false_and, and_false, iff_false, hnone]
        omega
    · obtain ⟨hsame, hno⟩ := hrest.1 hinner
      have hsame : (remainderCall env w dest item _ t).1 = remainderWorld env w dest item t := hsame
      simp only [hinner, hsame, hno, not_false_eq_true, if_true, true_or, and_true, hown]
      omega

/-- Everything is ammunition in stacks of 100. -/
def arrowEnv : Env where
  items id := { Container.tenType id with
    stackable := true, stackSize := 100, isAmmo := true, weaponType := .ammo
    slotPosition := SLOTP_RIGHT ||| SLOTP_LEFT ||| SLOTP_AMMO, plain := fun _ => rfl }
  MAX_CONTAINER := 500
  MAX_CONTAINER_DEPTH := 200
  ENABLE_PLAYER_PUT_ITEM_IN_AMMO_SLOT := false
  isOwner _ _ := true
  onPlayerEquip _ _ _ _ := true

/-- A player with 95 arrows, and 10 more. -/
def arrowWorld : World where
  item
    | 0 => ⟨3447, 95, none, some (.player 0), none⟩
    | _ + 1 => ⟨3447, 10, none, none, none⟩
  next := 2
  players p := ⟨fun s => if p = 0 ∧ s = 10 then some 0 else none, none, false, false, 40000, 9500, false⟩

theorem arrowWorld_parent (r : Ref) : arrowWorld.getParentContainer r = none := by
  cases r <;> rfl

theorem arrowWorld_carried : Carried arrowEnv.items arrowWorld where
  forest.lists := by
    constructor
    · intro x c
      have hc : arrowWorld.itemlist c = [] := by cases c <;> rfl
      rw [hc, arrowWorld_parent]
      exact iff_of_false List.not_mem_nil nofun
    · intro c
      cases c <;> exact List.nodup_nil
  forest.acyclic x := Lib.not_below_of_root (arrowWorld_parent x)
  forest.made r c h := by
    rw [arrowWorld_parent] at h
    exact nomatch h
  single r h := by
    cases r <;> exact nomatch h
  slots p s r h := by
    obtain ⟨hp, hr⟩ := Option.ite_none_right_eq_some.mp h
    cases hr
    rw [hp.1]
    rfl
  made r k h := by
    match r with
    | 0 => decide
    | _ + 1 => exact nomatch h

end Game
end CrystalServer
