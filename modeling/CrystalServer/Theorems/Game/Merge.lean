import CrystalServer.Theorems.Game.Bounds
import CrystalServer.Theorems.Game.MoveItem
import CrystalServer.Theorems.Items.Decay

/-! # Merging stacks: which items count as equal

What `Item::equals` says of two items, and what the stack that takes the units of another one keeps of both. `equals`
compares the attributes that both items carry, and passes over `STORE`. -/

namespace CrystalServer
open Lib

/-- The attributes that `Item::setID` writes. -/
def AttributeType.writtenBySetID : AttributeType → Bool
  | decaystate | duration | duration_timestamp | corpseowner => true
  | _ => false

/-! ### Equal items -/

section
variable {w : World} {a b c : Ref}

/-- Two items that `equals` does not tell apart. -/
structure World.Alike (w : World) (a b : Ref) : Prop where
  id : (w.item a).id = (w.item b).id
  store : (w.item a).isStoreItem = (w.item b).isStoreItem
  owner : w.getOwnerId a = w.getOwnerId b
  shared : ∀ type, type ≠ .store → ∀ u v, (w.item a).value? type = some u → (w.item b).value? type = some v → u = v

theorem Item.value?_eq_some {item : Item} (h : item.Ok) {type : AttributeType} {v : AttributeValue} :
    item.value? type = some v ↔ ⟨type, v⟩ ∈ item.getAttributeVector := by
  unfold Item.value?
  rw [Option.map_eq_some_iff]
  constructor
  · rintro ⟨a, ha, rfl⟩
    obtain ⟨hmem, rfl⟩ := (find?_eq_some_iff_mem Attribute.type h.types).mp ha
    exact hmem
  · intro hmem
    exact ⟨_, (find?_eq_some_iff_mem Attribute.type h.types).mpr ⟨hmem, rfl⟩, rfl⟩

/-- Two values of one type pass the comparisons of `equals` when they are the same. -/
theorem Attribute.same_iff {x y : Attribute} (hx : x.Ok) (hy : y.Ok) (h : x.type = y.type) :
    ((x.type.isAttributeInteger = true → x.getInteger = y.getInteger) ∧
      (x.type.isAttributeString = true → x.getString = y.getString)) ↔ x.value = y.value := by
  obtain ⟨t, v⟩ := x
  obtain ⟨t', v'⟩ := y
  obtain rfl : t = t' := h
  have hkinds : t.isAttributeInteger = true → t.isAttributeString = true → False := by
    cases t <;> simp [AttributeType.isAttributeInteger, AttributeType.isAttributeString]
  cases v with
  | integer n =>
    cases v' with
    | integer m => simp [Attribute.getInteger, Attribute.getString, hx.1]
    | string s => exact (hkinds hx.1 hy.1).elim
  | string s =>
    cases v' with
    | integer m => exact (hkinds hy.1 hx.1).elim
    | string s' => simp [Attribute.getInteger, Attribute.getString, hx.1]

theorem World.equals_iff (ha : (w.item a).Ok) (hb : (w.item b).Ok) : w.equals a b ↔ w.Alike a b := by
  have hloop : ((w.item a).getAttributeVector.all fun x =>
      x.type == .store || (w.item b).getAttributeVector.all fun y => x.type != y.type
        || !(x.type.isAttributeInteger && x.getInteger != y.getInteger)
          && !(x.type.isAttributeString && x.getString != y.getString)) = true ↔
      ∀ type, type ≠ .store → ∀ u v, (w.item a).value? type = some u → (w.item b).value? type = some v → u = v := by
    rw [List.all_eq_true]
    constructor
    · intro h type hs u v hu hv
      have hx := (Item.value?_eq_some ha).mp hu
      have hy := (Item.value?_eq_some hb).mp hv
      have hxy := h _ hx
      rw [Bool.or_eq_true, beq_iff_eq, or_iff_right hs, List.all_eq_true] at hxy
      have := hxy _ hy
      refine (Attribute.same_iff (ha.attributes _ hx) (hb.attributes _ hy) rfl).mp ?_
      simpa [Decidable.imp_iff_not_or] using this
    · intro h x hx
      rw [Bool.or_eq_true, beq_iff_eq, Decidable.or_iff_not_imp_left]
      intro hs
      rw [List.all_eq_true]
      intro y hy
      by_cases hxy : x.type = y.type
      · have hu : (w.item a).value? x.type = some x.value := (Item.value?_eq_some ha).mpr hx
        have hv : (w.item b).value? y.type = some y.value := (Item.value?_eq_some hb).mpr hy
        have hsame := (Attribute.same_iff (ha.attributes _ hx) (hb.attributes _ hy) hxy).mpr
          (h _ hs _ _ hu (hxy ▸ hv))
        simpa [hxy, Decidable.imp_iff_not_or] using hsame
      · simp [hxy]
  unfold World.equals
  simp only [Bool.and_eq_true, beq_iff_eq, hloop]
  constructor
  · rintro ⟨⟨⟨hid, hstore⟩, howner⟩, hshared⟩
    exact ⟨hid, hstore, howner, hshared⟩
  · rintro ⟨hid, hstore, howner, hshared⟩
    exact ⟨⟨⟨hid, hstore⟩, howner⟩, hshared⟩

namespace World.Alike

theorem refl (w : World) (a : Ref) : w.Alike a a :=
  ⟨rfl, rfl, rfl, fun _ _ _ _ hu hv => Option.some.inj (hu.symm.trans hv)⟩

theorem symm (h : w.Alike a b) : w.Alike b a :=
  ⟨h.id.symm, h.store.symm, h.owner.symm, fun type hs u v hu hv => (h.shared type hs v u hv hu).symm⟩

/-- The item in the middle carries what the outer ones share. -/
theorem trans (hab : w.Alike a b) (hbc : w.Alike b c) (hmid : ∀ type, type ≠ .store →
    (w.item a).hasAttribute type → (w.item c).hasAttribute type → (w.item b).hasAttribute type) : w.Alike a c where
  id := hab.id.trans hbc.id
  store := hab.store.trans hbc.store
  owner := hab.owner.trans hbc.owner
  shared type hs u v hu hv := by
    have hb := hmid type hs (by rw [Item.hasAttribute_eq, hu]; rfl) (by rw [Item.hasAttribute_eq, hv]; rfl)
    rw [Item.hasAttribute_eq, Option.isSome_iff_exists] at hb
    obtain ⟨m, hm⟩ := hb
    exact (hab.shared type hs u m hu hm).trans (hbc.shared type hs m v hm hv)

/-- An attribute that both items carry has one value. -/
theorem value (h : w.Alike a b) {type : AttributeType} (hs : type ≠ .store) (ha : (w.item a).hasAttribute type)
    (hb : (w.item b).hasAttribute type) : (w.item a).value? type = (w.item b).value? type := by
  rw [Item.hasAttribute_eq, Option.isSome_iff_exists] at ha hb
  obtain ⟨u, hu⟩ := ha
  obtain ⟨v, hv⟩ := hb
  rw [hu, hv, h.shared type hs u v hu hv]

end World.Alike
end

/-! ### What `updateThing` writes -/

/-- `j` is `i` after `Item::setID` and `Item::setSubType` with the id it has. -/
structure Item.Recounted (i j : Item) : Prop where
  id : j.id = i.id
  ok : i.Ok → j.Ok
  value : i.Ok → ∀ type, type.writtenBySetID = false → j.value? type = i.value? type
  custom : j.getCustomAttributeMap = i.getCustomAttributeMap

namespace Item.Recounted
variable {i j k : Item}

theorem refl (i : Item) : Recounted i i := ⟨rfl, fun h => h, fun _ _ _ => rfl, rfl⟩

theorem trans (h : Recounted i j) (h' : Recounted j k) : Recounted i k where
  id := h'.id.trans h.id
  ok hi := h'.ok (h.ok hi)
  value hi type ht := (h'.value (h.ok hi) type ht).trans (h.value hi type ht)
  custom := h'.custom.trans h.custom

/-- Nothing changes but the count, the parent and the container part. -/
theorem of_attributes (hid : j.id = i.id) (hattr : j.attributePtr = i.attributePtr) : Recounted i j := by
  have hv : j.getAttributeVector = i.getAttributeVector := by rw [getAttributeVector, hattr, getAttributeVector]
  have hc : j.getCustomAttributeMap = i.getCustomAttributeMap := by
    rw [getCustomAttributeMap, hattr, getCustomAttributeMap]
  refine ⟨hid, fun h => h.congr hv hc, fun _ type _ => ?_, hc⟩
  rw [value?, hv, value?]

theorem of_plain (h : j.plain = i.plain) : Recounted i j := by
  have hid := congrArg Item.id h
  have hattr := congrArg Item.attributePtr h
  exact of_attributes hid hattr

theorem setAttribute (i : Item) {type : AttributeType} (ht : type.writtenBySetID = true) {n : Int}
    (hn : int64_t.InRange n) : Recounted i (i.setAttribute type n) where
  id := rfl
  ok h := h.setAttribute type hn
  value _ type' ht' := by
    rw [value?_setAttribute, if_neg]
    rintro ⟨rfl, -⟩
    exact nomatch ht.symm.trans ht'
  custom := custom_setAttribute i type n

theorem removeAttribute (i : Item) {type : AttributeType} (ht : type.writtenBySetID = true) :
    Recounted i (i.removeAttribute type) where
  id := rfl
  ok h := h.removeAttribute type
  value h type' ht' := by
    rw [value?_removeAttribute h.types, if_neg]
    rintro rfl
    exact nomatch ht.symm.trans ht'
  custom := custom_removeAttribute i type

theorem setDecaying (i : Item) (decayState : UInt8) : Recounted i (i.setDecaying decayState) := by
  have hlt := decayState.toNat_lt
  have hset : Recounted i (i.setAttribute .decaystate decayState.toNat) :=
    setAttribute i rfl (inRange_int64.mpr (by omega))
  unfold Item.setDecaying
  dsimp only
  split_ifs
  · exact hset.trans (removeAttribute _ rfl)
  · exact hset

theorem setDuration (i : Item) (time : Int32) : Recounted i (i.setDuration time.toInt) := by
  have hle := time.le_toInt
  have hlt := time.toInt_lt
  exact setAttribute i rfl (inRange_int64.mpr (by omega))

theorem of_ite {c : Prop} [Decidable c] (h : Recounted i j) (h' : Recounted j k) : Recounted i (if c then k else j) := by
  split_ifs
  · exact h.trans h'
  · exact h

theorem setID (items : UInt16 → ItemType) (i : Item) : Recounted i (i.setID items i.id) := by
  unfold Item.setID
  dsimp only
  refine of_ite ?_ ((setDecaying _ _).trans (setDuration _ _))
  refine of_ite ?_ (removeAttribute _ rfl)
  exact of_ite (refl i) ((of_ite (refl _) (setDecaying _ _)).trans (removeAttribute _ rfl))

/-- A stack gets another count. -/
theorem setSubType {items : UInt16 → ItemType} (hs : i.isStackable items) (n : UInt16) :
    Recounted i ((i.setID items i.id).setSubType items n) := by
  have hid : (i.setID items i.id).id = i.id := (setID items i).id
  rw [setSubType_of_stackable (by rwa [Item.isStackable, hid])]
  exact (setID items i).trans (of_attributes rfl rfl)

end Item.Recounted

/-! ### The items that a move finds in memory -/

/-- What was in memory carries what it carried, but for what `Item::setID` writes. -/
def World.Recounted (w w' : World) : Prop := w.next ≤ w'.next ∧ ∀ r, r < w.next → (w.item r).Recounted (w'.item r)

section
variable {env : Env} {classOf : Ref → ContainerClass} {w w' w'' : World} {x : Ref}

namespace World.Recounted

theorem refl (w : World) : w.Recounted w := ⟨le_rfl, fun r _ => .refl (w.item r)⟩

theorem trans (h : w.Recounted w') (h' : w'.Recounted w'') : w.Recounted w'' :=
  ⟨h.1.trans h'.1, fun r hr => (h.2 r hr).trans (h'.2 r (hr.trans_le h.1))⟩

theorem of_plain (hn : w'.next = w.next) (h : ∀ r, (w'.item r).plain = (w.item r).plain) : w.Recounted w' :=
  ⟨hn.ge, fun r _ => .of_plain (h r)⟩

theorem new (w : World) (i : Item) : w.Recounted (w.new i) := by
  refine ⟨Nat.le_succ _, fun r hr => ?_⟩
  rw [World.item_new, Function.update_of_ne (Nat.ne_of_lt hr)]
  exact .refl _

theorem modify {f : Item → Item} (h : (w.item x).Recounted (f (w.item x))) : w.Recounted (w.modify x f) := by
  refine ⟨le_rfl, fun r _ => ?_⟩
  rw [World.item_modify]
  by_cases hr : r = x
  · rw [hr, Function.update_self]
    exact h
  · rw [Function.update_of_ne hr]
    exact .refl _

/-- A stack is counted anew. -/
theorem updateThing (k : MoveEnd) (hs : (w.item x).isStackable env.items) (count : UInt32) :
    w.Recounted (k.updateThing env w x (w.item x).id count) := by
  have hself : w.Recounted
      (w.modify x fun i => (i.setID env.items (w.item x).id).setSubType env.items count.toUInt16) :=
    modify (.setSubType hs count.toUInt16)
  rcases k with (c | p) | answers
  · change w.Recounted (Container.updateThing env.items w c x (w.item x).id count)
    unfold Container.updateThing
    split_ifs
    · have hsame := Container.updateItemWeight_same
        (w.modify x fun i => (i.setID env.items (w.item x).id).setSubType env.items count.toUInt16) c
        (-w.getWeight env.items x +
          (w.modify x fun i => (i.setID env.items (w.item x).id).setSubType env.items count.toUInt16).getWeight env.items x)
      exact hself.trans (of_plain hsame.next hsame.plain)
    · exact refl w
  · change w.Recounted (Player.updateThing env w p x (w.item x).id count)
    unfold Player.updateThing
    split
    · exact refl w
    · exact hself
  · exact hself

theorem addThing (k : MoveEnd) (index : Int) (x : Ref) : w.Recounted (k.addThing env w index x) := by
  rcases k with (c | p) | answers
  · change w.Recounted (Container.addThing env.items w c index (some x))
    unfold Container.addThing
    split_ifs
    · exact refl w
    · exact of_plain (World.internalAddThing_touches env.items w c x).next fun r => World.plain_internalAddThing r
  · change w.Recounted (Player.addThing w p index (some x))
    unfold Player.addThing
    dsimp only
    split_ifs
    · exact refl w
    · exact of_plain rfl fun r => World.plain_setParent (.player p)
  · exact refl w

theorem moveRest (k : MoveEnd) (index : Int) (item : Ref) (newCount : Int) :
    w.Recounted (MoveEnd.moveRest env w k index item newCount) := by
  unfold MoveEnd.moveRest
  split_ifs
  · exact (new w _).trans (addThing k index _)
  · exact refl w

end World.Recounted

/-- The stack that an item goes on is a stack too. -/
theorem World.stackable_of_equals {item t : Ref} (hs : (w.item item).isStackable env.items) (h : w.equals item t) :
    (w.item t).isStackable env.items := by
  rwa [Item.isStackable, ← Game.id_of_equals h]

theorem MoveEnd.recounted_moveStack (k : MoveEnd) (index : Int) {item : Ref} (hs : (w.item item).isStackable env.items)
    (m : UInt32) (toItem : Option Ref) : w.Recounted (MoveEnd.moveStack env w k index item m toItem) := by
  unfold MoveEnd.moveStack
  cases hf : toItem.filter fun t => w.equals item t with
  | none => exact .moveRest k index item _
  | some t =>
    have ht := World.stackable_of_equals hs (Option.filter_eq_some_iff.mp hf).2
    exact (World.Recounted.updateThing k ht _).trans (.moveRest k index item _)

theorem Virtual.recounted_internalAddItemLoop (fuel : Nat) (k : Cylinder) (item : Ref) (index : Int) (flags : UInt32)
    (test : Bool) : w.Recounted (Virtual.internalAddItemLoop env classOf fuel w k item index flags test).1 := by
  induction fuel generalizing w item index flags test with
  | zero => exact .refl w
  | succ fuel ih =>
    unfold Virtual.internalAddItemLoop
    dsimp only
    split
    · exact .refl w
    split
    · exact .refl w
    split
    · exact .refl w
    split
    · rename_i t hf
      obtain ⟨hs, heq⟩ := Bool.and_eq_true_iff.mp (Option.filter_eq_some_iff.mp hf).2
      have ht := World.stackable_of_equals hs heq
      have hmerged : ∀ n, w.Recounted ((Virtual.queryDestination env classOf w index item none flags k).cylinder.updateThing
          env w t (w.item t).id n) := fun n => .updateThing (.cylinder _) ht n
      split
      · split
        · exact (hmerged _).trans ((World.Recounted.new _ _).trans (ih ..))
        · exact (hmerged _).trans (.addThing (.cylinder _) _ _)
      · exact hmerged _
    · exact .addThing (.cylinder _) _ _

end

/-! ### The merged stack -/

/-- The stack `after` that took units of `moved`, and was `into` before. -/
structure Item.Joined (moved into after : Item) : Prop where
  id : after.id = moved.id
  store : after.isStoreItem = moved.isStoreItem
  owner : after.getOwnerId = moved.getOwnerId
  shared : ∀ type, type ≠ .store → type.writtenBySetID = false → moved.hasAttribute type → into.hasAttribute type →
    after.value? type = moved.value? type
  kept : ∀ type, type.writtenBySetID = false → after.value? type = into.value? type
  custom : after.getCustomAttributeMap = into.getCustomAttributeMap

theorem Item.getInteger_congr {i j : Item} {type : AttributeType} (h : i.value? type = j.value? type) :
    i.getInteger type = j.getInteger type := by
  rw [getInteger_eq, getInteger_eq, h]

theorem Item.Recounted.joined {env : Env} {w : World} {a b : Ref} {after : Item} (h : (w.item b).Recounted after)
    (hb : (w.item b).Ok) (hsingle : ∀ r, w.isContainer r → (w.item r).isStackable env.items = false)
    (hs : (w.item a).isStackable env.items) (heq : w.Alike a b) : Item.Joined (w.item a) (w.item b) after := by
  have hsb : (w.item b).isStackable env.items := by rwa [Item.isStackable, ← heq.id]
  have hna : ¬w.isContainer a := fun hc => by simp [hsingle a hc] at hs
  have hnb : ¬w.isContainer b := fun hc => by simp [hsingle b hc] at hsb
  have howner := heq.owner
  rw [Game.getOwnerId_single hna, Game.getOwnerId_single hnb] at howner
  refine ⟨h.id.trans heq.id.symm, ?_, ?_, fun type hst ht hma hmb => ?_, h.value hb, h.custom⟩
  · rw [heq.store, Item.isStoreItem, Item.getInteger_congr (h.value hb .store rfl), Item.isStoreItem]
  · rw [howner, Item.getOwnerId, Item.getInteger_congr (h.value hb .owner rfl), Item.getOwnerId]
  · rw [h.value hb type ht, heq.value hst hma hmb]

/-! ### Main result -/

namespace MoveEnd

def coinEnv : ItemEnv where
  items := purseEnv.items
  upgradeClassification _ := 0
  FORGE_MAX_ITEM_TIER := 10
  OTSYS_TIME := 1000
  getTimeNow := 1
  addUniqueItem _ := true

/-- What was set on the ten gold coins at a reference: action ids at 0 and 2, times in the store at 3 and 4, a duration at
    5 and 6. -/
def coinSetters : Ref → List Item.Setter
  | 0 => [.setAttribute .actionid 100]
  | 2 => [.setAttribute .actionid 200]
  | 3 => [.setAttribute .store 1]
  | 4 => [.setAttribute .store 2]
  | 5 | 6 => [.setDuration 60]
  | _ => []

def coinWorld : World where
  item r := Item.set coinEnv ITEM_GOLD_COIN 10 (coinSetters r)
  next := 7
  players _ := ⟨fun _ => none, none, false, false, 40000, 0, true⟩

theorem coinWorld_ok (r : Ref) : (coinWorld.item r).Ok := by
  have hshort : ∀ op ∈ coinSetters r, op.Short := by
    unfold coinSetters
    split <;> simp [Item.Setter.Short]
  exact (Item.ok_set coinEnv ITEM_GOLD_COIN 10 hshort).1

/-- A place on the ground. -/
def ground : MoveEnd := .tile ⟨none, fun _ _ _ => .NOERROR, fun _ => true, fun _ => false⟩

end MoveEnd
end CrystalServer
