import CrystalServer.Game.PlayerAddItem
import CrystalServer.Theorems.Game.Additions
import CrystalServer.Theorems.Items.Iterator

/-! # Giving items to a player

The item goes to the first container that does not say it has no room, else to the player, and a rest or the whole
item to the tile. Nothing gets lost when the containers and the player report all that they do not store, and a
container leaves no rest: what it reports is not passed on. One call after another, the player stays in order and keeps the
containers that he set, and each call brings no more than the item has. -/

namespace CrystalServer

variable {τ : Type} {env : PlayerAddEnv τ} {w : World} {p : PlayerRef} {item c : Ref} {looting : Looting}

namespace Game

/-! ### The containers that are tried -/

section
variable (env : PlayerAddEnv τ) (s : PlayerAddState τ) (p : PlayerRef) (item : Ref)

/-- The containers that the item comes to, in turn. -/
def candidates : List Ref :=
  if !collects env s.looting (s.world.item item).id then []
  else
    match findManagedContainer s.world s.looting p (getObjectCategory env (s.world.item item)) with
    | (none, _) => []
    | (some (lootContainer, fallbackConsumed), looting) =>
      lootContainers env s.world looting p lootContainer fallbackConsumed

/-- What a container answers when it is only asked. -/
def answer (w : World) (item c : Ref) : ReturnValue :=
  (internalAddItem env.toEnv w (.container c) item INDEX_WHEREEVER 0 true).2.1

/-- The first container that does not say it has no room, if it takes the item. -/
def taking (w : World) (item : Ref) (containers : List Ref) : Option Ref :=
  (containers.find? fun c => answer env w item c ≠ .CONTAINERNOTENOUGHROOM).filter fun c =>
    answer env w item c = .NOERROR

/-- The item comes in whole, up to a rest that the player passes on under the same id. -/
def Kept : Prop :=
  match taking env s.world item (candidates env s p item) with
  | some c => AddReports env.toEnv s.world (.container c) item ∧ ¬AddRests env.toEnv s.world (.container c) item
  | none => AddReports env.toEnv s.world (.player p) item ∧
    (AddLetThrough env.toEnv s.world (.player p) item → AddRests env.toEnv s.world (.player p) item →
      cloneId (s.world.item item).id = (s.world.item item).id)

end

/-- The units that the player carries, and those on his tile. -/
def unitsAround (env : PlayerAddEnv τ) (units : τ → UInt16 → Nat) (p : PlayerRef) (s : PlayerAddState τ) (id : UInt16) : Nat :=
  s.world.held env.items (.player p) id + units s.tile id

/-- A tile that accepts everything. -/
def TileTakes (env : PlayerAddEnv τ) (units : τ → UInt16 → Nat) : Prop :=
  ∀ (w : World) (tile : τ) (x : Ref), Carried env.items w → w.getParent x = none → x < w.next →
    (env.addToTile w tile x).2 = .NOERROR ∧
      ∀ id, units (env.addToTile w tile x).1 id = units tile id + w.brought env.items x id

theorem heldBy_iterator (hw : Carried env.items w) (hc : HeldBy w p c) :
    ∀ k ∈ (Container.iterator env.toEnv w c).filter w.isContainer, HeldBy w p k := fun k hk => by
  obtain ⟨hmem, hcon⟩ := List.mem_filter.mp hk
  obtain ⟨hb, c', hc'⟩ := (Container.iterator_spec env.toEnv c hw.forest).2 k hmem
  have hpar := World.getParent_of_getParentContainer ((hw.forest.lists.mem_iff k c').mp hc')
  exact ⟨⟨hcon, hw.made k _ hpar⟩, Relation.TransGen.trans (World.below_holder_of_below hb) hc.2⟩

theorem heldBy_available (hw : Carried env.items w) (hc : HeldBy w p c) {last : Option Ref}
    (hlast : ∀ k, last = some k → HeldBy w p k) :
    let res := availableContainers w (Container.iterator env.toEnv w c) last
    (∀ k ∈ res.1, HeldBy w p k) ∧ ∀ k, res.2 = some k → HeldBy w p k := by
  have hsub := heldBy_iterator hw hc
  have hleft : ∀ k, ((Container.iterator env.toEnv w c).filter w.isContainer).getLast?.or last = some k →
      HeldBy w p k := fun k hk => by
    rcases Option.or_eq_some_iff.mp hk with hk | ⟨-, hk⟩
    · exact hsub k (List.mem_of_getLast? hk)
    · exact hlast k hk
  unfold availableContainers
  dsimp only
  cases hcur : (((Container.iterator env.toEnv w c).filter w.isContainer).getLast?.or last).bind fun k =>
    (w.itemlist k).getLast? with
  | none => exact ⟨hsub, hleft⟩
  | some cur =>
    obtain ⟨k, hk, hlist⟩ := Option.bind_eq_some_iff.mp hcur
    refine ⟨fun r hr => ?_, nofun⟩
    rcases List.mem_append.mp hr with hr | hr
    · exact hsub r hr
    · obtain ⟨hr, hcon⟩ := List.mem_filter.mp hr
      rw [List.mem_singleton.mp hr] at hcon ⊢
      exact heldBy_nested hw (hleft k hk) (List.mem_of_getLast? hlist) hcon

theorem heldBy_mainBackpack (hw : Carried env.items w) (h : mainBackpack w p = some c) : HeldBy w p c := by
  obtain ⟨hslot, hcon⟩ := Option.filter_eq_some_iff.mp h
  obtain ⟨s, hs⟩ : ∃ s, (w.players p).inventory s = some c := by
    unfold Player.getInventoryItem at hslot
    dsimp only at hslot
    split_ifs at hslot
    exact ⟨_, hslot⟩
  exact heldBy_slot hw hs hcon

theorem heldBy_lootContainers (looting : Looting) (hw : Carried env.items w) (hc : HeldBy w p c) (fallbackConsumed : Bool) :
    ∀ k ∈ lootContainers env w looting p c fallbackConsumed, HeldBy w p k := by
  obtain ⟨hfirst, hlast⟩ := heldBy_available hw hc (show ∀ k, none = some k → HeldBy w p k from nofun)
  intro k hk
  unfold lootContainers at hk
  dsimp only at hk
  rcases List.mem_cons.mp hk with rfl | hk
  · exact hc
  rcases List.mem_append.mp hk with hk | hk
  · exact hfirst k hk
  split_ifs at hk
  · exact absurd hk List.not_mem_nil
  cases hmain : mainBackpack w p with
  | none =>
    rw [hmain] at hk
    exact absurd hk List.not_mem_nil
  | some main =>
    rw [hmain] at hk
    have hheld := heldBy_mainBackpack hw hmain
    rcases List.mem_cons.mp hk with rfl | hk
    · exact hheld
    · exact (heldBy_available hw hheld hlast).1 k hk

/-! ### The rounds -/

/-- A call that only asks goes through the same queries. -/
theorem answer_eq (w : World) (item c : Ref) :
    answer env w item c = (internalAddItem env.toEnv w (.container c) item INDEX_WHEREEVER 0 false).2.1 := by
  let place := addPlace env.toEnv w (.container c) item
  let adds := place.cylinder.queryAdd env.toEnv w place.index item (addCount w item) 0
  let takes := (addMaxCount env.toEnv w (.container c) item).1
  have htest : answer env w item c = if adds ≠ .NOERROR then adds
      else if takes ≠ .NOERROR ∧ ((Cylinder.container c).getItem.any fun r => (w.item r).id != ITEM_REWARD_CONTAINER)
        then takes else .NOERROR := by
    unfold answer internalAddItem internalAddItemLoop
    dsimp only
    rw [apply_ite (fun res : World × ReturnValue × Nat => res.2.1),
      apply_ite (fun res : World × ReturnValue × Nat => res.2.1)]
    rfl
  rw [htest, internalAddItem, internalAddItemLoop_eq]
  split
  · rfl
  split
  · rfl
  cases mergeItem env.toEnv w (.container c) item with
  | none => rfl
  | some t =>
    dsimp only
    split_ifs <;> rfl

theorem lootRounds_cons (w : World) (item c : Ref) (l : List Ref) (ret : ReturnValue) :
    let added := (internalAddItem env.toEnv w (.container c) item INDEX_WHEREEVER 0 false).1
    lootRounds env item (c :: l) w ret = if answer env w item c ≠ .CONTAINERNOTENOUGHROOM then
      (added, answer env w item c) else lootRounds env item l added (answer env w item c) := by
  rw [answer_eq]
  rfl

theorem taking_cons (w : World) (item c : Ref) (l : List Ref) : taking env w item (c :: l) =
    if answer env w item c ≠ .CONTAINERNOTENOUGHROOM then if answer env w item c = .NOERROR then some c else none
    else taking env w item l := by
  unfold taking
  rw [List.find?_cons]
  by_cases hroom : answer env w item c = .CONTAINERNOTENOUGHROOM
  · simp only [hroom, ne_eq, not_true_eq_false, decide_false, if_false]
  · simp only [hroom, ne_eq, not_false_eq_true, decide_true, if_true, Option.filter_some, decide_eq_true_eq]

theorem lootRounds_spec (hw : Carried env.items w) (hx : w.getParent item = none) (hxn : item < w.next) {l : List Ref}
    (hl : ∀ c ∈ l, HeldBy w p c) {ret : ReturnValue} (hret : ret ≠ .NOERROR) :
    match taking env w item l with
    | some c => HeldBy w p c ∧ AddLetThrough env.toEnv w (.container c) item ∧ lootRounds env item l w ret =
      ((internalAddItem env.toEnv w (.container c) item INDEX_WHEREEVER 0 false).1, .NOERROR)
    | none => (lootRounds env item l w ret).1 = w ∧ (lootRounds env item l w ret).2 ≠ .NOERROR := by
  induction l generalizing ret with
  | nil => exact ⟨rfl, hret⟩
  | cons c l ih =>
    have hc := hl c List.mem_cons_self
    obtain ⟨hlet, hsame⟩ := addAnswer_iff (w.item item).getItemCount hw hc.1 hx hxn
    rw [← internalAddItem, ← answer_eq] at hlet hsame
    rw [lootRounds_cons, taking_cons]
    by_cases hroom : answer env w item c = .CONTAINERNOTENOUGHROOM
    · have hworld := (hsame (by rw [hroom]; nofun)).1
      rw [if_neg (not_not.mpr hroom), if_neg (not_not.mpr hroom), hworld, hroom]
      exact ih (fun k hk => hl k (List.mem_cons_of_mem c hk)) nofun
    rw [if_pos hroom, if_pos hroom]
    by_cases hok : answer env w item c = .NOERROR
    · rw [if_pos hok]
      exact ⟨hc, hlet.mp hok, by rw [hok]⟩
    · rw [if_neg hok]
      exact ⟨(hsame hok).1, hok⟩

/-- The player holds his containers for obtained items. -/
def Managed (w : World) (looting : Looting) (p : PlayerRef) : Prop :=
  ∀ category c, looting.m_managedContainers category = some c → HeldBy w p c

theorem heldBy_managed {category : ObjectCategory} (hm : Managed w looting p)
    (h : looting.getManagedContainer category = some c) : HeldBy w p c := by
  rcases Option.or_eq_some_iff.mp h with h | ⟨-, h⟩
  · exact hm _ c h
  · obtain ⟨-, h⟩ := Option.ite_none_right_eq_some.mp h
    exact hm _ c h

theorem heldBy_found {category : ObjectCategory} {fallbackConsumed : Bool} {looting' : Looting}
    (hw : Carried env.items w) (hm : Managed w looting p)
    (h : findManagedContainer w looting p category = (some (c, fallbackConsumed), looting')) : HeldBy w p c := by
  unfold findManagedContainer at h
  cases hmanaged : looting.getManagedContainer category with
  | some k =>
    rw [hmanaged] at h
    cases h
    exact heldBy_managed hm hmanaged
  | none =>
    rw [hmanaged] at h
    dsimp only at h
    split_ifs at h
    · cases hmain : mainBackpack w p with
      | none =>
        rw [hmain] at h
        exact nomatch h
      | some main =>
        rw [hmain] at h
        cases h
        exact heldBy_mainBackpack hw hmain
    · exact nomatch h

theorem collect_spec {s : PlayerAddState τ} (hw : Carried env.items s.world) (hm : Managed s.world s.looting p)
    (hx : s.world.getParent item = none) (hxn : item < s.world.next) :
    let res := internalCollectManagedItems env s.world s.looting p item (getObjectCategory env (s.world.item item))
    match taking env s.world item (candidates env s p item) with
    | some c => HeldBy s.world p c ∧ AddLetThrough env.toEnv s.world (.container c) item ∧ res.2.2 = .NOERROR ∧
      res.1 = (internalAddItem env.toEnv s.world (.container c) item INDEX_WHEREEVER 0 false).1
    | none => res.1 = s.world ∧ res.2.2 ≠ .NOERROR := by
  unfold internalCollectManagedItems candidates
  by_cases hcol : !collects env s.looting (s.world.item item).id
  · rw [if_pos hcol, if_pos hcol]
    exact ⟨rfl, nofun⟩
  rw [if_neg hcol, if_neg hcol]
  cases hfound : findManagedContainer s.world s.looting p (getObjectCategory env (s.world.item item)) with
  | mk found looting =>
    cases found with
    | none => exact ⟨rfl, nofun⟩
    | some found =>
      obtain ⟨lootContainer, fallbackConsumed⟩ := found
      have hheld := heldBy_lootContainers looting hw (heldBy_found hw hm hfound) fallbackConsumed
      have hrounds := lootRounds_spec hw hx hxn hheld (show ReturnValue.CONTAINERNOTENOUGHROOM ≠ .NOERROR from nofun)
      dsimp only at hrounds ⊢
      unfold processLootItems
      cases htake : taking env s.world item (lootContainers env s.world looting p lootContainer fallbackConsumed) with
      | none =>
        rw [htake] at hrounds
        exact hrounds
      | some c =>
        rw [htake] at hrounds
        obtain ⟨hc, hlet, hres⟩ := hrounds
        dsimp only
        rw [hres]
        exact ⟨hc, hlet, rfl, rfl⟩

/-! ### The player and the tile -/

theorem queryAdd_wherever {env : Env} {index : Int} (h : index = 0 ∨ index = INDEX_WHEREEVER) (count : UInt32) :
    Player.queryAdd env w p index item count 0 ≠ .NOERROR := by
  have hswitch : Player.queryAddSwitch env w p index item count = .NOTENOUGHROOM := by
    rcases h with rfl | rfl
    · rfl
    · rfl
  have hflags : hasBitSet FLAG_CHILDISOWNER 0 = false := by decide
  unfold Player.queryAdd
  simp only [hswitch, hflags, Bool.false_eq_true, if_false]
  split_ifs <;> nofun

/-- Without a place the player refuses. -/
theorem internalAddItem_noplace {env : Env} {index : Int} (hindex : index = 0 ∨ index = INDEX_WHEREEVER)
    (h : (Cylinder.player p).queryDestination env w index item none 0 = ⟨.player p, index, none⟩) :
    let res := internalAddItem env w (.player p) item index 0 false
    res.1 = w ∧ res.2.2 = 0 ∧ res.2.1 ≠ .NOERROR := by
  have hadd : Player.queryAdd env w p index item (.ofNat (w.item item).getItemCount) 0 ≠ .NOERROR :=
    queryAdd_wherever hindex _
  unfold internalAddItem internalAddItemLoop
  rw [h]
  dsimp only
  split
  · exact ⟨rfl, rfl, hadd⟩
  · rename_i hok
    exact absurd hadd hok

/-- No slot and anywhere are the same for a player. -/
theorem internalAddItem_slot (env : Env) (w : World) (p : PlayerRef) (item : Ref) :
    let res := internalAddItem env w (.player p) item CONST_SLOT_WHEREEVER 0 false
    let res' := internalAddItem env w (.player p) item INDEX_WHEREEVER 0 false
    res.1 = res'.1 ∧ res.2.2 = res'.2.2 ∧ (res.2.1 = .NOERROR ↔ res'.2.1 = .NOERROR) := by
  have hslot := queryDestination_wherever env w p item (.inl (rfl : CONST_SLOT_WHEREEVER = 0))
  have hany := queryDestination_wherever env w p item (.inr (rfl : INDEX_WHEREEVER = INDEX_WHEREEVER))
  have same : (Cylinder.player p).queryDestination env w CONST_SLOT_WHEREEVER item none 0 =
      (Cylinder.player p).queryDestination env w INDEX_WHEREEVER item none 0 →
      internalAddItem env w (.player p) item CONST_SLOT_WHEREEVER 0 false =
        internalAddItem env w (.player p) item INDEX_WHEREEVER 0 false := fun h => by
    unfold internalAddItem internalAddItemLoop
    rw [h]
  cases hslots : Player.queryDestinationSlots env w p item 0 (List.range' 1 10) [] with
  | inl place =>
    rw [hslots] at hslot hany
    rw [same (hslot.trans hany.symm)]
    exact ⟨rfl, rfl, Iff.rfl⟩
  | inr containers =>
    rw [hslots] at hslot hany
    dsimp only at hslot hany
    cases hfound : Player.queryDestinationContainers env w p item 0 (w.next + 1) containers with
    | some place =>
      rw [hfound] at hslot hany
      rw [same (hslot.trans hany.symm)]
      exact ⟨rfl, rfl, Iff.rfl⟩
    | none =>
      rw [hfound] at hslot hany
      obtain ⟨hw₀, hr₀, he₀⟩ := internalAddItem_noplace (.inl rfl) hslot
      obtain ⟨hw₁, hr₁, he₁⟩ := internalAddItem_noplace (.inr rfl) hany
      exact ⟨hw₀.trans hw₁.symm, hr₀.trans hr₁.symm, iff_of_false he₀ he₁⟩

/-- What is created of an id for a rest: all of it is of this id, or nothing. -/
theorem units_createItem {items : UInt16 → ItemType} {id : UInt16} (hs : (items id).stackable) {n : Nat} (hpos : 0 < n) (hn : n < 256) :
    (Item.CreateItem items id (.ofNat n)).units items id = if cloneId id = id then n else 0 := by
  have htoNat : (UInt16.ofNat n).toNat = n := by
    rw [UInt16.toNat_ofNat', Nat.mod_eq_of_lt (by omega)]
  have hne : UInt16.ofNat n ≠ 0 := fun h => by
    rw [h] at htoNat
    exact hpos.ne htoNat
  have hmake : Item.CreateItem items id (.ofNat n) = Item.make items (cloneId id) (.ofNat n) := by
    unfold Item.CreateItem
    dsimp only
    rw [if_neg fun h => hne h.2]
    rfl
  obtain ⟨as, k, he⟩ := Item.make_eq items (cloneId id) (.ofNat n)
  have hid : (Item.make items (cloneId id) (.ofNat n)).id = cloneId id := by rw [he]
  rw [hmake]
  split_ifs with hclone
  · have hcount : (Item.make items id (.ofNat n)).getItemCount = _ :=
      Item.count_make hs (htoNat.symm ▸ hpos) (htoNat.symm ▸ hn)
    rw [hclone] at hid ⊢
    rw [Item.units, World.part_of_stackable (by rw [Item.isStackable, hid]; exact hs), if_pos hid, hcount, htoNat]
  · exact units_of_ne (by rw [hid]; exact hclone)

/-- The steps of the call. -/
theorem internalPlayerAddItem_eq (s : PlayerAddState τ) :
    let collected := internalCollectManagedItems env s.world s.looting p item (getObjectCategory env (s.world.item item))
    let added := if collected.2.2 ≠ .NOERROR then
      internalAddItem env.toEnv collected.1 (.player p) item CONST_SLOT_WHEREEVER 0 false
      else (collected.1, collected.2.2, 0)
    let s' := addRemainder env { s with world := added.1, looting := collected.2.1 } (added.1.item item).id added.2.2
    internalPlayerAddItem env s p item true CONST_SLOT_WHEREEVER = if added.2.1 ≠ .NOERROR then
      ({ s' with tile := (env.addToTile s'.world s'.tile item).1 }, (env.addToTile s'.world s'.tile item).2)
      else (s', added.2.1) := by
  intro collected added s'
  unfold internalPlayerAddItem
  rw [if_pos rfl]
  refine ite_congr (propext (and_iff_left rfl)) (fun _ => rfl) fun _ => rfl

/-- A rest comes to the tile. -/
theorem addRemainder_units {units : τ → UInt16 → Nat} (ht : TileTakes env units) {s : PlayerAddState τ}
    (hw : Carried env.items s.world) (id : UInt16) {n : Nat} (hpos : 0 < n) (id' : UInt16) :
    unitsAround env units p (addRemainder env s id n) id' =
      unitsAround env units p s id' + (Item.CreateItem env.items id (.ofNat n)).units env.items id' := by
  obtain ⟨as, k, hmade⟩ := Item.createItem_eq env.items id (.ofNat n)
  have hi : (Item.CreateItem env.items id (.ofNat n)).Fresh env.items :=
    Item.fresh_of_none (by rw [hmade]) (by rw [hmade])
  obtain ⟨hfree, -, hheld, hbrought⟩ := fresh_spec hi hw
  obtain ⟨-, hunits⟩ := ht _ s.tile _ (carried_new hi hw) hfree (Nat.lt_succ_self _)
  unfold unitsAround addRemainder
  rw [if_pos (by omega)]
  dsimp only
  rw [hheld, hunits, hbrought, add_assoc]

theorem addRemainder_spec {units : τ → UInt16 → Nat} (ht : TileTakes env units) {s : PlayerAddState τ}
    (hw : Carried env.items s.world) {id : UInt16} (hs : (env.items id).stackable) {n : Nat} (hpos : 0 < n) (hn : n < 256) :
    unitsAround env units p (addRemainder env s id n) id =
      unitsAround env units p s id + if cloneId id = id then n else 0 := by
  rw [addRemainder_units ht hw id hpos, units_createItem hs hpos hn]

/-- What comes in below a cylinder is kept just when the destination reports it and leaves no rest. -/
theorem comes_whole_iff {env : Env} {dest top : Cylinder} (hw : Carried env.items w) (hd : dest.InMemory w)
    (htop : dest.Within w top) (hlet : AddLetThrough env w dest item) (hx : w.getParent item = none)
    (hxn : item < w.next) (hpos : 1 ≤ (w.item item).getItemCount)
    (hunits : (w.item item).units env.items (w.item item).id = (w.item item).getItemCount) :
    let id := (w.item item).id
    (internalAddItem env w dest item INDEX_WHEREEVER 0 false).1.held env.items top id = w.held env.items top id +
        ((w.item item).getItemCount + w.held env.items (.container item) id) ↔
      AddReports env w dest item ∧ ¬AddRests env w dest item := by
  dsimp only
  have hreports := addReports_iff hw hd htop hx hxn hpos hunits
  have hanswer := (addAnswer_iff (w.item item).getItemCount hw hd hx hxn).1.mpr hlet
  rw [← internalAddItem] at hanswer
  simp only [hanswer, ne_eq, not_true_eq_false, false_imp_iff, true_imp_iff, and_true] at hreports
  rcases addRests_spec hw hd hx hxn with ⟨hzero, hrests⟩ | ⟨-, hrests, -, hleft, -, -, -, hle⟩
  · rw [hzero, add_zero] at hreports
    rw [hreports]
    exact (and_iff_left (hrests hlet)).symm
  · have hle := hle top htop
    refine iff_of_false (fun heq => ?_) fun h => h.2 hrests
    rw [heq] at hle
    omega

/-- What comes to the player is kept just when he reports it and a rest goes on under the same id. -/
theorem player_keeps_iff {units : τ → UInt16 → Nat} (ht : TileTakes env units) {s : PlayerAddState τ}
    (hw : Carried env.items s.world) (hx : s.world.getParent item = none)
    (hxn : item < s.world.next) (hpos : 1 ≤ (s.world.item item).getItemCount)
    (hunits : (s.world.item item).units env.items (s.world.item item).id = (s.world.item item).getItemCount)
    (hlet : AddLetThrough env.toEnv s.world (.player p) item) :
    let added := internalAddItem env.toEnv s.world (.player p) item INDEX_WHEREEVER 0 false
    let id := (s.world.item item).id
    unitsAround env units p (addRemainder env { s with world := added.1, looting := looting } (added.1.item item).id
      added.2.2) id = unitsAround env units p s id +
        ((s.world.item item).getItemCount + s.world.held env.items (.container item) id) ↔
      AddReports env.toEnv s.world (.player p) item ∧
        (AddRests env.toEnv s.world (.player p) item → cloneId id = id) := by
  dsimp only
  have hreports := addReports_iff hw (Cylinder.inMemory_player s.world p) (.inl rfl) hx hxn hpos hunits
  have hanswer := (addAnswer_iff (s.world.item item).getItemCount hw (Cylinder.inMemory_player s.world p) hx hxn).1.mpr hlet
  have hcases := addRests_spec hw (Cylinder.inMemory_player s.world p) hx hxn
  rw [← internalAddItem] at hanswer
  simp only [hanswer, ne_eq, not_true_eq_false, false_imp_iff, true_imp_iff, and_true] at hreports
  dsimp only at hcases
  generalize internalAddItem env.toEnv s.world (.player p) item INDEX_WHEREEVER 0 false = added at hreports hcases ⊢
  rcases hcases with ⟨hzero, hrests⟩ | ⟨-, hrests, hs, hleft, hlt, hcarried, hid, hle⟩
  · rw [hzero, add_zero] at hreports
    rw [hzero, ← hreports, and_iff_left fun h => absurd h (hrests hlet)]
    dsimp only [unitsAround, addRemainder]
    rw [if_neg (not_not.mpr rfl)]
    dsimp only
    omega
  · have hle := hle (.player p) (.inl rfl)
    have hadd := addRemainder_spec (p := p) ht (s := { s with world := added.1, looting := looting }) hcarried hs hleft hlt
    rw [hid, hadd, ← hreports]
    simp only [hrests, true_imp_iff]
    dsimp only [unitsAround]
    split_ifs with hclone
    · rw [and_iff_left hclone]
      omega
    · refine iff_of_false (fun heq => ?_) fun h => hclone h.2
      omega

/-- What the player and his tile have more of is the item, or nothing when it is refused, exactly when it is kept. -/
theorem placed_iff_kept {units : τ → UInt16 → Nat} (ht : TileTakes env units) {s : PlayerAddState τ}
    (hw : Carried env.items s.world) (hm : Managed s.world s.looting p) (hx : s.world.getParent item = none)
    (hxn : item < s.world.next) (hpos : 1 ≤ (s.world.item item).getItemCount)
    (hunits : (s.world.item item).units env.items (s.world.item item).id = (s.world.item item).getItemCount) :
    let res := internalPlayerAddItem env s p item true CONST_SLOT_WHEREEVER
    let id := (s.world.item item).id
    ((res.2 = .NOERROR → unitsAround env units p res.1 id = unitsAround env units p s id +
        ((s.world.item item).getItemCount + s.world.held env.items (.container item) id)) ∧
      (res.2 ≠ .NOERROR → unitsAround env units p res.1 id = unitsAround env units p s id)) ↔ Kept env s p item := by
  intro res
  dsimp only
  have hcollect := collect_spec hw hm hx hxn
  have heq : res = _ := internalPlayerAddItem_eq s
  unfold Kept
  cases htake : taking env s.world item (candidates env s p item) with
  | some c =>
    rw [htake] at hcollect
    obtain ⟨hc, hlet, hret, hworld⟩ := hcollect
    simp only [hret, ne_eq, not_true_eq_false, if_false, addRemainder, hworld] at heq
    simp only [heq, ne_eq, not_true_eq_false, false_imp_iff, true_imp_iff, and_true]
    refine Iff.trans ?_ (comes_whole_iff hw hc.1 (.inr hc.2) hlet hx hxn hpos hunits)
    dsimp only [unitsAround]
    omega
  | none =>
    rw [htake] at hcollect
    obtain ⟨hworld, hret⟩ := hcollect
    obtain ⟨hslot, hleft, hok⟩ := internalAddItem_slot env.toEnv s.world p item
    obtain ⟨hanswer, hsame⟩ := addAnswer_iff (s.world.item item).getItemCount hw (Cylinder.inMemory_player s.world p) hx hxn
    rw [← internalAddItem] at hanswer hsame
    simp only [if_pos hret, hworld, hslot, hleft] at heq
    by_cases hlet : AddLetThrough env.toEnv s.world (.player p) item
    · rw [if_neg (not_not.mpr (hok.mpr (hanswer.mpr hlet)))] at heq
      have hret' := hok.mpr (hanswer.mpr hlet)
      simp only [heq, hret', ne_eq, not_true_eq_false, false_imp_iff, true_imp_iff, and_true]
      exact (player_keeps_iff ht hw hx hxn hpos hunits hlet).trans (and_congr_right fun _ => (imp_iff_right hlet).symm)
    · have herror := fun h => hlet (hanswer.mp h)
      obtain ⟨hworld', hzero⟩ := hsame herror
      rw [if_pos fun h => herror (hok.mp h), hworld', hzero] at heq
      obtain ⟨haccepts, htaken⟩ := ht s.world s.tile item hw hx hxn
      have hret' : res.2 = .NOERROR := by
        rw [heq]
        exact haccepts
      have hkept : res.1.world = s.world := by
        rw [heq]
        rfl
      have htile : res.1.tile = (env.addToTile s.world s.tile item).1 := by
        rw [heq]
        rfl
      have hcount : s.world.brought env.items item (s.world.item item).id =
          (s.world.item item).getItemCount + s.world.held env.items (.container item) (s.world.item item).id := by
        rw [World.brought, hunits]
      refine iff_of_true ⟨fun _ => ?_, fun h => absurd hret' h⟩
        ⟨fun h => absurd h hlet, fun h => absurd h hlet⟩
      dsimp only [unitsAround]
      rw [hkept, htile, htaken, hcount, add_assoc]

/-- A tile that keeps count of what comes to it, for things that are all arrows. -/
def arrowTileEnv : PlayerAddEnv (UInt16 → Nat) where
  toEnv := arrowEnv
  AUTOBANK := false
  type _ := .other
  addToTile w tile x := (fun id => tile id + w.brought arrowEnv.items x id, .NOERROR)

/-- A player with 95 arrows and no container, on a tile with nothing. -/
def arrowState : PlayerAddState (UInt16 → Nat) where
  world := arrowWorld
  looting := ⟨true, fun _ => none, false, .SKIPPEDLOOT, []⟩
  tile _ := 0

theorem arrowTile_takes : TileTakes arrowTileEnv fun tile => tile := fun _ _ _ _ _ _ => ⟨rfl, fun _ => rfl⟩

theorem arrowState_managed : Managed arrowState.world arrowState.looting 0 := fun _ _ h => nomatch h

end Game
end CrystalServer

namespace CrystalServer
namespace Game

variable {τ : Type} {env : PlayerAddEnv τ} {w : World} {p : PlayerRef} {item c : Ref} {looting : Looting}

/-! ### The containers that are set -/

theorem managed_found (hw : Carried env.items w) (hm : Managed w looting p) (category : ObjectCategory) :
    Managed w (findManagedContainer w looting p category).2 p := by
  unfold findManagedContainer
  cases looting.getManagedContainer category with
  | some c => exact hm
  | none =>
    dsimp only
    split_ifs
    · cases hmain : mainBackpack w p with
      | none => exact hm
      | some main =>
        intro category' c hc
        dsimp only at hc
        by_cases hdefault : category' = .DEFAULT
        · rw [hdefault, Function.update_self] at hc
          exact heldBy_mainBackpack hw (hmain.trans hc)
        · rw [Function.update_of_ne hdefault] at hc
          exact hm category' c hc
    · exact hm

theorem collect_keeps {s : PlayerAddState τ} (hw : Carried env.items s.world) (hm : Managed s.world s.looting p)
    (hx : s.world.getParent item = none) (hxn : item < s.world.next) :
    let res := internalCollectManagedItems env s.world s.looting p item (getObjectCategory env (s.world.item item))
    Keeps s.world res.1 item ∧ Orders env.items s.world res.1 ∧ Managed res.1 res.2.1 p := by
  intro res
  have hworld : Keeps s.world res.1 item ∧ Orders env.items s.world res.1 := by
    have hcollect := collect_spec hw hm hx hxn
    cases htake : taking env s.world item (candidates env s p item) with
    | some c =>
      rw [htake] at hcollect
      obtain ⟨hc, -, -, hadded⟩ := hcollect
      rw [show res.1 = _ from hadded]
      exact addLoop_keeps _ hw hc.1 hx hxn
    | none =>
      rw [htake] at hcollect
      rw [show res.1 = _ from hcollect.1]
      exact ⟨Keeps.refl _ item, hw, id⟩
  have hlooting : Managed s.world res.2.1 p := by
    have hfound := managed_found hw hm (getObjectCategory env (s.world.item item))
    change Managed s.world (internalCollectManagedItems env _ _ _ _ _).2.1 p
    unfold internalCollectManagedItems
    split_ifs
    · exact hm
    · cases hfind : findManagedContainer s.world s.looting p (getObjectCategory env (s.world.item item)) with
      | mk found looting =>
        rw [hfind] at hfound
        cases found with
        | none => exact hfound
        | some found => exact hfound
  exact ⟨hworld.1, hworld.2, fun category c hc => hworld.1.heldBy (hlooting category c hc)⟩

/-! ### One item -/

/-- A rest is of the id of the item, and of no other. -/
theorem units_rest {items : UInt16 → ItemType} {id : UInt16} (hs : (items id).stackable) (hclone : cloneId id = id) {n : Nat} (hpos : 0 < n)
    (hn : n < 256) (id' : UInt16) :
    (Item.CreateItem items id (.ofNat n)).units items id' = if id = id' then n else 0 := by
  by_cases hid : id = id'
  · rw [← hid, units_createItem hs hpos hn, if_pos hclone, if_pos rfl]
  · obtain ⟨as, k, hmade⟩ := Item.createItem_eq items id (.ofNat n)
    have hmadeId : (Item.CreateItem items id (.ofNat n)).id = id := by
      rw [hmade]
      exact hclone
    rw [if_neg hid, units_of_ne (by rw [hmadeId]; exact hid)]

theorem addRemainder_keeps {s : PlayerAddState τ} (hw : Carried env.items s.world) (id : UInt16) (n : Nat) (x : Ref) :
    Keeps s.world (addRemainder env s id n).world x ∧ Orders env.items s.world (addRemainder env s id n).world ∧
      (addRemainder env s id n).looting = s.looting := by
  unfold addRemainder
  split_ifs
  · obtain ⟨as, k, hmade⟩ := Item.createItem_eq env.items id (.ofNat n)
    exact ⟨keeps_new (by rw [hmade]) hw x, orders_new (Item.fresh_of_none (by rw [hmade]) (by rw [hmade])) hw, rfl⟩
  · exact ⟨Keeps.refl _ x, ⟨hw, fun h => h⟩, rfl⟩

/-- The player is in order afterwards, and what he has more of is no more than the item has. -/
theorem internalPlayerAddItem_keeps {units : τ → UInt16 → Nat} (ht : TileTakes env units) {s : PlayerAddState τ}
    (hw : Carried env.items s.world) (hm : Managed s.world s.looting p) (hx : s.world.getParent item = none)
    (hxn : item < s.world.next)
    (hclone : (s.world.item item).isStackable env.items → cloneId (s.world.item item).id = (s.world.item item).id) :
    let res := internalPlayerAddItem env s p item true CONST_SLOT_WHEREEVER
    res.2 = .NOERROR ∧ Keeps s.world res.1.world item ∧ Orders env.items s.world res.1.world ∧
      Managed res.1.world res.1.looting p ∧ ∀ id, unitsAround env units p s id ≤ unitsAround env units p res.1 id ∧
        unitsAround env units p res.1 id ≤ unitsAround env units p s id + s.world.brought env.items item id := by
  intro res
  have hcollect := collect_spec hw hm hx hxn
  obtain ⟨hkeeps, horders, hmanaged⟩ := collect_keeps hw hm hx hxn
  have heq : res = _ := internalPlayerAddItem_eq s
  cases htake : taking env s.world item (candidates env s p item) with
  | some c =>
    rw [htake] at hcollect
    obtain ⟨hc, -, hret, hworld⟩ := hcollect
    simp only [hret, ne_eq, not_true_eq_false, if_false, addRemainder] at heq
    rw [heq]
    refine ⟨rfl, hkeeps, horders, hmanaged, fun id => ?_⟩
    have hgrows := internalAddItem_grows hw hc.1 (.inr hc.2) hx hxn hclone id
    rw [← hworld] at hgrows
    dsimp only [unitsAround]
    omega
  | none =>
    rw [htake] at hcollect
    obtain ⟨hworld, hret⟩ := hcollect
    rw [hworld] at hmanaged
    have hplayer := Cylinder.inMemory_player s.world p
    obtain ⟨hslot, hleft, hok⟩ := internalAddItem_slot env.toEnv s.world p item
    obtain ⟨hanswer, hsame⟩ := addAnswer_iff (s.world.item item).getItemCount hw hplayer hx hxn
    have hcases := addRests_spec hw hplayer hx hxn
    have hadds := internalAddItem_keeps hw hplayer hx hxn
    have hgrows := fun id => internalAddItem_grows hw hplayer (.inl rfl) hx hxn hclone id
    simp only [if_pos hret, hworld, hslot, hleft] at heq
    rw [← internalAddItem] at hanswer hsame
    dsimp only at hcases
    by_cases hlet : AddLetThrough env.toEnv s.world (.player p) item
    · rw [if_neg (not_not.mpr (hok.mpr (hanswer.mpr hlet)))] at heq
      generalize internalAddItem env.toEnv s.world (.player p) item INDEX_WHEREEVER 0 false = added at hcases hadds hgrows heq
      generalize (internalCollectManagedItems env s.world s.looting p item _).2.1 = looting at hmanaged heq
      have hrest : Keeps _ (addRemainder env _ _ _).world item ∧ _ :=
        addRemainder_keeps (s := { s with world := added.1, looting := looting }) hadds.2.carried
        (added.1.item item).id added.2.2 item
      obtain ⟨hkept, hordered, hlooting⟩ := hrest
      have hall := hadds.1.trans hkept (.inl rfl)
      rw [heq]
      refine ⟨hok.mpr (hanswer.mpr hlet), hall, hadds.2.trans hordered, fun category c hc => ?_, fun id => ?_⟩
      · dsimp only at hc
        rw [hlooting] at hc
        exact hall.heldBy (hmanaged category c hc)
      have hgrows := hgrows id
      rcases hcases with ⟨hzero, -⟩ | ⟨-, -, hs, hpos, hlt, hcarried, hid, hle⟩
      · rw [hzero]
        dsimp only [unitsAround, addRemainder]
        rw [if_neg (not_not.mpr rfl)]
        dsimp only
        omega
      · have hplain : ¬s.world.isContainer item := fun hc => absurd hs (by rw [hw.single item hc]; exact Bool.false_ne_true)
        have hle := hle (.player p) (.inl rfl)
        rw [World.brought_single hw.forest hplain, Item.units, World.part_of_stackable hs] at hgrows ⊢
        rw [addRemainder_units ht hcarried _ hpos, hid, units_rest hs (hclone hs) hpos hlt]
        dsimp only [unitsAround]
        split_ifs at hgrows ⊢ with hsame
        · rw [hsame] at hle
          omega
        · omega
    · have herror := fun h => hlet (hanswer.mp h)
      obtain ⟨hworld', hzero⟩ := hsame herror
      rw [if_pos fun h => herror (hok.mp h), hworld', hzero] at heq
      obtain ⟨haccepts, htaken⟩ := ht s.world s.tile item hw hx hxn
      rw [heq]
      refine ⟨haccepts, Keeps.refl _ item, ⟨hw, fun h => h⟩, hmanaged, fun id => ?_⟩
      have := htaken id
      dsimp only [unitsAround, addRemainder]
      rw [if_neg (not_not.mpr rfl)]
      dsimp only
      omega

end Game
end CrystalServer
