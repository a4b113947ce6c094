import CrystalServer.Theorems.Game.Gather

/-! # Paying is exact

Whatever coins are taken, what a cylinder and the tile lose is the price, less what the bank pays. The change never
goes on the stack that it is given for, since it is worth less than one of its pieces. -/

namespace CrystalServer

/-- The cylinders are in order, and nothing on the tile lies in one of them. -/
structure Purse (items : UInt16 → ItemType) (s : MoneyState) : Prop where
  carried : Carried items s.world
  slotted : Slotted s.world
  tile : ∀ r ∈ s.tile, s.world.getParent r = none

namespace MoneyState

def tileWorth (s : MoneyState) : Nat := (s.tile.map fun r => (s.world.item r).getWorth.toNat).sum

/-- The worth of the coins in a cylinder and on the tile. -/
def worth (items : UInt16 → ItemType) (s : MoneyState) (cyl : Cylinder) : Nat :=
  s.world.inventoryWorth items cyl + s.tileWorth

/-- What the bank holds for a cylinder. -/
def bank (s : MoneyState) : Cylinder → Nat
  | .container _ => 0
  | .player p => (s.bankBalance p).toNat

end MoneyState

/-- Nothing stands against taking the item away. -/
def Removable (env : MoneyEnv) (r : Ref) : Prop := env.canRemove r ∧ ¬env.decaysFromMap r

/-- New coins are put somewhere in the cylinder or on the tile: nothing else moves, and no stack of another kind
    changes. -/
structure Places (items : UInt16 → ItemType) (cyl : Cylinder) (s s' : MoneyState) (coins : UInt16 × UInt16) : Prop where
  purse : Purse items s'
  worth : s'.worth items cyl = s.worth items cyl + coins.2.toNat * coinUnit coins.1
  stays : ∀ r k, s.world.getParent r = some k → s'.world.getParent r = some k
  other : ∀ r, r < s.world.next → (s.world.item r).id ≠ coins.1 → (s'.world.item r).plain = (s.world.item r).plain

namespace Game

/-- The change that the loop over the coins gives, with the state in which it does. -/
def change (env : MoneyEnv) : List (UInt32 × Ref) → MoneyState → UInt64 → Option (MoneyState × UInt64)
  | [], _, _ => none
  | (worthTotal, item) :: moneyItems, s, money =>
    if worthTotal.toUInt64 < money then
      if money - worthTotal.toUInt64 = 0 then none
      else change env moneyItems (MoneyState.remove env s item (-1)) (money - worthTotal.toUInt64)
    else if worthTotal.toUInt64 > money then
      let unitWorth := worthTotal / .ofNat (s.world.item item).getItemCount
      some (s, (unitWorth * removeCount money unitWorth).toUInt64 - money)
    else none

/-- All the change can be placed. -/
def PlacesChange (env : MoneyEnv) (cyl : Cylinder) (flags : UInt32) (s : MoneyState) (money : UInt64) : Prop :=
  Lib.Meets (placeCoins env cyl flags) (fun s coins => Places env.items cyl s (placeCoins env cyl flags s coins) coins) s
    (moneyStacks money)

variable {env : MoneyEnv} {s : MoneyState} {cyl : Cylinder} {x : Ref}

/-! ### Taking a stack away -/

/-- A stack of coins that lies in the cylinder. -/
structure IsCoin (env : MoneyEnv) (w : World) (cyl : Cylinder) (e : UInt32 × Ref) : Prop where
  below : Lib.Below w.holder (.container e.2) cyl
  worth : e.1 = (w.item e.2).getWorth
  pos : e.1 ≠ 0
  removable : Removable env e.2

theorem IsCoin.stackable {w : World} {e : UInt32 × Ref} (h : IsCoin env w cyl e) (hc : CoinsStack env.items) :
    (w.item e.2).isStackable env.items := by
  refine Item.isStackable_of_isCoin hc (Item.isCoin_of_coinUnit fun hu => h.pos ?_)
  rw [h.worth]
  refine UInt32.toNat_inj.mp ?_
  rw [Item.toNat_getWorth, hu, Nat.mul_zero]
  rfl

theorem IsCoin.count_pos {w : World} {e : UInt32 × Ref} (h : IsCoin env w cyl e) : 0 < (w.item e.2).getItemCount := by
  refine Nat.pos_of_ne_zero fun hz => h.pos ?_
  rw [h.worth]
  refine UInt32.toNat_inj.mp ?_
  rw [Item.toNat_getWorth, hz, Nat.zero_mul]
  rfl

theorem not_container {w : World} (hw : Carried env.items w) (hs : (w.item x).isStackable env.items) : ¬w.isContainer x :=
  fun hx => Bool.false_ne_true ((hw.single x hx).symm.trans hs)

/-- The count alone decides whether an item may be taken from where it lies. -/
theorem queryRemove_eq {w : World} (hw : Carried env.items w) (hs : Slotted w) {k : Cylinder}
    (hk : w.getParent x = some k) (n : UInt32) : k.queryRemove env.toEnv w x n FLAG_IGNORENOTMOVABLE =
      if n = 0 ∨ (w.item x).isStackable env.items ∧ n.toNat > (w.item x).getItemCount then .NOTPOSSIBLE
      else .NOERROR := by
  have hflag : ¬(!(env.items (w.item x).id).movable ∧ !hasBitSet FLAG_IGNORENOTMOVABLE FLAG_IGNORENOTMOVABLE) := by
    have : hasBitSet FLAG_IGNORENOTMOVABLE FLAG_IGNORENOTMOVABLE = true := by decide
    simp [this]
  cases k with
  | container c =>
    have hx := (hw.forest.lists.mem_iff x c).mpr (World.getParentContainer_of_getParent hk)
    unfold Cylinder.queryRemove Container.queryRemove
    dsimp only
    rw [if_neg (not_not.mpr hx), if_neg hflag]
  | player p =>
    obtain ⟨i, hi, hix⟩ := hs.slot p x hk
    have hindex : Player.getThingIndex w p x ≠ none := fun hnone => by
      have := List.find?_eq_none.mp hnone i hi
      exact absurd hix (by simpa using this)
    unfold Cylinder.queryRemove Player.queryRemove
    dsimp only
    rw [if_neg hindex, if_neg hflag]

/-- A removable item is taken away from where it lies, if the count allows it. -/
theorem internalRemoveItem_eq {w : World} (hw : Carried env.items w) (hs : Slotted w) {k : Cylinder}
    (hk : w.getParent x = some k) (hrem : Removable env x) {count : Int} {n : UInt32}
    (hn : UInt32.ofInt (if count = -1 then (w.item x).getItemCount else count) = n) :
    internalRemoveItem env w x count =
      if n = 0 ∨ (w.item x).isStackable env.items ∧ n.toNat > (w.item x).getItemCount then (w, .NOTPOSSIBLE)
      else (k.removeThing env.toEnv w x n, .NOERROR) := by
  unfold internalRemoveItem
  rw [hk]
  dsimp only
  rw [hn, queryRemove_eq hw hs hk]
  by_cases hcount : n = 0 ∨ (w.item x).isStackable env.items ∧ n.toNat > (w.item x).getItemCount
  · rw [if_pos hcount, if_pos hcount]
    rfl
  · rw [if_neg hcount, if_neg hcount, if_neg (not_not.mpr rfl), if_neg (by simp [hrem.1]), if_neg hrem.2]

theorem removes_world {w : World} (hw : Carried env.items w) (hs : Slotted w) {k : Cylinder}
    (hk : w.getParent x = some k) (hrem : Removable env x) {count : Int} {n : UInt32}
    (hn : UInt32.ofInt (if count = -1 then (w.item x).getItemCount else count) = n) (hpos : n ≠ 0)
    (hle : n.toNat ≤ (w.item x).getItemCount) :
    (internalRemoveItem env w x count).1 = k.removeThing env.toEnv w x n := by
  rw [internalRemoveItem_eq hw hs hk hrem hn, if_neg]
  rintro (h | ⟨-, h⟩)
  · exact hpos h
  · exact absurd hle (not_le.mpr h)

theorem ofInt_natCast_toNat {n : Nat} (h : n < 256) : (UInt32.ofInt (n : Int)).toNat = n := by
  rw [UInt32.ofInt]
  simp
  omega

/-- An item is taken away from where it lies. -/
theorem cuts_removeThing {w : World} (hw : Carried env.items w) (hs : Slotted w) {k : Cylinder}
    (hk : w.getParent x = some k) {n : UInt32}
    (hwhole : ¬((w.item x).isStackable env.items ∧ n.toNat ≠ (w.item x).getItemCount)) :
    Cuts w (k.removeThing env.toEnv w x n) x := by
  cases k with
  | container c =>
    have hx := (hw.forest.lists.mem_iff x c).mpr (World.getParentContainer_of_getParent hk)
    exact cuts_container env.items hw hx hwhole
  | player p => exact cuts_player env.toEnv hw hs hk hwhole

/-- Some pieces of a stack are taken away from where it lies. -/
theorem recounts_removeThing {w : World} (hw : Carried env.items w) (hs : Slotted w) {k : Cylinder}
    (hk : w.getParent x = some k) {n : UInt32} (hst : (w.item x).isStackable env.items)
    (hlt : n.toNat < (w.item x).getItemCount) :
    Recounts w (k.removeThing env.toEnv w x n) x ((w.item x).getItemCount - n.toNat) := by
  have hcount : (w.item x).getItemCount < 256 := (w.item x).count.toNat_lt
  have hpart : (w.item x).isStackable env.items ∧ n.toNat ≠ (w.item x).getItemCount := ⟨hst, hlt.ne⟩
  have hleft : Container.countLeft (w.item x) n = (w.item x).getItemCount - n.toNat := World.countLeft_eq hlt.le
  have hmodify : Recounts w (w.modify x (·.setItemCount (Container.countLeft (w.item x) n))) x
      ((w.item x).getItemCount - n.toNat) :=
    recounts_modify (by omega) ⟨_, by rw [hleft]; rfl⟩
  cases k with
  | container c =>
    have hx := (hw.forest.lists.mem_iff x c).mpr (World.getParentContainer_of_getParent hk)
    change Recounts _ (Container.removeThing env.items w c x n) _ _
    rw [Container.removeThing_part hx hpart]
    exact hmodify.same (Container.updateItemWeight_same _ _ _)
  | player p =>
    obtain ⟨i, hi, hix⟩ := hs.slot p x hk
    have hindex : ∃ j, Player.getThingIndex w p x = some j := by
      refine Option.ne_none_iff_exists'.mp fun hnone => ?_
      have := List.find?_eq_none.mp hnone i hi
      exact absurd hix (by simpa using this)
    obtain ⟨j, hj⟩ := hindex
    have hremove : Player.removeThing env.toEnv w p x n =
        w.modify x (·.setItemCount (Container.countLeft (w.item x) n)) := by
      rw [Player.removeThing, hj]
      exact if_pos hpart
    change Recounts _ (Player.removeThing env.toEnv w p x n) _ _
    rw [hremove]
    exact hmodify

/-- A whole stack is taken away. -/
theorem remove_whole (hp : Purse env.items s) {k : Cylinder} (hk : s.world.getParent x = some k)
    (hrem : Removable env x) (hpos : 0 < (s.world.item x).getItemCount) {count : Int}
    (hcount : count = -1 ∨ count = (s.world.item x).getItemCount) :
    Cuts s.world (MoneyState.remove env s x count).world x := by
  have hlt : (s.world.item x).getItemCount < 256 := (s.world.item x).count.toNat_lt
  have hn := ofInt_natCast_toNat hlt
  have hif : (if count = -1 then ((s.world.item x).getItemCount : Int) else count) = (s.world.item x).getItemCount := by
    rcases hcount with h | h
    · rw [if_pos h]
    · rw [if_neg (by omega), h]
  have heq : (MoneyState.remove env s x count).world = _ :=
    removes_world hp.carried hp.slotted hk hrem (by rw [hif])
      (fun h => by rw [h] at hn; exact hpos.ne hn) hn.le
  rw [heq]
  exact cuts_removeThing hp.carried hp.slotted hk fun h => h.2 hn

theorem purse_cut (s' : MoneyState) (hp : Purse env.items s) (h : Cuts s.world s'.world x) (ht : s'.tile = s.tile) :
    Purse env.items s' where
  carried := h.carried hp.carried
  slotted := h.slotted hp.slotted
  tile r hr := by
    rw [ht] at hr
    by_cases hrx : r = x
    · rw [h.parent, hrx, Function.update_self]
    · rw [h.getParent_of_ne hrx]
      exact hp.tile r hr

theorem getWorth_congr {i j : Item} (h : i.plain = j.plain) : i.getWorth = j.getWorth := by
  have hid := congrArg Item.id h
  have hcount := congrArg Item.count h
  change i.id = j.id at hid
  change i.count = j.count at hcount
  unfold Item.getWorth Item.getItemCount
  rw [hid, hcount]

/-- The cylinder is worth less by the stack, and the tile is worth the same. -/
theorem worth_cut (s' : MoneyState) (hc : CoinsStack env.items) (hp : Purse env.items s) (h : Cuts s.world s'.world x)
    (ht : s'.tile = s.tile) (hs : (s.world.item x).isStackable env.items)
    (hb : Lib.Below s.world.holder (.container x) cyl) :
    s'.world.inventoryWorth env.items cyl + (s.world.item x).getWorth.toNat = s.world.inventoryWorth env.items cyl ∧
      s'.tileWorth = s.tileWorth := by
  obtain ⟨k, hk, -⟩ := Lib.below_cases hb
  have hheld : ∀ id, s'.world.held env.items cyl id + (s.world.item x).units env.items id =
      s.world.held env.items cyl id :=
    h.held hp.carried.forest (World.not_below_single hp.carried.forest (not_container hp.carried hs)) (hp.carried.made x k hk) hb
  constructor
  · rw [← Item.coinWorth_eq_getWorth hc, World.inventoryWorth, World.inventoryWorth, ← coinWorth_add]
    exact congrArg coinWorth (funext hheld)
  · unfold MoneyState.tileWorth
    rw [ht]
    exact congrArg List.sum (List.map_congr_left fun r _ => congrArg UInt32.toNat (getWorth_congr (h.plain r)))

theorem coin_cut (hp : Purse env.items s) {s' : MoneyState} (h : Cuts s.world s'.world x)
    (hs : (s.world.item x).isStackable env.items) {e : UInt32 × Ref} (he : IsCoin env s.world cyl e) (hne : e.2 ≠ x) :
    IsCoin env s'.world cyl e where
  below := h.below (World.not_below_single hp.carried.forest (not_container hp.carried hs)) hne he.below
  worth := he.worth.trans (getWorth_congr (h.plain e.2)).symm
  pos := he.pos
  removable := he.removable

/-- Some pieces of a stack are taken away. -/
theorem remove_part (hp : Purse env.items s) {k : Cylinder} (hk : s.world.getParent x = some k)
    (hrem : Removable env x) (hs : (s.world.item x).isStackable env.items) {n : Nat} (hpos : 0 < n)
    (hlt : n < (s.world.item x).getItemCount) :
    Recounts s.world (MoneyState.remove env s x n).world x ((s.world.item x).getItemCount - n) := by
  have hcount : (s.world.item x).getItemCount < 256 := (s.world.item x).count.toNat_lt
  have hn : (UInt32.ofInt (n : Int)).toNat = n := ofInt_natCast_toNat (by omega)
  have heq : (MoneyState.remove env s x n).world = _ :=
    removes_world hp.carried hp.slotted hk hrem (by rw [if_neg (by omega)])
      (fun h => by rw [h] at hn; exact hpos.ne hn) (by omega)
  have hrecounts := recounts_removeThing hp.carried hp.slotted hk (n := .ofInt n) hs (by rwa [hn])
  rw [heq]
  rwa [hn] at hrecounts

theorem worth_recount (s' : MoneyState) (hc : CoinsStack env.items) (hp : Purse env.items s) {n : Nat}
    (h : Recounts s.world s'.world x n) (ht : s'.tile = s.tile) (hs : (s.world.item x).isStackable env.items)
    (hb : Lib.Below s.world.holder (.container x) cyl) :
    s'.worth env.items cyl + (s.world.item x).getItemCount * coinUnit (s.world.item x).id =
      s.worth env.items cyl + n * coinUnit (s.world.item x).id := by
  have hheld := funext fun id => h.held hp.carried hs hb id
  have hinv := congrArg coinWorth hheld
  rw [coinWorth_add, coinWorth_add, Item.coinWorth_part hc, Item.coinWorth_part hc] at hinv
  have htile : s'.tileWorth = s.tileWorth := by
    unfold MoneyState.tileWorth
    rw [ht]
    refine congrArg List.sum (List.map_congr_left fun r hr => congrArg UInt32.toNat (getWorth_congr (h.plain r ?_)))
    rintro rfl
    exact Lib.not_below_of_root (hp.tile r hr) hb
  unfold MoneyState.worth World.inventoryWorth
  omega

/-- So many pieces of a stack are taken away. -/
theorem worth_remove (hc : CoinsStack env.items) (hp : Purse env.items s) (hrem : Removable env x)
    (hs : (s.world.item x).isStackable env.items) (hb : Lib.Below s.world.holder (.container x) cyl) {n : Nat}
    (hpos : 0 < n) (hle : n ≤ (s.world.item x).getItemCount) :
    (MoneyState.remove env s x n).worth env.items cyl + n * coinUnit (s.world.item x).id = s.worth env.items cyl := by
  obtain ⟨k, hk, -⟩ := Lib.below_cases hb
  rcases hle.lt_or_eq with hlt | heq
  · have hw := worth_recount (MoneyState.remove env s x n) hc hp (remove_part hp hk hrem hs hpos hlt) rfl hs hb
    have hmul : n * coinUnit (s.world.item x).id ≤ (s.world.item x).getItemCount * coinUnit (s.world.item x).id :=
      Nat.mul_le_mul_right _ hle
    rw [Nat.sub_mul] at hw
    omega
  · have hcut := remove_whole hp hk hrem (by omega) (.inr (congrArg Nat.cast heq))
    have hw := worth_cut (MoneyState.remove env s x n) hc hp hcut rfl hs hb
    rw [Item.toNat_getWorth, ← heq] at hw
    unfold MoneyState.worth
    omega

/-! ### The stacks of an amount -/

/-- A stack is made of as many coins as are left, and of a hundred at most. -/
theorem createCount_eq (count : UInt32) : (min 100 count).toUInt16.toNat = min 100 count.toNat := by
  have hmin : (min 100 count).toNat = min 100 count.toNat := by
    rcases UInt32.le_total 100 count with h | h
    · have := UInt32.le_iff_toNat_le.mp h
      rw [show min (100 : UInt32) count = 100 from if_pos h]
      exact (min_eq_left this).symm
    · have := UInt32.le_iff_toNat_le.mp h
      rw [min_of_le h]
      exact (min_eq_right this).symm
  rw [UInt32.toNat_toUInt16, hmin]
  omega

theorem coinStacks_spec (itemId : UInt16) (n : Nat) (count : UInt32) (hn : count.toNat ≤ n) :
    (∀ c ∈ coinStacks itemId n count, c.1 = itemId ∧ 0 < c.2.toNat ∧ c.2.toNat ≤ 100) ∧
      ((coinStacks itemId n count).map fun c => c.2.toNat).sum = count.toNat := by
  induction n generalizing count with
  | zero =>
    refine ⟨fun c hc => absurd hc List.not_mem_nil, ?_⟩
    rw [coinStacks, List.map_nil, List.sum_nil]
    omega
  | succ n ih =>
    unfold coinStacks
    split_ifs with hpos
    · have hpos : 0 < count.toNat := UInt32.lt_iff_toNat_lt.mp hpos
      have hcreate := createCount_eq count
      have hsub : (count - (min 100 count).toUInt16.toUInt32).toNat = count.toNat - min 100 count.toNat := by
        rw [UInt32.toNat_sub_of_le, UInt16.toNat_toUInt32, hcreate]
        rw [UInt32.le_iff_toNat_le, UInt16.toNat_toUInt32, hcreate]
        exact min_le_right ..
      obtain ⟨hid, hsum⟩ := ih (count - (min 100 count).toUInt16.toUInt32) (by omega)
      refine ⟨fun c hc => ?_, ?_⟩
      · rcases List.mem_cons.mp hc with rfl | hc
        · refine ⟨rfl, ?_, ?_⟩
          · rw [hcreate]
            omega
          · rw [hcreate]
            omega
        · exact hid c hc
      · rw [List.map_cons, List.sum_cons, hsum, hsub, hcreate]
        omega
    · have hz : count.toNat = 0 := Nat.eq_zero_of_not_pos fun h => hpos (UInt32.lt_iff_toNat_lt.mpr h)
      exact ⟨fun c hc => absurd hc List.not_mem_nil, hz.symm⟩

/-- What stacks of coins come to. -/
def stacksWorth (l : List (UInt16 × UInt16)) : Nat := (l.map fun c => c.2.toNat * coinUnit c.1).sum

theorem stacksWorth_append (l l' : List (UInt16 × UInt16)) : stacksWorth (l ++ l') = stacksWorth l + stacksWorth l' := by
  rw [stacksWorth, List.map_append, List.sum_append]
  rfl

theorem addCoins_worth (itemId : UInt16) (count : UInt32) :
    stacksWorth (addCoins itemId count) = count.toNat * coinUnit itemId := by
  obtain ⟨hid, hsum⟩ := coinStacks_spec itemId count.toNat count le_rfl
  rw [stacksWorth, ← hsum, ← List.sum_map_mul_right]
  exact congrArg List.sum (List.map_congr_left fun c hc => by rw [(hid c hc).1])

/-- No stacks are made where there are none to make. -/
theorem stacksWorth_if {P : Prop} [Decidable P] {itemId : UInt16} {count : UInt32} (h : ¬P → count.toNat = 0) :
    stacksWorth (if P then addCoins itemId count else []) = count.toNat * coinUnit itemId := by
  split_ifs with hp
  · exact addCoins_worth itemId count
  · rw [h hp, Nat.zero_mul]
    rfl

theorem addCoins_id {itemId : UInt16} {count : UInt32} {c : UInt16 × UInt16} (h : c ∈ addCoins itemId count) :
    c.1 = itemId ∧ 0 < count.toNat := by
  refine ⟨((coinStacks_spec itemId count.toNat count le_rfl).1 c h).1, Nat.pos_of_ne_zero fun hz => ?_⟩
  rw [addCoins, hz] at h
  exact List.not_mem_nil h

/-- What is left of an amount after the coins of the unit that 32 bits hold. -/
theorem toNat_after_mod {money unit : UInt64} {coins : UInt32} (hc : coins = (money / unit).toUInt32) :
    coins.toNat = money.toNat / unit.toNat % 2 ^ 32 ∧
      (if coins ≠ 0 then money - coins.toUInt64 * unit else money).toNat = money.toNat - coins.toNat * unit.toNat := by
  have hcoins : coins.toNat = money.toNat / unit.toNat % 2 ^ 32 := by
    rw [hc, UInt64.toNat_toUInt32, UInt64.toNat_div]
  refine ⟨hcoins, ?_⟩
  have hmul : coins.toNat * unit.toNat ≤ money.toNat := by
    rw [hcoins]
    exact (Nat.mul_le_mul_right _ (Nat.mod_le ..)).trans (Nat.div_mul_le_self ..)
  have hprod : (coins.toUInt64 * unit).toNat = coins.toNat * unit.toNat := by
    have := money.toNat_lt
    rw [UInt64.toNat_mul, UInt32.toNat_toUInt64, Nat.mod_eq_of_lt (by omega)]
  split_ifs with hz
  · rw [UInt64.toNat_sub_of_le _ _ (UInt64.le_iff_toNat_le.mpr (by rw [hprod]; exact hmul)), hprod]
  · have hz : coins.toNat = 0 := by
      rw [not_not.mp hz]
      rfl
    rw [hz, Nat.zero_mul, Nat.sub_zero]

/-- The crystal coins are counted with 32 bits; what these drop comes in no other coin. -/
theorem moneyStacks_worth (money : UInt64) : stacksWorth (moneyStacks money) = money.toNat % (2 ^ 32 * 10000) := by
  have hgold : coinUnit ITEM_GOLD_COIN = 1 := by decide
  have hplat : coinUnit ITEM_PLATINUM_COIN = 100 := by decide
  have hcrystal : coinUnit ITEM_CRYSTAL_COIN = 10000 := by decide
  have h10000 : (10000 : UInt64).toNat = 10000 := rfl
  have h100 : (100 : UInt64).toNat = 100 := rfl
  unfold moneyStacks
  dsimp only
  generalize hc : (money / 10000).toUInt32 = crystalCoins
  obtain ⟨hcrystals, hm₁⟩ := toNat_after_mod hc.symm
  generalize (if crystalCoins ≠ 0 then money - crystalCoins.toUInt64 * 10000 else money) = money₁ at hm₁ ⊢
  generalize hp : (money₁ / 100).toUInt32 = platinumCoins
  obtain ⟨hplatinums, hm₂⟩ := toNat_after_mod hp.symm
  generalize (if platinumCoins ≠ 0 then money₁ - platinumCoins.toUInt64 * 100 else money₁) = money₂ at hm₂ ⊢
  rw [h10000] at hcrystals hm₁
  rw [h100] at hplatinums hm₂
  have hfew : platinumCoins.toNat < 100 := by omega
  have hshort : platinumCoins.toUInt16.toUInt32.toNat = platinumCoins.toNat := by
    rw [UInt16.toNat_toUInt32, UInt32.toNat_toUInt16, Nat.mod_eq_of_lt (by omega)]
  have hlast : money₂.toUInt32.toNat = money₂.toNat % 2 ^ 32 := UInt64.toNat_toUInt32 money₂
  have hz : ∀ {n : UInt32}, ¬n ≠ 0 → n.toNat = 0 := fun hn => by
    rw [not_not.mp hn]
    rfl
  have hz' : ¬money₂ > 0 → money₂.toUInt32.toNat = 0 := fun hn => by
    have : money₂.toNat = 0 := Nat.eq_zero_of_not_pos fun h => hn (UInt64.lt_iff_toNat_lt.mpr h)
    omega
  rw [stacksWorth_append, stacksWorth_append, stacksWorth_if hz, stacksWorth_if fun hn => hshort.trans (hz hn),
    stacksWorth_if hz', hshort, hlast, hgold, hplat, hcrystal]
  omega

theorem moneyStacks_exact_iff (money : UInt64) :
    stacksWorth (moneyStacks money) = money.toNat ↔ money.toNat < 2 ^ 32 * 10000 := by
  rw [moneyStacks_worth]
  exact Nat.mod_eq_iff_lt (by decide)

/-- No stack is of a coin worth more than the amount. -/
theorem moneyStacks_coins (money : UInt64) : ∀ c ∈ moneyStacks money, 0 < coinUnit c.1 ∧ coinUnit c.1 ≤ money.toNat := by
  have hgold : coinUnit ITEM_GOLD_COIN = 1 := by decide
  have hplat : coinUnit ITEM_PLATINUM_COIN = 100 := by decide
  have hcrystal : coinUnit ITEM_CRYSTAL_COIN = 10000 := by decide
  have h10000 : (10000 : UInt64).toNat = 10000 := rfl
  have h100 : (100 : UInt64).toNat = 100 := rfl
  unfold moneyStacks
  dsimp only
  generalize hc : (money / 10000).toUInt32 = crystalCoins
  obtain ⟨hcrystals, hm₁⟩ := toNat_after_mod hc.symm
  generalize (if crystalCoins ≠ 0 then money - crystalCoins.toUInt64 * 10000 else money) = money₁ at hm₁ ⊢
  generalize hp : (money₁ / 100).toUInt32 = platinumCoins
  obtain ⟨hplatinums, hm₂⟩ := toNat_after_mod hp.symm
  generalize (if platinumCoins ≠ 0 then money₁ - platinumCoins.toUInt64 * 100 else money₁) = money₂ at hm₂ ⊢
  rw [h10000] at hcrystals hm₁
  rw [h100] at hplatinums hm₂
  intro c hc
  rcases List.mem_append.mp hc with hc | hc
  · rcases List.mem_append.mp hc with hc | hc
    · split_ifs at hc with h₁
      · obtain ⟨hid, hpos⟩ := addCoins_id hc
        rw [hid, hcrystal]
        omega
      · exact absurd hc List.not_mem_nil
    · split_ifs at hc with h₁
      · obtain ⟨hid, hpos⟩ := addCoins_id hc
        rw [UInt16.toNat_toUInt32, UInt32.toNat_toUInt16] at hpos
        rw [hid, hplat]
        omega
      · exact absurd hc List.not_mem_nil
  · split_ifs at hc with h₁
    · obtain ⟨hid, hpos⟩ := addCoins_id hc
      have : 0 < money₂.toNat := UInt64.lt_iff_toNat_lt.mp h₁
      rw [hid, hgold]
      omega
    · exact absurd hc List.not_mem_nil

/-- The stacks that an amount makes come to it, and none is of a coin worth more than the amount. -/
theorem moneyStacks_spec (money : UInt64) (h : money.toNat / 10000 < 2 ^ 32) :
    stacksWorth (moneyStacks money) = money.toNat ∧ ∀ c ∈ moneyStacks money, 0 < coinUnit c.1 ∧
      coinUnit c.1 ≤ money.toNat :=
  ⟨(moneyStacks_exact_iff money).mpr (by omega), moneyStacks_coins money⟩

/-- Each stack is of one to a hundred coins. -/
theorem moneyStacks_sizes (money : UInt64) {c : UInt16 × UInt16} (hc : c ∈ moneyStacks money) :
    0 < c.2.toNat ∧ c.2.toNat ≤ 100 := by
  have hcoins : ∀ {P : Prop} [Decidable P] {itemId : UInt16} {count : UInt32},
      (c ∈ if P then addCoins itemId count else []) → 0 < c.2.toNat ∧ c.2.toNat ≤ 100 := by
    intro P _ itemId count h
    split_ifs at h
    · exact ((coinStacks_spec itemId count.toNat count le_rfl).1 c h).2
    · exact absurd h List.not_mem_nil
  unfold moneyStacks at hc
  dsimp only at hc
  rcases List.mem_append.mp hc with hc | hc
  · rcases List.mem_append.mp hc with hc | hc
    · exact hcoins hc
    · exact hcoins hc
  · exact hcoins hc

/-- More rounds than there are coins change nothing: the loop has ended. -/
theorem coinStacks_of_le {itemId : UInt16} {count : UInt32} {n : Nat} (h : count.toNat ≤ n) :
    coinStacks itemId n count = addCoins itemId count := by
  unfold addCoins
  suffices hrounds : ∀ (n m : Nat) (count : UInt32), count.toNat ≤ n → count.toNat ≤ m →
      coinStacks itemId n count = coinStacks itemId m count from hrounds n _ count h le_rfl
  intro n
  induction n with
  | zero =>
    intro m count hn _
    have hz : count = 0 := UInt32.toNat_inj.mp (Nat.le_zero.mp hn)
    rw [hz]
    cases m <;> rfl
  | succ n ih =>
    intro m count hn hm
    cases m with
    | zero =>
      have hz : count = 0 := UInt32.toNat_inj.mp (Nat.le_zero.mp hm)
      rw [hz]
      rfl
    | succ m =>
      unfold coinStacks
      split_ifs with hpos
      · have hpos : 0 < count.toNat := UInt32.lt_iff_toNat_lt.mp hpos
        have hcreate := createCount_eq count
        have hsub : (count - (min 100 count).toUInt16.toUInt32).toNat = count.toNat - min 100 count.toNat := by
          rw [UInt32.toNat_sub_of_le, UInt16.toNat_toUInt32, hcreate]
          rw [UInt32.le_iff_toNat_le, UInt16.toNat_toUInt32, hcreate]
          exact min_le_right ..
        dsimp only
        rw [ih m _ (by omega) (by omega)]
      · rfl

/-! ### Giving change -/

theorem bank_placeCoins (env : MoneyEnv) (cyl : Cylinder) (flags : UInt32) (s : MoneyState) (c : UInt16 × UInt16) :
    (placeCoins env cyl flags s c).bankBalance = s.bankBalance := by
  unfold placeCoins
  dsimp only
  split_ifs <;> rfl

theorem bank_addMoney (env : MoneyEnv) (cyl : Cylinder) (money : UInt64) (flags : UInt32) (s : MoneyState) :
    (addMoney env cyl money flags s).bankBalance = s.bankBalance := by
  unfold addMoney
  induction moneyStacks money generalizing s with
  | nil => rfl
  | cons c l ih => exact (ih (placeCoins env cyl flags s c)).trans (bank_placeCoins env cyl flags s c)

/-- All stacks of an amount are placed. -/
theorem places_run {flags : UInt32} {l : List (UInt16 × UInt16)} {k : Cylinder} (hp : Purse env.items s)
    (hm : Lib.Meets (placeCoins env cyl flags)
      (fun s c => Places env.items cyl s (placeCoins env cyl flags s c) c) s l)
    (hk : s.world.getParent x = some k) (hid : ∀ c ∈ l, (s.world.item x).id ≠ c.1) :
    let s' := l.foldl (placeCoins env cyl flags) s
    Purse env.items s' ∧ s'.worth env.items cyl = s.worth env.items cyl + stacksWorth l ∧
      (∀ r k, s.world.getParent r = some k → s'.world.getParent r = some k) ∧
      (s'.world.item x).plain = (s.world.item x).plain := by
  induction l generalizing s with
  | nil => exact ⟨hp, rfl, fun _ _ h => h, rfl⟩
  | cons c l ih =>
    obtain ⟨hplace, hm⟩ := hm
    have hplain := hplace.other x (hp.carried.made x k hk) (hid c List.mem_cons_self)
    have hidx : ((placeCoins env cyl flags s c).world.item x).id = (s.world.item x).id := by
      have := congrArg Item.id hplain
      exact this
    obtain ⟨hpurse, hworth, hstays, hplains⟩ := ih hplace.purse hm (hplace.stays x k hk) fun c' hc' => by
      rw [hidx]
      exact hid c' (List.mem_cons_of_mem c hc')
    refine ⟨hpurse, ?_, fun r k hr => hstays r k (hplace.stays r k hr), hplains.trans hplain⟩
    rw [List.foldl_cons, hworth, hplace.worth, Nat.add_assoc]
    rfl

/-- Change that is worth less than one piece of a stack is placed beside it. -/
theorem addMoney_spec {flags : UInt32} {k : Cylinder} {money : UInt64} (hp : Purse env.items s)
    (hk : s.world.getParent x = some k) (hsmall : money.toNat < coinUnit (s.world.item x).id)
    (hbig : money.toNat < 10000) (hm : PlacesChange env cyl flags s money) :
    Purse env.items (addMoney env cyl money flags s) ∧
      (addMoney env cyl money flags s).worth env.items cyl = s.worth env.items cyl + money.toNat ∧
      (∀ r k, s.world.getParent r = some k → (addMoney env cyl money flags s).world.getParent r = some k) ∧
      ((addMoney env cyl money flags s).world.item x).id = (s.world.item x).id ∧
      ((addMoney env cyl money flags s).world.item x).getItemCount = (s.world.item x).getItemCount := by
  obtain ⟨hsum, hids⟩ := moneyStacks_spec money (by omega)
  obtain ⟨hpurse, hworth, hstays, hplain⟩ := places_run hp hm hk fun c hc hid => by
    have := (hids c hc).2
    rw [← hid] at this
    omega
  have hid := congrArg Item.id hplain
  have hcount := congrArg Item.getItemCount hplain
  exact ⟨hpurse, hsum ▸ hworth, hstays, hid, hcount⟩

/-- How many pieces are taken of a stack that is worth more than what is to pay. -/
theorem removeCount_spec {money : UInt64} {unitWorth : UInt32} {count : Nat} (hunit : 0 < unitWorth.toNat)
    (hbig : unitWorth.toNat ≤ 10000) (hcount : count < 256) (hpos : 0 < money.toNat)
    (hlt : money.toNat < count * unitWorth.toNat) :
    0 < (removeCount money unitWorth).toNat ∧ (removeCount money unitWorth).toNat ≤ count ∧
      ((unitWorth * removeCount money unitWorth).toUInt64 - money).toNat + money.toNat =
        (removeCount money unitWorth).toNat * unitWorth.toNat ∧
      ((unitWorth * removeCount money unitWorth).toUInt64 - money).toNat < unitWorth.toNat := by
  generalize hu : unitWorth.toNat = u at hunit hbig hlt ⊢
  generalize hm : money.toNat = m at hpos hlt ⊢
  have hbound : count * u ≤ 255 * 10000 := Nat.mul_le_mul (by omega) hbig
  have hdiv := Nat.div_add_mod (m + u - 1) u
  have hmod := Nat.mod_lt (m + u - 1) hunit
  generalize hq : (m + u - 1) / u = q at hdiv
  rw [Nat.mul_comm] at hdiv
  have hqle : q ≤ count := by
    refine Nat.le_of_lt_succ (Nat.lt_of_mul_lt_mul_right (a := u) ?_)
    rw [Nat.succ_mul]
    omega
  have hqpos : 0 < q := Nat.pos_of_ne_zero fun hz => by
    rw [hz, Nat.zero_mul] at hdiv
    omega
  have hcountq : (removeCount money unitWorth).toNat = q := by
    rw [removeCount, hm, hu, Lib.Double.ceil_div (by omega) hunit, hq, UInt32.toNat_ofNat', Nat.mod_eq_of_lt (by omega)]
  have hprod : (unitWorth * removeCount money unitWorth).toUInt64.toNat = q * u := by
    have hle : q * u ≤ 255 * 10000 := (Nat.mul_le_mul_right u hqle).trans hbound
    rw [UInt32.toNat_toUInt64, UInt32.toNat_mul, hcountq, hu, Nat.mul_comm, Nat.mod_eq_of_lt (by omega)]
  have hsub : ((unitWorth * removeCount money unitWorth).toUInt64 - money).toNat = q * u - m := by
    rw [UInt64.toNat_sub_of_le _ _ (UInt64.le_iff_toNat_le.mpr (by rw [hprod, hm]; omega)), hprod, hm]
  rw [hcountq, hsub]
  omega

theorem coinUnit_le (id : UInt16) : coinUnit id ≤ 10000 := by
  unfold coinUnit
  split_ifs <;> omega

/-- The worth of one piece, as the code computes it. -/
theorem unitWorth_eq {w : World} {e : UInt32 × Ref} (h : IsCoin env w cyl e) :
    (e.1 / .ofNat (w.item e.2).getItemCount).toNat = coinUnit (w.item e.2).id := by
  have hcount : (w.item e.2).getItemCount < 256 := (w.item e.2).count.toNat_lt
  rw [UInt32.toNat_div, h.worth, Item.toNat_getWorth, UInt32.toNat_ofNat', Nat.mod_eq_of_lt (by omega),
    Nat.mul_div_cancel_left _ h.count_pos]

/-- The last stack is split: the change is placed, then the pieces are taken. -/
theorem split_spec (hc : CoinsStack env.items) (hp : Purse env.items s) {flags : UInt32} {e : UInt32 × Ref}
    (he : IsCoin env s.world cyl e) {money : UInt64} (hpos : 0 < money.toNat) (hlt : money.toNat < e.1.toNat)
    (hchange : PlacesChange env cyl flags s
      ((e.1 / .ofNat (s.world.item e.2).getItemCount *
        removeCount money (e.1 / .ofNat (s.world.item e.2).getItemCount)).toUInt64 - money)) :
    let unitWorth := e.1 / .ofNat (s.world.item e.2).getItemCount
    let count := removeCount money unitWorth
    let s' := MoneyState.remove env (addMoney env cyl ((unitWorth * count).toUInt64 - money) flags s) e.2
      count.toInt32.toInt
    s'.worth env.items cyl + money.toNat = s.worth env.items cyl ∧ s'.bankBalance = s.bankBalance := by
  intro unitWorth count s'
  obtain ⟨k, hk, -⟩ := Lib.below_cases he.below
  have hcount : (s.world.item e.2).getItemCount < 256 := (s.world.item e.2).count.toNat_lt
  have hunit : unitWorth.toNat = coinUnit (s.world.item e.2).id := unitWorth_eq he
  have hworth : e.1.toNat = (s.world.item e.2).getItemCount * unitWorth.toNat := by
    rw [he.worth, Item.toNat_getWorth, hunit]
  have hunitpos : 0 < unitWorth.toNat := Nat.pos_of_ne_zero fun hz => by
    rw [hworth, hz] at hlt
    omega
  obtain ⟨hcpos, hcle, hexact, hsmall⟩ :=
    removeCount_spec hunitpos (hunit ▸ coinUnit_le _) hcount hpos (hworth ▸ hlt)
  change 0 < count.toNat at hcpos
  change count.toNat ≤ _ at hcle
  change ((unitWorth * count).toUInt64 - money).toNat + money.toNat = count.toNat * _ at hexact
  change ((unitWorth * count).toUInt64 - money).toNat < _ at hsmall
  change PlacesChange env cyl flags s ((unitWorth * count).toUInt64 - money) at hchange
  have hbig := coinUnit_le (s.world.item e.2).id
  obtain ⟨hp₁, hworth₁, hstays, hid₁, hcount₁⟩ := addMoney_spec hp hk (hunit ▸ hsmall) (by omega) hchange
  refine ⟨?_, bank_addMoney ..⟩
  have hs' : s' = MoneyState.remove env (addMoney env cyl ((unitWorth * count).toUInt64 - money) flags s) e.2
      count.toNat := by
    change MoneyState.remove _ _ _ _ = _
    rw [Lib.toInt_toInt32_of_lt (by omega)]
  have hb₁ : Lib.Below (addMoney env cyl ((unitWorth * count).toUInt64 - money) flags s).world.holder
      (.container e.2) cyl := by
    refine Relation.TransGen.mono (fun a b hab => ?_) _ _ he.below
    cases a with
    | container r => exact hstays r b hab
    | player p => exact nomatch hab
  have hs₁ : ((addMoney env cyl ((unitWorth * count).toUInt64 - money) flags s).world.item e.2).isStackable
      env.items := by
    rw [Item.isStackable, hid₁]
    exact he.stackable hc
  have hw := worth_remove hc hp₁ he.removable hs₁ hb₁ hcpos (by omega)
  rw [hid₁, ← hunit, ← hs'] at hw
  omega

/-! ### The loop over the coins -/

theorem toNat_toUInt64_lt {a : UInt32} {b : UInt64} : a.toUInt64 < b ↔ a.toNat < b.toNat := by
  rw [UInt64.lt_iff_toNat_lt, UInt32.toNat_toUInt64]

/-- Either the loop pays all that is to pay, or it spends all the coins and leaves the rest. -/
theorem spend_spec (hc : CoinsStack env.items) {flags : UInt32} {l : List (UInt32 × Ref)} (hp : Purse env.items s)
    (hl : ∀ e ∈ l, IsCoin env s.world cyl e) (hnodup : (l.map (·.2)).Nodup) {money : UInt64} (hpos : 0 < money.toNat)
    (hchange : ∀ s' m, change env l s money = some (s', m) → PlacesChange env cyl flags s' m) :
    let res := spend env cyl flags l s money
    res.1.bankBalance = s.bankBalance ∧
      match res.2 with
      | none => res.1.worth env.items cyl + money.toNat = s.worth env.items cyl
      | some left => 0 < left.toNat ∧ left.toNat + (l.map fun e => e.1.toNat).sum = money.toNat ∧
        res.1.world.inventoryWorth env.items cyl + (l.map fun e => e.1.toNat).sum =
          s.world.inventoryWorth env.items cyl ∧ res.1.tileWorth = s.tileWorth := by
  induction l generalizing s money with
  | nil => exact ⟨rfl, hpos, rfl, rfl, rfl⟩
  | cons e l ih =>
    obtain ⟨worthTotal, item⟩ := e
    have he := hl _ List.mem_cons_self
    have hs := he.stackable hc
    obtain ⟨k, hk, -⟩ := Lib.below_cases he.below
    have hcut := remove_whole hp hk he.removable he.count_pos (.inl rfl)
    have hpurse := purse_cut (MoneyState.remove env s item (-1)) hp hcut rfl
    obtain ⟨hinv, htile⟩ := worth_cut (x := item) (MoneyState.remove env s item (-1)) hc hp hcut rfl hs he.below
    have hworth : worthTotal.toNat = (s.world.item item).getWorth.toNat := congrArg UInt32.toNat he.worth
    intro res
    unfold change at hchange
    have hres : res = spend env cyl flags ((worthTotal, item) :: l) s money := rfl
    unfold spend at hres
    dsimp only at hres hchange
    by_cases hlt : worthTotal.toUInt64 < money
    · rw [if_pos hlt] at hres hchange
      have hlt' := toNat_toUInt64_lt.mp hlt
      have hsub : (money - worthTotal.toUInt64).toNat = money.toNat - worthTotal.toNat := by
        rw [UInt64.toNat_sub_of_le _ _ (UInt64.le_of_lt hlt), UInt32.toNat_toUInt64]
      have hne : ¬money - worthTotal.toUInt64 = 0 := fun hz => by
        rw [hz] at hsub
        change 0 = _ at hsub
        omega
      rw [if_neg hne] at hres hchange
      have hnot : ∀ e ∈ l, e.2 ≠ item := fun e he heq => by
        have := List.mem_map_of_mem (f := Prod.snd) he
        rw [heq] at this
        exact (List.nodup_cons.mp hnodup).1 this
      obtain ⟨hbank, hrest⟩ := ih hpurse
        (fun e he => coin_cut hp hcut hs (hl e (List.mem_cons_of_mem _ he)) (hnot e he))
        (List.nodup_cons.mp hnodup).2 (by omega) hchange
      rw [hres]
      refine ⟨hbank, ?_⟩
      cases hleft : (spend env cyl flags l (MoneyState.remove env s item (-1)) (money - worthTotal.toUInt64)).2 with
      | none =>
        rw [hleft] at hrest
        dsimp only at hrest ⊢
        unfold MoneyState.worth at hrest ⊢
        omega
      | some left =>
        rw [hleft] at hrest
        obtain ⟨hpos', hsum, hinv', htile'⟩ := hrest
        rw [List.map_cons, List.sum_cons]
        dsimp only
        exact ⟨hpos', by omega, by omega, htile'.trans htile⟩
    · rw [if_neg hlt] at hres hchange
      have hge : money.toNat ≤ worthTotal.toNat := Nat.le_of_not_lt fun h => hlt (toNat_toUInt64_lt.mpr h)
      by_cases hgt : worthTotal.toUInt64 > money
      · rw [if_pos hgt] at hres hchange
        have hgt' : money.toNat < worthTotal.toNat := by
          have := UInt64.lt_iff_toNat_lt.mp hgt
          rwa [UInt32.toNat_toUInt64] at this
        obtain ⟨hsplit, hbank⟩ := split_spec hc hp he hpos hgt' (hchange _ _ rfl)
        rw [hres]
        exact ⟨hbank, hsplit⟩
      · rw [if_neg hgt] at hres
        have heq : money.toNat = worthTotal.toNat := by
          refine le_antisymm hge (Nat.le_of_not_lt fun h => hgt (UInt64.lt_iff_toNat_lt.mpr ?_))
          rwa [UInt32.toNat_toUInt64]
        rw [hres]
        refine ⟨rfl, ?_⟩
        dsimp only
        unfold MoneyState.worth
        omega

/-! ### The whole payment -/

theorem bank_spend (env : MoneyEnv) (cyl : Cylinder) (flags : UInt32) (l : List (UInt32 × Ref)) (s : MoneyState)
    (money : UInt64) :
    (spend env cyl flags l s money).1.bankBalance = s.bankBalance := by
  induction l generalizing s money with
  | nil => rfl
  | cons e l ih =>
    unfold spend
    dsimp only
    split_ifs
    · rfl
    · exact ih ..
    · exact bank_addMoney ..
    · rfl

theorem payer_false (cyl : Cylinder) : payer cyl false = none := by cases cyl <;> rfl

/-- A payment that fails changes nothing. -/
theorem removeMoney_refused {money : UInt64} {flags : UInt32} {useBalance : Bool}
    (h : (removeMoney env s cyl money flags useBalance).2 = false) :
    (removeMoney env s cyl money flags useBalance).1 = s := by
  unfold removeMoney at h ⊢
  dsimp only at h ⊢
  split_ifs at h ⊢
  · rfl
  · -- past the check of what there is, every way out answers `true`
    exfalso
    generalize spend env cyl flags _ s money = r at h
    obtain ⟨s₁, left⟩ := r
    cases left with
    | none => cases h
    | some left =>
      generalize payer cyl useBalance = player at h
      cases player with
      | none => cases h
      | some p =>
        dsimp only at h
        split_ifs at h

/-- A payment in coins alone goes through if the coins that are found suffice, and leaves the balances alone. -/
theorem removeMoney_coins (env : MoneyEnv) (s : MoneyState) (cyl : Cylinder) (money : UInt64) (flags : UInt32) :
    ((removeMoney env s cyl money flags false).2 = true ↔ money ≤ (gather s.world cyl).moneyCount) ∧
      (removeMoney env s cyl money flags false).1.bankBalance = s.bankBalance := by
  unfold removeMoney
  dsimp only
  rw [payer_false]
  split_ifs with hz hlt
  · rw [hz]
    exact ⟨iff_of_true rfl UInt64.zero_le, rfl⟩
  · rw [Option.map_none, Option.getD_none, UInt64.add_zero] at hlt
    exact ⟨iff_of_false nofun (UInt64.not_le.mpr hlt), rfl⟩
  · rw [Option.map_none, Option.getD_none, UInt64.add_zero] at hlt
    have hbank := bank_spend env cyl flags
      (env.sort (lowerCoin s.world) (gather s.world cyl).moneyItems) s money
    generalize spend env cyl flags _ s money = r at hbank
    obtain ⟨s₁, left⟩ := r
    cases left <;> exact ⟨iff_of_true rfl (UInt64.not_lt.mp hlt), hbank⟩

theorem payer_eq_some {p : PlayerRef} {useBalance : Bool} (h : payer cyl useBalance = some p) :
    cyl = .player p ∧ useBalance = true := by
  cases cyl with
  | container c => exact nomatch h
  | player q =>
    obtain ⟨hu, hq⟩ := Option.ite_none_right_eq_some.mp h
    cases hq
    exact ⟨rfl, hu⟩

/-- What is in the list of coins, in the order in which they are spent. -/
theorem coins_of_perm (hc : CoinsStack env.items) (hp : Purse env.items s) {l : List (UInt32 × Ref)}
    (hperm : l.Perm (gather s.world cyl).moneyItems)
    (hremovable : ∀ r, Lib.Below s.world.holder (.container r) cyl → (s.world.item r).isCoin → Removable env r) :
    (l.map fun e => e.1.toNat).sum = s.world.inventoryWorth env.items cyl ∧ (l.map (·.2)).Nodup ∧
      ∀ e ∈ l, IsCoin env s.world cyl e := by
  obtain ⟨hitems, -⟩ := gather_eq s.world cyl
  obtain ⟨hreached, hmem⟩ := mem_reached hp.carried hp.slotted cyl
  refine ⟨(hperm.map _).sum_eq.trans (sum_gather hc hp.carried hp.slotted cyl), ?_, fun e he => ?_⟩
  · rw [(hperm.map _).nodup_iff, hitems]
    exact nodup_coinsOf hreached
  · have he := hperm.mem_iff.mp he
    rw [hitems] at he
    obtain ⟨hr, -, hworth, hval⟩ := mem_coinsOf.mp he
    have hb := (hmem e.2).mp hr
    refine ⟨hb, hval, hval ▸ hworth, hremovable e.2 hb (Item.isCoin_of_coinUnit fun hu => hworth ?_)⟩
    refine UInt32.toNat_inj.mp ?_
    rw [Item.toNat_getWorth, hu, Nat.mul_zero]
    rfl

/-- The count of money can run over, but there is never less than it says. -/
theorem moneyCount_le (hc : CoinsStack env.items) (hp : Purse env.items s) (cyl : Cylinder) :
    (gather s.world cyl).moneyCount.toNat ≤ s.world.inventoryWorth env.items cyl := by
  rw [(gather_eq s.world cyl).2, Lib.toNat_sum_uint64, List.map_map, ← sum_gather hc hp.carried hp.slotted cyl]
  refine (Nat.mod_le ..).trans_eq ?_
  exact congrArg List.sum (List.map_congr_left fun e _ => UInt32.toNat_toUInt64 e.1)

/-- The ways in which a payment goes through: nothing is to pay, the coins were enough, or a rest is left, which the bank pays
    where it has that much. -/
theorem removeMoney_cases {money : UInt64} {flags : UInt32} {useBalance : Bool} {s' : MoneyState} (hz : money ≠ 0)
    (h : removeMoney env s cyl money flags useBalance = (s', true)) :
    money ≤ (gather s.world cyl).moneyCount + ((payer cyl useBalance).map s.bankBalance).getD 0 ∧
      ∃ s₁ left, spend env cyl flags (env.sort (lowerCoin s.world) (gather s.world cyl).moneyItems) s money = (s₁, left) ∧
        ((left = none ∧ s' = s₁) ∨ ∃ rest, left = some rest ∧ ∀ p, payer cyl useBalance = some p →
          s₁.bankBalance p ≥ rest →
            s' = { s₁ with bankBalance := Function.update s₁.bankBalance p (s₁.bankBalance p - rest) }) := by
  unfold removeMoney at h
  rw [if_neg hz] at h
  dsimp only at h
  by_cases hafford : (gather s.world cyl).moneyCount + ((payer cyl useBalance).map s.bankBalance).getD 0 < money
  · rw [if_pos hafford] at h
    cases h
  rw [if_neg hafford] at h
  generalize spend env cyl flags _ s money = r at h ⊢
  obtain ⟨s₁, left⟩ := r
  refine ⟨UInt64.not_lt.mp hafford, s₁, left, rfl, ?_⟩
  cases left with
  | none =>
    cases h
    exact .inl ⟨rfl, rfl⟩
  | some rest =>
    refine .inr ⟨rest, rfl, fun p hpayer hge => ?_⟩
    rw [hpayer] at h
    dsimp only at h
    rw [if_pos hge] at h
    cases h
    rfl

/-- A payment that goes through takes the price from the coins and, where those do not suffice, from the bank. -/
theorem removeMoney_pays (hc : CoinsStack env.items) (hp : Purse env.items s) (money : UInt64) (flags : UInt32)
    (useBalance : Bool)
    (hremovable : ∀ r, Lib.Below s.world.holder (.container r) cyl → (s.world.item r).isCoin → Removable env r)
    (hchange : ∀ s' m, change env (env.sort (lowerCoin s.world) (gather s.world cyl).moneyItems) s money = some (s', m) →
      PlacesChange env cyl flags s' m) :
    let res := removeMoney env s cyl money flags useBalance
    res.2 = true →
      res.1.worth env.items cyl + res.1.bank cyl + money.toNat = s.worth env.items cyl + s.bank cyl ∧
      ∀ p, res.1.bankBalance p ≠ s.bankBalance p → cyl = .player p ∧ useBalance = true ∧
        res.1.bankBalance p < s.bankBalance p ∧ res.1.world.inventoryWorth env.items cyl = 0 := by
  intro res htrue
  generalize hres : res = out at htrue ⊢
  obtain ⟨s', b⟩ := out
  subst htrue
  dsimp only
  by_cases hz : money = 0
  · obtain rfl : s = s' := by
      change removeMoney env s cyl money flags useBalance = _ at hres
      unfold removeMoney at hres
      rw [if_pos hz] at hres
      cases hres
      rfl
    rw [hz]
    exact ⟨rfl, fun p hp => absurd rfl hp⟩
  obtain ⟨hafford, s₁, left, hs, hcases⟩ := removeMoney_cases hz hres
  obtain ⟨hsum, hnodup, hcoins⟩ := coins_of_perm hc hp (env.sort_perm (lowerCoin s.world) _) hremovable
  have hpos : 0 < money.toNat := Nat.pos_of_ne_zero fun h => hz (UInt64.toNat_inj.mp h)
  obtain ⟨hbank, hspend⟩ := spend_spec hc hp hcoins hnodup hpos hchange
  rw [hs] at hbank hspend
  dsimp only at hbank hspend
  have hsame : s₁.bank cyl = s.bank cyl := by
    cases cyl with
    | container c => rfl
    | player p => exact congrArg UInt64.toNat (congrFun hbank p)
  obtain ⟨rfl, rfl⟩ | ⟨rest, rfl, hrest⟩ := hcases
  · refine ⟨?_, fun p hp => absurd (congrFun hbank p) hp⟩
    dsimp only at hspend
    omega
  · obtain ⟨hleft, htotal, hinv, htile⟩ := hspend
    -- all coins are spent, so the bank has to hold the rest
    have hempty : s₁.world.inventoryWorth env.items cyl = 0 := by omega
    have hcount := moneyCount_le hc hp cyl
    have hgot : money.toNat ≤ (gather s.world cyl).moneyCount.toNat +
        (((payer cyl useBalance).map s.bankBalance).getD 0).toNat := by
      refine (UInt64.le_iff_toNat_le.mp hafford).trans ?_
      rw [UInt64.toNat_add]
      exact Nat.mod_le ..
    cases hpayer : payer cyl useBalance with
    | none =>
      rw [hpayer] at hgot
      change _ ≤ _ + 0 at hgot
      omega
    | some p =>
      rw [hpayer] at hgot
      change _ ≤ _ + (s.bankBalance p).toNat at hgot
      have hge : s₁.bankBalance p ≥ rest := by
        rw [hbank]
        exact UInt64.le_iff_toNat_le.mpr (by omega)
      have hsub := UInt64.toNat_sub_of_le _ _ hge
      have hge' := UInt64.le_iff_toNat_le.mp hge
      rw [hbank] at hsub hge'
      obtain rfl := hrest p hpayer hge
      obtain ⟨rfl, rfl⟩ := payer_eq_some hpayer
      refine ⟨?_, fun q hq => ?_⟩
      · change s₁.worth env.items _ + (Function.update s₁.bankBalance p _ p).toNat + _ = s.worth env.items _ + _
        rw [Function.update_self, hbank, hsub]
        have hbankp : s.bank (.player p) = (s.bankBalance p).toNat := rfl
        unfold MoneyState.worth
        omega
      · have hqp : q = p := of_not_not fun hne => hq <| by
          change Function.update s₁.bankBalance p _ q = _
          rw [Function.update_of_ne hne, hbank]
        subst hqp
        refine ⟨rfl, rfl, ?_, hempty⟩
        change Function.update s₁.bankBalance q _ q < _
        rw [Function.update_self, hbank, UInt64.lt_iff_toNat_lt, hsub]
        omega

/-- A payment takes the price from the coins and, where those do not suffice, from the bank, or it changes nothing. -/
theorem removeMoney_exact (hc : CoinsStack env.items) (hp : Purse env.items s) (money : UInt64) (flags : UInt32)
    (useBalance : Bool)
    (hremovable : ∀ r, Lib.Below s.world.holder (.container r) cyl → (s.world.item r).isCoin → Removable env r)
    (hchange : ∀ s' m, change env (env.sort (lowerCoin s.world) (gather s.world cyl).moneyItems) s money = some (s', m) →
      PlacesChange env cyl flags s' m) :
    let res := removeMoney env s cyl money flags useBalance
    (res.2 = true →
      res.1.worth env.items cyl + res.1.bank cyl + money.toNat = s.worth env.items cyl + s.bank cyl ∧
      ∀ p, res.1.bankBalance p ≠ s.bankBalance p → cyl = .player p ∧ useBalance = true ∧
        res.1.bankBalance p < s.bankBalance p ∧ res.1.world.inventoryWorth env.items cyl = 0) ∧
      (res.2 = false → res.1 = s) := by
  intro res
  exact ⟨removeMoney_pays hc hp money flags useBalance hremovable hchange, removeMoney_refused⟩

/-! ### Change that comes down on the tile -/

/-- All but the container stacks, and what finds no room comes down on the tile. -/
def tileEnv : MoneyEnv where
  items id := { Container.tenType id with
    stackable := id != 2853, stackSize := 100, plain := fun _ => rfl }
  MAX_CONTAINER := 500
  MAX_CONTAINER_DEPTH := 200
  ENABLE_PLAYER_PUT_ITEM_IN_AMMO_SLOT := false
  isOwner _ _ := true
  onPlayerEquip _ _ _ _ := true
  AUTOBANK := false
  canRemove _ := true
  decaysFromMap _ := false
  internalCollectManagedItems w _ _ := (w, .NOTPOSSIBLE)
  addToTile w tile item := (w, tile ++ [item])
  sort less l := l.insertionSort fun a b => !less b a
  sort_perm less l := List.perm_insertionSort _ l
  sort_sorted less hasymm htrans l := by
    have htotal : Std.Total fun a b => (!less b a) = true := ⟨fun a b => by
      cases h : less b a with
      | false => exact .inl rfl
      | true => exact .inr (hasymm b a h)⟩
    have : IsTrans (UInt32 × Ref) fun a b => (!less b a) = true := ⟨fun a b c hab hbc => htrans c b a hbc hab⟩
    exact List.pairwise_insertionSort _ l

/-- A container with room for one item at 0, and a platinum coin in it. -/
def coinState : MoneyState where
  world :=
    { item := fun
        | 0 => ⟨2853, 1, none, none, some ⟨2000, 1, 10, [1], true, false, false⟩⟩
        | 1 => ⟨ITEM_PLATINUM_COIN, 1, none, some (.container 0), none⟩
        | _ + 2 => ⟨3264, 1, none, none, none⟩
      next := 2
      players := fun _ => ⟨fun _ => none, none, false, false, 0, 0, false⟩ }
  tile := []
  bankBalance _ := 0

theorem coinState_parent {r : Ref} {k : Cylinder} (h : coinState.world.getParent r = some k) : r = 1 ∧ k = .container 0 := by
  match r with
  | 0 | _ + 2 => exact nomatch h
  | 1 =>
    cases h
    exact ⟨rfl, rfl⟩

theorem coinState_purse : Purse tileEnv.items coinState where
  carried.forest.lists := by
    constructor
    · intro x c
      constructor
      · intro hx
        match c with
        | 0 =>
          cases List.mem_singleton.mp hx
          rfl
        | 1 | _ + 2 => exact absurd hx List.not_mem_nil
      · intro hx
        obtain ⟨rfl, hc⟩ := coinState_parent (World.getParent_of_getParentContainer hx)
        cases hc
        exact List.mem_singleton_self 1
    · intro c
      match c with
      | 0 => exact List.nodup_singleton 1
      | 1 | _ + 2 => exact List.nodup_nil
  carried.forest.acyclic x hx := by
    obtain ⟨c, hc, hx⟩ := Lib.below_cases hx
    obtain ⟨rfl, hc⟩ := coinState_parent (World.getParent_of_getParentContainer hc)
    cases hc
    rcases hx with hx | hx
    · exact absurd hx (by decide)
    · obtain ⟨c, hc, -⟩ := Lib.below_cases hx
      exact absurd (coinState_parent (World.getParent_of_getParentContainer hc)).1 (by decide)
  carried.forest.made r c hr := by
    obtain ⟨rfl, hc⟩ := coinState_parent (World.getParent_of_getParentContainer hr)
    cases hc
    decide
  carried.single r hr := by
    match r with
    | 0 => rfl
    | 1 | _ + 2 => exact nomatch hr
  carried.slots p s r h := nomatch h
  carried.made r k h := by
    obtain ⟨rfl, -⟩ := coinState_parent h
    decide
  slotted.slot p r h := nomatch (coinState_parent h).2
  slotted.once p i j r h := nomatch h
  tile r h := absurd h List.not_mem_nil

/-- The gold that is given back. -/
theorem coinState_places :
    Places tileEnv.items (.container 0) coinState (placeCoins tileEnv (.container 0) 0 coinState (ITEM_GOLD_COIN, 70))
      (ITEM_GOLD_COIN, 70) := by
  have hp := coinState_purse
  have hmade : (Item.CreateItem tileEnv.items ITEM_GOLD_COIN 70).m_parent = none := rfl
  have hnone : coinState.world.getParent coinState.world.next = none := rfl
  have hparent := World.getParent_new hmade hnone
  have hcarried := carried_new (Item.fresh_of_none hmade rfl) hp.carried
  refine ⟨⟨hcarried, ⟨fun p r h => ?_, fun p i j r h => nomatch h⟩, fun r hr => ?_⟩, by decide, fun r k h => ?_,
    fun r hr _ => ?_⟩
  · exact nomatch (coinState_parent ((congrFun hparent r).symm.trans h)).2
  · cases List.mem_singleton.mp hr
    exact congrFun hparent 2
  · exact (congrFun hparent r).trans h
  · exact congrArg Item.plain (Function.update_of_ne (Nat.ne_of_lt hr) ..)

theorem removeMoney_exact_tile :
    let res := removeMoney tileEnv coinState (.container 0) 30 0 true
    (res.2 = true →
      res.1.worth tileEnv.items (.container 0) + res.1.bank (.container 0) + 30 =
        coinState.worth tileEnv.items (.container 0) + coinState.bank (.container 0) ∧
      ∀ p, res.1.bankBalance p ≠ coinState.bankBalance p → Cylinder.container 0 = .player p ∧ true = true ∧
        res.1.bankBalance p < coinState.bankBalance p ∧
        res.1.world.inventoryWorth tileEnv.items (.container 0) = 0) ∧ (res.2 = false → res.1 = coinState) :=
  removeMoney_exact ⟨rfl, rfl, rfl⟩ coinState_purse 30 0 true (fun _ _ _ => ⟨rfl, Bool.false_ne_true⟩) fun s' m h => by
    have hchange : change tileEnv (tileEnv.sort (lowerCoin coinState.world)
        (gather coinState.world (.container 0)).moneyItems) coinState 30 = some (coinState, 70) := rfl
    cases hchange.symm.trans h
    exact ⟨coinState_places, trivial⟩

end Game
end CrystalServer
