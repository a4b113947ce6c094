import CrystalServer.Market.Market
import Mathlib.Data.List.TakeWhile

/-! # Units that the market makes and takes

The items made of an amount come to the amount, whatever the limit of a stack; the items taken from a player are as many
as were asked for where stash and locker hold them. -/

namespace CrystalServer.Market

/-- A pile of one item: at least one piece, exactly one where the type does not stack, and a tier that exists. -/
structure Ware.Ok (env : MarketEnv) (w : Ware) : Prop where
  pos : 0 < w.count
  single : (env.items w.id).stackable = false → w.count = 1
  tier : w.tier ≤ env.FORGE_MAX_ITEM_TIER

/-- The units of an id in some tiers. -/
def Ware.units (id : UInt16) (tiers : UInt8 → Bool) (w : Ware) : Nat :=
  if w.id = id ∧ tiers w.tier = true then w.count.toNat else 0

def units (id : UInt16) (tiers : UInt8 → Bool) (l : List Ware) : Nat := (l.map (Ware.units id tiers)).sum

/-- What a player holds in stash, locker and inbox. Nothing in the stash has a tier. -/
def Player.units (id : UInt16) (tiers : UInt8 → Bool) (p : Player) : Nat :=
  (if tiers 0 = true then p.stash id else 0) + Market.units id tiers p.locker

/-- All that a player has in the locker is in order. -/
def Player.Stocked (env : MarketEnv) (p : Player) : Prop := ∀ w ∈ p.locker, w.Ok env

variable {env : MarketEnv} {id : UInt16} {tiers : UInt8 → Bool}

@[simp] theorem units_nil : units id tiers [] = 0 := rfl

@[simp] theorem units_cons (w : Ware) (l : List Ware) : units id tiers (w :: l) = w.units id tiers + units id tiers l :=
  rfl

@[simp] theorem units_append (l l' : List Ware) : units id tiers (l ++ l') = units id tiers l + units id tiers l' := by
  simp [units]

/-! ### Items that are made -/

theorem items_id {type : UInt16} (h : (env.items type).id ≠ 0) : (env.items type).id = type :=
  (env.registered type).resolve_left h

theorem make_id (items : UInt16 → ItemType) (type count : UInt16) : (Item.make items type count).id = type := by
  unfold Item.make Item.setAttribute Item.setItemCount Item.setDuration Item.setAttribute
  dsimp only
  split_ifs <;> rfl

theorem make_count_stack {items : UInt16 → ItemType} {type count : UInt16} (hs : (items type).stackable = true)
    (hc : count ≠ 0) : (Item.make items type count).count = .ofNat count.toNat := by
  have hplain := (items type).plain hs
  unfold Item.make Item.setAttribute Item.setItemCount Item.setDuration Item.setAttribute
  dsimp only
  split_ifs <;> simp_all

theorem make_count_single {items : UInt16 → ItemType} {type : UInt16} (hs : (items type).stackable = false)
    (count : UInt16) : (Item.make items type count).count = 1 := by
  unfold Item.make Item.setAttribute Item.setItemCount Item.setDuration Item.setAttribute
  dsimp only
  split_ifs <;> simp_all

section
variable {type : UInt16} (hw : env.wareId type ≠ 0)
include hw

/-- A stack of a market type has its id and the count that was asked for. -/
theorem createItem_stack (hs : (env.items type).stackable = true) {n : Nat} (hpos : 0 < n) (hn : n < 256)
    (tier : UInt8) : CreateItem env type (.ofNat n) tier = ⟨type, .ofNat n, tier, true⟩ := by
  have htoNat : (UInt16.ofNat n).toNat = n := by
    rw [UInt16.toNat_ofNat', Nat.mod_eq_of_lt (by omega)]
  have hne : UInt16.ofNat n ≠ 0 := fun h0 => by
    rw [h0] at htoNat
    exact hpos.ne htoNat
  unfold CreateItem Item.CreateItem
  dsimp only
  rw [if_neg fun h => hne h.2, env.untransformed type hw, Option.getD_none, make_id, make_count_stack hs hne, htoNat]

/-- Any other item of a market type is one piece. -/
theorem createItem_single (hs : (env.items type).stackable = false) (count : UInt16) (tier : UInt8) :
    CreateItem env type count tier = ⟨type, 1, tier, true⟩ := by
  unfold CreateItem Item.CreateItem
  dsimp only
  rw [env.untransformed type hw, Option.getD_none, make_id, make_count_single hs]

variable (hid : (env.items type).id = type) {limit : Nat} {amount : UInt16} {tier : UInt8}
include hid

theorem makeItems_stack (hs : (env.items type).stackable = true) (hl : 0 < limit) (hl' : limit < 256) :
    makeItems env (env.items type) limit amount tier =
      (Lib.chunks limit amount.toNat amount.toNat).map fun n => ⟨type, .ofNat n, tier, true⟩ := by
  unfold makeItems
  rw [if_pos hs, hid]
  refine List.map_congr_left fun n hn => ?_
  obtain ⟨hpos, hle, -⟩ := Lib.mem_chunks hl hn
  exact createItem_stack hw hs hpos (by omega) tier

theorem makeItems_single (hs : (env.items type).stackable = false) :
    makeItems env (env.items type) limit amount tier = List.replicate amount.toNat ⟨type, 1, tier, true⟩ := by
  unfold makeItems
  rw [if_neg (by simp [hs]), hid]
  dsimp only
  rw [createItem_single hw hs]

/-- The items made of an amount come to the amount. -/
theorem units_makeItems (hl : 0 < limit) (hl' : limit < 256) :
    units id tiers (makeItems env (env.items type) limit amount tier) =
      if type = id ∧ tiers tier = true then amount.toNat else 0 := by
  cases hs : (env.items type).stackable with
  | true =>
    rw [makeItems_stack hw hid hs hl hl', units, List.map_map]
    have hsum := Lib.sum_chunks hl (Nat.le_refl amount.toNat)
    split_ifs with hkey
    · refine (congrArg List.sum ((List.map_congr_left fun n hn => ?_).trans (List.map_id _))).trans hsum
      obtain ⟨-, hle, -⟩ := Lib.mem_chunks hl hn
      simp only [Function.comp_apply, Ware.units, if_pos hkey, id_eq]
      rw [UInt8.toNat_ofNat', Nat.mod_eq_of_lt (by omega)]
    · refine List.sum_eq_zero fun n hn => ?_
      obtain ⟨m, -, rfl⟩ := List.mem_map.mp hn
      exact if_neg hkey
  | false =>
    rw [makeItems_single hw hid hs, units, List.map_replicate, List.sum_replicate, Ware.units]
    split_ifs <;> simp

/-- Each of them is a pile in order, of at most the limit or one piece. -/
theorem mem_makeItems (hl : 0 < limit) (hl' : limit < 256) {w : Ware}
    (h : w ∈ makeItems env (env.items type) limit amount tier) :
    w.id = type ∧ w.tier = tier ∧ 0 < w.count ∧
      w.count.toNat ≤ if (env.items type).stackable then limit else 1 := by
  cases hs : (env.items type).stackable with
  | true =>
    rw [makeItems_stack hw hid hs hl hl'] at h
    obtain ⟨n, hn, rfl⟩ := List.mem_map.mp h
    obtain ⟨hpos, hle, -⟩ := Lib.mem_chunks hl hn
    have htoNat : (UInt8.ofNat n).toNat = n := by rw [UInt8.toNat_ofNat', Nat.mod_eq_of_lt (by omega)]
    refine ⟨rfl, rfl, UInt8.lt_iff_toNat_lt.mpr ?_, ?_⟩
    · rw [htoNat]
      exact hpos
    · rw [if_pos rfl, htoNat]
      exact hle
  | false =>
    rw [makeItems_single hw hid hs] at h
    obtain rfl := List.eq_of_mem_replicate h
    exact ⟨rfl, rfl, (by decide : (0 : UInt8) < 1), by simp⟩

/-- The inbox takes them all. -/
theorem addToInbox_makeItems (p : Player) (hl : 0 < limit) (hl' : limit < 256) :
    p.addToInbox env (makeItems env (env.items type) limit amount tier) =
      { p with locker := p.locker ++ makeItems env (env.items type) limit amount tier } := by
  have hall : (makeItems env (env.items type) limit amount tier).takeWhile
      (fun ware => (env.items ware.id).pickupable) = makeItems env (env.items type) limit amount tier := by
    refine List.takeWhile_eq_self_iff.mpr fun w h => ?_
    rw [(mem_makeItems hw hid hl hl' h).1]
    exact env.pickupable type hw
  rw [Player.addToInbox, hall]

theorem ok_makeItems (hl : 0 < limit) (hl' : limit < 256) (ht : tier ≤ env.FORGE_MAX_ITEM_TIER) {w : Ware}
    (h : w ∈ makeItems env (env.items type) limit amount tier) : w.Ok env := by
  obtain ⟨rfl, rfl, hpos, hle⟩ := mem_makeItems hw hid hl hl' h
  refine ⟨hpos, fun hs => ?_, ht⟩
  rw [hs, if_neg Bool.false_ne_true] at hle
  have hpos' := UInt8.lt_iff_toNat_lt.mp hpos
  refine UInt8.toNat_inj.mp ?_
  change w.count.toNat = 1
  change 0 < w.count.toNat at hpos'
  omega

end

/-! ### Items that are taken -/

section
variable {w : Ware}

theorem units_removeItem (h : w.Ok env) {n : Nat} (hpos : 0 < n) (hle : n ≤ w.count.toNat) (id : UInt16)
    (tiers : UInt8 → Bool) :
    units id tiers (removeItem env w n) + (if w.id = id ∧ tiers w.tier = true then n else 0) = w.units id tiers := by
  unfold removeItem
  split_ifs with hpart hkey hkey
  · have hsub : (w.count - UInt8.ofNat n).toNat = w.count.toNat - n := by
      have hn : (UInt8.ofNat n).toNat = n := by
        rw [UInt8.toNat_ofNat', Nat.mod_eq_of_lt (by have := w.count.toNat_lt; omega)]
      rw [UInt8.toNat_sub_of_le _ _ (UInt8.le_iff_toNat_le.mpr (by rw [hn]; exact hle)), hn]
    simp only [units_cons, units_nil, Ware.units, if_pos hkey, hsub]
    omega
  · simp [Ware.units, hkey]
  · -- the whole pile goes: all its pieces, or its only one
    have hn : n = w.count.toNat := by
      by_cases hs : (env.items w.id).stackable = true
      · exact of_not_not fun hne => hpart ⟨hs, hne⟩
      · have hone := congrArg UInt8.toNat (h.single (by simpa using hs))
        change w.count.toNat = 1 at hone
        omega
    simp [Ware.units, hkey, hn]
  · simp [Ware.units, hkey]

theorem ok_removeItem (h : w.Ok env) {n : Nat} (hle : n ≤ w.count.toNat) : ∀ w' ∈ removeItem env w n, w'.Ok env := by
  intro w' hw'
  unfold removeItem at hw'
  split_ifs at hw' with hpart
  · obtain rfl := List.mem_singleton.mp hw'
    have hn : (UInt8.ofNat n).toNat = n := by
      rw [UInt8.toNat_ofNat', Nat.mod_eq_of_lt (by have := w.count.toNat_lt; omega)]
    refine ⟨UInt8.lt_iff_toNat_lt.mpr ?_, fun hs => ?_, h.tier⟩
    · change 0 < (w.count - UInt8.ofNat n).toNat
      rw [UInt8.toNat_sub_of_le _ _ (UInt8.le_iff_toNat_le.mpr (by rw [hn]; exact hle)), hn]
      have := hpart.2
      omega
    · exact absurd hpart.1 (by simpa using hs)
  · exact absurd hw' List.not_mem_nil

/-- The pieces of the items that are sought. -/
def stock (sought : Ware → Bool) (l : List Ware) : Nat := ((l.filter sought).map fun w => w.count.toNat).sum

/-- The loop over the locker takes pieces of sought items only, as many as are asked for or all there are. -/
theorem removeItems_spec {type : UInt16} {tier : UInt8} (sought : Ware → Bool)
    (hs : ∀ w, sought w = true → w.id = type ∧ w.tier = tier) (left : Nat) {l : List Ware} (hl : ∀ w ∈ l, w.Ok env) :
    (removeItems env sought left l).1 = left - stock sought l ∧
    (∀ id tiers, units id tiers (removeItems env sought left l).2 +
      (if type = id ∧ tiers tier = true then min left (stock sought l) else 0) = units id tiers l) ∧
    ∀ w ∈ (removeItems env sought left l).2, w.Ok env := by
  induction l generalizing left with
  | nil => simp [removeItems, stock]
  | cons w l ih =>
    have hw := hl w List.mem_cons_self
    have hrest : ∀ w ∈ l, w.Ok env := fun w h => hl w (List.mem_cons_of_mem _ h)
    have hpos := UInt8.lt_iff_toNat_lt.mp hw.pos
    change 0 < w.count.toNat at hpos
    unfold removeItems
    by_cases hsw : sought w = true
    · have hstock : stock sought (w :: l) = w.count.toNat + stock sought l := by simp [stock, hsw]
      obtain ⟨hid, htier⟩ := hs w hsw
      by_cases hleft : left > 0
      · rw [if_pos ⟨hsw, hleft⟩]
        obtain ⟨h1, h2, h3⟩ := ih (left - min left w.count.toNat) hrest
        refine ⟨?_, fun id tiers => ?_, fun w' hw' => ?_⟩
        · dsimp only
          omega
        · have hu := units_removeItem hw (n := min left w.count.toNat) (by omega) (by omega) id tiers
          have hr := h2 id tiers
          rw [hid, htier] at hu
          dsimp only
          rw [units_append, units_cons, hstock]
          split_ifs at hu hr ⊢ <;> omega
        · rcases List.mem_append.mp hw' with h | h
          · exact ok_removeItem hw (by omega) w' h
          · exact h3 w' h
      · rw [if_neg fun h => hleft h.2]
        obtain ⟨h1, h2, h3⟩ := ih left hrest
        refine ⟨?_, fun id tiers => ?_, fun w' hw' => ?_⟩
        · dsimp only
          omega
        · have hr := h2 id tiers
          dsimp only
          rw [units_cons, units_cons, hstock]
          split_ifs at hr ⊢ <;> omega
        · rcases List.mem_cons.mp hw' with rfl | h
          · exact hw
          · exact h3 w' h
    · have hstock : stock sought (w :: l) = stock sought l := by simp [stock, hsw]
      rw [if_neg fun h => hsw h.1]
      obtain ⟨h1, h2, h3⟩ := ih left hrest
      refine ⟨by rw [hstock]; exact h1, fun id tiers => ?_, fun w' hw' => ?_⟩
      · have hr := h2 id tiers
        dsimp only
        rw [units_cons, units_cons, hstock]
        omega
      · rcases List.mem_cons.mp hw' with rfl | h
        · exact hw
        · exact h3 w' h

/-- Apart from items nothing of the player changes. -/
structure Player.SamePurse (p p' : Player) : Prop where
  bankBalance : p'.bankBalance = p.bankBalance
  money : p'.money = p.money
  account : p'.account = p.account

variable {p : Player} {type amount : UInt16} {tier : UInt8}

theorem sought_eq (h : sought env type tier w = true) : w.id = type ∧ w.tier = tier := by
  simp only [sought, Bool.and_eq_true, decide_eq_true_eq] at h
  exact ⟨h.2, h.1.2⟩

theorem fromStash_le (env : MarketEnv) (p : Player) (type amount : UInt16) (tier : UInt8) :
    p.fromStash env type amount tier ≤ amount.toNat ∧
      p.fromStash env type amount tier ≤ p.stash (env.wareId type) ∧
      (0 < p.fromStash env type amount tier → tier = 0) := by
  unfold Player.fromStash
  split_ifs with ht
  · exact ⟨min_le_left .., min_le_right .., fun _ => ht⟩
  · exact ⟨Nat.zero_le _, Nat.zero_le _, fun h => absurd h (Nat.lt_irrefl 0)⟩

theorem units_withdrawItem (p : Player) (itemId : UInt16) {n : Nat} (hn : n ≤ p.stash itemId) (id : UInt16)
    (tiers : UInt8 → Bool) :
    (p.withdrawItem itemId n).units id tiers + (if itemId = id ∧ tiers 0 = true then n else 0) = p.units id tiers := by
  unfold Player.units Player.withdrawItem
  by_cases ht : tiers 0 = true
  · by_cases hid : itemId = id
    · subst hid
      simp only [ht, and_self, if_true, Function.update_self]
      omega
    · have hne : id ≠ itemId := fun h => hid h.symm
      simp [ht, hid, hne]
  · simp [ht]

/-- What is taken for an offer: from the stash as much as it has if the tier is zero, the rest from the locker. -/
theorem removeOfferItems_spec (hs : p.Stocked env) {p' : Player}
    (h : removeOfferItems env p type amount tier = (p', true)) :
    (∀ id tiers, p'.units id tiers +
      (if env.wareId type = id ∧ tiers 0 = true then p.fromStash env type amount tier else 0) +
      (if type = id ∧ tiers tier = true then amount.toNat - p.fromStash env type amount tier else 0) =
        p.units id tiers) ∧ p'.Stocked env ∧ p.SamePurse p' := by
  obtain ⟨hle, hstash, -⟩ := fromStash_le env p type amount tier
  unfold removeOfferItems at h
  dsimp only at h
  generalize p.fromStash env type amount tier = stashed at h hle hstash ⊢
  generalize hq : (if stashed > 0 then p.withdrawItem (env.wareId type) stashed else p) = q at h
  have hlocker : q.locker = p.locker := by
    subst hq
    split <;> rfl
  have hsame : p.SamePurse q := by
    subst hq
    split <;> exact ⟨rfl, rfl, rfl⟩
  have hunits : ∀ id tiers, q.units id tiers + (if env.wareId type = id ∧ tiers 0 = true then stashed else 0) =
      p.units id tiers := by
    intro id tiers
    subst hq
    split_ifs with hpos hkey hkey
    · rw [← units_withdrawItem p _ hstash id tiers, if_pos hkey]
    · rw [← units_withdrawItem p _ hstash id tiers, if_neg hkey]
    · omega
    · rfl
  have hstocked : q.Stocked env := fun w hw => hs w (hlocker ▸ hw)
  by_cases hrest : amount.toNat - stashed > 0
  · rw [if_pos hrest] at h
    split at h
    · cases h
    · simp only [Prod.mk.injEq, decide_eq_true_eq] at h
      obtain ⟨rfl, hall⟩ := h
      obtain ⟨hleft, htaken, hok⟩ :=
        removeItems_spec (sought env type tier) (fun w => sought_eq) (amount.toNat - stashed) hstocked
      refine ⟨fun id tiers => ?_, hok, ⟨hsame.bankBalance, hsame.money, hsame.account⟩⟩
      have hu := hunits id tiers
      have ht := htaken id tiers
      have hmin : min (amount.toNat - stashed) (stock (sought env type tier) q.locker) = amount.toNat - stashed := by
        omega
      rw [hmin] at ht
      unfold Player.units at hu ⊢
      dsimp only
      omega
  · rw [if_neg hrest] at h
    cases h
    refine ⟨fun id tiers => ?_, hstocked, hsame⟩
    have hz : amount.toNat - stashed = 0 := by omega
    rw [hz, ite_self, Nat.add_zero]
    exact hunits id tiers

/-- The items that the locker is found to have, in 16 bits. -/
def Player.itemCount (env : MarketEnv) (p : Player) (type : UInt16) (tier : UInt8) : UInt16 :=
  .ofNat (p.locker.filter (sought env type tier)).length

/-- Stash and locker hold the amount, what is in the stash under the id of the type itself. -/
structure Player.Stocks (env : MarketEnv) (p : Player) (type amount : UInt16) (tier : UInt8) : Prop where
  enough : amount.toNat ≤ p.fromStash env type amount tier + stock (sought env type tier) p.locker
  items : p.itemCount env type tier = 0 → amount.toNat ≤ p.fromStash env type amount tier
  ware : 0 < p.fromStash env type amount tier → env.wareId type = type

/-- Neither stash nor locker has anything that could be taken. -/
structure Player.Lacks (env : MarketEnv) (p : Player) (type amount : UInt16) (tier : UInt8) : Prop where
  stash : p.fromStash env type amount tier = 0
  items : p.itemCount env type tier = 0

theorem removeOfferItems_stocks (hs : p.Stocked env) (h : p.Stocks env type amount tier) :
    ∃ p', removeOfferItems env p type amount tier = (p', true) := by
  obtain ⟨hamount, hitems, -⟩ := h
  unfold Player.itemCount at hitems
  unfold removeOfferItems
  dsimp only
  generalize p.fromStash env type amount tier = stashed at hamount hitems ⊢
  generalize hq : (if stashed > 0 then p.withdrawItem (env.wareId type) stashed else p) = q
  have hlocker : q.locker = p.locker := by
    subst hq
    split <;> rfl
  rw [← hlocker] at hamount hitems
  split_ifs with hrest hzero
  · have := hitems hzero
    omega
  · obtain ⟨hleft, -, -⟩ := removeItems_spec (sought env type tier) (fun w => sought_eq) (amount.toNat - stashed)
      fun w hw => hs w (hlocker ▸ hw)
    refine ⟨_, Prod.ext rfl ?_⟩
    simp only [decide_eq_true_eq]
    omega
  · exact ⟨_, rfl⟩

theorem removeOfferItems_lacks (hamount : amount ≠ 0) (h : p.Lacks env type amount tier) :
    removeOfferItems env p type amount tier = (p, false) := by
  have hpos : amount.toNat - 0 > 0 := Nat.pos_of_ne_zero fun h0 => hamount (UInt16.toNat_inj.mp h0)
  unfold removeOfferItems
  dsimp only
  rw [h.stash, if_neg (Nat.lt_irrefl 0), if_pos hpos]
  exact if_pos h.items

end

/-! ### Money that is taken -/

/-- What a player can pay with. -/
def Player.worth (p : Player) : Nat := p.money.toNat + p.bankBalance.toNat

/-- Apart from money nothing of the player changes. -/
structure Player.SameGoods (p p' : Player) : Prop where
  stash : p'.stash = p.stash
  locker : p'.locker = p.locker
  account : p'.account = p.account

theorem sameGoods_removeMoney (p : Player) (money : UInt64) (useBalance : Bool) :
    p.SameGoods (p.removeMoney money useBalance).1 := by
  unfold Player.removeMoney
  dsimp only
  split_ifs <;> exact ⟨rfl, rfl, rfl⟩

/-- What can be paid is paid, exactly. -/
theorem worth_removeMoney (p : Player) (money : UInt64) (useBalance : Bool)
    (h : money ≤ p.money + if useBalance then p.bankBalance else 0) :
    (p.removeMoney money useBalance).1.worth + money.toNat = p.worth := by
  have hsum := UInt64.le_iff_toNat_le.mp h
  rw [UInt64.toNat_add] at hsum
  have hle : money.toNat ≤ p.money.toNat + (if useBalance then p.bankBalance else 0).toNat :=
    hsum.trans (Nat.mod_le ..)
  unfold Player.removeMoney
  dsimp only
  by_cases hz : money = 0
  · rw [if_pos hz, hz]
    rfl
  · rw [if_neg hz, if_neg (UInt64.not_lt.mpr h)]
    by_cases hcoins : money ≤ p.money
    · have hsub := UInt64.toNat_sub_of_le _ _ hcoins
      have hcoins' := UInt64.le_iff_toNat_le.mp hcoins
      rw [if_pos hcoins]
      simp only [Player.worth, hsub]
      omega
    · have hlt : p.money < money := UInt64.not_le.mp hcoins
      have hsub := UInt64.toNat_sub_of_le _ _ (UInt64.le_of_lt hlt)
      have hlt' := UInt64.lt_iff_toNat_lt.mp hlt
      cases useBalance with
      | false =>
        change money.toNat ≤ p.money.toNat + 0 at hle
        omega
      | true =>
        change money.toNat ≤ p.money.toNat + p.bankBalance.toNat at hle
        have hbank : p.bankBalance ≥ money - p.money := UInt64.le_iff_toNat_le.mpr (by omega)
        have hleft := UInt64.toNat_sub_of_le _ _ hbank
        rw [if_neg hcoins, if_pos ⟨rfl, hbank⟩]
        simp only [Player.worth, hleft, hsub]
        change 0 + _ + _ = _
        omega

end CrystalServer.Market
