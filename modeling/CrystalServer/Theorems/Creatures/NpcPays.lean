import CrystalServer.Theorems.Creatures.NpcTakes

/-! # Selling to an NPC: what is paid

Coins come stack by stack, each to a container for loot, to the player or to the tile, and a rest that does not go in is
not passed on. Another currency comes as one item. -/

namespace CrystalServer
namespace Npc
open Game

variable {τ : Type} {env : NpcEnv τ} {units : τ → UInt16 → Nat} {p : PlayerRef} {s s' : SaleState τ} {x : Ref}

@[simp] theorem toPlayerAddEnv_toEnv (env : NpcEnv τ) : env.toPlayerAddEnv.toEnv = env.toEnv := rfl

/-- The units that the player carries, and those on his tile. -/
def around (env : NpcEnv τ) (units : τ → UInt16 → Nat) (p : PlayerRef) (s : SaleState τ) (id : UInt16) : Nat :=
  s.world.held env.items (.player p) id + units s.tile id

/-- What comes of a new item, or of a stack of coins. -/
structure Adds (env : NpcEnv τ) (units : τ → UInt16 → Nat) (p : PlayerRef) (s s' : SaleState τ) (id : UInt16) (n : Nat) :
    Prop where
  trading : Trading env s' p
  bank : s'.bankBalance = s.bankBalance
  more : ∀ i, around env units p s i ≤ around env units p s' i
  most : ∀ i, around env units p s' i ≤ around env units p s i + if id = i then n else 0

/-- A new item was put somewhere, and the player is weighed again. -/
theorem adds_of {i : Item} {v : World} {id : UInt16} {n : Nat} (h : Trading env s p) (hi : i.Fresh env.items)
    (hk : Keeps (s.world.new i) v s.world.next) (ho : Orders env.items (s.world.new i) v)
    (hworld : s'.world = Player.updateInventoryWeight env.toEnv v p) (hbank : s'.bankBalance = s.bankBalance)
    (hobtained : s'.looting = s.looting ∨ Managed v s'.looting p)
    (hloot : s'.lootContainers = s.lootContainers ∨ Managed v s'.collecting.looting p)
    (hmore : ∀ i, around env units p s i ≤ v.held env.items (.player p) i + units s'.tile i)
    (hmost : ∀ i, v.held env.items (.player p) i + units s'.tile i ≤ around env units p s i + if id = i then n else 0) :
    Adds env units p s s' id n := by
  have hweighed := orders_weighed env.toEnv p ho.carried
  have hall : Keeps s.world v s.world.next := (keeps_new hi.free h.carried s.world.next).trans hk (.inl rfl)
  have horders := (orders_new hi h.carried).trans ho
  have hlast : ∀ c, HeldBy v p c → HeldBy s'.world p c := fun c hc => by
    rw [hworld]
    exact (keeps_weighed env.toEnv v p s.world.next).heldBy hc
  have haround : ∀ i, around env units p s' i = v.held env.items (.player p) i + units s'.tile i := fun i => by
    rw [around, hworld, held_weighed env.toEnv p ho.carried]
  refine ⟨⟨hworld ▸ hweighed.carried, hworld ▸ hweighed.slotted (horders.slotted h.slotted), ?_, ?_⟩, hbank,
    fun i => (haround i).symm ▸ hmore i, fun i => (haround i).symm ▸ hmost i⟩
  · rcases hobtained with heq | hm
    · intro category c hc
      rw [heq] at hc
      exact hlast c (hall.heldBy (h.obtained category c hc))
    · exact fun category c hc => hlast c (hm category c hc)
  · rcases hloot with heq | hm
    · intro category c hc
      change s'.lootContainers category = some c at hc
      rw [heq] at hc
      exact hlast c (hall.heldBy (h.loot category c hc))
    · exact fun category c hc => hlast c (hm category c hc)

/-! ### A stack of coins -/

/-- The stack is made, and not placed yet. -/
def coming (env : NpcEnv τ) (s : SaleState τ) (coins : UInt16 × UInt16) : PlayerAddState τ :=
  { s.collecting with world := s.world.new (Item.CreateItem env.items coins.1 coins.2) }

/-- Where a stack goes, unless it is refused. -/
def receiver (env : PlayerAddEnv τ) (s : PlayerAddState τ) (p : PlayerRef) (item : Ref) : Cylinder :=
  (taking env s.world item (candidates env s p item)).elim (.player p) .container

/-- The stack comes in whole. -/
def CoinsKept (env : NpcEnv τ) (p : PlayerRef) (s : SaleState τ) (coins : UInt16 × UInt16) : Prop :=
  let t := coming env s coins
  let dest := receiver env.toPlayerAddEnv t p s.world.next
  AddLetThrough env.toEnv t.world dest s.world.next →
    AddReports env.toEnv t.world dest s.world.next ∧ ¬AddRests env.toEnv t.world dest s.world.next

/-- The steps of `addCoins`. -/
theorem addCoins_eq (env : NpcEnv τ) (p : PlayerRef) (s : SaleState τ) (coins : UInt16 × UInt16) :
    let t := coming env s coins
    let collected := internalCollectManagedItems env.toPlayerAddEnv t.world t.looting p s.world.next
      (getObjectCategory env.toPlayerAddEnv (t.world.item s.world.next))
    let added := if collected.2.2 ≠ .NOERROR then
      let added := internalAddItem env.toEnv collected.1 (.player p) s.world.next INDEX_WHEREEVER 0 false
      (added.1, added.2.1) else (collected.1, collected.2.2)
    addCoins env p s coins =
      { s with world := Player.updateInventoryWeight env.toEnv added.1 p
               tile := if added.2 ≠ .NOERROR then (env.addToPlayerTile added.1 s.tile s.world.next).1 else s.tile
               lootContainers := collected.2.1.m_managedContainers } := by
  dsimp only
  unfold addCoins
  rfl

theorem fresh_coins (items : UInt16 → ItemType) (coins : UInt16 × UInt16) :
    (Item.CreateItem items coins.1 coins.2).Fresh items := by
  obtain ⟨as, k, hmade⟩ := Item.createItem_eq items coins.1 coins.2
  exact Item.fresh_of_none (by rw [hmade]) (by rw [hmade])

theorem units_coins {items : UInt16 → ItemType} {coins : UInt16 × UInt16} (hstack : (items coins.1).stackable)
    (hclone : cloneId coins.1 = coins.1) (hpos : 0 < coins.2.toNat) (hle : coins.2.toNat ≤ 100) (id : UInt16) :
    (Item.CreateItem items coins.1 coins.2).units items id = if coins.1 = id then coins.2.toNat else 0 := by
  have hrest := units_rest hstack hclone hpos (by omega) id
  rwa [UInt16.ofNat_toNat] at hrest

/-- The stack that is made. -/
theorem coming_spec (h : Carried env.items s.world) {coins : UInt16 × UInt16} (hstack : (env.items coins.1).stackable)
    (hclone : cloneId coins.1 = coins.1) (hpos : 0 < coins.2.toNat) (hle : coins.2.toNat ≤ 100) {dest : Cylinder}
    (hd : dest.InMemory (coming env s coins).world) (htop : dest.Within (coming env s coins).world (.player p)) :
    let added := (internalAddItem env.toEnv (coming env s coins).world dest s.world.next INDEX_WHEREEVER 0 false).1
    (∀ i, s.world.held env.items (.player p) i ≤ added.held env.items (.player p) i ∧
      added.held env.items (.player p) i ≤ s.world.held env.items (.player p) i + if coins.1 = i then coins.2.toNat else 0) ∧
    (AddLetThrough env.toEnv (coming env s coins).world dest s.world.next →
      (added.held env.items (.player p) coins.1 = s.world.held env.items (.player p) coins.1 + coins.2.toNat ↔
        AddReports env.toEnv (coming env s coins).world dest s.world.next ∧
          ¬AddRests env.toEnv (coming env s coins).world dest s.world.next)) := by
  have hi := fresh_coins env.items coins
  obtain ⟨hfree, halone, hheld, hbrought⟩ := fresh_spec hi h
  have hunits := units_coins hstack hclone hpos hle
  have hw := carried_new hi h
  have hnext : s.world.next < (s.world.new (Item.CreateItem env.items coins.1 coins.2)).next := Nat.lt_succ_self _
  have hitem : (s.world.new (Item.CreateItem env.items coins.1 coins.2)).item s.world.next =
      Item.CreateItem env.items coins.1 coins.2 := by
    rw [World.item_new, Function.update_self]
  have hid : (Item.CreateItem env.items coins.1 coins.2).id = coins.1 := by
    obtain ⟨as, k, hmade⟩ := Item.createItem_eq env.items coins.1 coins.2
    rw [hmade]
    exact hclone
  have hs : (Item.CreateItem env.items coins.1 coins.2).isStackable env.items := by
    rw [Item.isStackable, hid]
    exact hstack
  have hcount : (Item.CreateItem env.items coins.1 coins.2).getItemCount = coins.2.toNat := by
    rw [← units_of_stackable hs, hid, hunits, if_pos rfl]
  refine ⟨fun i => ?_, fun hlet => ?_⟩
  · have hgrows := internalAddItem_grows hw hd htop hfree hnext (fun _ => by rw [hitem, hid, hclone]) i
    rwa [hheld, hbrought, hunits] at hgrows
  · have hwhole := comes_whole_iff hw hd htop hlet hfree hnext (by rw [hitem, hcount]; exact hpos)
      (by rw [hitem]; exact units_of_stackable hs)
    have hinside := hbrought coins.1
    rw [World.brought, hitem] at hinside
    dsimp only at hwhole
    have hnone : (s.world.new (Item.CreateItem env.items coins.1 coins.2)).held env.items (.container s.world.next)
        coins.1 = 0 := by omega
    rw [hitem, hid, hcount, hnone, hheld, add_zero] at hwhole
    exact hwhole

/-- What comes of a stack that is let through, to the player or to a container that he holds. -/
theorem adds_coming (h : Trading env s p) {coins : UInt16 × UInt16} (hstack : (env.items coins.1).stackable)
    (hclone : cloneId coins.1 = coins.1) (hpos : 0 < coins.2.toNat) (hle : coins.2.toNat ≤ 100) {dest : Cylinder}
    (hd : dest.InMemory (coming env s coins).world) (htop : dest.Within (coming env s coins).world (.player p))
    (hlet : AddLetThrough env.toEnv (coming env s coins).world dest s.world.next) {v : World}
    (hv : v = (internalAddItem env.toEnv (coming env s coins).world dest s.world.next INDEX_WHEREEVER 0 false).1)
    (hkeeps : Keeps (coming env s coins).world v s.world.next) (horders : Orders env.items (coming env s coins).world v)
    (hworld : s'.world = Player.updateInventoryWeight env.toEnv v p) (htile : s'.tile = s.tile)
    (hbank : s'.bankBalance = s.bankBalance) (hobtained : s'.looting = s.looting)
    (hloot : Managed v s'.collecting.looting p) :
    Adds env units p s s' coins.1 coins.2.toNat ∧
      (around env units p s' coins.1 = around env units p s coins.1 + coins.2.toNat ↔
        (AddLetThrough env.toEnv (coming env s coins).world dest s.world.next →
          AddReports env.toEnv (coming env s coins).world dest s.world.next ∧
            ¬AddRests env.toEnv (coming env s coins).world dest s.world.next)) := by
  obtain ⟨hgrows, hwhole⟩ := coming_spec h.carried hstack hclone hpos hle hd htop
  rw [← hv] at hgrows hwhole
  refine ⟨adds_of h (fresh_coins env.items coins) hkeeps horders hworld hbank (.inl hobtained) (.inr hloot)
    (fun i => ?_) (fun i => ?_), ?_⟩
  · rw [htile]
    exact Nat.add_le_add_right (hgrows i).1 _
  · have := (hgrows i).2
    rw [htile]
    dsimp only [around]
    omega
  · refine Iff.trans ?_ ((hwhole hlet).trans (imp_iff_right hlet).symm)
    dsimp only [around]
    rw [hworld, htile, held_weighed env.toEnv p horders.carried]
    omega

theorem addCoins_spec (ht : TileTakes env.toPlayerAddEnv units) (h : Trading env s p) {coins : UInt16 × UInt16}
    (hstack : (env.items coins.1).stackable) (hclone : cloneId coins.1 = coins.1) (hpos : 0 < coins.2.toNat)
    (hle : coins.2.toNat ≤ 100) :
    Adds env units p s (addCoins env p s coins) coins.1 coins.2.toNat ∧
      (around env units p (addCoins env p s coins) coins.1 = around env units p s coins.1 + coins.2.toNat ↔
        CoinsKept env p s coins) := by
  have hi := fresh_coins env.items coins
  obtain ⟨hfree', -, hheld, hbrought⟩ := fresh_spec hi h.carried
  have hunits := units_coins hstack hclone hpos hle
  have hfree : (coming env s coins).world.getParent s.world.next = none := hfree'
  have hw : Carried env.items (coming env s coins).world := carried_new hi h.carried
  have hw' : Carried env.toPlayerAddEnv.items (coming env s coins).world := hw
  have hnext : s.world.next < (coming env s coins).world.next := Nat.lt_succ_self _
  have hm : Managed (coming env s coins).world (coming env s coins).looting p :=
    fun category c hc => (keeps_new hi.free h.carried s.world.next).heldBy (h.loot category c hc)
  have hcollect := collect_spec hw' hm hfree hnext
  obtain ⟨hkeeps, horders, hmanaged⟩ := collect_keeps hw' hm hfree hnext
  have heq := addCoins_eq env p s coins
  unfold CoinsKept receiver
  dsimp only at heq hcollect hkeeps horders hmanaged ⊢
  simp only [toPlayerAddEnv_toEnv] at hcollect horders
  cases htake : taking env.toPlayerAddEnv (coming env s coins).world s.world.next
      (candidates env.toPlayerAddEnv (coming env s coins) p s.world.next) with
  | some c =>
    rw [htake] at hcollect
    obtain ⟨hc, hlet, hret, hworld⟩ := hcollect
    simp only [hret, ne_eq, not_true_eq_false, if_false] at heq
    rw [hworld] at hkeeps horders hmanaged heq
    rw [heq]
    exact adds_coming h hstack hclone hpos hle hc.1 (.inr hc.2) hlet rfl hkeeps horders rfl rfl rfl rfl hmanaged
  | none =>
    rw [htake] at hcollect
    obtain ⟨hworld, hret⟩ := hcollect
    have hplayer := Cylinder.inMemory_player (coming env s coins).world p
    obtain ⟨hanswer, hsame⟩ := addAnswer_iff ((coming env s coins).world.item s.world.next).getItemCount hw hplayer hfree hnext
    rw [← internalAddItem] at hanswer hsame
    obtain ⟨hadded, hordered⟩ := internalAddItem_keeps hw hplayer hfree hnext
    simp only [if_pos hret] at heq
    rw [hworld] at hmanaged heq
    change addCoins env p s coins = { s with world := _, tile := _, lootContainers := _ } at heq
    by_cases hlet : AddLetThrough env.toEnv (coming env s coins).world (.player p) s.world.next
    · rw [if_neg (not_not.mpr (hanswer.mpr hlet))] at heq
      rw [heq]
      exact adds_coming h hstack hclone hpos hle hplayer (.inl rfl) hlet rfl hadded hordered rfl rfl rfl rfl
        fun category c hc => hadded.heldBy (hmanaged category c hc)
    · have herror := fun h => hlet (hanswer.mp h)
      rw [if_pos herror, (hsame herror).1] at heq
      obtain ⟨-, htaken⟩ := ht _ s.tile s.world.next hw hfree hnext
      rw [heq]
      have hsum : ∀ i, (coming env s coins).world.held env.items (.player p) i +
          units (env.addToPlayerTile (coming env s coins).world s.tile s.world.next).1 i =
            around env units p s i + if coins.1 = i then coins.2.toNat else 0 := fun i => by
        rw [← hunits, ← hbrought, around, ← hheld, add_assoc]
        exact congrArg _ (htaken i)
      refine ⟨adds_of h hi (Keeps.refl _ _) ⟨hw, fun h => h⟩ rfl rfl (.inl rfl) (.inr hmanaged) (fun i => ?_)
        (fun i => (hsum i).le), ?_⟩
      · exact (Nat.le_add_right _ _).trans (hsum i).ge
      · refine iff_of_true ?_ fun h => absurd h hlet
        have := hsum coins.1
        rw [if_pos rfl] at this
        rw [← this]
        dsimp only [around]
        rw [held_weighed env.toEnv p hw]

/-! ### What units are worth -/

/-- What units come to in a currency: for gold the coins, else the units of the currency itself. -/
def worth (currency : UInt16) (units : UInt16 → Nat) : Nat :=
  if currency = ITEM_GOLD_COIN then coinWorth units else units currency

/-- What one unit comes to. -/
def unitWorth (currency id : UInt16) : Nat :=
  if currency = ITEM_GOLD_COIN then coinUnit id else if id = currency then 1 else 0

theorem worth_add (currency : UInt16) (f g : UInt16 → Nat) :
    worth currency (fun id => f id + g id) = worth currency f + worth currency g := by
  unfold worth
  split_ifs
  · exact coinWorth_add f g
  · rfl

theorem coinWorth_single (id : UInt16) (n : Nat) : coinWorth (fun i => if id = i then n else 0) = n * coinUnit id := by
  have hgp : ITEM_GOLD_COIN ≠ ITEM_PLATINUM_COIN := by decide
  have hgc : ITEM_GOLD_COIN ≠ ITEM_CRYSTAL_COIN := by decide
  have hpc : ITEM_PLATINUM_COIN ≠ ITEM_CRYSTAL_COIN := by decide
  unfold coinWorth coinUnit
  by_cases hg : id = ITEM_GOLD_COIN
  · simp [hg, hgp, hgc]
  by_cases hp : id = ITEM_PLATINUM_COIN
  · simp [hp, hgp.symm, hpc]
  by_cases hr : id = ITEM_CRYSTAL_COIN
  · simp [hr, hgc.symm, hpc.symm]
  · simp [hg, hp, hr]

theorem worth_single (currency id : UInt16) (n : Nat) :
    worth currency (fun i => if id = i then n else 0) = n * unitWorth currency id := by
  unfold worth unitWorth
  split_ifs with hgold hid
  · exact coinWorth_single id n
  · exact (if_pos hid).trans (Nat.mul_one n).symm
  · exact (if_neg hid).trans (Nat.mul_zero n).symm

/-- Only units of one id came. -/
theorem worth_of_added {currency id : UInt16} {n : Nat} {f g : UInt16 → Nat} (hmore : ∀ i, f i ≤ g i)
    (hmost : ∀ i, g i ≤ f i + if id = i then n else 0) :
    worth currency g = worth currency f + (g id - f id) * unitWorth currency id := by
  have hadded : g = fun i => f i + if id = i then g id - f id else 0 := funext fun i => by
    have hi := hmost i
    have hi' := hmore i
    split_ifs at hi ⊢ with h
    · subst h
      omega
    · omega
  rw [← worth_single, ← worth_add, ← hadded]

/-- What the player has in the currency of the shop, on himself, on his tile and, as gold, in the bank. -/
def holdings (env : NpcEnv τ) (units : τ → UInt16 → Nat) (p : PlayerRef) (s : SaleState τ) : Nat :=
  (if env.getCurrency = ITEM_GOLD_COIN then s.bankBalance.toNat else 0) + worth env.getCurrency (around env units p s)

/-! ### All coins of a payment -/

theorem stackable_of_coinUnit {items : UInt16 → ItemType} (hc : CoinsStack items) {id : UInt16} (h : coinUnit id ≠ 0) :
    (items id).stackable :=
  Item.isStackable_of_isCoin hc (i := ⟨id, 1, none, none, none⟩) (Item.isCoin_of_coinUnit h)

theorem cloneId_of_coinUnit {id : UInt16} (h : coinUnit id ≠ 0) : cloneId id = id := by
  rcases Item.isCoin_of_coinUnit (i := ⟨id, 1, none, none, none⟩) h with rfl | rfl | rfl
  · rfl
  · rfl
  · rfl

/-- Stack after stack comes to no more than there is of it, and to all of it when each comes in whole. -/
theorem addCoins_run (ht : TileTakes env.toPlayerAddEnv units) (hc : CoinsStack env.items) {l : List (UInt16 × UInt16)}
    (hl : ∀ coins ∈ l, 0 < coinUnit coins.1 ∧ 0 < coins.2.toNat ∧ coins.2.toNat ≤ 100) (h : Trading env s p) :
    let s' := Lib.run (addCoins env p) s l
    Trading env s' p ∧ s'.bankBalance = s.bankBalance ∧
      (∀ id, coinUnit id = 0 → around env units p s' id = around env units p s id) ∧
      coinWorth (around env units p s') ≤ coinWorth (around env units p s) + stacksWorth l ∧
      (coinWorth (around env units p s') = coinWorth (around env units p s) + stacksWorth l ↔
        Lib.Meets (addCoins env p) (CoinsKept env p) s l) := by
  induction l generalizing s with
  | nil => exact ⟨h, rfl, fun _ _ => rfl, le_rfl, iff_of_true rfl trivial⟩
  | cons coins l ih =>
    obtain ⟨hunit, hpos, hle⟩ := hl coins List.mem_cons_self
    obtain ⟨hadds, hkept⟩ := addCoins_spec ht h (stackable_of_coinUnit hc hunit.ne') (cloneId_of_coinUnit hunit.ne') hpos hle
    obtain ⟨htrading, hbank, hother, hmost, hall⟩ := ih (fun c hc => hl c (List.mem_cons_of_mem coins hc)) hadds.trading
    have hgain : coinWorth (around env units p (addCoins env p s coins)) = coinWorth (around env units p s) + _ :=
      @worth_of_added ITEM_GOLD_COIN _ _ _ _ hadds.more hadds.most
    have hless := hadds.most coins.1
    have hmore := hadds.more coins.1
    rw [if_pos rfl] at hless
    have hstack : stacksWorth (coins :: l) = coins.2.toNat * coinUnit coins.1 + stacksWorth l := List.sum_cons
    have hwhole : coinWorth (around env units p (addCoins env p s coins)) = coinWorth (around env units p s) +
        coins.2.toNat * coinUnit coins.1 ↔ CoinsKept env p s coins := by
      rw [← hkept, hgain]
      refine ⟨fun heq => ?_, fun heq => ?_⟩
      · have := Nat.eq_of_mul_eq_mul_right hunit (Nat.add_left_cancel heq)
        omega
      · rw [heq, Nat.add_sub_cancel_left]
        rfl
    have hpart : coinWorth (around env units p (addCoins env p s coins)) ≤ coinWorth (around env units p s) +
        coins.2.toNat * coinUnit coins.1 := by
      rw [hgain]
      exact Nat.add_le_add_left (Nat.mul_le_mul_right _ (by omega)) _
    refine ⟨htrading, hbank.trans hadds.bank, fun id hid => (hother id hid).trans ?_, ?_, ?_⟩
    · have hsame := hadds.most id
      rw [if_neg fun heq : coins.1 = id => hunit.ne' (heq ▸ hid)] at hsame
      exact le_antisymm hsame (hadds.more id)
    · dsimp only [Lib.run_cons] at hmost ⊢
      omega
    · dsimp only [Lib.run_cons, Lib.Meets] at hall ⊢
      rw [← hwhole, ← hall]
      omega

/-! ### Another currency -/

/-- The id that a new item gets. -/
def createdId (env : NpcEnv τ) (itemId : UInt16) : UInt16 :=
  if (env.newContainer itemId).isSome then itemId else cloneId itemId

/-- The cost can come as one item: a stack holds less than 256, and what does not stack is one. -/
def Nominal (env : NpcEnv τ) (cost : Nat) : Prop :=
  (env.items env.getCurrency).id ≠ 0 ∧ createdId env env.getCurrency = env.getCurrency ∧
    if (env.items env.getCurrency).stackable then cost < 256 else cost = 1

theorem createItem_spec {itemId count : UInt16} {i : Item} (h : createItem env itemId count = some i) :
    (env.items itemId).id ≠ 0 ∧ i.Fresh env.items ∧ i.id = createdId env itemId ∧
      (i.isStackable env.items → cloneId i.id = i.id) ∧ (createdId env itemId = itemId →
      i.getItemCount = if (env.items itemId).stackable then if count = 0 then 1 else count.toNat % 256 else 1) := by
  unfold createItem at h
  split_ifs at h with hid
  refine ⟨hid, ?_⟩
  unfold createdId
  cases hk : env.newContainer itemId with
  | some k =>
    rw [hk] at h
    obtain ⟨as, n, hmade⟩ := Item.make_eq env.items itemId 0
    have hsingle := env.single itemId k hk
    have hempty := env.empty itemId k hk
    have hone := Item.count_make_single (ne_true_of_eq_false hsingle) 0
    rw [hmade] at h hone
    cases h
    rw [hsingle]
    exact ⟨⟨rfl, hempty, fun _ => hsingle⟩, rfl, fun hs => absurd hs (ne_true_of_eq_false hsingle), fun _ => hone⟩
  | none =>
    rw [hk] at h
    cases h
    obtain ⟨as, n, hmade⟩ := Item.createItem_eq env.items itemId count
    refine ⟨Item.fresh_of_none (by rw [hmade]) (by rw [hmade]), by rw [hmade]; rfl, fun _ => ?_, fun hclone => ?_⟩
    · rw [hmade]
      exact cloneId_cloneId itemId
    have hclone : cloneId itemId = itemId := hclone
    have hcreate : Item.CreateItem env.items itemId count =
        Item.make env.items itemId (if (env.items itemId).stackable ∧ count = 0 then 1 else count) :=
      congrArg (Item.make env.items · _) hclone
    rw [hcreate]
    by_cases hs : (env.items itemId).stackable
    swap
    · rw [if_neg hs]
      exact Item.count_make_single hs _
    rw [if_pos hs]
    by_cases hz : count = 0
    · rw [if_pos hz, if_pos ⟨hs, hz⟩]
      exact Item.count_make hs (by decide) (by decide)
    · rw [if_neg hz, if_neg fun h => hz h.2]
      exact Item.count_make_mod hs hz

/-- No more comes than the cost, and all of it when it can come as one item. -/
theorem createItem_units {c : UInt64} {i : Item} (h : createItem env env.getCurrency c.toUInt16 = some i) (hpos : 0 < c.toNat) :
    i.units env.items env.getCurrency ≤ c.toNat ∧
      (i.units env.items env.getCurrency = c.toNat ↔ Nominal env c.toNat) ∧
      (Nominal env c.toNat → i.id = env.getCurrency ∧ i.getItemCount = c.toNat) := by
  obtain ⟨hexists, -, hid, -, hcount⟩ := createItem_spec h
  have hlow : c.toUInt16.toNat = c.toNat % 65536 := UInt64.toNat_toUInt16 c
  have hzero : c.toUInt16 = 0 ↔ c.toNat % 65536 = 0 := by
    rw [← hlow, ← UInt16.toNat_inj]
    rfl
  unfold Nominal
  by_cases hsame : createdId env env.getCurrency = env.getCurrency
  swap
  · rw [units_of_ne (by rwa [hid])]
    exact ⟨Nat.zero_le _, iff_of_false hpos.ne fun hn => hsame hn.2.1, fun hn => absurd hn.2.1 hsame⟩
  have hcount := hcount hsame
  simp only [hlow, hzero] at hcount
  have hunits : i.units env.items env.getCurrency =
      if (env.items env.getCurrency).stackable then i.getItemCount else 1 := by
    rw [Item.units, Item.part, if_pos (hid.trans hsame), Item.isStackable, hid.trans hsame]
  rw [hunits, and_iff_right hexists, and_iff_right hsame]
  split_ifs at hcount ⊢ with hs hz
  · exact ⟨by omega, by omega, fun _ => ⟨hid.trans hsame, by omega⟩⟩
  · exact ⟨by omega, by omega, fun _ => ⟨hid.trans hsame, by omega⟩⟩
  · exact ⟨by omega, by omega, fun _ => ⟨hid.trans hsame, by omega⟩⟩

/-- The item is made, and not placed yet. -/
def pending (s : SaleState τ) (newItem : Item) : PlayerAddState τ := { s.obtaining with world := s.world.new newItem }

theorem addCurrency_spec (ht : TileTakes env.toPlayerAddEnv units) (h : Trading env s p) {c : UInt64} (hpos : 0 < c.toNat) :
    let s' := addCurrency env p s c
    Trading env s' p ∧ s'.bankBalance = s.bankBalance ∧
      (createdId env env.getCurrency = env.getCurrency → ∀ id, id ≠ env.getCurrency →
        around env units p s' id = around env units p s id) ∧
      around env units p s' env.getCurrency ≤ around env units p s env.getCurrency + c.toNat ∧
      (around env units p s' env.getCurrency = around env units p s env.getCurrency + c.toNat ↔
        Nominal env c.toNat ∧ ∀ newItem, createItem env env.getCurrency c.toUInt16 = some newItem →
          Kept env.toPlayerAddEnv (pending s newItem) p s.world.next) := by
  intro s'
  cases hcreate : createItem env env.getCurrency c.toUInt16 with
  | none =>
    have heq : s' = s := by
      unfold s' addCurrency
      rw [hcreate]
    have hnone : ¬Nominal env c.toNat := fun hn => by
      unfold createItem at hcreate
      rw [if_neg hn.1] at hcreate
      split at hcreate <;> cases hcreate
    rw [heq]
    exact ⟨h, rfl, fun _ _ _ => rfl, Nat.le_add_right _ _, iff_of_false (by omega) fun hn => hnone hn.1⟩
  | some i =>
    have heq : let added := internalPlayerAddItem env.toPlayerAddEnv (pending s i) p s.world.next true CONST_SLOT_WHEREEVER
        s' = { s with world := Player.updateInventoryWeight env.toEnv added.1.world p
                      tile := added.1.tile
                      looting := added.1.looting } := by
      unfold s' addCurrency
      rw [hcreate]
      rfl
    obtain ⟨-, hi, hid, hclone, -⟩ := createItem_spec hcreate
    obtain ⟨hle, hnominal, hwhole⟩ := createItem_units hcreate hpos
    obtain ⟨hfree, -, hheld, hbrought⟩ := fresh_spec hi h.carried
    have hw : Carried env.toPlayerAddEnv.items (pending s i).world := carried_new hi h.carried
    have hm : Managed (pending s i).world (pending s i).looting p :=
      fun category c hc => (keeps_new hi.free h.carried s.world.next).heldBy (h.obtained category c hc)
    have hnext : s.world.next < (pending s i).world.next := Nat.lt_succ_self _
    have hitem : (pending s i).world.item s.world.next = i := by
      change (s.world.new i).item s.world.next = i
      rw [World.item_new, Function.update_self]
    obtain ⟨hok, hkeeps, horders, hmanaged, hgrows⟩ := internalPlayerAddItem_keeps ht hw hm hfree hnext (by rwa [hitem])
    have hbefore : ∀ id, unitsAround env.toPlayerAddEnv units p (pending s i) id = around env units p s id :=
      fun id => congrArg (· + units s.tile id) (hheld (.player p) id)
    have hcame : ∀ id, (pending s i).world.brought env.toPlayerAddEnv.items s.world.next id = i.units env.items id := hbrought
    have hplaced : Nominal env c.toNat → _ := fun hn =>
      placed_iff_kept ht hw hm hfree hnext (by rw [hitem, (hwhole hn).2]; exact hpos)
        (by rw [hitem, (hwhole hn).1, (hwhole hn).2]; exact hnominal.mpr hn)
    have hinside := hcame env.getCurrency
    rw [World.brought, hitem] at hinside
    have hinside := Nat.add_eq_left.mp hinside
    simp only [hbefore, hcame] at hgrows
    dsimp only at hplaced heq
    generalize internalPlayerAddItem env.toPlayerAddEnv (pending s i) p s.world.next true CONST_SLOT_WHEREEVER = added
      at hok hkeeps horders hmanaged hgrows hplaced heq
    have hadds : Adds env units p s s' i.id (i.units env.items i.id) := by
      rw [heq]
      refine adds_of h hi hkeeps horders rfl rfl (.inr hmanaged) (.inl rfl) (fun id => (hgrows id).1) (fun id => ?_)
      refine (hgrows id).2.trans (Nat.add_le_add_left ?_ _)
      split_ifs with hid
      · rw [hid]
      · exact (units_of_ne hid).le
    have hafter : around env units p s' env.getCurrency = unitsAround env.toPlayerAddEnv units p added.1 env.getCurrency := by
      rw [heq]
      exact congrArg (· + _) (held_weighed env.toEnv p horders.carried (.player p) env.getCurrency)
    refine ⟨hadds.trading, hadds.bank, fun hsame id hne => ?_, ?_, ?_⟩
    · have hmost := hadds.most id
      rw [if_neg fun heq => hne (heq.symm.trans (hid.trans hsame))] at hmost
      exact le_antisymm hmost (hadds.more id)
    · rw [hafter]
      exact (hgrows _).2.trans (Nat.add_le_add_left hle _)
    · rw [hafter]
      have hmost := (hgrows env.getCurrency).2
      refine ⟨fun heq => ?_, fun hall => ?_⟩
      · have hn := hnominal.mp (by omega)
        refine ⟨hn, fun newItem hnew => ?_⟩
        cases hnew
        refine (hplaced hn).mp ⟨fun _ => ?_, fun hne => absurd hok hne⟩
        rw [hitem, (hwhole hn).1, (hwhole hn).2, hbefore, heq]
        omega
      · obtain ⟨hn, hkept⟩ := hall
        have hsum := ((hplaced hn).mpr (hkept i rfl)).1 hok
        rw [hitem, (hwhole hn).1, (hwhole hn).2, hbefore] at hsum
        omega

/-! ### The payment -/

/-- The payment comes whole. -/
def Received (env : NpcEnv τ) (p : PlayerRef) (s : SaleState τ) (totalCost : UInt64) : Prop :=
  if env.getCurrency = ITEM_GOLD_COIN then
    if env.AUTOBANK then s.bankBalance.toNat + totalCost.toNat < 2 ^ 64
    else Lib.Meets (addCoins env p) (CoinsKept env p) s (moneyStacks totalCost)
  else Nominal env totalCost.toNat ∧ ∀ newItem, createItem env env.getCurrency totalCost.toUInt16 = some newItem →
    Kept env.toPlayerAddEnv (pending s newItem) p s.world.next

theorem pay_spec (ht : TileTakes env.toPlayerAddEnv units) (hc : CoinsStack env.items) (h : Trading env s p) {c : UInt64}
    (hpos : 0 < c.toNat) (hlt : c.toNat < 2 ^ 32) :
    let s' := pay env p s c
    Trading env s' p ∧ holdings env units p s' ≤ holdings env units p s + c.toNat ∧
      (holdings env units p s' = holdings env units p s + c.toNat ↔ Received env p s c) ∧
      (Received env p s c → ∀ id, unitWorth env.getCurrency id = 0 → around env units p s' id = around env units p s id) := by
  unfold pay Received holdings worth unitWorth
  dsimp only
  by_cases hgold : env.getCurrency = ITEM_GOLD_COIN
  · simp only [if_pos hgold]
    by_cases hbank : env.AUTOBANK
    · rw [if_pos hbank, if_pos hbank]
      have hsum : (s.bankBalance + c).toNat = (s.bankBalance.toNat + c.toNat) % 2 ^ 64 := UInt64.toNat_add ..
      refine ⟨⟨h.carried, h.slotted, h.obtained, h.loot⟩, ?_, ?_, fun _ _ _ => rfl⟩
      · change (s.bankBalance + c).toNat + coinWorth (around env units p s) ≤ _
        omega
      · change (s.bankBalance + c).toNat + coinWorth (around env units p s) = _ ↔ _
        omega
    · rw [if_neg hbank, if_neg hbank]
      have hstacks := moneyStacks_spec c (by omega)
      obtain ⟨htrading, hkept, hother, hmost, hwhole⟩ :=
        addCoins_run ht hc (fun coins hcoins => ⟨(hstacks.2 coins hcoins).1, moneyStacks_sizes c hcoins⟩) h
      rw [hstacks.1] at hmost hwhole
      have hfold : (moneyStacks c).foldl (addCoins env p) s = Lib.run (addCoins env p) s (moneyStacks c) := rfl
      rw [hfold, hkept]
      refine ⟨htrading, by omega, ?_, fun _ => hother⟩
      rw [← hwhole]
      omega
  · simp only [if_neg hgold, Nat.zero_add]
    obtain ⟨htrading, -, hother, hmost, hwhole⟩ := addCurrency_spec ht h hpos
    refine ⟨htrading, hmost, hwhole, fun hreceived id hid => hother hreceived.1.2.1 id fun heq => ?_⟩
    rw [if_pos heq] at hid
    exact absurd hid one_ne_zero

end Npc
end CrystalServer
