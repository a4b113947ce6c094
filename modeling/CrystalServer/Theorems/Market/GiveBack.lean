import CrystalServer.Theorems.Account.Coins
import CrystalServer.Theorems.Market.Items
import Mathlib.Algebra.Order.BigOperators.Group.List

/-! # What is taken for an offer and given back

A call of `playerCreateMarketOffer` makes an offer in one of three ways, or it makes none and takes nothing, unless the
items that it was to take are not all there. Two copies of one code give back: the player who cancels gets what the offer
took, and so does the owner of an expired offer, unless it sold coins of the store or the type has smaller stacks than the
expiry makes.

What `removeOfferItems` takes before it finds that there is too little is not put back. Whether that happens depends on how the
amount lies in stash and locker. -/

/-! ### What an offer takes -/

namespace CrystalServer.Market

/-- What the checks before an offer guarantee. -/
structure Marketable (env : MarketEnv) (s : State) (guid : UInt32) (itemId amount : UInt16) (price : UInt64) : Prop where
  player : guid ∈ s.guids
  registered : (env.items itemId).id = itemId
  item : (env.items itemId).id ≠ 0
  ware : env.wareId itemId ≠ 0
  amount : amount ≠ 0
  price : price ≤ 999999999999

/-- The price of the whole amount. -/
def totalPrice (price : UInt64) (amount : UInt16) : UInt64 := price * amount.toUInt64

/-- The tier that a sell offer of items gets. -/
def sellTier (env : MarketEnv) (p : Player) (itemId : UInt16) (tier : UInt8) : UInt8 :=
  if p.stash (env.wareId itemId) > 0 then 0 else tier

/-- How an offer comes about: with the money for a buy offer, with coins or with items for a sell offer. -/
inductive Creates (env : MarketEnv) (s : State) (guid : UInt32) (itemId amount : UInt16) (price : UInt64) (tier : UInt8)
    (now : Int) : Offer → State → Prop
  | buy (pays : totalPrice price amount + env.fee (totalPrice price amount) ≤
        (s.player guid).money + (s.player guid).bankBalance) :
      Creates env s guid itemId amount price tier now ⟨s.AUTO_INCREMENT, guid, .BUY, itemId, amount, now, price, tier⟩
        ((s.setPlayer guid ((s.player guid).removeMoney
          (totalPrice price amount + env.fee (totalPrice price amount)) true).1).createOffer
            ⟨s.AUTO_INCREMENT, guid, .BUY, itemId, amount, now, price, tier⟩)
  | coins (coin : itemId = ITEM_STORE_COIN) (has : amount.toUInt32 ≤ s.getCoins guid)
      (pays : env.fee (totalPrice price amount) ≤ (s.player guid).money + (s.player guid).bankBalance) :
      Creates env s guid itemId amount price tier now ⟨s.AUTO_INCREMENT, guid, .SELL, itemId, amount, now, price, tier⟩
        (((s.removeCoins guid amount "").setPlayer guid
          ((s.player guid).removeMoney (env.fee (totalPrice price amount)) true).1).createOffer
            ⟨s.AUTO_INCREMENT, guid, .SELL, itemId, amount, now, price, tier⟩)
  | items (coin : itemId ≠ ITEM_STORE_COIN) (player : Player)
      (removes : removeOfferItems env (s.player guid) itemId amount (sellTier env (s.player guid) itemId tier) =
        (player, true))
      (pays : env.fee (totalPrice price amount) ≤ (s.player guid).money + (s.player guid).bankBalance) :
      Creates env s guid itemId amount price tier now
        ⟨s.AUTO_INCREMENT, guid, .SELL, itemId, amount, now, price, sellTier env (s.player guid) itemId tier⟩
        ((s.setPlayer guid (player.removeMoney (env.fee (totalPrice price amount)) true).1).createOffer
          ⟨s.AUTO_INCREMENT, guid, .SELL, itemId, amount, now, price, sellTier env (s.player guid) itemId tier⟩)

/-- The call comes to the point where it takes items from the player. -/
structure TakesItems (env : MarketEnv) (s : State) (guid : UInt32) (session : Session) (type : UInt8)
    (itemId amount : UInt16) (price : UInt64) : Prop where
  check : checkCanInitCreateMarketOffer env s guid session type itemId amount price = true
  canDo : session.canDoMarketAction = true
  sells : type = 1
  pays : env.fee (totalPrice price amount) ≤ (s.player guid).money + (s.player guid).bankBalance
  locker : session.hasDepotLocker = true
  coin : itemId ≠ ITEM_STORE_COIN

variable {env : MarketEnv} {s s' : State} {guid : UInt32} {session : Session} {type : UInt8} {itemId amount : UInt16}
  {price : UInt64} {tier : UInt8} {now : Int}

/-- A check that gives up where `p` holds. -/
theorem of_ite_false {p : Prop} [Decidable p] {b : Bool} (h : (if p then false else b) = true) : ¬p ∧ b = true := by
  by_cases hp : p
  · rw [if_pos hp] at h
    cases h
  · rw [if_neg hp] at h
    exact ⟨hp, h⟩

theorem marketable_of_check
    (h : checkCanInitCreateMarketOffer env s guid session type itemId amount price = true) :
    Marketable env s guid itemId amount price := by
  unfold checkCanInitCreateMarketOffer at h
  dsimp only at h
  obtain ⟨h1, h⟩ := of_ite_false h
  obtain ⟨-, h⟩ := of_ite_false h
  obtain ⟨-, h⟩ := of_ite_false h
  obtain ⟨h4, h⟩ := of_ite_false h
  obtain ⟨-, h⟩ := of_ite_false h
  obtain ⟨h6, h⟩ := of_ite_false h
  obtain ⟨h7, -⟩ := of_ite_false h
  have hid : (env.items itemId).id ≠ 0 := fun h => h6 (Or.inl h)
  exact ⟨not_not.mp h1, items_id hid, hid, fun h => h6 (Or.inr h), fun h => h7 (Or.inl h), UInt64.not_lt.mp h4⟩

/-- A call makes an offer, or it makes none and takes nothing, or it finds that the items are not all there. -/
theorem create_cases (env : MarketEnv) (s : State) (guid : UInt32) (session : Session) (type : UInt8)
    (itemId amount : UInt16) (price : UInt64) (tier : UInt8) (now : Int) :
    playerCreateMarketOffer env s guid session type itemId amount price tier now = (s, none) ∨
    (TakesItems env s guid session type itemId amount price ∧ ∃ player,
      removeOfferItems env (s.player guid) itemId amount (sellTier env (s.player guid) itemId tier) = (player, false) ∧
        playerCreateMarketOffer env s guid session type itemId amount price tier now =
          (s.setPlayer guid player, none)) ∨
    (Marketable env s guid itemId amount price ∧ ∃ offer s',
      playerCreateMarketOffer env s guid session type itemId amount price tier now = (s', some offer) ∧
        Creates env s guid itemId amount price tier now offer s' ∧
        (offer.sale = .SELL → itemId ≠ ITEM_STORE_COIN →
          TakesItems env s guid session type itemId amount price)) := by
  unfold playerCreateMarketOffer
  by_cases hcheck : checkCanInitCreateMarketOffer env s guid session type itemId amount price = true
  · have hm := marketable_of_check hcheck
    rw [if_neg (by simp [hcheck])]
    by_cases hexhausted : session.canDoMarketAction = true
    · rw [if_neg (by simp [hexhausted])]
      dsimp only
      rw [hm.registered, show (if (s.player guid).stash (env.wareId itemId) > 0 then 0 else tier) =
        sellTier env (s.player guid) itemId tier from rfl]
      by_cases htype : type = 1
      · rw [if_pos htype]
        split_ifs with hfee hlocker hcoin hcoins
        · exact Or.inl rfl
        · exact Or.inl rfl
        · exact Or.inl rfl
        · refine Or.inr (Or.inr ⟨hm, _, _, rfl, ?_, fun _ hne => absurd hcoin hne⟩)
          exact .coins hcoin (UInt32.not_lt.mp hcoins) (UInt64.not_lt.mp hfee)
        · have htakes : TakesItems env s guid session type itemId amount price :=
            ⟨hcheck, hexhausted, htype, UInt64.not_lt.mp hfee, by simpa using hlocker, hcoin⟩
          cases hremove : removeOfferItems env (s.player guid) itemId amount
            (sellTier env (s.player guid) itemId tier) with
          | mk player removed =>
            cases removed with
            | false => exact Or.inr (Or.inl ⟨htakes, player, rfl, rfl⟩)
            | true =>
              exact Or.inr (Or.inr ⟨hm, _, _, rfl, .items hcoin player hremove htakes.pays, fun _ _ => htakes⟩)
      · rw [if_neg htype]
        split_ifs with hpays
        · exact Or.inl rfl
        · exact Or.inr (Or.inr ⟨hm, _, _, rfl, .buy (UInt64.not_lt.mp hpays), nofun⟩)
    · rw [if_pos (by simp [hexhausted])]
      exact Or.inl rfl
  · rw [if_pos (by simp [hcheck])]
    exact Or.inl rfl

end CrystalServer.Market

/-! ### What an offer gives back -/

namespace CrystalServer.Market

/-- What comes to the owner of an offer. -/
inductive Assets
  | wares (l : List Ware)
  | coins (amount : UInt16)
  | money (amount : UInt64)

namespace Assets

def items : Assets → List Ware
  | wares l => l
  | coins _ | money _ => []

def coinCount : Assets → Nat
  | coins amount => amount.toNat
  | wares _ | money _ => 0

def worth : Assets → Nat
  | money amount => amount.toNat
  | wares _ | coins _ => 0

end Assets

variable {env : MarketEnv} {s s' : State} {guid : UInt32} {offer : Offer}

/-- What `IOMarket::processExpiredOffers` gives. -/
def expiredAssets (env : MarketEnv) (offer : Offer) : Assets :=
  match offer.sale with
  | .SELL => .wares (expiredItems env offer)
  | .BUY => .money (totalPrice offer.price offer.amount)

/-- What `Game::playerCancelMarketOffer` gives. -/
def cancelledAssets (env : MarketEnv) (offer : Offer) : Assets :=
  match offer.sale with
  | .SELL =>
    if offer.itemtype = ITEM_STORE_COIN then .coins offer.amount else .wares (offerItems env offer offer.amount)
  | .BUY => .money (totalPrice offer.price offer.amount)

def State.credit (env : MarketEnv) (s : State) (guid : UInt32) : Assets → State
  | .wares l => s.addToInbox env guid l
  | .coins amount => s.addCoins guid amount ""
  | .money amount => s.addBalance guid amount

/-- The expiry of an offer that is still there gives these assets. -/
theorem processExpiredOffer_eq (hrow : ∃ row ∈ s.market_offers, row.id = offer.id) (howner : offer.player_id ∈ s.guids)
    (hzero : offer.player_id ≠ 0) (hid : (env.items offer.itemtype).id ≠ 0) :
    processExpiredOffer env s offer =
      (s.deleteOffer offer.id).credit env offer.player_id (expiredAssets env offer) := by
  obtain ⟨row, hrow, hrowid⟩ := hrow
  have hall : ¬(s.market_offers.all fun row => row.id ≠ offer.id) = true := fun h => by
    have := List.all_eq_true.mp h row hrow
    simp [hrowid] at this
  have howner' : ¬offer.player_id ∉ (s.deleteOffer offer.id).guids := not_not.mpr howner
  unfold processExpiredOffer expiredAssets
  rw [if_neg hall]
  cases offer.sale with
  | SELL =>
    dsimp only
    rw [if_neg hid, if_neg (not_or.mpr ⟨hzero, howner'⟩)]
    rfl
  | BUY =>
    dsimp only
    rw [if_neg howner']
    rfl

/-- Cancelling an own offer gives these assets. -/
theorem playerCancelMarketOffer_eq {session : Session} {timestamp : UInt32} {counter : UInt16} (hguid : guid ∈ s.guids)
    (hin : session.isInMarket = true) (hdo : session.canDoMarketAction = true)
    (hfound : s.getOfferByCounter env timestamp counter = some offer) (howner : offer.player_id = guid)
    (hid : (env.items offer.itemtype).id ≠ 0) :
    playerCancelMarketOffer env s guid session timestamp counter =
      (s.credit env guid (cancelledAssets env offer)).deleteOffer offer.id := by
  have hid' := items_id hid
  unfold playerCancelMarketOffer cancelledAssets
  rw [if_neg (not_not.mpr hguid), if_neg (by simp [hin]), if_neg (by simp [hdo]), hfound]
  dsimp only
  rw [if_neg (not_not.mpr howner)]
  cases offer.sale with
  | BUY => rfl
  | SELL =>
    dsimp only
    rw [if_neg hid, hid']
    split_ifs <;> rfl

/-- Both ways give back what was taken when the state went from `s` to `s'`, apart from the fee: the same units of each
id and tier, the same coins, the same money, in stacks that the type allows. -/
structure GivesBack (env : MarketEnv) (s s' : State) (guid : UInt32) (fee : Nat) (offer : Offer) : Prop where
  units : ∀ id tiers,
    Market.units id tiers (expiredAssets env offer).items = Market.units id tiers (cancelledAssets env offer).items ∧
      (s'.player guid).units id tiers + Market.units id tiers (cancelledAssets env offer).items =
        (s.player guid).units id tiers
  coins : (expiredAssets env offer).coinCount = (cancelledAssets env offer).coinCount ∧
    (s'.getCoins guid).toNat + (cancelledAssets env offer).coinCount = (s.getCoins guid).toNat
  money : (expiredAssets env offer).worth = (cancelledAssets env offer).worth ∧
    (s'.player guid).worth + (cancelledAssets env offer).worth + fee = (s.player guid).worth
  piles : ∀ w ∈ (expiredAssets env offer).items ++ (cancelledAssets env offer).items,
    0 < w.count ∧ w.count.toNat ≤ if (env.items w.id).stackable then (env.items w.id).stackSize.toNat else 1

/-- A sell offer is not of store coins, takes nothing of another id from the stash, and fits into one stack or is of a
type with stacks of at least 100. -/
def Returnable (env : MarketEnv) (s : State) (guid : UInt32) (offer : Offer) : Prop :=
  offer.sale = .SELL → offer.itemtype ≠ ITEM_STORE_COIN ∧
    (0 < (s.player guid).stash (env.wareId offer.itemtype) → env.wareId offer.itemtype = offer.itemtype) ∧
    ((env.items offer.itemtype).stackable = true →
      offer.amount.toNat ≤ (env.items offer.itemtype).stackSize.toNat ∨
        100 ≤ (env.items offer.itemtype).stackSize.toNat)

/-! ### Parts of the state -/

@[simp] theorem player_setPlayer (s : State) (guid : UInt32) (p : Player) : (s.setPlayer guid p).player guid = p :=
  Function.update_self ..

@[simp] theorem player_createOffer (s : State) (offer : Offer) : (s.createOffer offer).player = s.player := rfl

/-- Coins are read of the account of the player alone. -/
theorem getCoins_congr (haccounts : s'.accounts = s.accounts)
    (haccount : (s'.player guid).account = (s.player guid).account) : s'.getCoins guid = s.getCoins guid := by
  unfold State.getCoins
  rw [haccounts, haccount]

theorem getCoins_setPlayer {p : Player} (h : p.account = (s.player guid).account) (offer : Offer) :
    ((s.setPlayer guid p).createOffer offer).getCoins guid = s.getCoins guid :=
  getCoins_congr rfl (by rw [player_createOffer, player_setPlayer, h])

theorem toNat_totalPrice {price : UInt64} (amount : UInt16) (h : price ≤ 999999999999) :
    (totalPrice price amount).toNat = price.toNat * amount.toNat ∧
      price.toNat * amount.toNat ≤ 999999999999 * 65535 := by
  have hprice := UInt64.le_iff_toNat_le.mp h
  have hamount : amount.toNat ≤ 65535 := Nat.le_of_lt_succ amount.toNat_lt
  have hmul : price.toNat * amount.toNat ≤ 999999999999 * 65535 := Nat.mul_le_mul hprice hamount
  refine ⟨?_, hmul⟩
  unfold totalPrice
  rw [UInt64.toNat_mul, UInt16.toNat_toUInt64, Nat.mod_eq_of_lt (by omega)]

/-- The price and the fee of an offer do not wrap. -/
theorem toNat_add_fee (env : MarketEnv) {price : UInt64} (amount : UInt16) (h : price ≤ 999999999999) :
    (totalPrice price amount + env.fee (totalPrice price amount)).toNat =
      (totalPrice price amount).toNat + (env.fee (totalPrice price amount)).toNat := by
  obtain ⟨heq, hle⟩ := toNat_totalPrice amount h
  have hfee := UInt64.le_iff_toNat_le.mp (env.fee_le (totalPrice price amount))
  change _ ≤ 1000000 at hfee
  rw [UInt64.toNat_add, Nat.mod_eq_of_lt (by omega)]

theorem units_congr {p p' : Player} (h : p.SameGoods p') (id : UInt16) (tiers : UInt8 → Bool) :
    p'.units id tiers = p.units id tiers := by
  unfold Player.units
  rw [h.stash, h.locker]

theorem worth_congr {p p' : Player} (h : p.SamePurse p') : p'.worth = p.worth := by
  unfold Player.worth
  rw [h.bankBalance, h.money]

/-! ### The units of both ways -/

section
variable {itemId amount : UInt16} {price : UInt64} {tier : UInt8} {now : Int}

theorem toNat_ne_zero {n : UInt16} (h : n ≠ 0) : n.toNat ≠ 0 := fun h0 => h (UInt16.toNat_inj.mp h0)

/-- The items of an expired offer come to its amount. -/
theorem units_expiredItems (offer : Offer) (hid : (env.items offer.itemtype).id ≠ 0) (hw : env.wareId offer.itemtype ≠ 0) (id : UInt16)
    (tiers : UInt8 → Bool) : units id tiers (expiredItems env offer) =
      if offer.itemtype = id ∧ tiers (getTierFromDatabaseTable env offer.tier) = true then offer.amount.toNat else 0 :=
  units_makeItems hw (items_id hid) (by decide) (by decide)

theorem stackSize_bounds (env : MarketEnv) (type : UInt16) :
    0 < (env.items type).stackSize.toNat ∧ (env.items type).stackSize.toNat < 256 :=
  ⟨UInt8.lt_iff_toNat_lt.mp (env.stackSize_pos type), UInt8.toNat_lt _⟩

/-- The items that are made of a part of an offer come to the part. -/
theorem units_offerItems (offer : Offer) (hid : (env.items offer.itemtype).id ≠ 0) (hw : env.wareId offer.itemtype ≠ 0)
    (amount : UInt16) (id : UInt16) (tiers : UInt8 → Bool) : units id tiers (offerItems env offer amount) =
      if offer.itemtype = id ∧ tiers (getTierFromDatabaseTable env offer.tier) = true then amount.toNat else 0 :=
  units_makeItems hw (items_id hid) (stackSize_bounds env _).1 (stackSize_bounds env _).2

theorem tierFromDatabase_le (env : MarketEnv) (tier : UInt8) :
    getTierFromDatabaseTable env tier ≤ env.FORGE_MAX_ITEM_TIER := by
  unfold getTierFromDatabaseTable
  split_ifs with h
  · exact UInt8.zero_le
  · exact UInt8.not_lt.mp h

theorem tierFromDatabase_eq (h : tier ≤ env.FORGE_MAX_ITEM_TIER) : getTierFromDatabaseTable env tier = tier :=
  if_neg (UInt8.not_lt.mpr h)

/-- Items can only be taken in a tier that exists. -/
theorem tier_of_removes {p p' : Player} (hs : p.Stocked env) (hamount : amount ≠ 0)
    (h : removeOfferItems env p itemId amount tier = (p', true)) : tier ≤ env.FORGE_MAX_ITEM_TIER := by
  by_contra hlt
  have htier : tier ≠ 0 := fun h0 => hlt (h0 ▸ UInt8.zero_le)
  have hnone : units itemId (fun t => t == tier) p.locker = 0 := by
    refine List.sum_eq_zero fun n hn => ?_
    obtain ⟨w, hw, rfl⟩ := List.mem_map.mp hn
    refine if_neg fun hkey => hlt ?_
    rw [← beq_iff_eq.mp hkey.2]
    exact (hs w hw).tier
  obtain ⟨-, -, hstash⟩ := fromStash_le env p itemId amount tier
  have hz : p.fromStash env itemId amount tier = 0 := Nat.eq_zero_of_not_pos fun h => htier (hstash h)
  have hunits := (removeOfferItems_spec hs h).1 itemId (fun t => t == tier)
  have hne : ((0 : UInt8) == tier) = false := by simpa using fun h0 : 0 = tier => htier h0.symm
  simp only [Player.units, hnone, hz, hne, beq_self_eq_true, and_self, if_true, Bool.false_eq_true, if_false] at hunits
  have := toNat_ne_zero hamount
  omega

/-- The stacks of both ways. -/
theorem piles_iff (hid : (env.items offer.itemtype).id ≠ 0) (hw : env.wareId offer.itemtype ≠ 0) (hn : offer.amount ≠ 0) :
    (∀ w ∈ expiredItems env offer ++ offerItems env offer offer.amount,
      0 < w.count ∧ w.count.toNat ≤ if (env.items w.id).stackable then (env.items w.id).stackSize.toNat else 1) ↔
    ((env.items offer.itemtype).stackable = true →
      offer.amount.toNat ≤ (env.items offer.itemtype).stackSize.toNat ∨
        100 ≤ (env.items offer.itemtype).stackSize.toNat) := by
  obtain ⟨hpos, hlt⟩ := stackSize_bounds env offer.itemtype
  have hpos' : 0 < offer.amount.toNat := Nat.pos_of_ne_zero (toNat_ne_zero hn)
  constructor
  · intro h hs
    -- the first stack of the expiry is the largest
    have hfirst : (⟨offer.itemtype, .ofNat (min 100 offer.amount.toNat), getTierFromDatabaseTable env offer.tier, true⟩ :
        Ware) ∈ expiredItems env offer := by
      unfold expiredItems
      rw [makeItems_stack hw (items_id hid) hs (by decide) (by decide)]
      exact List.mem_map.mpr ⟨_, Lib.min_mem_chunks hpos', rfl⟩
    have hle := (h _ (List.mem_append_left _ hfirst)).2
    dsimp only at hle
    rw [if_pos hs, UInt8.toNat_ofNat', Nat.mod_eq_of_lt (by omega)] at hle
    omega
  · intro h w hmem
    rcases List.mem_append.mp hmem with hmem | hmem
    · unfold expiredItems at hmem
      cases hs : (env.items offer.itemtype).stackable with
      | true =>
        rw [makeItems_stack hw (items_id hid) hs (by decide) (by decide)] at hmem
        obtain ⟨n, hn, rfl⟩ := List.mem_map.mp hmem
        obtain ⟨h0, h1, h2⟩ := Lib.mem_chunks (by decide) hn
        have hcount : (UInt8.ofNat n).toNat = n := by rw [UInt8.toNat_ofNat', Nat.mod_eq_of_lt (by omega)]
        refine ⟨UInt8.lt_iff_toNat_lt.mpr (by rw [hcount]; exact h0), ?_⟩
        dsimp only
        rw [if_pos hs, hcount]
        rcases h hs with h | h <;> omega
      | false =>
        obtain ⟨hwid, -, h0, hle⟩ := mem_makeItems hw (items_id hid) (by decide) (by decide) hmem
        rw [hwid, hs]
        rw [hs] at hle
        exact ⟨h0, hle⟩
    · obtain ⟨hwid, -, h0, hle⟩ := mem_makeItems hw (items_id hid) hpos hlt hmem
      rw [hwid]
      exact ⟨h0, hle⟩

end

/-! ### Both ways give back what was taken -/

section
variable {itemId amount : UInt16} {price : UInt64} {tier : UInt8} {now : Int}

/-- The money of a buy offer comes back. -/
theorem givesBack_buy (hm : Marketable env s guid itemId amount price)
    (hsale : offer.sale = .BUY) (hprice : offer.price = price) (hamount : offer.amount = amount)
    (pays : totalPrice price amount + env.fee (totalPrice price amount) ≤
      (s.player guid).money + (s.player guid).bankBalance) :
    GivesBack env s ((s.setPlayer guid ((s.player guid).removeMoney
      (totalPrice price amount + env.fee (totalPrice price amount)) true).1).createOffer offer) guid
      (env.fee (totalPrice price amount)).toNat offer := by
  have hgoods := sameGoods_removeMoney (s.player guid)
    (totalPrice price amount + env.fee (totalPrice price amount)) true
  have hworth := worth_removeMoney (s.player guid) _ true pays
  rw [toNat_add_fee env amount hm.price] at hworth
  have hexpired : expiredAssets env offer = .money (totalPrice price amount) := by
    rw [expiredAssets, hsale, hprice, hamount]
  have hcancelled : cancelledAssets env offer = .money (totalPrice price amount) := by
    rw [cancelledAssets, hsale, hprice, hamount]
  constructor
  · intro id tiers
    rw [hexpired, hcancelled, player_createOffer, player_setPlayer, units_congr hgoods]
    exact ⟨rfl, rfl⟩
  · rw [hexpired, hcancelled, getCoins_setPlayer hgoods.account]
    exact ⟨rfl, rfl⟩
  · rw [hexpired, hcancelled, player_createOffer, player_setPlayer]
    refine ⟨rfl, ?_⟩
    simp only [Assets.worth]
    omega
  · rw [hexpired, hcancelled]
    exact fun w hw => absurd hw List.not_mem_nil

/-- Store coins do not come back: the expiry makes items. -/
theorem not_givesBack_coins (hid : (env.items offer.itemtype).id ≠ 0) (hw : env.wareId offer.itemtype ≠ 0)
    (hn : offer.amount ≠ 0) (hsale : offer.sale = .SELL) (hcoin : offer.itemtype = ITEM_STORE_COIN) (s' : State)
    (fee : Nat) : ¬GivesBack env s s' guid fee offer := by
  intro h
  have hu := (h.units offer.itemtype fun _ => true).1
  have hexpired : expiredAssets env offer = .wares (expiredItems env offer) := by rw [expiredAssets, hsale]
  have hcancelled : cancelledAssets env offer = .coins offer.amount := by
    rw [cancelledAssets, hsale]
    exact if_pos hcoin
  rw [hexpired, hcancelled] at hu
  simp only [Assets.items, units_expiredItems offer hid hw, and_self, if_true, units_nil] at hu
  exact toNat_ne_zero hn hu

/-- The items of a sell offer come back where they were taken under their own id, and in stacks that the type allows. -/
theorem givesBack_items_iff (hs : (s.player guid).Stocked env) (hm : Marketable env s guid itemId amount price)
    (hcoin : itemId ≠ ITEM_STORE_COIN) (hsale : offer.sale = .SELL) (hitem : offer.itemtype = itemId)
    (hamount : offer.amount = amount) (hsell : offer.tier = sellTier env (s.player guid) itemId tier) {player : Player}
    (removes : removeOfferItems env (s.player guid) itemId amount (sellTier env (s.player guid) itemId tier) =
      (player, true))
    (pays : env.fee (totalPrice price amount) ≤ (s.player guid).money + (s.player guid).bankBalance) :
    GivesBack env s ((s.setPlayer guid (player.removeMoney (env.fee (totalPrice price amount)) true).1).createOffer
      offer) guid (env.fee (totalPrice price amount)).toNat offer ↔ Returnable env s guid offer := by
  subst hitem hamount
  rw [← hsell] at removes
  obtain ⟨htaken, -, hpurse⟩ := removeOfferItems_spec hs removes
  obtain ⟨-, hstash, -⟩ := fromStash_le env (s.player guid) offer.itemtype offer.amount offer.tier
  have htier := tierFromDatabase_eq (tier_of_removes hs hm.amount removes)
  have hpiles := piles_iff hm.item hm.ware hm.amount
  have hexpired := units_expiredItems offer hm.item hm.ware
  have hcancelled := units_offerItems offer hm.item hm.ware offer.amount
  rw [htier] at hexpired hcancelled
  have hgoods := sameGoods_removeMoney player (env.fee (totalPrice price offer.amount)) true
  have he : expiredAssets env offer = .wares (expiredItems env offer) := by rw [expiredAssets, hsale]
  have hc : cancelledAssets env offer = .wares (offerItems env offer offer.amount) := by
    rw [cancelledAssets, hsale]
    exact if_neg hcoin
  constructor
  · intro h _
    refine ⟨hcoin, fun hpos => ?_, ?_⟩
    · by_contra hne
      -- what came from the stash is of another id than what is given back
      have hzero : offer.tier = 0 := hsell.trans (if_pos hpos)
      have hstashed : 0 < (s.player guid).fromStash env offer.itemtype offer.amount offer.tier := by
        rw [Player.fromStash, if_pos hzero]
        exact lt_min (Nat.pos_of_ne_zero (toNat_ne_zero hm.amount)) hpos
      have ht := htaken (env.wareId offer.itemtype) fun _ => true
      have hu := (h.units (env.wareId offer.itemtype) fun _ => true).2
      rw [player_createOffer, player_setPlayer, units_congr hgoods, hc] at hu
      have hne' : ¬offer.itemtype = env.wareId offer.itemtype := fun h0 => hne h0.symm
      simp only [Assets.items, hcancelled, hne', and_true, if_true, if_false, Nat.add_zero] at ht hu
      omega
    · have hp := h.piles
      rw [he, hc] at hp
      exact hpiles.mp hp
  · intro h
    obtain ⟨-, hware, hsize⟩ := h hsale
    constructor
    · intro id tiers
      rw [he, hc, player_createOffer, player_setPlayer, units_congr hgoods]
      refine ⟨(hexpired id tiers).trans (hcancelled id tiers).symm, ?_⟩
      have ht := htaken id tiers
      simp only [Assets.items, hcancelled]
      by_cases hpos : 0 < (s.player guid).stash (env.wareId offer.itemtype)
      · -- the stash holds the type itself, in the tier zero that the offer has
        have hzero : offer.tier = 0 := hsell.trans (if_pos hpos)
        obtain ⟨hle, -, -⟩ := fromStash_le env (s.player guid) offer.itemtype offer.amount offer.tier
        rw [hware hpos, hzero] at ht
        rw [hzero] at hle ⊢
        split_ifs at ht ⊢ <;> omega
      · have hnone : (s.player guid).fromStash env offer.itemtype offer.amount offer.tier = 0 := by omega
        rw [hnone, ite_self] at ht
        exact ht
    · rw [he, hc, getCoins_setPlayer (hgoods.account.trans hpurse.account)]
      exact ⟨rfl, rfl⟩
    · rw [he, hc, player_createOffer, player_setPlayer]
      refine ⟨rfl, ?_⟩
      have hworth := worth_removeMoney player (env.fee (totalPrice price offer.amount)) true
        (by rw [hpurse.money, hpurse.bankBalance]; exact pays)
      rw [worth_congr hpurse] at hworth
      exact hworth
    · rw [he, hc]
      exact hpiles.mpr hsize

end

/-- Both ways give back what was taken exactly where the offer is returnable. -/
theorem givesBack_iff (hs : (s.player guid).Stocked env) {session : Session} {type : UInt8} {itemId amount : UInt16}
    {price : UInt64} {tier : UInt8} {now : Int}
    (h : playerCreateMarketOffer env s guid session type itemId amount price tier now = (s', some offer)) :
    GivesBack env s s' guid (env.fee (totalPrice price amount)).toNat offer ↔ Returnable env s guid offer := by
  rcases create_cases env s guid session type itemId amount price tier now with hnone | ⟨-, _, -, hnone⟩ |
    ⟨hm, offer', s'', heq, hc, -⟩
  · rw [h] at hnone
    cases hnone
  · rw [h] at hnone
    cases hnone
  · rw [h] at heq
    cases heq
    cases hc with
    | buy pays =>
      exact iff_of_true (givesBack_buy hm rfl rfl rfl pays) fun hsale => nomatch hsale
    | coins coin has pays =>
      refine iff_of_false (not_givesBack_coins hm.item hm.ware hm.amount rfl coin _ _) fun hret => ?_
      exact (hret rfl).1 coin
    | items coin player removes pays => exact givesBack_items_iff hs hm coin rfl rfl rfl rfl removes pays

/-- A market where everything stacks up to 100, and two players with 30 arrows, money and store coins. -/
def stallEnv : MarketEnv where
  items id := ⟨id, .none, true, 100, 0, 0, 0, -1, false, true, true, false, false, false, .none, 0, fun _ => rfl⟩
  wareId id := if Item.ItemTransformationMap.lookup id = none then id else 0
  FORGE_MAX_ITEM_TIER := 10
  MARKET_OFFER_DURATION := 2592000
  MARKET_PREMIUM := false
  MAX_MARKET_OFFERS_AT_A_TIME_PER_PLAYER := 100
  fee totalPrice := if totalPrice / 50 < 1000000 then totalPrice / 50 else 1000000
  registered _ := Or.inr rfl
  stackSize_pos _ := (by decide : (0 : UInt8) < 100)
  fee_le totalPrice := by
    split
    · exact UInt64.le_of_lt ‹_›
    · exact UInt64.le_refl _
  pickupable _ _ := rfl
  untransformed id h := by
    by_contra hne
    exact h (if_neg hne)

def stall : State where
  guids := {1, 2}
  player guid := ⟨100000, 0, fun _ => 0, [⟨3447, 30, 0, true⟩], ⟨guid, true⟩⟩
  accounts := ⟨fun _ => some fun _ => 100, []⟩
  market_offers := []
  AUTO_INCREMENT := 1

def visitor : Session := ⟨true, true, true, true⟩

/-- An offer of 25 arrows is given back. -/
theorem givesBack_arrows :
    GivesBack stallEnv stall (playerCreateMarketOffer stallEnv stall 1 visitor 1 3447 25 100 0 0).1 1
      (stallEnv.fee (totalPrice 100 25)).toNat ⟨1, 1, .SELL, 3447, 25, 0, 100, 0⟩ := by
  have hcreate : playerCreateMarketOffer stallEnv stall 1 visitor 1 3447 25 100 0 0 =
      ((playerCreateMarketOffer stallEnv stall 1 visitor 1 3447 25 100 0 0).1,
        some ⟨1, 1, .SELL, 3447, 25, 0, 100, 0⟩) := Prod.ext rfl rfl
  have hstocked : (stall.player 1).Stocked stallEnv := by
    intro w hw
    obtain rfl := List.mem_singleton.mp hw
    exact ⟨by decide, nofun, by decide⟩
  exact (givesBack_iff hstocked hcreate).mpr fun _ => ⟨by decide, fun h => absurd h (by decide), fun _ => by decide⟩

/-- An offer of store coins expires: the coins do not come back. -/
theorem not_givesBack_coin :
    (playerCreateMarketOffer stallEnv stall 1 visitor 1 22118 10 100 0 0).2 =
        some ⟨1, 1, .SELL, 22118, 10, 0, 100, 0⟩ ∧
      ¬GivesBack stallEnv stall (playerCreateMarketOffer stallEnv stall 1 visitor 1 22118 10 100 0 0).1 1
        (stallEnv.fee (totalPrice 100 10)).toNat ⟨1, 1, .SELL, 22118, 10, 0, 100, 0⟩ := by
  refine ⟨rfl, fun h => ?_⟩
  have hcoins := h.coins.1
  revert hcoins
  decide

end CrystalServer.Market

/-! ### All or nothing -/

namespace CrystalServer.Market

/-- The amount leaves stash and locker, all of it of the type and the tier, or both stay as they are. -/
structure AllOrNothing (env : MarketEnv) (p : Player) (type amount : UInt16) (tier : UInt8) : Prop where
  all : (removeOfferItems env p type amount tier).2 = true → ∀ id tiers,
    (removeOfferItems env p type amount tier).1.units id tiers +
      (if type = id ∧ tiers tier = true then amount.toNat else 0) = p.units id tiers
  nothing : (removeOfferItems env p type amount tier).2 = false →
    (removeOfferItems env p type amount tier).1.stash = p.stash ∧
      (removeOfferItems env p type amount tier).1.locker = p.locker

variable {env : MarketEnv} {p : Player} {type amount : UInt16} {tier : UInt8}

/-- An item that is sought is a piece that can be taken. -/
theorem stock_pos (hs : p.Stocked env) (h : p.itemCount env type tier ≠ 0) :
    0 < stock (sought env type tier) p.locker := by
  have hne : p.locker.filter (sought env type tier) ≠ [] := fun hnil => h (by rw [Player.itemCount, hnil]; rfl)
  obtain ⟨w, hw⟩ := List.exists_mem_of_ne_nil _ hne
  have hpos : 0 < w.count.toNat := UInt8.lt_iff_toNat_lt.mp (hs w (List.mem_of_mem_filter hw)).pos
  exact hpos.trans_le (List.single_le_sum (fun _ _ => Nat.zero_le _) _ (List.mem_map_of_mem hw))

/-- A call that succeeds found the whole amount. -/
theorem enough_of_removes (hs : p.Stocked env) {p' : Player}
    (h : removeOfferItems env p type amount tier = (p', true)) :
    amount.toNat ≤ p.fromStash env type amount tier + stock (sought env type tier) p.locker ∧
      (p.itemCount env type tier = 0 → amount.toNat ≤ p.fromStash env type amount tier) := by
  unfold Player.itemCount
  unfold removeOfferItems at h
  dsimp only at h
  generalize p.fromStash env type amount tier = stashed at h ⊢
  generalize hq : (if stashed > 0 then p.withdrawItem (env.wareId type) stashed else p) = q at h
  have hlocker : q.locker = p.locker := by
    subst hq
    split <;> rfl
  rw [← hlocker]
  by_cases hrest : amount.toNat - stashed > 0
  · rw [if_pos hrest] at h
    by_cases hzero : UInt16.ofNat (q.locker.filter (sought env type tier)).length = 0
    · rw [if_pos hzero] at h
      cases h
    · rw [if_neg hzero] at h
      obtain ⟨hleft, -, -⟩ := removeItems_spec (sought env type tier) (fun w => sought_eq) (amount.toNat - stashed)
        fun w hw => hs w (hlocker ▸ hw)
      have hall := congrArg Prod.snd h
      simp only [decide_eq_true_eq] at hall
      exact ⟨by omega, fun h0 => absurd h0 hzero⟩
  · exact ⟨by omega, fun _ => by omega⟩

/-- A call that fails has taken something, unless there was nothing to take. -/
theorem lacks_of_kept (hs : p.Stocked env) {p' : Player} (h : removeOfferItems env p type amount tier = (p', false))
    (hstash : p'.stash = p.stash) (hlocker : p'.locker = p.locker) : p.Lacks env type amount tier := by
  obtain ⟨-, hle, -⟩ := fromStash_le env p type amount tier
  have hnone : p.fromStash env type amount tier = 0 := by
    by_contra hne
    have hpos : p.fromStash env type amount tier > 0 := Nat.pos_of_ne_zero hne
    have hp : p'.stash = (p.withdrawItem (env.wareId type) (p.fromStash env type amount tier)).stash := by
      change (p', false).1.stash = _
      rw [← h]
      unfold removeOfferItems
      dsimp only
      rw [if_pos hpos]
      split_ifs <;> rfl
    have hat := congrFun (hstash.symm.trans hp) (env.wareId type)
    simp only [Player.withdrawItem, Function.update_self] at hat
    omega
  refine ⟨hnone, ?_⟩
  by_contra hitems
  -- the loop took a piece, so the locker is not as it was
  have hpos := stock_pos hs hitems
  unfold Player.itemCount at hitems
  unfold removeOfferItems at h
  dsimp only at h
  rw [hnone, if_neg (Nat.lt_irrefl 0)] at h
  by_cases hrest : amount.toNat - 0 > 0
  · rw [if_pos hrest, if_neg hitems] at h
    obtain ⟨-, hunits, -⟩ :=
      removeItems_spec (sought env type tier) (fun w => sought_eq) (amount.toNat - 0) hs
    have ht := hunits type fun _ => true
    obtain rfl := congrArg Prod.fst h
    dsimp only at hlocker
    rw [hlocker, if_pos ⟨rfl, rfl⟩] at ht
    omega
  · rw [if_neg hrest] at h
    cases h

/-- A call takes the amount or leaves all as it is, exactly where the whole amount is found, as items of the type itself,
    or nothing at all is found. -/
theorem allOrNothing_iff (hs : p.Stocked env) :
    AllOrNothing env p type amount tier ↔ p.Stocks env type amount tier ∨ p.Lacks env type amount tier := by
  constructor
  · rintro ⟨hall, hnothing⟩
    cases hremove : removeOfferItems env p type amount tier with
    | mk p' removed =>
      rw [hremove] at hall hnothing
      cases removed with
      | false =>
        obtain ⟨hstash, hlocker⟩ := hnothing rfl
        exact Or.inr (lacks_of_kept hs hremove hstash hlocker)
      | true =>
        obtain ⟨henough, hitems⟩ := enough_of_removes hs hremove
        refine Or.inl ⟨henough, hitems, fun hpos => ?_⟩
        by_contra hware
        -- what the stash gave is of another id
        obtain ⟨hle, -, hzero⟩ := fromStash_le env p type amount tier
        have hspec := (removeOfferItems_spec hs hremove).1 type fun _ => true
        have hunits := hall rfl type fun _ => true
        simp only [hware, false_and, and_self, if_true, if_false] at hspec hunits
        omega
  · intro h
    have hcase : p.Stocks env type amount tier ∨ amount ≠ 0 ∧ p.Lacks env type amount tier := by
      rcases h with hstocks | hlacks
      · exact Or.inl hstocks
      · by_cases hamount : amount = 0
        · subst hamount
          exact Or.inl ⟨Nat.zero_le _, fun _ => Nat.zero_le _, fun hpos => absurd hlacks.stash hpos.ne'⟩
        · exact Or.inr ⟨hamount, hlacks⟩
    rcases hcase with hstocks | ⟨hamount, hlacks⟩
    · obtain ⟨p', hremove⟩ := removeOfferItems_stocks hs hstocks
      obtain ⟨hle, -, hzero⟩ := fromStash_le env p type amount tier
      refine ⟨fun _ id tiers => ?_, fun hfail => ?_⟩
      · have hspec := (removeOfferItems_spec hs hremove).1 id tiers
        rw [hremove]
        by_cases hpos : 0 < p.fromStash env type amount tier
        · obtain rfl := hzero hpos
          rw [hstocks.ware hpos] at hspec
          split_ifs at hspec ⊢ <;> dsimp only at hspec ⊢ <;> omega
        · have hnone := Nat.eq_zero_of_not_pos hpos
          rw [hnone, ite_self] at hspec
          exact hspec
      · rw [hremove] at hfail
        cases hfail
    · have hremove := removeOfferItems_lacks hamount hlacks
      refine ⟨fun hdone => ?_, fun _ => ?_⟩
      · rw [hremove] at hdone
        cases hdone
      · rw [hremove]
        exact ⟨rfl, rfl⟩

/-- Then an offer that is refused costs no item. -/
theorem refusedOffer_keeps {s s' : State} {guid : UInt32} {session : Session} {action : UInt8} {price : UInt64} {now : Int}
    (hall : AllOrNothing env (s.player guid) type amount (sellTier env (s.player guid) type tier))
    (h : playerCreateMarketOffer env s guid session action type amount price tier now = (s', none)) :
    (s'.player guid).stash = (s.player guid).stash ∧ (s'.player guid).locker = (s.player guid).locker := by
  rcases create_cases env s guid session action type amount price tier now with heq | ⟨-, player, hremove, heq⟩ |
    ⟨-, offer, s'', heq, -, -⟩
  · rw [h] at heq
    cases heq
    exact ⟨rfl, rfl⟩
  · have hkept := hall.nothing
    rw [hremove] at hkept
    rw [h] at heq
    cases heq
    rw [player_setPlayer]
    exact hkept rfl
  · rw [h] at heq
    cases heq

/-- Of thirty arrows in the locker twenty-five are taken. -/
theorem allOrNothing_arrows : AllOrNothing stallEnv (stall.player 1) 3447 25 0 := by
  have hstocked : (stall.player 1).Stocked stallEnv := by
    intro w hw
    obtain rfl := List.mem_singleton.mp hw
    exact ⟨by decide, nofun, by decide⟩
  exact (allOrNothing_iff hstocked).mpr (Or.inl ⟨by decide, fun h => absurd h (by decide), fun h => absurd h (by decide)⟩)

/-- Ten arrows in the stash and none in the locker: twenty-five cannot be had, and the ten are gone. -/
theorem not_allOrNothing : ¬∀ (env : MarketEnv) (p : Player) (type amount : UInt16) (tier : UInt8), p.Stocked env →
    AllOrNothing env p type amount tier := by
  intro h
  have hkept := (h stallEnv ⟨0, 0, fun id => if id = 3447 then 10 else 0, [], ⟨1, true⟩⟩ 3447 25 0 nofun).nothing
  have hat := congrFun (hkept rfl).1 3447
  revert hat
  decide

end CrystalServer.Market
