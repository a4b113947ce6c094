import CrystalServer.Theorems.Market.Totals

/-! # The operations are balanced

Where every amount that is credited has room, and the items that are sold are all there, an operation only moves units
and money. The expiry of an offer does so where the snapshot has the amount of the row. -/

namespace CrystalServer.Market
open Account

/-- Coins and money that come to a player have room there. -/
def State.HasRoom (s : State) (guid : UInt32) : Assets → Prop
  | .wares _ => True
  | .coins amount => s.coinsOf guid + amount.toNat < 2 ^ 32
  | .money amount => (s.player guid).bankBalance.toNat + amount.toNat < 2 ^ 64

variable {env : MarketEnv} {accounts : Finset UInt32} {s s' : State} {guid : UInt32} {session : Session}
  {timestamp : UInt32} {counter : UInt16} {offer : Offer} {amount : UInt16}

/-! ### What is in an offer -/

theorem goods_buy (hsale : offer.sale = .BUY) (amount : UInt16) : offer.goods amount = fun _ => 0 := by
  funext id
  refine if_neg fun h => ?_
  rw [hsale] at h
  cases h.1

theorem goods_sell (hsale : offer.sale = .SELL) (amount : UInt16) :
    offer.goods amount = fun id => if offer.itemtype = id then (amount.toNat : Int) else 0 := by
  funext id
  unfold Offer.goods
  simp only [hsale, true_and]

theorem payment_sell (hsale : offer.sale = .SELL) (amount : UInt16) : offer.payment amount = 0 := by
  refine if_neg fun h => ?_
  rw [hsale] at h
  cases h

theorem payment_buy (hsale : offer.sale = .BUY) (hprice : offer.price ≤ 999999999999) (amount : UInt16) :
    offer.payment amount = (totalPrice offer.price amount).toNat := by
  rw [(toNat_totalPrice amount hprice).1, Int.natCast_mul]
  exact if_pos hsale

section
variable (h : PlayersOk env accounts s) (hok : offer.Ok env s)
include h hok

/-- The goods of an offer come to a player. -/
theorem moved_deliver (hg : guid ∈ s.guids) (hroom : offer.itemtype = ITEM_STORE_COIN → s.HasRoom guid (.coins amount)) :
    Moved env accounts s (s.deliver env guid offer amount)
      (fun id => if offer.itemtype = id then amount.toNat else 0) 0 := by
  unfold State.deliver
  rw [items_id hok.item]
  by_cases hcoin : offer.itemtype = ITEM_STORE_COIN
  · rw [if_pos hcoin, hcoin]
    exact moved_addCoins h hg (hroom hcoin) _
  · rw [if_neg hcoin]
    exact moved_addToInbox h hg hok.item hok.ware (stackSize_bounds env _).1 (stackSize_bounds env _).2
      (tierFromDatabase_le env _) hcoin

/-- What comes to the owner of a cancelled offer is what was in it. -/
theorem moved_cancelledAssets (hroom : s.HasRoom offer.player_id (cancelledAssets env offer)) :
    Moved env accounts s (s.credit env offer.player_id (cancelledAssets env offer)) (offer.goods offer.amount)
      (offer.payment offer.amount) := by
  unfold cancelledAssets at hroom ⊢
  cases hsale : offer.sale with
  | BUY =>
    rw [hsale] at hroom
    rw [goods_buy hsale, payment_buy hsale hok.price]
    exact moved_addBalance h hok.owner hroom
  | SELL =>
    rw [hsale] at hroom
    rw [goods_sell hsale, payment_sell hsale]
    dsimp only at hroom ⊢
    by_cases hcoin : offer.itemtype = ITEM_STORE_COIN
    · rw [if_pos hcoin] at hroom ⊢
      rw [hcoin]
      exact moved_addCoins h hok.owner hroom ""
    · rw [if_neg hcoin]
      exact moved_addToInbox h hok.owner hok.item hok.ware (stackSize_bounds env _).1 (stackSize_bounds env _).2
        (tierFromDatabase_le env _) hcoin

/-- So is what comes to the owner of an expired offer, unless it sold coins. -/
theorem moved_expiredAssets (hcoin : offer.sale = .SELL → offer.itemtype ≠ ITEM_STORE_COIN)
    (hroom : s.HasRoom offer.player_id (expiredAssets env offer)) :
    Moved env accounts s (s.credit env offer.player_id (expiredAssets env offer)) (offer.goods offer.amount)
      (offer.payment offer.amount) := by
  unfold expiredAssets at hroom ⊢
  cases hsale : offer.sale with
  | BUY =>
    rw [hsale] at hroom
    rw [goods_buy hsale, payment_buy hsale hok.price]
    exact moved_addBalance h hok.owner hroom
  | SELL =>
    rw [goods_sell hsale, payment_sell hsale]
    exact moved_addToInbox h hok.owner hok.item hok.ware (by decide) (by decide) (tierFromDatabase_le env _)
      (hcoin hsale)

end

/-! ### Creating -/

/-- Items that are to be sold are all there, or nothing of them is. -/
def CreateFits (env : MarketEnv) (s : State) (guid : UInt32) (session : Session) (type : UInt8) (itemId amount : UInt16)
    (price : UInt64) (tier : UInt8) : Prop :=
  TakesItems env s guid session type itemId amount price →
    (s.player guid).Stocks env itemId amount (sellTier env (s.player guid) itemId tier) ∨
      (s.player guid).Lacks env itemId amount (sellTier env (s.player guid) itemId tier)

theorem setPlayer_self (s : State) (guid : UInt32) : s.setPlayer guid (s.player guid) = s := by
  unfold State.setPlayer
  rw [Function.update_eq_self]

/-- The offer that is made takes up what its owner pays for it; the fee is lost. -/
theorem balanced_creates (h : PlayersOk env accounts s) (ht : TableOk env s) {tier : UInt8} {itemId : UInt16}
    {price : UInt64} {now : Int} (hm : Marketable env s guid itemId amount price)
    (hc : Creates env s guid itemId amount price tier now offer s')
    (hstocks : offer.sale = .SELL → itemId ≠ ITEM_STORE_COIN →
      (s.player guid).Stocks env itemId amount (sellTier env (s.player guid) itemId tier)) :
    Balanced env accounts s s' (env.fee (totalPrice price amount)).toNat := by
  obtain ⟨hprice, -⟩ := toNat_totalPrice amount hm.price
  have hok : ∀ id sale created tier, Offer.Ok env s ⟨id, guid, sale, itemId, amount, created, price, tier⟩ :=
    fun _ _ _ _ => ⟨hm.player, hm.item, hm.ware, hm.price⟩
  cases hc with
  | buy pays =>
    have hworth := worth_removeMoney (s.player guid) _ true pays
    rw [toNat_add_fee env amount hm.price, hprice] at hworth
    have hmoved := moved_pay h hm.player (sameGoods_removeMoney (s.player guid)
      (totalPrice price amount + env.fee (totalPrice price amount)) true)
    refine balanced_createOffer hmoved ht rfl (hok ..) (fun id => ?_) ?_
    · rfl
    · simp only [Offer.payment, if_true]
      rw [← Int.natCast_mul]
      omega
  | coins coin has pays =>
    have hworth := worth_removeMoney (s.player guid) _ true pays
    have hle : amount.toNat ≤ s.coinsOf guid := by
      rw [← getCoins_eq h hm.player, ← UInt16.toNat_toUInt32 amount]
      exact UInt32.le_iff_toNat_le.mp has
    have hcoins := moved_removeCoins h hm.player hle ""
    have hmoved := moved_pay hcoins.players (hcoins.guids ▸ hm.player)
      (sameGoods_removeMoney (s.player guid) (env.fee (totalPrice price amount)) true)
    refine balanced_createOffer (hcoins.trans hmoved) ht rfl (hok ..) (fun id => ?_) ?_
    · simp only [Offer.goods, true_and, coin]
      split_ifs <;> omega
    · have hsame : ((s.removeCoins guid amount "").player guid).worth = (s.player guid).worth := rfl
      rw [hsame]
      simp only [Offer.payment, reduceCtorEq, if_false]
      omega
  | items coin player removes pays =>
    have hgoods := moved_removeOfferItems h hm.player removes coin (hstocks rfl coin).ware
    obtain ⟨-, -, hpurse⟩ := removeOfferItems_spec (h.stocked guid hm.player) removes
    have hworth := worth_removeMoney player _ true (by rw [hpurse.money, hpurse.bankBalance]; exact pays)
    rw [worth_congr hpurse] at hworth
    have hgoods' := sameGoods_removeMoney player (env.fee (totalPrice price amount)) true
    have hmoved := moved_pay hgoods.players (hgoods.guids ▸ hm.player) (by rw [player_setPlayer]; exact hgoods')
    have htwice : ∀ p, (s.setPlayer guid player).setPlayer guid p = s.setPlayer guid p := fun p => by
      simp [State.setPlayer, Function.update_idem]
    rw [htwice, player_setPlayer] at hmoved
    refine balanced_createOffer (hgoods.trans hmoved) ht rfl (hok ..) (fun id => ?_) ?_
    · simp only [Offer.goods, true_and]
      split_ifs <;> omega
    · rw [worth_congr hpurse]
      simp only [Offer.payment, reduceCtorEq, if_false]
      omega

theorem balanced_playerCreateMarketOffer (h : PlayersOk env accounts s) (ht : TableOk env s) {type tier : UInt8}
    {itemId : UInt16} {price : UInt64} (now : Int)
    (hfits : CreateFits env s guid session type itemId amount price tier) :
    Balanced env accounts s (playerCreateMarketOffer env s guid session type itemId amount price tier now).1
      (if (playerCreateMarketOffer env s guid session type itemId amount price tier now).2.isSome then
        (env.fee (totalPrice price amount)).toNat else 0) := by
  rcases create_cases env s guid session type itemId amount price tier now with heq | ⟨htakes, player, hremove, heq⟩ |
    ⟨hm, offer, s', heq, hc, htakes⟩
  · rw [heq]
    exact .refl h ht
  · have hm := marketable_of_check htakes.check
    rw [heq]
    rcases hfits htakes with hstocks | hlacks
    · obtain ⟨p, hp⟩ := removeOfferItems_stocks (h.stocked guid hm.player) hstocks
      rw [hremove] at hp
      cases hp
    · rw [removeOfferItems_lacks hm.amount hlacks] at hremove
      cases hremove
      rw [setPlayer_self]
      exact .refl h ht
  · rw [heq]
    refine balanced_creates h ht hm hc fun hsale hcoin => ?_
    have htakes := htakes hsale hcoin
    refine (hfits htakes).resolve_right fun hlacks => ?_
    -- nothing there to take, and yet an offer: no way of making one is left
    have hremove := removeOfferItems_lacks hm.amount hlacks
    cases hc with
    | buy => cases hsale
    | coins coin => exact hcoin coin
    | items _ _ removes => 
      rw [hremove] at removes
      cases removes

/-! ### Cancelling -/

/-- What is given back has room. -/
def CancelFits (env : MarketEnv) (s : State) (guid : UInt32) (session : Session) (timestamp : UInt32)
    (counter : UInt16) : Prop :=
  guid ∈ s.guids → session.isInMarket = true → session.canDoMarketAction = true →
    ∀ offer, s.getOfferByCounter env timestamp counter = some offer → offer.player_id = guid →
      s.HasRoom guid (cancelledAssets env offer)

theorem cancel_cases (env : MarketEnv) (s : State) (guid : UInt32) (session : Session) (timestamp : UInt32)
    (counter : UInt16) : playerCancelMarketOffer env s guid session timestamp counter = s ∨
      guid ∈ s.guids ∧ session.isInMarket = true ∧ session.canDoMarketAction = true ∧
        ∃ offer, s.getOfferByCounter env timestamp counter = some offer ∧ offer.player_id = guid := by
  unfold playerCancelMarketOffer
  by_cases hguid : guid ∉ s.guids
  · exact Or.inl (if_pos hguid)
  by_cases hin : (!session.isInMarket) = true
  · exact Or.inl ((if_neg hguid).trans (if_pos hin))
  by_cases hdo : (!session.canDoMarketAction) = true
  · exact Or.inl ((if_neg hguid).trans ((if_neg hin).trans (if_pos hdo)))
  rw [if_neg hguid, if_neg hin, if_neg hdo]
  cases hfound : s.getOfferByCounter env timestamp counter with
  | none => exact Or.inl rfl
  | some offer =>
    by_cases howner : offer.player_id = guid
    · exact Or.inr ⟨not_not.mp hguid, by simpa using hin, by simpa using hdo, offer, rfl, howner⟩
    · exact Or.inl (if_pos howner)

theorem balanced_playerCancelMarketOffer (h : PlayersOk env accounts s) (ht : TableOk env s)
    (hfits : CancelFits env s guid session timestamp counter) :
    Balanced env accounts s (playerCancelMarketOffer env s guid session timestamp counter) 0 := by
  rcases cancel_cases env s guid session timestamp counter with heq | ⟨hguid, hin, hdo, offer, hfound, rfl⟩
  · rw [heq]
    exact .refl h ht
  · have hmem : offer ∈ s.market_offers := List.mem_of_find?_eq_some hfound
    have hok := ht.rows offer hmem
    have hroom := hfits hguid hin hdo offer hfound rfl
    rw [playerCancelMarketOffer_eq hguid hin hdo hfound rfl hok.item]
    exact balanced_deleteOffer (moved_cancelledAssets h hok hroom) ht hmem (fun _ => rfl) rfl

/-! ### Accepting -/

/-- The checks before an offer is accepted. -/
structure Acceptable (env : MarketEnv) (s : State) (guid : UInt32) (session : Session) (offer : Offer) (amount : UInt16)
    (sameAccount : Bool) : Prop where
  player : guid ∈ s.guids
  isIn : session.isInMarket = true
  canDo : session.canDoMarketAction = true
  positive : amount ≠ 0
  limit : ¬(!(env.items offer.itemtype).stackable ∧ amount > 2000 ∨ (env.items offer.itemtype).stackable ∧ amount > 64000)
  part : amount ≤ offer.amount
  other : guid ≠ offer.player_id
  account : sameAccount = false

/-- The items or coins that are sold are all there or refused, and what both players get has room. -/
def SellFits (env : MarketEnv) (s : State) (guid : UInt32) (offer : Offer) (amount : UInt16) : Prop :=
  if offer.itemtype = ITEM_STORE_COIN then
    amount.toUInt32 ≤ s.getCoins guid →
      s.HasRoom guid (.money (totalPrice offer.price amount)) ∧
        ((s.player guid).account.id ≠ (s.player offer.player_id).account.id → s.HasRoom offer.player_id (.coins amount))
  else
    (s.player guid).Stocks env offer.itemtype amount (getTierFromDatabaseTable env offer.tier) ∧
        s.HasRoom guid (.money (totalPrice offer.price amount)) ∨
      (s.player guid).Lacks env offer.itemtype amount (getTierFromDatabaseTable env offer.tier)

/-- What both players get has room. -/
def BuyFits (s : State) (guid : UInt32) (offer : Offer) (amount : UInt16) : Prop :=
  totalPrice offer.price amount ≤ (s.player guid).bankBalance + (s.player guid).money →
    s.HasRoom offer.player_id (.money (totalPrice offer.price amount)) ∧
      (offer.itemtype = ITEM_STORE_COIN → s.HasRoom guid (.coins amount))

def AcceptFits (env : MarketEnv) (s : State) (guid : UInt32) (session : Session) (timestamp : UInt32) (counter : UInt16)
    (amount : UInt16) (sameAccount : Bool) : Prop :=
  ∀ offer, s.getOfferByCounter env timestamp counter = some offer →
    Acceptable env s guid session offer amount sameAccount →
      match offer.sale with
      | .BUY => session.hasDepotLocker = true → SellFits env s guid offer amount
      | .SELL => BuyFits s guid offer amount

theorem hasRoom_setPlayer {p : Player} (hp : p.account = (s.player guid).account) {guid' : UInt32}
    (h : s.HasRoom guid' (.coins amount)) : (s.setPlayer guid p).HasRoom guid' (.coins amount) := by
  have hsame : ((s.setPlayer guid p).player guid').account = (s.player guid').account := by
    by_cases hg : guid' = guid
    · subst hg
      rw [player_setPlayer, hp]
    · exact congrArg Player.account (Function.update_of_ne hg ..)
  unfold State.HasRoom State.coinsOf at h ⊢
  rw [hsame]
  exact h

theorem hasRoom_addBalance {money : UInt64} {guid' : UInt32} (h : s.HasRoom guid' (.coins amount)) :
    (s.addBalance guid money).HasRoom guid' (.coins amount) := by
  unfold State.addBalance
  apply hasRoom_setPlayer
  · rfl
  · exact h

/-- After coins are taken, the accounts have room for them again. -/
theorem coinsOf_removeCoins (h : PlayersOk env accounts s) (hg : guid ∈ s.guids) (hle : amount.toNat ≤ s.coinsOf guid)
    (detail : String) {owner : UInt32}
    (hroom : (s.player guid).account.id ≠ (s.player owner).account.id → s.HasRoom owner (.coins amount)) :
    (s.removeCoins guid amount detail).HasRoom owner (.coins amount) := by
  have hle' : amount.toUInt32.toNat ≤ s.coinsOf guid := by
    rw [UInt16.toNat_toUInt32]
    exact hle
  have hstored := stored_removeCoins (h.opened guid hg) hle' detail (s.player owner).account.id Transferable
  rw [UInt16.toNat_toUInt32] at hstored
  change (s.removeCoins guid amount detail).coinsOf owner + _ = s.coinsOf owner at hstored
  change (s.removeCoins guid amount detail).coinsOf owner + amount.toNat < 2 ^ 32
  by_cases hid : (s.player guid).account.id = (s.player owner).account.id
  · rw [if_pos ⟨hid, rfl⟩] at hstored
    have hlt : s.coinsOf guid < 2 ^ 32 := by
      rw [← getCoins_eq h hg]
      exact UInt32.toNat_lt _
    have hsame : s.coinsOf owner = s.coinsOf guid := by
      unfold State.coinsOf
      rw [hid]
    omega
  · rw [if_neg fun h => hid h.1] at hstored
    have : s.coinsOf owner + amount.toNat < 2 ^ 32 := hroom hid
    omega

/-- The player after paying from the balance first, then with coins. -/
def Player.pay (p : Player) (totalPrice : UInt64) : Player :=
  if totalPrice ≤ p.bankBalance then { p with bankBalance := p.bankBalance - totalPrice }
  else ({ p with bankBalance := 0 }.removeMoney (totalPrice - p.bankBalance) false).1

theorem sameGoods_pay (p : Player) (totalPrice : UInt64) : p.SameGoods (p.pay totalPrice) := by
  unfold Player.pay
  split_ifs
  · exact ⟨rfl, rfl, rfl⟩
  · have := sameGoods_removeMoney { p with bankBalance := 0 } (totalPrice - p.bankBalance) false
    exact ⟨this.stash, this.locker, this.account⟩

theorem worth_pay (p : Player) (totalPrice : UInt64) (h : totalPrice ≤ p.bankBalance + p.money) :
    (p.pay totalPrice).worth + totalPrice.toNat = p.worth := by
  unfold Player.pay
  by_cases hle : totalPrice ≤ p.bankBalance
  · have hsub := UInt64.toNat_sub_of_le _ _ hle
    have hle' := UInt64.le_iff_toNat_le.mp hle
    rw [if_pos hle]
    simp only [Player.worth, hsub]
    omega
  · have hlt := UInt64.le_of_lt (UInt64.not_le.mp hle)
    have hsub := UInt64.toNat_sub_of_le _ _ hlt
    have hsum := UInt64.le_iff_toNat_le.mp h
    rw [UInt64.toNat_add] at hsum
    have hmod := Nat.mod_le (p.bankBalance.toNat + p.money.toNat) (2 ^ 64)
    have hworth := worth_removeMoney { p with bankBalance := 0 } (totalPrice - p.bankBalance) false
      (UInt64.le_iff_toNat_le.mpr (by simp [hsub]; omega))
    have hlt' := UInt64.le_iff_toNat_le.mp hlt
    rw [if_neg hle]
    simp only [Player.worth, hsub] at hworth ⊢
    have hz : (0 : UInt64).toNat = 0 := rfl
    omega

theorem buyFromOffer_eq {sameAccount : Bool} (howner : offer.player_id ∈ s.guids) (hother : guid ≠ offer.player_id)
    (haccount : sameAccount = false)
    (hpays : totalPrice offer.price amount ≤ (s.player guid).bankBalance + (s.player guid).money) :
    buyFromOffer env s guid offer amount sameAccount =
      (((s.setPlayer guid ((s.player guid).pay (totalPrice offer.price amount))).deliver env guid offer
        amount).addBalance offer.player_id (totalPrice offer.price amount)).take offer amount := by
  unfold buyFromOffer
  dsimp only
  rw [if_neg (not_not.mpr howner), if_neg (by simp [hother, haccount])]
  exact if_neg (UInt64.not_lt.mpr hpays)

theorem player_deliver (hne : guid ≠ offer.player_id) :
    (s.deliver env guid offer amount).player offer.player_id = s.player offer.player_id := by
  unfold State.deliver
  split_ifs
  · rfl
  · exact Function.update_of_ne hne.symm ..

section
variable (ht : TableOk env s) (hmem : offer ∈ s.market_offers) {sameAccount : Bool}
  (ha : Acceptable env s guid session offer amount sameAccount)
include ht hmem ha

/-- The goods have left the seller; the price comes, the goods go to the owner, and the offer is shorter by them. -/
theorem balanced_sold (hsale : offer.sale = .BUY)
    (hmoved : Moved env accounts s s' (fun id => if offer.itemtype = id then -(amount.toNat : Int) else 0) 0)
    (hmoney : s'.HasRoom guid (.money (totalPrice offer.price amount)))
    (hcoins : offer.itemtype = ITEM_STORE_COIN → s'.HasRoom offer.player_id (.coins amount)) :
    Balanced env accounts s (((s'.addBalance guid (totalPrice offer.price amount)).deliver env offer.player_id offer
      amount).take offer amount) 0 := by
  have hok := ht.rows offer hmem
  have hpaid := moved_addBalance hmoved.players (hmoved.guids ▸ ha.player) hmoney
  have howner : offer.player_id ∈ (s'.addBalance guid (totalPrice offer.price amount)).guids := by
    rw [hpaid.guids, hmoved.guids]
    exact hok.owner
  have hroom : offer.itemtype = ITEM_STORE_COIN →
      (s'.addBalance guid (totalPrice offer.price amount)).HasRoom offer.player_id (.coins amount) :=
    fun hcoin => hasRoom_addBalance (hcoins hcoin)
  have hdelivered := moved_deliver hpaid.players ⟨howner, hok.item, hok.ware, hok.price⟩ howner hroom
  refine balanced_take ((hmoved.trans hpaid).trans hdelivered) ht hmem ha.part (fun id => ?_) ?_
  · rw [goods_buy hsale]
    dsimp only
    split_ifs <;> omega
  · rw [payment_buy hsale hok.price]
    omega

theorem balanced_sellToOffer (h : PlayersOk env accounts s) (hsale : offer.sale = .BUY)
    (hfits : session.hasDepotLocker = true → SellFits env s guid offer amount) :
    Balanced env accounts s (sellToOffer env s guid session offer amount sameAccount) 0 := by
  have hok := ht.rows offer hmem
  unfold sellToOffer
  dsimp only
  by_cases hlocker : session.hasDepotLocker = true
  · have hfits := hfits hlocker
    unfold SellFits at hfits
    rw [if_neg (by simp [hlocker]), if_neg (not_not.mpr hok.owner), if_neg (by simp [ha.other, ha.account]),
      items_id hok.item]
    by_cases hcoin : offer.itemtype = ITEM_STORE_COIN
    · rw [if_pos hcoin] at hfits ⊢
      by_cases hhas : amount.toUInt32 ≤ s.getCoins guid
      · obtain ⟨hmoney, hcoins⟩ := hfits hhas
        have hle : amount.toNat ≤ s.coinsOf guid := by
          rw [← getCoins_eq h ha.player, ← UInt16.toNat_toUInt32 amount]
          exact UInt32.le_iff_toNat_le.mp hhas
        have hmoved := moved_removeCoins h ha.player hle "Sold on Market"
        rw [if_neg (UInt32.not_lt.mpr hhas)]
        refine balanced_sold ht hmem ha hsale ?_ hmoney fun _ => coinsOf_removeCoins h ha.player hle _ hcoins
        rwa [hcoin]
      · rw [if_pos (UInt32.not_le.mp hhas)]
        exact .refl h ht
    · rw [if_neg hcoin] at hfits ⊢
      rcases hfits with ⟨hstocks, hmoney⟩ | hlacks
      · obtain ⟨p, hp⟩ := removeOfferItems_stocks (h.stocked guid ha.player) hstocks
        have hmoved := moved_removeOfferItems h ha.player hp hcoin hstocks.ware
        obtain ⟨-, -, hpurse⟩ := removeOfferItems_spec (h.stocked guid ha.player) hp
        rw [hp]
        refine balanced_sold ht hmem ha hsale hmoved ?_ fun h => absurd h hcoin
        unfold State.HasRoom at hmoney ⊢
        rw [player_setPlayer, hpurse.bankBalance]
        exact hmoney
      · rw [removeOfferItems_lacks ha.positive hlacks]
        dsimp only
        rw [setPlayer_self]
        exact .refl h ht
  · rw [if_pos (by simp [hlocker])]
    exact .refl h ht

theorem balanced_buyFromOffer (h : PlayersOk env accounts s) (hsale : offer.sale = .SELL)
    (hfits : BuyFits s guid offer amount) :
    Balanced env accounts s (buyFromOffer env s guid offer amount sameAccount) 0 := by
  have hok := ht.rows offer hmem
  by_cases hpays : totalPrice offer.price amount ≤ (s.player guid).bankBalance + (s.player guid).money
  · obtain ⟨hmoney, hcoins⟩ := hfits hpays
    have hgoods := sameGoods_pay (s.player guid) (totalPrice offer.price amount)
    have hworth := worth_pay _ _ hpays
    have hpaid := moved_pay h ha.player hgoods
    rw [buyFromOffer_eq hok.owner ha.other ha.account hpays]
    generalize (s.player guid).pay (totalPrice offer.price amount) = p at hgoods hworth hpaid ⊢
    have hdelivered := moved_deliver hpaid.players ⟨hok.owner, hok.item, hok.ware, hok.price⟩ ha.player
      fun hcoin => hasRoom_setPlayer hgoods.account (hcoins hcoin)
    have hroom : (((s.setPlayer guid p).deliver env guid offer amount).player offer.player_id).bankBalance.toNat +
        (totalPrice offer.price amount).toNat < 2 ^ 64 := by
      rw [player_deliver ha.other, show (s.setPlayer guid p).player offer.player_id = s.player offer.player_id from
        Function.update_of_ne ha.other.symm ..]
      exact hmoney
    have howner : offer.player_id ∈ ((s.setPlayer guid p).deliver env guid offer amount).guids := by
      rw [hdelivered.guids]
      exact hok.owner
    have hreceived := moved_addBalance hdelivered.players howner hroom
    refine balanced_take ((hpaid.trans hdelivered).trans hreceived) ht hmem ha.part (fun id => ?_) ?_
    · rw [goods_sell hsale]
      dsimp only
      split_ifs <;> omega
    · rw [payment_sell hsale]
      omega
  · unfold buyFromOffer
    dsimp only
    rw [if_neg (not_not.mpr hok.owner), if_neg (by simp [ha.other, ha.account])]
    have hrefused := UInt64.not_le.mp hpays
    unfold totalPrice at hrefused
    rw [if_pos hrefused]
    exact .refl h ht

end

theorem accept_cases (env : MarketEnv) (s : State) (guid : UInt32) (session : Session) (timestamp : UInt32)
    (counter amount : UInt16) (sameAccount : Bool) :
    playerAcceptMarketOffer env s guid session timestamp counter amount sameAccount = s ∨
      ∃ offer, s.getOfferByCounter env timestamp counter = some offer ∧
        Acceptable env s guid session offer amount sameAccount ∧
          playerAcceptMarketOffer env s guid session timestamp counter amount sameAccount =
            match offer.sale with
            | .BUY => sellToOffer env s guid session offer amount sameAccount
            | .SELL => buyFromOffer env s guid offer amount sameAccount := by
  unfold playerAcceptMarketOffer
  by_cases hguid : guid ∉ s.guids
  · exact Or.inl (if_pos hguid)
  by_cases hin : (!session.isInMarket) = true
  · exact Or.inl ((if_neg hguid).trans (if_pos hin))
  by_cases hdo : (!session.canDoMarketAction) = true
  · exact Or.inl ((if_neg hguid).trans ((if_neg hin).trans (if_pos hdo)))
  rw [if_neg hguid, if_neg hin, if_neg hdo]
  cases hfound : s.getOfferByCounter env timestamp counter with
  | none => exact Or.inl rfl
  | some offer =>
    dsimp only
    split_ifs with hid hbad
    · exact Or.inl rfl
    · exact Or.inl rfl
    · simp only [not_or] at hbad
      obtain ⟨hpos, hsingle, hstack, hpart⟩ := hbad
      by_cases hown : guid = offer.player_id ∨ sameAccount = true
      · refine Or.inl ?_
        cases offer.sale with
        | BUY => 
          unfold sellToOffer
          dsimp only
          split_ifs <;> rfl
        | SELL => 
          unfold buyFromOffer
          dsimp only
          split_ifs <;> rfl
      · rw [not_or] at hown
        refine Or.inr ⟨offer, rfl, ⟨not_not.mp hguid, by simpa using hin, by simpa using hdo, hpos, ?_,
          UInt16.not_lt.mp hpart, hown.1, by simpa using hown.2⟩, rfl⟩
        exact not_or.mpr ⟨hsingle, hstack⟩

theorem balanced_playerAcceptMarketOffer (h : PlayersOk env accounts s) (ht : TableOk env s) {sameAccount : Bool}
    (hfits : AcceptFits env s guid session timestamp counter amount sameAccount) :
    Balanced env accounts s (playerAcceptMarketOffer env s guid session timestamp counter amount sameAccount) 0 := by
  rcases accept_cases env s guid session timestamp counter amount sameAccount with heq | ⟨offer, hfound, ha, heq⟩
  · rw [heq]
    exact .refl h ht
  · have hmem : offer ∈ s.market_offers := List.mem_of_find?_eq_some hfound
    have hfits := hfits offer hfound ha
    rw [heq]
    cases hsale : offer.sale with
    | BUY =>
      rw [hsale] at hfits
      exact balanced_sellToOffer ht hmem ha h hsale hfits
    | SELL =>
      rw [hsale] at hfits
      exact balanced_buyFromOffer ht hmem ha h hsale hfits

/-! ### Expiry -/

/-- The row is gone, or it still has the amount of the snapshot, sells no coins, and what it gives has room. -/
def RowFits (env : MarketEnv) (s : State) (row : Offer) : Prop :=
  ∀ offer ∈ s.market_offers, offer.id = row.id → offer.amount = row.amount ∧
    (row.sale = .SELL → row.itemtype ≠ ITEM_STORE_COIN) ∧ s.HasRoom row.player_id (expiredAssets env row)

/-- A row that was read: what still has its id is the same offer, maybe with another amount. -/
structure Seen (s : State) (row : Offer) : Prop where
  next : row.id < s.AUTO_INCREMENT
  same : ∀ offer ∈ s.market_offers, offer.id = row.id → offer = { row with amount := offer.amount }

theorem Seen.follows {row : Offer} (h : Seen s row) (hf : Follows s s') : Seen s' row := by
  refine ⟨h.next.trans_le hf.next, fun o ho hid => ?_⟩
  rcases hf.rows o ho with ⟨o₀, ho₀, heq⟩ | hnew
  · have hid₀ : o₀.id = row.id := by
      rw [← hid, heq]
    rw [heq, h.same o₀ ho₀ hid₀]
  · have := h.next
    omega

theorem seen_of_mem (ht : TableOk env s) {row : Offer} (h : row ∈ s.market_offers) : Seen s row := by
  refine ⟨ht.fresh row h, fun o ho hid => ?_⟩
  have heq := List.inj_on_of_nodup_map ht.keys ho h hid
  rw [heq]

theorem credit_deleteOffer (s : State) (guid : UInt32) (assets : Assets) (offerId : Nat) :
    (s.deleteOffer offerId).credit env guid assets = (s.credit env guid assets).deleteOffer offerId := by
  cases assets <;> rfl

theorem balanced_processExpiredOffer (h : PlayersOk env accounts s) (ht : TableOk env s) {row : Offer} (hseen : Seen s row)
    (hfits : RowFits env s row) : Balanced env accounts s (processExpiredOffer env s row) 0 := by
  by_cases hgone : (s.market_offers.all fun offer => offer.id ≠ row.id) = true
  · unfold processExpiredOffer
    rw [if_pos hgone]
    exact .refl h ht
  · obtain ⟨offer, hmem, hid⟩ : ∃ offer ∈ s.market_offers, offer.id = row.id := by
      simpa using hgone
    obtain ⟨hamount, hcoin, hroom⟩ := hfits offer hmem hid
    have hrow : offer = row := by
      rw [hseen.same offer hmem hid, hamount]
    subst hrow
    have hok := ht.rows offer hmem
    have hzero : offer.player_id ≠ 0 := fun h0 => h.zero (h0 ▸ hok.owner)
    rw [processExpiredOffer_eq ⟨offer, hmem, rfl⟩ hok.owner hzero hok.item, credit_deleteOffer]
    exact balanced_deleteOffer (moved_expiredAssets h hok hcoin hroom) ht hmem (fun _ => rfl) rfl

end CrystalServer.Market

/-! ## Conservation over runs

Whatever the order of offers made, cancelled, accepted and expired: as long as each expiry finds the rows as its
snapshot has them, no unit is made or lost, and money only by the fees. -/

namespace CrystalServer.Market
open Lib

/-- The state is in order, and the rows of the snapshots were read from its table. -/
structure System.Ok (env : MarketEnv) (accounts : Finset UInt32) (s : System) : Prop where
  players : PlayersOk env accounts s.state
  table : TableOk env s.state
  seen : ∀ rows ∈ s.snapshots, ∀ row ∈ rows, Seen s.state row

/-- From `s` to `s'` the units of each id stay, and so does the money with the fees that were paid. -/
structure Conserves (accounts : Finset UInt32) (s s' : System) : Prop where
  units : ∀ id, s'.state.totalUnits accounts id = s.state.totalUnits accounts id
  money : s'.state.totalMoney + s'.fees = s.state.totalMoney + s.fees

/-- What an operation needs: items that are all there, room for what is credited, and for an expiry rows with the
amounts of the snapshot. -/
def Fits (env : MarketEnv) (s : System) : Op → Prop
  | .playerCreateMarketOffer guid session type itemId amount price tier _ =>
    CreateFits env s.state guid session type itemId amount price tier
  | .playerCancelMarketOffer guid session timestamp counter => CancelFits env s.state guid session timestamp counter
  | .playerAcceptMarketOffer guid session timestamp counter amount sameAccount =>
    AcceptFits env s.state guid session timestamp counter amount sameAccount
  | .checkExpiredOffers _ => True
  | .processExpiredOffers query => Meets (processExpiredOffer env) (RowFits env) s.state (s.snapshots.getD query [])

variable {env : MarketEnv} {accounts : Finset UInt32} {s : System}

/-- The callback of an expiry, row by row. -/
theorem balanced_processExpiredOffers {s : State} {rows : List Offer} (h : PlayersOk env accounts s)
    (ht : TableOk env s) (hseen : ∀ row ∈ rows, Seen s row) (hfits : Meets (processExpiredOffer env) (RowFits env) s rows) :
    Balanced env accounts s (rows.foldl (processExpiredOffer env) s) 0 := by
  induction rows generalizing s with
  | nil => exact .refl h ht
  | cons row rows ih =>
    obtain ⟨hrow, hrows⟩ := hfits
    have hfirst := balanced_processExpiredOffer h ht (hseen row List.mem_cons_self) hrow
    refine hfirst.trans (ih hfirst.players hfirst.table (fun r hr => ?_) hrows)
    exact (hseen r (List.mem_cons_of_mem _ hr)).follows hfirst.follows

theorem Conserves.trans {s' s'' : System} (h : Conserves accounts s s') (h' : Conserves accounts s' s'') :
    Conserves accounts s s'' :=
  ⟨fun id => (h'.units id).trans (h.units id), h'.money.trans h.money⟩

/-- A balanced state keeps the system in order if the snapshots are old ones or of rows that are there. -/
theorem ok_of_balanced {s' : System} (hs : s.Ok env accounts) {fee : Nat}
    (hb : Balanced env accounts s.state s'.state fee) (hfees : s'.fees = s.fees + fee)
    (hseen : ∀ rows ∈ s'.snapshots, rows ∈ s.snapshots ∨ ∀ row ∈ rows, row ∈ s'.state.market_offers) :
    s'.Ok env accounts ∧ Conserves accounts s s' := by
  refine ⟨⟨hb.players, hb.table, fun rows hrows row hrow => ?_⟩, hb.units, ?_⟩
  · rcases hseen rows hrows with hold | hnew
    · exact (hs.seen rows hold row hrow).follows hb.follows
    · exact seen_of_mem hb.table (hnew row hrow)
  · have := hb.money
    omega

/-- A step that fits conserves. -/
theorem step_conserves (hs : s.Ok env accounts) (op : Op) (hfits : Fits env s op) :
    (s.step env op).Ok env accounts ∧ Conserves accounts s (s.step env op) := by
  cases op with
  | playerCreateMarketOffer guid session type itemId amount price tier now =>
    exact ok_of_balanced hs (balanced_playerCreateMarketOffer hs.players hs.table now hfits) rfl fun _ => Or.inl
  | playerCancelMarketOffer guid session timestamp counter =>
    exact ok_of_balanced hs (balanced_playerCancelMarketOffer hs.players hs.table hfits) rfl fun _ => Or.inl
  | playerAcceptMarketOffer guid session timestamp counter amount sameAccount =>
    exact ok_of_balanced hs (balanced_playerAcceptMarketOffer hs.players hs.table hfits) rfl fun _ => Or.inl
  | checkExpiredOffers lastExpireDate =>
    refine ok_of_balanced hs (.refl hs.players hs.table) rfl fun rows hrows => ?_
    rcases List.mem_append.mp hrows with hold | hnew
    · exact Or.inl hold
    · obtain rfl := List.mem_singleton.mp hnew
      exact Or.inr fun row hrow => List.mem_of_mem_filter hrow
  | processExpiredOffers query =>
    have hseen : ∀ row ∈ s.snapshots.getD query [], Seen s.state row := by
      intro row hrow
      rw [List.getD_eq_getElem?_getD] at hrow
      cases hq : s.snapshots[query]? with
      | none =>
        rw [hq] at hrow
        exact absurd hrow List.not_mem_nil
      | some rows =>
        rw [hq] at hrow
        exact hs.seen rows (List.mem_of_getElem? hq) row hrow
    refine ok_of_balanced hs (balanced_processExpiredOffers hs.players hs.table hseen hfits) rfl fun rows hrows => ?_
    exact Or.inl (List.mem_of_mem_eraseIdx hrows)

def stallSystem : System := ⟨stall, [], 0⟩

theorem stallSystem_ok : stallSystem.Ok stallEnv {1, 2} := by
  refine ⟨⟨fun g _ w hw => ?_, fun g _ => ⟨rfl, rfl⟩, fun g hg => hg, by decide⟩, ⟨List.nodup_nil, nofun, nofun⟩, nofun⟩
  obtain rfl := List.mem_singleton.mp hw
  exact ⟨by decide, nofun, by decide⟩

end CrystalServer.Market
