import CrystalServer.Lib.Keyed
import CrystalServer.Theorems.Market.GiveBack

/-! # What the players and the offers hold together

The units of an id, the coins of the accounts and the money, with what each update of the state does to them. -/

namespace CrystalServer.Market
open Account

/-- The units of an id that the offer puts up for sale. -/
def Offer.forSale (id : UInt16) (offer : Offer) : Nat :=
  if offer.sale = .SELL ∧ offer.itemtype = id then offer.amount.toNat else 0

/-- The money that lies in a buy offer. -/
def Offer.bid (offer : Offer) : Nat := if offer.sale = .BUY then offer.price.toNat * offer.amount.toNat else 0

def anyTier : UInt8 → Bool := fun _ => true

namespace State

def held (id : UInt16) (s : State) : Nat := ∑ guid ∈ s.guids, (s.player guid).units id anyTier

def purse (s : State) : Nat := ∑ guid ∈ s.guids, (s.player guid).worth

/-- The transferable coins of the accounts. -/
def coins (accounts : Finset UInt32) (s : State) : Nat := ∑ id ∈ accounts, stored s.accounts id Transferable

def offered (id : UInt16) (s : State) : Nat := (s.market_offers.map (Offer.forSale id)).sum

def bids (s : State) : Nat := (s.market_offers.map Offer.bid).sum

/-- The units of an id that the players hold; of the store coin those on the accounts. -/
def owned (accounts : Finset UInt32) (id : UInt16) (s : State) : Nat :=
  if id = ITEM_STORE_COIN then s.coins accounts else s.held id

/-- The units of an id with the players and in open sell offers. -/
def totalUnits (accounts : Finset UInt32) (id : UInt16) (s : State) : Nat := s.owned accounts id + s.offered id

/-- The money of the players and in open buy offers. -/
def totalMoney (s : State) : Nat := s.purse + s.bids

end State

/-- The players are in order, each with an account that can be read, among the given ones. -/
structure PlayersOk (env : MarketEnv) (accounts : Finset UInt32) (s : State) : Prop where
  stocked : ∀ guid ∈ s.guids, (s.player guid).Stocked env
  opened : ∀ guid ∈ s.guids, Open (s.player guid).account s.accounts Transferable
  listed : ∀ guid ∈ s.guids, (s.player guid).account.id ∈ accounts
  zero : 0 ∉ s.guids

/-- A row as `playerCreateMarketOffer` inserts it, of a player who exists. -/
structure Offer.Ok (env : MarketEnv) (s : State) (offer : Offer) : Prop where
  owner : offer.player_id ∈ s.guids
  item : (env.items offer.itemtype).id ≠ 0
  ware : env.wareId offer.itemtype ≠ 0
  price : offer.price ≤ 999999999999

/-- The ids of the rows are distinct and below the next one. -/
structure TableOk (env : MarketEnv) (s : State) : Prop where
  keys : (s.market_offers.map Offer.id).Nodup
  fresh : ∀ offer ∈ s.market_offers, offer.id < s.AUTO_INCREMENT
  rows : ∀ offer ∈ s.market_offers, offer.Ok env s

variable {env : MarketEnv} {accounts : Finset UInt32} {s : State} {guid : UInt32} {p : Player} {offer : Offer}
  {id amount : UInt16}

/-! ### Players -/

theorem held_setPlayer (hg : guid ∈ s.guids) (p : Player) (id : UInt16) :
    (s.setPlayer guid p).held id + (s.player guid).units id anyTier = s.held id + p.units id anyTier :=
  Lib.sum_update hg (Player.units id anyTier) s.player p

theorem purse_setPlayer (hg : guid ∈ s.guids) (p : Player) :
    (s.setPlayer guid p).purse + (s.player guid).worth = s.purse + p.worth :=
  Lib.sum_update hg Player.worth s.player p

theorem PlayersOk.setPlayer (h : PlayersOk env accounts s) (hp : p.Stocked env)
    (haccount : p.account = (s.player guid).account) : PlayersOk env accounts (s.setPlayer guid p) := by
  have hsame : ∀ g, ((s.setPlayer guid p).player g).account = (s.player g).account := by
    intro g
    by_cases hg : g = guid
    · subst hg
      rw [player_setPlayer, haccount]
    · exact congrArg Player.account (Function.update_of_ne hg ..)
  refine ⟨fun g hg => ?_, fun g hg => ?_, fun g hg => ?_, h.zero⟩
  · by_cases hgg : g = guid
    · subst hgg
      rw [player_setPlayer]
      exact hp
    · have : (s.setPlayer guid p).player g = s.player g := Function.update_of_ne hgg ..
      rw [this]
      exact h.stocked g hg
  · rw [hsame]
    exact h.opened g hg
  · rw [hsame]
    exact h.listed g hg

/-! ### Coins -/

theorem PlayersOk.execute (h : PlayersOk env accounts s) (c : Call) :
    PlayersOk env accounts { s with accounts := (c.execute s.accounts).2 } :=
  ⟨h.stocked, fun g hg => (h.opened g hg).execute c, h.listed, h.zero⟩

theorem PlayersOk.addCoins (h : PlayersOk env accounts s) (guid : UInt32) (amount : UInt16) (detail : String) :
    PlayersOk env accounts (s.addCoins guid amount detail) :=
  h.execute ⟨(s.player guid).account, .Add, Transferable, amount.toUInt32, detail, noFaults⟩

theorem PlayersOk.removeCoins (h : PlayersOk env accounts s) (guid : UInt32) (amount : UInt16) (detail : String) :
    PlayersOk env accounts (s.removeCoins guid amount detail) :=
  h.execute ⟨(s.player guid).account, .Remove, Transferable, amount.toUInt32, detail, noFaults⟩

/-- The coins that are stored for a player. -/
def State.coinsOf (s : State) (guid : UInt32) : Nat := stored s.accounts (s.player guid).account.id Transferable

theorem coins_addCoins (h : PlayersOk env accounts s) (hg : guid ∈ s.guids)
    (hfits : s.coinsOf guid + amount.toNat < 2 ^ 32) (detail : String) :
    (s.addCoins guid amount detail).coins accounts = s.coins accounts + amount.toNat := by
  have hamount : amount.toUInt32.toNat = amount.toNat := UInt16.toNat_toUInt32 amount
  have hstored : ∀ a, stored (s.addCoins guid amount detail).accounts a Transferable =
      stored s.accounts a Transferable + if (s.player guid).account.id = a then amount.toNat else 0 := fun a => by
    have := stored_addCoins (h.opened guid hg) (by rw [hamount]; exact hfits) detail a Transferable
    simp only [hamount, and_true] at this
    exact this
  unfold State.coins
  rw [Finset.sum_congr rfl fun a _ => hstored a]
  exact Lib.sum_add_at (h.listed guid hg) _ _

theorem coins_removeCoins (h : PlayersOk env accounts s) (hg : guid ∈ s.guids) (hle : amount.toNat ≤ s.coinsOf guid)
    (detail : String) :
    (s.removeCoins guid amount detail).coins accounts + amount.toNat = s.coins accounts := by
  have hamount : amount.toUInt32.toNat = amount.toNat := UInt16.toNat_toUInt32 amount
  have hstored : ∀ a, stored (s.removeCoins guid amount detail).accounts a Transferable +
      (if (s.player guid).account.id = a then amount.toNat else 0) = stored s.accounts a Transferable := fun a => by
    have := stored_removeCoins (h.opened guid hg) (by rw [hamount]; exact hle) detail a Transferable
    simp only [hamount, and_true] at this
    exact this
  unfold State.coins
  rw [← Finset.sum_congr rfl fun a _ => hstored a]
  exact (Lib.sum_add_at (h.listed guid hg) _ _).symm

theorem getCoins_eq (h : PlayersOk env accounts s) (hg : guid ∈ s.guids) : (s.getCoins guid).toNat = s.coinsOf guid :=
  getCoins_of_open (h.opened guid hg)

/-! ### The table -/

theorem sum_createOffer (f : Offer → Nat) (s : State) (offer : Offer) :
    ((s.createOffer offer).market_offers.map f).sum = (s.market_offers.map f).sum + f offer := by
  simp [State.createOffer]

theorem TableOk.createOffer (h : TableOk env s) (hid : offer.id = s.AUTO_INCREMENT) (hok : offer.Ok env s) :
    TableOk env (s.createOffer offer) := by
  refine ⟨?_, fun o ho => ?_, fun o ho => ?_⟩
  · rw [State.createOffer, List.map_append, List.nodup_append]
    refine ⟨h.keys, List.nodup_singleton _, fun a ha b hb => ?_⟩
    obtain ⟨o, ho, rfl⟩ := List.mem_map.mp ha
    obtain rfl := List.mem_singleton.mp hb
    have := h.fresh o ho
    omega
  · rcases List.mem_append.mp ho with ho | ho
    · exact Nat.lt_succ_of_lt (h.fresh o ho)
    · obtain rfl := List.mem_singleton.mp ho
      exact hid ▸ Nat.lt_succ_self _
  · have hrow : o.Ok env s := by
      rcases List.mem_append.mp ho with ho | ho
      · exact h.rows o ho
      · obtain rfl := List.mem_singleton.mp ho
        exact hok
    exact ⟨hrow.owner, hrow.item, hrow.ware, hrow.price⟩

theorem sum_deleteOffer (f : Offer → Nat) (h : TableOk env s) (ho : offer ∈ s.market_offers) :
    ((s.deleteOffer offer.id).market_offers.map f).sum + f offer = (s.market_offers.map f).sum :=
  Lib.sum_filter_key h.keys ho

theorem TableOk.deleteOffer (h : TableOk env s) (offerId : Nat) : TableOk env (s.deleteOffer offerId) := by
  have hsub : ∀ o ∈ (s.deleteOffer offerId).market_offers, o ∈ s.market_offers := fun o ho => List.mem_of_mem_filter ho
  refine ⟨(List.Sublist.map _ List.filter_sublist).nodup h.keys, fun o ho => h.fresh o (hsub o ho), fun o ho => ?_⟩
  have hrow := h.rows o (hsub o ho)
  exact ⟨hrow.owner, hrow.item, hrow.ware, hrow.price⟩

/-- Players and accounts are all that their order depends on. -/
theorem PlayersOk.congr {s' : State} (h : PlayersOk env accounts s) (hguids : s'.guids = s.guids)
    (hplayer : s'.player = s.player) (haccounts : s'.accounts = s.accounts) : PlayersOk env accounts s' := by
  refine ⟨?_, ?_, ?_, ?_⟩ <;> simp only [hguids, hplayer, haccounts]
  · exact h.stocked
  · exact h.opened
  · exact h.listed
  · exact h.zero

theorem sum_acceptOffer (f : Offer → Nat) (h : TableOk env s) (ho : offer ∈ s.market_offers) (amount : UInt16) :
    ((s.acceptOffer offer.id amount).market_offers.map f).sum + f offer =
      (s.market_offers.map f).sum + f { offer with amount := offer.amount - amount } :=
  Lib.sum_map_key (g := fun o => { o with amount := o.amount - amount }) h.keys ho

theorem TableOk.acceptOffer (h : TableOk env s) (offerId : Nat) (amount : UInt16) :
    TableOk env (s.acceptOffer offerId amount) := by
  have hsame : ∀ o ∈ (s.acceptOffer offerId amount).market_offers, ∃ o₀ ∈ s.market_offers,
      o = { o₀ with amount := o.amount } := by
    intro o ho
    obtain ⟨o₀, ho₀, rfl⟩ := List.mem_map.mp ho
    exact ⟨o₀, ho₀, by split <;> rfl⟩
  refine ⟨?_, fun o ho => ?_, fun o ho => ?_⟩
  · have hkeys : (s.acceptOffer offerId amount).market_offers.map Offer.id = s.market_offers.map Offer.id := by
      rw [State.acceptOffer, List.map_map]
      refine List.map_congr_left fun o _ => ?_
      simp only [Function.comp_apply]
      split <;> rfl
    rw [hkeys]
    exact h.keys
  · obtain ⟨o₀, ho₀, heq⟩ := hsame o ho
    rw [heq]
    exact h.fresh o₀ ho₀
  · obtain ⟨o₀, ho₀, heq⟩ := hsame o ho
    have hrow := h.rows o₀ ho₀
    rw [heq]
    exact ⟨hrow.owner, hrow.item, hrow.ware, hrow.price⟩

/-- What is taken of an offer is missing from every sum that counts by the unit. -/
theorem sum_take {f : Offer → Nat} (unit : Offer → Nat) (hf : ∀ o n, f { o with amount := n } = n.toNat * unit o)
    (h : TableOk env s) (ho : offer ∈ s.market_offers) (hle : amount ≤ offer.amount) :
    ((s.take offer amount).market_offers.map f).sum + amount.toNat * unit offer = (s.market_offers.map f).sum := by
  have hle' := UInt16.le_iff_toNat_le.mp hle
  have hsub := UInt16.toNat_sub_of_le _ _ hle
  have hoffer : f offer = offer.amount.toNat * unit offer := hf offer offer.amount
  have hmul : offer.amount.toNat * unit offer =
      (offer.amount.toNat - amount.toNat) * unit offer + amount.toNat * unit offer := by
    rw [← Nat.add_mul, Nat.sub_add_cancel hle']
  unfold State.take
  split_ifs with hz
  · have hdelete := sum_deleteOffer f h ho
    rw [hz] at hsub
    change 0 = _ at hsub
    rw [← hsub, Nat.zero_mul] at hmul
    omega
  · have haccept := sum_acceptOffer f h ho amount
    rw [hoffer, hf offer (offer.amount - amount), hsub] at haccept
    omega

theorem TableOk.take (h : TableOk env s) (offer : Offer) (amount : UInt16) : TableOk env (s.take offer amount) := by
  unfold State.take
  split_ifs
  · exact h.deleteOffer _
  · exact h.acceptOffer _ _

/-- The table after a part of an offer is taken has the same rows, but for amounts. -/
theorem mem_take {o : Offer} (h : o ∈ (s.take offer amount).market_offers) :
    ∃ o₀ ∈ s.market_offers, o = { o₀ with amount := o.amount } := by
  unfold State.take at h
  split_ifs at h
  · exact ⟨o, List.mem_of_mem_filter h, rfl⟩
  · obtain ⟨o₀, ho₀, rfl⟩ := List.mem_map.mp h
    exact ⟨o₀, ho₀, by split <;> rfl⟩

theorem take_player (s : State) (offer : Offer) (amount : UInt16) :
    (s.take offer amount).guids = s.guids ∧ (s.take offer amount).player = s.player ∧
      (s.take offer amount).accounts = s.accounts ∧ (s.take offer amount).AUTO_INCREMENT = s.AUTO_INCREMENT := by
  unfold State.take
  split_ifs <;> exact ⟨rfl, rfl, rfl, rfl⟩

end CrystalServer.Market

/-! ## What moves between the players and the offers

Each operation moves units and money to or from the players and then updates the table. A move is balanced if the table
takes up what the players lose and gives what they get. -/

namespace CrystalServer.Market
open Account

/-- From `s` to `s'` the players get so many units of each id and so much money; the table stays. -/
structure Moved (env : MarketEnv) (accounts : Finset UInt32) (s s' : State) (units : UInt16 → Int) (money : Int) :
    Prop where
  players : PlayersOk env accounts s'
  guids : s'.guids = s.guids
  offers : s'.market_offers = s.market_offers
  next : s'.AUTO_INCREMENT = s.AUTO_INCREMENT
  owned : ∀ id, (s'.owned accounts id : Int) = s.owned accounts id + units id
  purse : (s'.purse : Int) = s.purse + money

/-- The rows of `s'` are rows of `s`, with other amounts, or new. -/
structure Follows (s s' : State) : Prop where
  next : s.AUTO_INCREMENT ≤ s'.AUTO_INCREMENT
  rows : ∀ o' ∈ s'.market_offers, (∃ o ∈ s.market_offers, o' = { o with amount := o'.amount }) ∨
    s.AUTO_INCREMENT ≤ o'.id

/-- From `s` to `s'` nothing is made or lost, apart from a fee. -/
structure Balanced (env : MarketEnv) (accounts : Finset UInt32) (s s' : State) (fee : Nat) : Prop where
  players : PlayersOk env accounts s'
  table : TableOk env s'
  follows : Follows s s'
  units : ∀ id, s'.totalUnits accounts id = s.totalUnits accounts id
  money : s'.totalMoney + fee = s.totalMoney

variable {env : MarketEnv} {accounts : Finset UInt32} {s s' s'' : State} {guid : UInt32} {p : Player} {offer : Offer}
  {amount : UInt16}

theorem Follows.refl (s : State) : Follows s s := ⟨Nat.le_refl _, fun o ho => Or.inl ⟨o, ho, rfl⟩⟩

theorem Follows.trans (h : Follows s s') (h' : Follows s' s'') : Follows s s'' := by
  refine ⟨h.next.trans h'.next, fun o ho => ?_⟩
  rcases h'.rows o ho with ⟨o₁, ho₁, heq⟩ | hnew
  · rcases h.rows o₁ ho₁ with ⟨o₀, ho₀, heq₀⟩ | hnew
    · refine Or.inl ⟨o₀, ho₀, ?_⟩
      rw [heq, heq₀]
    · refine Or.inr ?_
      rw [heq]
      exact hnew
  · exact Or.inr (h.next.trans hnew)

theorem Balanced.refl (hp : PlayersOk env accounts s) (ht : TableOk env s) : Balanced env accounts s s 0 :=
  ⟨hp, ht, .refl s, fun _ => rfl, rfl⟩

theorem Balanced.trans {fee fee' : Nat} (h : Balanced env accounts s s' fee) (h' : Balanced env accounts s' s'' fee') :
    Balanced env accounts s s'' (fee + fee') := by
  refine ⟨h'.players, h'.table, h.follows.trans h'.follows, fun id => (h'.units id).trans (h.units id), ?_⟩
  have := h.money
  have := h'.money
  omega

theorem Moved.trans {u u' : UInt16 → Int} {m m' : Int} (h : Moved env accounts s s' u m)
    (h' : Moved env accounts s' s'' u' m') : Moved env accounts s s'' (fun id => u id + u' id) (m + m') := by
  refine ⟨h'.players, h'.guids.trans h.guids, h'.offers.trans h.offers, h'.next.trans h.next, fun id => ?_, ?_⟩
  · rw [h'.owned, h.owned]
    omega
  · rw [h'.purse, h.purse]
    omega

/-! ### Moves -/

section
variable (h : PlayersOk env accounts s) (hg : guid ∈ s.guids)
include h hg

/-- A player gets other items and other money. -/
theorem moved_setPlayer (hp : p.Stocked env) (haccount : p.account = (s.player guid).account) {u : UInt16 → Int}
    (hu : ∀ id, (p.units id anyTier : Int) = (s.player guid).units id anyTier + u id) (hcoin : u ITEM_STORE_COIN = 0) :
    Moved env accounts s (s.setPlayer guid p) u ((p.worth : Int) - (s.player guid).worth) := by
  refine ⟨h.setPlayer hp haccount, rfl, rfl, rfl, fun id => ?_, ?_⟩
  · have hheld := held_setPlayer hg p id
    have hunits := hu id
    unfold State.owned
    split_ifs with hid
    · subst hid
      rw [hcoin, Int.add_zero]
      rfl
    · omega
  · have := purse_setPlayer hg p
    omega

/-- A player gets other money. -/
theorem moved_pay (hgoods : (s.player guid).SameGoods p) :
    Moved env accounts s (s.setPlayer guid p) (fun _ => 0) ((p.worth : Int) - (s.player guid).worth) := by
  refine moved_setPlayer h hg ?_ hgoods.account (fun id => ?_) rfl
  · intro w hw
    exact h.stocked guid hg w (hgoods.locker ▸ hw)
  · rw [units_congr hgoods]
    omega

/-- A player gets other items. -/
theorem moved_goods (hp : p.Stocked env) (hpurse : (s.player guid).SamePurse p) {u : UInt16 → Int}
    (hu : ∀ id, (p.units id anyTier : Int) = (s.player guid).units id anyTier + u id) (hcoin : u ITEM_STORE_COIN = 0) :
    Moved env accounts s (s.setPlayer guid p) u 0 := by
  have hmoved := moved_setPlayer h hg hp hpurse.account hu hcoin
  rwa [worth_congr hpurse, Int.sub_self] at hmoved

theorem moved_addBalance {money : UInt64} (hfits : (s.player guid).bankBalance.toNat + money.toNat < 2 ^ 64) :
    Moved env accounts s (s.addBalance guid money) (fun _ => 0) money.toNat := by
  unfold State.addBalance
  generalize hp : ({ s.player guid with bankBalance := (s.player guid).bankBalance + money } : Player) = p
  have hmoved := moved_pay (p := p) h hg (by subst hp; exact ⟨rfl, rfl, rfl⟩)
  have hworth : (p.worth : Int) - (s.player guid).worth = money.toNat := by
    subst hp
    simp only [Player.worth, UInt64.toNat_add, Nat.mod_eq_of_lt hfits]
    omega
  rwa [hworth] at hmoved

/-- The items that are made of an amount come into the inbox. -/
theorem moved_addToInbox {type : UInt16} (hid : (env.items type).id ≠ 0) (hw : env.wareId type ≠ 0) {limit : Nat}
    (hl : 0 < limit) (hl' : limit < 256) {tier : UInt8} (ht : tier ≤ env.FORGE_MAX_ITEM_TIER)
    (hcoin : type ≠ ITEM_STORE_COIN) :
    Moved env accounts s (s.addToInbox env guid (makeItems env (env.items type) limit amount tier))
      (fun id => if type = id then amount.toNat else 0) 0 := by
  unfold State.addToInbox
  rw [addToInbox_makeItems hw (items_id hid) (s.player guid) hl hl']
  apply moved_goods h hg
  · intro w hmem
    rcases List.mem_append.mp hmem with hmem | hmem
    · exact h.stocked guid hg w hmem
    · exact ok_makeItems hw (items_id hid) hl hl' ht hmem
  · exact ⟨rfl, rfl, rfl⟩
  · intro id
    simp only [Player.units, units_append, units_makeItems hw (items_id hid) hl hl', anyTier, and_true]
    split_ifs <;> push_cast <;> omega
  · exact if_neg hcoin

/-- Coins come onto the account. -/
theorem moved_addCoins (hfits : s.coinsOf guid + amount.toNat < 2 ^ 32) (detail : String) :
    Moved env accounts s (s.addCoins guid amount detail) (fun id => if ITEM_STORE_COIN = id then amount.toNat else 0)
      0 := by
  refine ⟨h.addCoins guid amount detail, rfl, rfl, rfl, fun id => ?_, (Int.add_zero _).symm⟩
  have hcoins := coins_addCoins h hg hfits detail
  unfold State.owned
  split_ifs with h1 h2 h2
  · omega
  · exact absurd h1.symm h2
  · exact absurd h2.symm h1
  · exact (Int.add_zero _).symm

/-- Coins are taken from the account. -/
theorem moved_removeCoins (hle : amount.toNat ≤ s.coinsOf guid) (detail : String) :
    Moved env accounts s (s.removeCoins guid amount detail)
      (fun id => if ITEM_STORE_COIN = id then -(amount.toNat : Int) else 0) 0 := by
  refine ⟨h.removeCoins guid amount detail, rfl, rfl, rfl, fun id => ?_, (Int.add_zero _).symm⟩
  have hcoins := coins_removeCoins h hg hle detail
  unfold State.owned
  split_ifs with h1 h2 h2
  · omega
  · exact absurd h1.symm h2
  · exact absurd h2.symm h1
  · exact (Int.add_zero _).symm

/-- Items are taken from stash and locker. -/
theorem moved_removeOfferItems {type : UInt16} {tier : UInt8}
    (removes : removeOfferItems env (s.player guid) type amount tier = (p, true)) (hcoin : type ≠ ITEM_STORE_COIN)
    (hstash : 0 < (s.player guid).fromStash env type amount tier → env.wareId type = type) :
    Moved env accounts s (s.setPlayer guid p) (fun id => if type = id then -(amount.toNat : Int) else 0) 0 := by
  obtain ⟨htaken, hstocked, hpurse⟩ := removeOfferItems_spec (h.stocked guid hg) removes
  obtain ⟨hle, -, -⟩ := fromStash_le env (s.player guid) type amount tier
  refine moved_goods h hg hstocked hpurse (fun id => ?_) ?_
  · have ht := htaken id anyTier
    simp only [anyTier, and_true] at ht ⊢
    by_cases hz : 0 < (s.player guid).fromStash env type amount tier
    · rw [hstash hz] at ht
      split_ifs at ht ⊢ <;> omega
    · have hz : (s.player guid).fromStash env type amount tier = 0 := by omega
      rw [hz, ite_self] at ht
      split_ifs at ht ⊢ <;> omega
  · exact if_neg hcoin

end

/-! ### Updates of the table -/

/-- The units that leave the table with an amount of an offer. -/
def Offer.goods (offer : Offer) (amount : UInt16) (id : UInt16) : Int :=
  if offer.sale = .SELL ∧ offer.itemtype = id then amount.toNat else 0

/-- The money that leaves the table with an amount of an offer. -/
def Offer.payment (offer : Offer) (amount : UInt16) : Int :=
  if offer.sale = .BUY then offer.price.toNat * amount.toNat else 0

/-- The table after a move is the table before it. -/
theorem Moved.table {u : UInt16 → Int} {m : Int} (h : Moved env accounts s s' u m) (ht : TableOk env s) :
    TableOk env s' := by
  refine ⟨by rw [h.offers]; exact ht.keys, fun o ho => ?_, fun o ho => ?_⟩
  · rw [h.offers] at ho
    rw [h.next]
    exact ht.fresh o ho
  · rw [h.offers] at ho
    have hrow := ht.rows o ho
    exact ⟨h.guids ▸ hrow.owner, hrow.item, hrow.ware, hrow.price⟩

section
variable {u : UInt16 → Int} {m : Int} (h : Moved env accounts s s' u m) (ht : TableOk env s)
include h ht

/-- What the players got was in a new offer, with the fee. -/
theorem balanced_createOffer {fee : Nat} (hid : offer.id = s.AUTO_INCREMENT) (hok : offer.Ok env s)
    (hu : ∀ id, u id + offer.goods offer.amount id = 0) (hm : m + offer.payment offer.amount + fee = 0) :
    Balanced env accounts s (s'.createOffer offer) fee := by
  have ht' := h.table ht
  refine ⟨⟨h.players.stocked, h.players.opened, h.players.listed, h.players.zero⟩, ?_, ⟨?_, fun o ho => ?_⟩,
    fun id => ?_, ?_⟩
  · refine ht'.createOffer (by rw [hid, h.next]) ⟨?_, hok.item, hok.ware, hok.price⟩
    rw [h.guids]
    exact hok.owner
  · have := h.next
    simp only [State.createOffer]
    omega
  · rcases List.mem_append.mp ho with ho | ho
    · rw [h.offers] at ho
      exact Or.inl ⟨o, ho, rfl⟩
    · obtain rfl := List.mem_singleton.mp ho
      exact Or.inr hid.ge
  · have howned := h.owned id
    have hgoods := hu id
    have hsum := sum_createOffer (Offer.forSale id) s' offer
    rw [h.offers] at hsum
    unfold State.totalUnits State.offered
    change s'.owned accounts id + _ = _
    rw [hsum]
    unfold Offer.forSale
    unfold Offer.goods at hgoods
    split_ifs at hgoods ⊢ <;> omega
  · have hpurse := h.purse
    have hsum := sum_createOffer Offer.bid s' offer
    rw [h.offers] at hsum
    unfold State.totalMoney State.bids
    change s'.purse + _ + _ = _
    rw [hsum]
    unfold Offer.bid
    unfold Offer.payment at hm
    split_ifs at hm ⊢ <;> omega

/-- What the players get leaves an offer. -/
theorem balanced_take (ho : offer ∈ s.market_offers) (hle : amount ≤ offer.amount)
    (hu : ∀ id, u id = offer.goods amount id) (hm : m = offer.payment amount) :
    Balanced env accounts s (s'.take offer amount) 0 := by
  have ht' := h.table ht
  have ho' : offer ∈ s'.market_offers := h.offers ▸ ho
  obtain ⟨hguids, hplayer, haccounts, hnext⟩ := take_player s' offer amount
  refine ⟨h.players.congr hguids hplayer haccounts, ht'.take _ _, ⟨?_, fun o hmem => ?_⟩, fun id => ?_, ?_⟩
  · rw [hnext, h.next]
  · obtain ⟨o₀, ho₀, heq⟩ := mem_take hmem
    exact Or.inl ⟨o₀, h.offers ▸ ho₀, heq⟩
  · have howned := h.owned id
    have hgoods := hu id
    have hsum := sum_take (f := Offer.forSale id) (fun o => if o.sale = .SELL ∧ o.itemtype = id then 1 else 0)
      (fun o n => by simp only [Offer.forSale]; split_ifs <;> simp) ht' ho' hle
    have hsame : (s'.take offer amount).owned accounts id = s'.owned accounts id := by
      unfold State.owned State.coins State.held
      rw [hguids, hplayer, haccounts]
    rw [h.offers] at hsum
    unfold State.totalUnits State.offered
    rw [hsame]
    unfold Offer.goods at hgoods
    split_ifs at hgoods hsum <;> omega
  · have hpurse := h.purse
    have hsum := sum_take (f := Offer.bid) (fun o => if o.sale = .BUY then o.price.toNat else 0)
      (fun o n => by simp only [Offer.bid]; split_ifs <;> simp [Nat.mul_comm]) ht' ho' hle
    have hsame : (s'.take offer amount).purse = s'.purse := by
      unfold State.purse
      rw [hguids, hplayer]
    rw [h.offers] at hsum
    unfold State.totalMoney State.bids
    rw [hsame]
    unfold Offer.payment at hm
    rw [← Int.natCast_mul, Nat.mul_comm] at hm
    split_ifs at hm hsum <;> omega

/-- What the players get is all that was in an offer. -/
theorem balanced_deleteOffer (ho : offer ∈ s.market_offers) (hu : ∀ id, u id = offer.goods offer.amount id)
    (hm : m = offer.payment offer.amount) : Balanced env accounts s (s'.deleteOffer offer.id) 0 := by
  have hall := balanced_take h ht ho (UInt16.le_refl _) hu hm
  unfold State.take at hall
  rwa [UInt16.sub_self, if_pos rfl] at hall

end

end CrystalServer.Market
