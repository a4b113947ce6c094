import CrystalServer.Theorems.Game.HouseAuction

/-! # House auctions: who wins, and at what price

The bids that a house records, from the time it is put up until it is settled after a restart. The recorded highest bid
is at least what the others offered, as long as no bid that does not outbid lies below one of theirs. -/

namespace CrystalServer.HouseAuction
open Lib

/-- The bid that a call records, with its bidder. -/
def offer (env : Realm) (s : State) (playerId : Guid) (houseId : HouseId) (bidValue : Nat) : Option (Guid × Nat) :=
  match getPlayerByGUID env playerId with
  | none => none
  | some player =>
    if houseId ∉ env.houses ∨ !mayBid env s player then none
    else if (s.house houseId).bidderName ≠ [] ∧ bidValue ≤ (s.house houseId).internalBid then some (player.guid, bidValue)
    else (processBankAuction env s player (s.house houseId) bidValue false).map fun _ => (player.guid, bidValue)

structure Bid where
  playerId : Guid
  bidValue : Nat
  bidEndDate : Nat

/-- An auction, with the bids that were recorded. -/
structure Auction where
  state : State
  offers : List (Guid × Nat)

def bidStep (env : Realm) (houseId : HouseId) (a : Auction) (b : Bid) : Auction where
  state := playerCyclopediaHouseBid env a.state b.playerId houseId b.bidValue b.bidEndDate
  offers := a.offers ++ (offer env a.state b.playerId houseId b.bidValue).toList

/-- A bid that does not outbid is not below what others than the holder have offered. -/
def Above (env : Realm) (houseId : HouseId) (a : Auction) (b : Bid) : Prop :=
  offer env a.state b.playerId houseId b.bidValue ≠ none → b.bidValue ≤ (a.state.house houseId).internalBid →
    ∀ o ∈ a.offers, o.1 ≠ (a.state.house houseId).bidder → o.2 ≤ b.bidValue

/-- The house goes to its bidder, at a price between what others offered and his own bid; nobody else has paid. -/
structure Fair (houseId : HouseId) (s₀ : State) (a : Auction) (s' : State) : Prop where
  owner : (a.state.house houseId).bidder ≠ 0 → (s'.house houseId).owner = (a.state.house houseId).bidder
  price : (a.state.house houseId).bidder ≠ 0 → ∃ price,
    s'.balance (a.state.house houseId).bidder + ((s₀.house houseId).rent + price) =
      s₀.balance (a.state.house houseId).bidder ∧
    price ≤ (a.state.house houseId).internalBid ∧
    ∀ o ∈ a.offers, o.1 ≠ (a.state.house houseId).bidder → o.2 ≤ price
  others : ∀ g, g ≠ (a.state.house houseId).bidder → s'.balance g = s₀.balance g

/-- What holds of an auction while it runs. -/
structure Open (env : Realm) (houseId : HouseId) (s₀ : State) (a : Auction) : Prop where
  state : (a.state.house houseId).state = .Available
  sound : Sound env (a.state.house houseId)
  rent : (a.state.house houseId).rent = (s₀.house houseId).rent
  balance : ∀ g, a.state.balance g + (a.state.house houseId).share g = s₀.balance g
  free : (a.state.house houseId).bidderName = [] → (a.state.house houseId).bidder = 0 ∧ a.offers = []
  highest_le : (a.state.house houseId).highestBid ≤ (a.state.house houseId).internalBid ∨
    (a.state.house houseId).bidderName = []
  offer_le : ∀ o ∈ a.offers, o.2 ≤ (a.state.house houseId).internalBid
  le_highest : ∀ o ∈ a.offers, o.1 ≠ (a.state.house houseId).bidder → o.2 ≤ (a.state.house houseId).highestBid

variable {env : Realm} {s s₀ : State} {a : Auction} {b : Bid} {houseId : HouseId} {playerId : Guid} {bidValue bidEndDate : Nat}

/-- What a call makes of the house: nothing, or it records its bid as the first, below the holder's, or above it. -/
theorem bid_cases (env : Realm) (s : State) (houseId : HouseId) (playerId : Guid) (bidValue bidEndDate : Nat) :
    (offer env s playerId houseId bidValue = none ∧
      (playerCyclopediaHouseBid env s playerId houseId bidValue bidEndDate).house houseId = s.house houseId) ∨
    ∃ player ∈ env.players, offer env s playerId houseId bidValue = some (player.guid, bidValue) ∧
      (((s.house houseId).bidderName = [] ∧
          (playerCyclopediaHouseBid env s playerId houseId bidValue bidEndDate).house houseId =
            (s.house houseId).heldBy player bidValue 0 bidEndDate) ∨
        ((s.house houseId).bidderName ≠ [] ∧ bidValue ≤ (s.house houseId).internalBid ∧
          (playerCyclopediaHouseBid env s playerId houseId bidValue bidEndDate).house houseId =
            { s.house houseId with highestBid := bidValue }) ∨
        ((s.house houseId).bidderName ≠ [] ∧ (s.house houseId).internalBid < bidValue ∧
          (playerCyclopediaHouseBid env s playerId houseId bidValue bidEndDate).house houseId =
            (s.house houseId).heldBy player bidValue ((s.house houseId).internalBid + 1)
              (s.house houseId).bidEndDate)) := by
  unfold offer playerCyclopediaHouseBid
  cases hplayer : getPlayerByGUID env playerId with
  | none => exact .inl ⟨rfl, rfl⟩
  | some player =>
    obtain ⟨hmem, -⟩ := getPlayerByGUID_iff.mp hplayer
    dsimp only
    by_cases hhouse : houseId ∈ env.houses
    · cases hmay : mayBid env s player with
      | false => simp [hhouse]
      | true =>
        have hname := name_ne_of_mayBid hhouse hmay
        simp only [hhouse, not_true_eq_false, Bool.not_true, Bool.false_eq_true, or_self, if_false, hname]
        by_cases hfree : (s.house houseId).bidderName = []
        · simp only [hfree, ne_eq, not_true_eq_false, false_and, if_false, if_true]
          cases hpay : processBankAuction env s player (s.house houseId) bidValue false with
          | none => exact .inl ⟨rfl, rfl⟩
          | some s₁ => exact .inr ⟨player, hmem, rfl, .inl ⟨trivial, setHouse_house_self ..⟩⟩
        · simp only [hfree, ne_eq, not_false_eq_true, true_and, if_false, false_and, false_or]
          by_cases hlow : bidValue ≤ (s.house houseId).internalBid
          · simp only [hlow, if_true]
            exact .inr ⟨player, hmem, rfl, .inl ⟨trivial, setHouse_house_self ..⟩⟩
          · simp only [hlow, if_false]
            cases hpay : processBankAuction env s player (s.house houseId) bidValue false with
            | none => exact .inl ⟨rfl, rfl⟩
            | some s₁ =>
              exact .inr ⟨player, hmem, rfl, .inr ⟨Nat.lt_of_not_le hlow, setHouse_house_self ..⟩⟩
    · simp [hhouse]

theorem open_bid (h : Open env houseId s₀ a) (hb : Above env houseId a b) : Open env houseId s₀ (bidStep env houseId a b) := by
  have hstate : (a.state.house houseId).state ≠ .Transfer := by
    rw [h.state]
    exact nofun
  obtain ⟨hsound, -, hshare⟩ := @bid_moves env a.state houseId b.playerId b.bidValue h.sound b.bidEndDate
    fun _ _ _ ht => absurd ht hstate
  have hbalance (g : Guid) : (bidStep env houseId a b).state.balance g +
      ((bidStep env houseId a b).state.house houseId).share g = s₀.balance g := (hshare g).trans (h.balance g)
  obtain ⟨hnone, hsame⟩ | ⟨player, hmem, hsome, hcase⟩ :=
    bid_cases env a.state houseId b.playerId b.bidValue b.bidEndDate
  · have hhouse : (bidStep env houseId a b).state.house houseId = a.state.house houseId := hsame
    have hoffers : (bidStep env houseId a b).offers = a.offers := by simp [bidStep, hnone]
    constructor
    · rw [hhouse]
      exact h.state
    · exact hsound
    · rw [hhouse]
      exact h.rent
    · exact hbalance
    · rw [hhouse, hoffers]
      exact h.free
    · rw [hhouse]
      exact h.highest_le
    · rw [hhouse, hoffers]
      exact h.offer_le
    · rw [hhouse, hoffers]
      exact h.le_highest
  · have hoffers : (bidStep env houseId a b).offers = a.offers ++ [(player.guid, b.bidValue)] := by simp [bidStep, hsome]
    have hnamed := (env.named player hmem).2
    obtain ⟨hfree, hnew⟩ | ⟨hheld, hlow, hnew⟩ | ⟨hheld, hover, hnew⟩ := hcase
    · have hhouse : (bidStep env houseId a b).state.house houseId =
          (a.state.house houseId).heldBy player b.bidValue 0 b.bidEndDate := hnew
      obtain ⟨-, hnil⟩ := h.free hfree
      refine ⟨?_, hsound, ?_, hbalance, ?_, ?_, ?_, ?_⟩ <;> rw [hhouse]
      · exact h.state
      · exact h.rent
      · exact fun hn => absurd hn hnamed
      · exact .inl (Nat.zero_le _)
      · rw [hoffers, hnil]
        simp [House.heldBy]
      · rw [hoffers, hnil]
        simp [House.heldBy]
    · have hhouse : (bidStep env houseId a b).state.house houseId =
          { a.state.house houseId with highestBid := b.bidValue } := hnew
      have habove := hb (by rw [hsome]; exact nofun) hlow
      refine ⟨?_, hsound, ?_, hbalance, ?_, ?_, ?_, ?_⟩ <;> rw [hhouse]
      · exact h.state
      · exact h.rent
      · exact fun hn => absurd hn hheld
      · exact .inl hlow
      · rw [hoffers]
        intro o ho
        rcases List.mem_append.mp ho with ho | ho
        · exact h.offer_le o ho
        · rw [List.mem_singleton.mp ho]
          exact hlow
      · rw [hoffers]
        intro o ho hne
        rcases List.mem_append.mp ho with ho | ho
        · exact habove o ho hne
        · rw [List.mem_singleton.mp ho]
    · have hhouse : (bidStep env houseId a b).state.house houseId = (a.state.house houseId).heldBy player b.bidValue
          ((a.state.house houseId).internalBid + 1) (a.state.house houseId).bidEndDate := hnew
      refine ⟨?_, hsound, ?_, hbalance, ?_, ?_, ?_, ?_⟩ <;> rw [hhouse]
      · exact h.state
      · exact h.rent
      · exact fun hn => absurd hn hnamed
      · exact .inl hover
      · rw [hoffers]
        intro o ho
        rcases List.mem_append.mp ho with ho | ho
        · exact (h.offer_le o ho).trans (Nat.le_of_lt hover)
        · rw [List.mem_singleton.mp ho]
          exact Nat.le_refl _
      · rw [hoffers]
        intro o ho hne
        rcases List.mem_append.mp ho with ho | ho
        · exact (h.offer_le o ho).trans (Nat.le_succ _)
        · rw [List.mem_singleton.mp ho] at hne
          exact absurd rfl hne

/-- Read as 32-bit numbers, two bids do not lie further apart. -/
theorem refund_le {highest internal m : Nat} (h : highest ≤ internal) (hlt : highest % m < internal % m) :
    internal % m - highest % m ≤ internal - highest := by
  have hdiv : highest / m ≤ internal / m := Nat.div_le_div_right h
  have := Nat.mul_le_mul_left m hdiv
  have := Nat.div_add_mod highest m
  have := Nat.div_add_mod internal m
  omega

/-- The settlement gives the holder the house, and what lies between his bid and the highest one. -/
theorem settled_of_open (h : Open env houseId s₀ a) {isTransferOnRestart : Bool} {newOwner : Int} {timeNow : Nat}
    (hpending : ¬(isTransferOnRestart ∧ 0 ≤ newOwner)) (hend : (a.state.house houseId).bidEndDate < timeNow) :
    Fair houseId s₀ a (loadHouseInfo env a.state isTransferOnRestart newOwner timeNow houseId) := by
  by_cases hzero : (a.state.house houseId).bidder = 0
  · have hfree : (a.state.house houseId).bidderName = [] := by
      by_contra hheld
      obtain ⟨p, hp, hguid⟩ := h.sound.bidder hheld
      exact (env.named p (mem_of_getPlayerByName hp)).1 (hguid.trans hzero)
    have hshare (g : Guid) : (a.state.house houseId).share g = 0 := by
      rw [House.share, escrow_free (by rw [h.state]; rintro ⟨⟩) hfree, ite_self]
    refine ⟨fun hn => absurd hzero hn, fun hn => absurd hzero hn, fun g _ => ?_⟩
    have := h.balance g
    rw [hshare] at this
    simp only [loadHouseInfo, hpending, h.state, hzero, Nat.lt_irrefl, and_false, if_false, reduceCtorEq, false_and,
      setHouse_balance]
    exact this
  · have hheld : (a.state.house houseId).bidderName ≠ [] := fun hn => hzero (h.free hn).1
    obtain ⟨p, hp, hguid⟩ := h.sound.bidder hheld
    have hfound : getPlayerByGUID env (a.state.house houseId).bidder = some p :=
      getPlayerByGUID_iff.mpr ⟨mem_of_getPlayerByName hp, hguid⟩
    have hescrow := escrow_auction (by rw [h.state]; rintro ⟨⟩) hheld
    have hle := h.highest_le.resolve_right hheld
    have hrefund := @refund_le _ _ (2 ^ 32) hle
    have hbalance (g : Guid) := h.balance g
    simp only [House.share, hescrow, h.rent] at hbalance
    have hpos : 0 < (a.state.house houseId).bidder := Nat.pos_of_ne_zero hzero
    have hload : loadHouseInfo env a.state isTransferOnRestart newOwner timeNow houseId =
        (if (a.state.house houseId).highestBid % 2 ^ 32 < (a.state.house houseId).internalBid % 2 ^ 32 then
          a.state.setBankBalance p.guid (a.state.balance p.guid +
            ((a.state.house houseId).internalBid % 2 ^ 32 - (a.state.house houseId).highestBid % 2 ^ 32))
        else a.state).setHouse houseId
          { setOwner env { rent := (a.state.house houseId).rent } (a.state.house houseId).bidder with
            transferStatus := (a.state.house houseId).transferStatus } := by
      simp only [loadHouseInfo, hpending, h.state, hend, hpos, and_self, if_true, if_false, credit, hfound]
    rw [hload]
    refine ⟨fun _ => ?_, fun _ => ?_, fun g hg => ?_⟩
    · simp only [setHouse_house_self, setOwner, hfound]
    · have hb := hbalance (a.state.house houseId).bidder
      rw [if_pos rfl] at hb
      rw [setHouse_balance]
      split_ifs with hlt
      · refine ⟨(a.state.house houseId).internalBid -
          ((a.state.house houseId).internalBid % 2 ^ 32 - (a.state.house houseId).highestBid % 2 ^ 32), ?_,
          Nat.sub_le _ _, fun o ho hne => ?_⟩
        · have := Nat.mod_le (a.state.house houseId).internalBid (2 ^ 32)
          rw [setBankBalance_balance, if_pos hguid, hguid]
          omega
        · have := h.le_highest o ho hne
          have := hrefund hlt
          omega
      · refine ⟨(a.state.house houseId).internalBid, ?_, Nat.le_refl _, fun o ho _ => h.offer_le o ho⟩
        omega
    · have hb := hbalance g
      rw [if_neg (Ne.symm hg)] at hb
      rw [setHouse_balance]
      split_ifs
      · rw [setBankBalance_balance, if_neg (by rw [hguid]; exact Ne.symm hg)]
        exact hb
      · exact hb

/-- Every auction whose bids are above what others offered, or outbid, is settled fairly. -/
theorem settled_fairly (env : Realm) {houseId : HouseId} {s₀ : State} (hs : Sound env (s₀.house houseId))
    (hstate : (s₀.house houseId).state = .Available) (hname : (s₀.house houseId).bidderName = [])
    (hbidder : (s₀.house houseId).bidder = 0) {bids : List Bid}
    (h : Meets (bidStep env houseId) (Above env houseId) ⟨s₀, []⟩ bids) {isTransferOnRestart : Bool} {newOwner : Int}
    {timeNow : Nat} (hpending : ¬(isTransferOnRestart ∧ 0 ≤ newOwner))
    (hend : ((run (bidStep env houseId) ⟨s₀, []⟩ bids).state.house houseId).bidEndDate < timeNow) :
    Fair houseId s₀ (run (bidStep env houseId) ⟨s₀, []⟩ bids)
      (loadHouseInfo env (run (bidStep env houseId) ⟨s₀, []⟩ bids).state isTransferOnRestart newOwner timeNow houseId) := by
  refine settled_of_open (run_invariant (Open env houseId s₀) (fun _ _ => open_bid) ?_ h) hpending hend
  refine ⟨hstate, hs, rfl, fun g => ?_, fun _ => ⟨hbidder, rfl⟩, .inr hname, by rintro _ ⟨⟩, by rintro _ ⟨⟩⟩
  show s₀.balance g + (s₀.house houseId).share g = _
  rw [House.share, escrow_free (by rw [hstate]; rintro ⟨⟩) hname, ite_self, Nat.add_zero]

/-- What is left after Ann bids 200, Bob 90 and, if he is asked, Cid 50. -/
def sampleAuction (last : List Bid) : Auction :=
  run (bidStep sampleRealm 7) ⟨sampleStart { rent := 10 }, []⟩ (⟨1, 200, 50⟩ :: ⟨2, 90, 50⟩ :: last)

theorem settled_fairly_sample : Fair 7 (sampleStart { rent := 10 }) (sampleAuction [])
    (loadHouseInfo sampleRealm (sampleAuction []).state false (-1) 60 7) := by
  have hs : Sound sampleRealm ((sampleStart { rent := 10 }).house 7) :=
    ⟨fun _ => rfl, fun h => absurd rfl h, fun h => absurd rfl h, fun h => absurd h (by decide)⟩
  have habove : Meets (bidStep sampleRealm 7) (Above sampleRealm 7) ⟨sampleStart { rent := 10 }, []⟩
      [⟨1, 200, 50⟩, ⟨2, 90, 50⟩] := by
    refine ⟨fun _ _ o ho => absurd ho List.not_mem_nil, fun _ _ o ho hne => ?_, trivial⟩
    have ho : o ∈ [((1 : Guid), 200)] := ho
    rw [List.mem_singleton.mp ho] at hne
    exact absurd rfl hne
  exact settled_fairly sampleRealm hs rfl rfl rfl habove (by decide) (by decide)

/-- Bob has offered 90, but after Cid's 50 Ann pays 50. -/
theorem settled_below_offer : ¬Fair 7 (sampleStart { rent := 10 }) (sampleAuction [⟨3, 50, 50⟩])
    (loadHouseInfo sampleRealm (sampleAuction [⟨3, 50, 50⟩]).state false (-1) 60 7) := by
  intro h
  obtain ⟨price, hpaid, -, hoffers⟩ := h.price (by decide)
  have h90 : 90 ≤ price := hoffers (2, 90) (by decide) (by decide)
  have hleft : 940 + (10 + price) = 1000 := hpaid
  omega

end CrystalServer.HouseAuction
