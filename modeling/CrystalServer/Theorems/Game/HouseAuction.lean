import CrystalServer.Game.HouseAuction
import CrystalServer.Lib.Keyed
import CrystalServer.Lib.Run

/-! # House auctions: whose gold it is

What a player has on his account and what he has paid for houses that he bids on. A step moves gold between the two,
but for three: an outbid on a house under transfer, a transfer of a house that somebody bids on, and a transfer
accepted under another spelling of the name. -/

namespace CrystalServer.HouseAuction
open Lib

/-- What the bidder of a house has paid: in an auction, or for a transfer that he has accepted. -/
def House.escrow (h : House) : Nat :=
  if h.state = .Transfer then if h.transferStatus then h.internalBid + h.rent else 0
  else if h.bidderName = [] then 0 else h.internalBid + h.rent

/-- What a player has paid for a house. -/
def House.share (h : House) (g : Guid) : Nat := if h.bidder = g then h.escrow else 0

/-- The gold of a player, on his account and in houses. -/
def held (env : Realm) (s : State) (g : Guid) : Nat := s.balance g + sumBy (fun h => (s.house h).share g) env.houses

/-- All balances and what has been paid for houses. -/
def total (env : Realm) (s : State) : Nat :=
  sumBy (fun p => s.balance p.guid) env.players + sumBy (fun h => (s.house h).escrow) env.houses

/-- The fields of a house fit together, as they do when it is loaded. -/
structure Sound (env : Realm) (h : House) : Prop where
  status : h.state ≠ .Transfer → h.transferStatus = false
  limit : h.bidderName ≠ [] → h.state ≠ .Transfer → h.bidHolderLimit = h.internalBid
  bidder : h.bidderName ≠ [] → ∃ p, getPlayerByName env h.bidderName = some p ∧ p.guid = h.bidder
  named : h.state = .Transfer → h.bidderName ≠ []

/-- A step that goes through does not outbid on a house under transfer whose price is not the holder's limit, puts no
    house under transfer that has a bidder, and accepts a transfer under the very name that was typed. -/
def Backed (env : Realm) (s : State) : Op → Prop
  | .bid playerId houseId bidValue _ => ∀ player, getPlayerByGUID env playerId = some player → mayBid env s player →
      (s.house houseId).state = .Transfer → (s.house houseId).internalBid < bidValue →
        (s.house houseId).rent + bidValue ≤ s.balance player.guid →
          (s.house houseId).transferStatus ∧ (s.house houseId).bidHolderLimit = (s.house houseId).internalBid
  | .transfer playerId houseId _ newOwnerName _ => ∀ owner newOwner, getPlayerByGUID env playerId = some owner →
      getPlayerByName env newOwnerName = some newOwner → mayTransfer env s owner newOwner (s.house houseId) →
        (s.house houseId).bidderName = []
  | .acceptTransfer playerId houseId => ∀ player, getPlayerByGUID env playerId = some player →
      (s.house houseId).state = .Transfer → canAcceptTransferHouse s player (s.house houseId) →
        (s.house houseId).bidderName = player.name
  | _ => True

/-- A step on one house that moves gold between accounts and the house only. -/
structure Moves (env : Realm) (s s' : State) (houseId : HouseId) : Prop where
  sound : Sound env (s'.house houseId)
  other : ∀ h, h ≠ houseId → s'.house h = s.house h
  share : ∀ g, s'.balance g + (s'.house houseId).share g = s.balance g + (s.house houseId).share g

variable {env : Realm} {s s' : State} {houseId : HouseId} {player p : Player} {playerId g : Guid} {name : Name}
  {bidValue n : Nat} {house : House}

/-! ### Players -/

theorem getPlayerByGUID_iff : getPlayerByGUID env g = some p ↔ p ∈ env.players ∧ p.guid = g :=
  find?_eq_some_iff_mem Player.guid env.guids

theorem getPlayerByName_self (hp : p ∈ env.players) : getPlayerByName env p.name = some p := by
  rw [getPlayerByName, if_neg (env.named p hp).2]
  exact (find?_eq_some_iff_mem (fun p => asLowerCaseString p.name) env.names).mpr ⟨hp, rfl⟩

theorem mem_of_getPlayerByName (h : getPlayerByName env name = some p) : p ∈ env.players := by
  unfold getPlayerByName at h
  split_ifs at h
  exact List.mem_of_find?_eq_some h

theorem refund_nil (s : State) (n : Nat) : refund env s [] n = s := rfl

theorem refund_of (h : getPlayerByName env name = some p) (n : Nat) :
    refund env s name n = s.setBankBalance p.guid (s.balance p.guid + n) := by rw [refund, h]

/-- A player whose name is at a house is kept from bidding. -/
theorem name_ne_of_mayBid (hm : houseId ∈ env.houses) (h : mayBid env s player) :
    (s.house houseId).bidderName ≠ player.name := by
  intro hname
  have hmem : houseId ∈ env.houses.filter fun h => (s.house h).bidderName = player.name :=
    List.mem_filter.mpr ⟨hm, decide_eq_true hname⟩
  have : 0 < getHighestBidCountByPlayerName env s player.name := List.length_pos_of_mem hmem
  simp only [mayBid, Bool.and_eq_true, decide_eq_true_eq] at h
  omega

/-! ### Payments -/

/-- What a payment does that is not refused, other than for a raise. -/
theorem processBankAuction_spec (h : processBankAuction env s player house bidValue false = some s') :
    bidValue ≠ 0 ∧ house.rent + bidValue ≤ s.balance player.guid ∧
      s' = if house.bidderName ≠ player.name then
          refund env (s.setBankBalance player.guid (s.balance player.guid - (house.rent + bidValue))) house.bidderName
            (house.bidHolderLimit + house.rent)
        else s.setBankBalance player.guid (s.balance player.guid - (house.rent + bidValue)) := by
  unfold processBankAuction at h
  dsimp only at h
  simp only [Bool.not_false, true_and, Bool.false_eq_true, if_false] at h
  split_ifs at h with h0 h1 h2 h3 <;> cases h
  · refine ⟨h0, Nat.le_of_not_lt h1, ?_⟩
    rw [if_pos h3]
  · refine ⟨h0, Nat.le_of_not_lt h1, ?_⟩
    rw [if_neg h3]

@[simp] theorem setHouse_house_self (s : State) (houseId : HouseId) (house : House) :
    (s.setHouse houseId house).house houseId = house := Function.update_self ..

@[simp] theorem setHouse_balance (s : State) (houseId : HouseId) (house : House) :
    (s.setHouse houseId house).balance = s.balance := rfl

@[simp] theorem setBankBalance_house (s : State) (g : Guid) (n : Nat) : (s.setBankBalance g n).house = s.house := rfl

theorem credit_house (s : State) (g : Guid) (n : Nat) : (credit env s g n).house = s.house := by
  unfold credit
  split <;> rfl

theorem Moves.refl (h : Sound env (s.house houseId)) : Moves env s s houseId := ⟨h, fun _ _ => rfl, fun _ => rfl⟩

/-- A step that sets balances and then the house. -/
theorem moves_setHouse {t : State} (ht : t.house = s.house) (hs : Sound env house)
    (hshare : ∀ g, t.balance g + house.share g = s.balance g + (s.house houseId).share g) :
    Moves env s (t.setHouse houseId house) houseId where
  sound := by rwa [setHouse_house_self]
  other h hne := by
    rw [← ht]
    exact Function.update_of_ne hne ..
  share g := by
    rw [setHouse_house_self]
    exact hshare g

theorem setBankBalance_balance (s : State) (a : Guid) (n : Nat) (g : Guid) :
    (s.setBankBalance a n).balance g = if a = g then n else s.balance g := by
  by_cases h : a = g
  · rw [if_pos h, ← h]
    exact Function.update_self ..
  · rw [if_neg h]
    exact Function.update_of_ne (Ne.symm h) ..

theorem escrow_auction (hstate : house.state ≠ .Transfer) (hname : house.bidderName ≠ []) :
    house.escrow = house.internalBid + house.rent := by
  rw [House.escrow, if_neg hstate, if_neg hname]

theorem escrow_free (hstate : house.state ≠ .Transfer) (hname : house.bidderName = []) : house.escrow = 0 := by
  rw [House.escrow, if_neg hstate, if_pos hname]

theorem escrow_transfer (hstate : house.state = .Transfer) :
    house.escrow = if house.transferStatus then house.internalBid + house.rent else 0 := if_pos hstate

/-! ### Bids -/

/-- The house with its new holder. -/
def House.heldBy (h : House) (player : Player) (bidValue highestBid bidEndDate : Nat) : House :=
  { h with
    highestBid := highestBid, internalBid := bidValue, bidHolderLimit := bidValue
    bidderName := player.name, bidder := player.guid, bidEndDate := bidEndDate }

theorem sound_heldBy (h : Sound env house) (hp : player ∈ env.players) (bidValue highestBid bidEndDate : Nat) :
    Sound env (house.heldBy player bidValue highestBid bidEndDate) where
  status := h.status
  limit _ _ := rfl
  bidder _ := ⟨player, getPlayerByName_self hp, rfl⟩
  named _ := (env.named player hp).2

/-- The new holder has paid his bid, where the old one had paid his or there was none. -/
theorem share_heldBy (hp : player ∈ env.players) (hstate : house.state = .Transfer → house.transferStatus)
    (bidValue highestBid bidEndDate : Nat) (g : Guid) :
    (house.heldBy player bidValue highestBid bidEndDate).share g =
      if player.guid = g then bidValue + house.rent else 0 := by
  have : (house.heldBy player bidValue highestBid bidEndDate).escrow = bidValue + house.rent := by
    by_cases h : house.state = .Transfer
    · exact (@escrow_transfer (house.heldBy player bidValue highestBid bidEndDate) h).trans (if_pos (hstate h))
    · exact escrow_auction h (env.named player hp).2
  rw [House.share, this]
  rfl

theorem bid_moves (hs : Sound env (s.house houseId)) {bidEndDate : Nat}
    (hb : Backed env s (.bid playerId houseId bidValue bidEndDate)) :
    Moves env s (playerCyclopediaHouseBid env s playerId houseId bidValue bidEndDate) houseId := by
  unfold playerCyclopediaHouseBid
  split
  · exact .refl hs
  rename_i player hplayer
  obtain ⟨hmem, -⟩ := getPlayerByGUID_iff.mp hplayer
  have hnamed := (env.named player hmem).2
  split
  · exact .refl hs
  rename_i hhouse
  split
  · exact .refl hs
  rename_i hmay
  dsimp only
  split_ifs with hfree hown hlow
  · -- the first bid; no player has an empty name
    split
    · exact .refl hs
    rename_i s₁ hpay
    obtain ⟨-, henough, rfl⟩ := processBankAuction_spec hpay
    have hstate : (s.house houseId).state ≠ .Transfer := fun h => hs.named h hfree
    rw [if_pos (by rw [hfree]; exact Ne.symm hnamed), hfree, refund_nil]
    refine moves_setHouse rfl (sound_heldBy hs hmem bidValue 0 bidEndDate) fun g => ?_
    refine (congrArg (_ + ·) (share_heldBy hmem (fun h => absurd h hstate) bidValue 0 bidEndDate g)).trans ?_
    rw [setBankBalance_balance, House.share, escrow_free hstate hfree]
    split_ifs <;> subst_vars <;> omega
  · exact absurd hown (name_ne_of_mayBid (by simpa using hhouse) (by simpa using hmay))
  · exact moves_setHouse rfl ⟨hs.status, hs.limit, hs.bidder, hs.named⟩ fun g => rfl
  · split
    · exact .refl hs
    rename_i s₁ hpay
    obtain ⟨-, henough, rfl⟩ := processBankAuction_spec hpay
    obtain ⟨holder, hholder, hguid⟩ := hs.bidder hfree
    rw [if_pos hown, refund_of hholder]
    have hstatus (hstate : (s.house houseId).state = .Transfer) : (s.house houseId).transferStatus = true ∧
        (s.house houseId).bidHolderLimit = (s.house houseId).internalBid :=
      hb player hplayer (by simpa using hmay) hstate (Nat.lt_of_not_le hlow) henough
    have hold : (s.house houseId).bidHolderLimit = (s.house houseId).internalBid ∧
        (s.house houseId).escrow = (s.house houseId).internalBid + (s.house houseId).rent := by
      by_cases hstate : (s.house houseId).state = .Transfer
      · exact ⟨(hstatus hstate).2, (escrow_transfer hstate).trans (if_pos (hstatus hstate).1)⟩
      · exact ⟨hs.limit hfree hstate, escrow_auction hstate hfree⟩
    refine moves_setHouse rfl
      (sound_heldBy hs hmem bidValue ((s.house houseId).internalBid + 1) (s.house houseId).bidEndDate) fun g => ?_
    refine (congrArg (_ + ·) (share_heldBy hmem (fun h => (hstatus h).1) bidValue _ _ g)).trans ?_
    rw [setBankBalance_balance, setBankBalance_balance, setBankBalance_balance, House.share, hold.2, hold.1, hguid]
    by_cases hg : player.guid = g <;> by_cases hb : (s.house houseId).bidder = g
    · rw [hg] at henough
      simp only [hg, hb, if_true]
      omega
    · rw [hg] at henough
      simp only [hg, hb, if_true, if_false]
      omega
    · simp only [hg, hb, if_true, if_false]
      omega
    · simp only [hg, hb, if_false]

/-! ### Transfers -/

theorem transfer_moves (hs : Sound env (s.house houseId)) {timestamp : Nat}
    (hb : Backed env s (.transfer playerId houseId timestamp name bidValue)) :
    Moves env s (playerCyclopediaHouseTransfer env s playerId houseId timestamp name bidValue) houseId := by
  unfold playerCyclopediaHouseTransfer
  split
  · rename_i owner newOwner howner hnew
    dsimp only
    split
    · exact .refl hs
    split
    · exact .refl hs
    rename_i hmay
    have hmay : mayTransfer env s owner newOwner (s.house houseId) = true := by simpa using hmay
    have hfree := hb owner newOwner howner hnew hmay
    have hstate : (s.house houseId).state ≠ .Transfer := by
      simp only [mayTransfer, Bool.and_eq_true, decide_eq_true_eq] at hmay
      rw [hmay.1.1]
      exact nofun
    have hname : name ≠ [] := by
      rintro rfl
      rw [getPlayerByName, if_pos rfl] at hnew
      cases hnew
    refine moves_setHouse rfl ⟨fun h => absurd rfl h, fun _ h => absurd rfl h, fun _ => ⟨newOwner, hnew, rfl⟩, fun _ => hname⟩
      fun g => ?_
    have hstatus : (s.house houseId).transferStatus = false := hs.status hstate
    simp only [House.share, House.escrow, hstatus, hstate, hfree, if_true, if_false, Bool.false_eq_true, ite_self]
  · exact .refl hs

theorem endTransfer_moves (hs : Sound env (s.house houseId)) (hstate : (s.house houseId).state = .Transfer) :
    Moves env s (endTransfer env s houseId) houseId := by
  unfold endTransfer
  dsimp only
  obtain ⟨holder, hholder, hguid⟩ := hs.bidder (hs.named hstate)
  have hfound : getPlayerByGUID env (s.house houseId).bidder = some holder :=
    getPlayerByGUID_iff.mpr ⟨mem_of_getPlayerByName hholder, hguid⟩
  refine moves_setHouse ?_ ⟨fun _ => rfl, fun h => absurd rfl h, fun h => absurd rfl h, nofun⟩ fun g => ?_
  · split_ifs
    · exact credit_house s _ _
    · rfl
  · have hescrow := escrow_transfer hstate
    cases hst : (s.house houseId).transferStatus with
    | false =>
      rw [hst, if_neg Bool.false_ne_true] at hescrow
      rw [if_neg Bool.false_ne_true, House.share, House.share, hescrow, ite_self]
      simp [House.escrow]
    | true =>
      rw [hst, if_pos rfl] at hescrow
      rw [if_pos rfl, credit, hfound]
      dsimp only
      rw [setBankBalance_balance, House.share, House.share, hescrow, hguid]
      by_cases hg : (s.house houseId).bidder = g
      · simp [hg, House.escrow]
      · simp [hg, House.escrow]

theorem cancelTransfer_moves (hs : Sound env (s.house houseId)) (playerId : Guid) :
    Moves env s (playerCyclopediaHouseCancelTransfer env s playerId houseId) houseId := by
  unfold playerCyclopediaHouseCancelTransfer
  split
  · exact .refl hs
  split
  · exact .refl hs
  rename_i hstate
  split
  · exact .refl hs
  · exact endTransfer_moves hs (not_not.mp (not_or.mp hstate).2)

theorem rejectTransfer_moves (hs : Sound env (s.house houseId)) (playerId : Guid) :
    Moves env s (playerCyclopediaHouseRejectTransfer env s playerId houseId) houseId := by
  unfold playerCyclopediaHouseRejectTransfer
  split
  · exact .refl hs
  split
  · exact .refl hs
  · rename_i hstate
    exact endTransfer_moves hs (not_not.mp (not_or.mp (not_or.mp hstate).2).2)

theorem acceptTransfer_moves (hs : Sound env (s.house houseId)) (hb : Backed env s (.acceptTransfer playerId houseId)) :
    Moves env s (playerCyclopediaHouseAcceptTransfer env s playerId houseId) houseId := by
  unfold playerCyclopediaHouseAcceptTransfer
  split
  · exact .refl hs
  rename_i player hplayer
  dsimp only
  split
  · exact .refl hs
  rename_i hstate
  have hstate := not_not.mp (not_or.mp hstate).2
  split
  · exact .refl hs
  rename_i hcan
  have hcan : canAcceptTransferHouse s player (s.house houseId) = true := by simpa using hcan
  have hname := hb player hplayer hstate hcan
  split
  · exact .refl hs
  rename_i s₁ hpay
  obtain ⟨-, henough, rfl⟩ := processBankAuction_spec hpay
  simp only [canAcceptTransferHouse, Bool.and_eq_true, decide_eq_true_eq, Bool.not_eq_true'] at hcan
  have hguid : player.guid = (s.house houseId).bidder := hcan.1.1.1.1.1
  have hstatus : (s.house houseId).transferStatus = false := hcan.2
  rw [if_neg (by rw [hname]; exact fun h => h rfl)]
  refine moves_setHouse rfl ⟨fun h => absurd hstate h, hs.limit, hs.bidder, hs.named⟩ fun g => ?_
  simp only [setBankBalance_balance, House.share, House.escrow, hstate, hstatus, if_true, Bool.false_eq_true, if_false,
    ite_self, hguid]
  by_cases hg : (s.house houseId).bidder = g
  · rw [hguid, hg] at henough
    simp only [hg, if_true]
    omega
  · simp only [hg, if_false]

/-! ### Runs -/

def Op.on : Op → HouseId
  | .bid _ houseId _ _ | .transfer _ houseId _ _ _ | .cancelTransfer _ houseId | .acceptTransfer _ houseId
  | .rejectTransfer _ houseId => houseId

def AllSound (env : Realm) (s : State) : Prop := ∀ h ∈ env.houses, Sound env (s.house h)

variable {op : Op} {s₀ : State}

theorem step_moves (hs : Sound env (s.house op.on)) (hb : Backed env s op) :
    Moves env s (step env s op) op.on := by
  cases op with
  | bid playerId houseId bidValue bidEndDate => exact bid_moves hs hb
  | transfer playerId houseId timestamp newOwnerName bidValue => exact transfer_moves hs hb
  | cancelTransfer playerId houseId => exact cancelTransfer_moves hs playerId
  | acceptTransfer playerId houseId => exact acceptTransfer_moves hs hb
  | rejectTransfer playerId houseId => exact rejectTransfer_moves hs playerId

/-- There is no such house. -/
theorem step_of_notMem (h : op.on ∉ env.houses) : step env s op = s := by
  cases op with
  | bid playerId houseId bidValue bidEndDate =>
    simp only [step, playerCyclopediaHouseBid, Op.on] at h ⊢
    split
    · rfl
    · rw [if_pos h]
  | transfer playerId houseId timestamp newOwnerName bidValue =>
    simp only [step, playerCyclopediaHouseTransfer, Op.on] at h ⊢
    split
    · rw [if_pos h]
    · rfl
  | cancelTransfer playerId houseId =>
    simp only [step, playerCyclopediaHouseCancelTransfer, Op.on] at h ⊢
    split
    · rfl
    · rw [if_pos (.inl h)]
  | acceptTransfer playerId houseId =>
    simp only [step, playerCyclopediaHouseAcceptTransfer, Op.on] at h ⊢
    split
    · rfl
    · rw [if_pos (.inl h)]
  | rejectTransfer playerId houseId =>
    simp only [step, playerCyclopediaHouseRejectTransfer, Op.on] at h ⊢
    split
    · rfl
    · rw [if_pos (.inl h)]

theorem Moves.held (h : Moves env s s' houseId) (hm : houseId ∈ env.houses) (g : Guid) : held env s' g = held env s g := by
  have hsum := sumBy_update (f := fun b => (s.house b).share g) (g := fun b => (s'.house b).share g) env.nodup hm
    fun b _ hne => by rw [h.other b hne]
  have := h.share g
  unfold HouseAuction.held
  omega

theorem Moves.allSound (h : Moves env s s' houseId) (hs : AllSound env s) : AllSound env s' := by
  intro b hb
  by_cases hne : b = houseId
  · rw [hne]
    exact h.sound
  · rw [h.other b hne]
    exact hs b hb

/-- What the players hold is all there is. -/
theorem total_eq_held (hs : AllSound env s) : total env s = sumBy (fun p => held env s p.guid) env.players := by
  have hhouse : ∀ h ∈ env.houses, sumBy (fun p => (s.house h).share p.guid) env.players = (s.house h).escrow := by
    intro h hh
    by_cases hname : (s.house h).bidderName = []
    · have hzero : (s.house h).escrow = 0 := by
        by_cases hstate : (s.house h).state = .Transfer
        · exact absurd hname ((hs h hh).named hstate)
        · exact escrow_free hstate hname
      have : sumBy (fun p => (s.house h).share p.guid) env.players = sumBy (fun _ => 0) env.players :=
        sumBy_congr fun p _ => by rw [House.share, hzero, ite_self]
      rw [this, sumBy_zero, hzero]
    · obtain ⟨p, hp, hguid⟩ := (hs h hh).bidder hname
      rw [← sumBy_key env.guids (mem_of_getPlayerByName hp) (s.house h).escrow, hguid]
      rfl
  have hheld : sumBy (fun p => held env s p.guid) env.players = sumBy (fun p => s.balance p.guid) env.players +
      sumBy (fun p => sumBy (fun h => (s.house h).share p.guid) env.houses) env.players :=
    sumBy_add ..
  rw [hheld, sumBy_comm, sumBy_congr hhouse]
  rfl

theorem step_held (hs : AllSound env s) (hb : Backed env s op) :
    AllSound env (step env s op) ∧ ∀ g, held env (step env s op) g = held env s g := by
  by_cases hm : op.on ∈ env.houses
  · have h := step_moves (hs _ hm) hb
    exact ⟨h.allSound hs, h.held hm⟩
  · rw [step_of_notMem hm]
    exact ⟨hs, fun _ => rfl⟩

/-- In every run whose steps are backed, each player holds what he held, and so do all together. -/
theorem escrow_kept (env : Realm) (hs : AllSound env s₀) {ops : List Op} (h : Meets (step env) (Backed env) s₀ ops) :
    total env (run (step env) s₀ ops) = total env s₀ ∧
      ∀ g, held env (run (step env) s₀ ops) g = held env s₀ g := by
  have hrun : AllSound env (run (step env) s₀ ops) ∧ ∀ g, held env (run (step env) s₀ ops) g = held env s₀ g := by
    refine run_invariant (fun s => AllSound env s ∧ ∀ g, held env s g = held env s₀ g) (fun s op hi hb => ?_)
      ⟨hs, fun _ => rfl⟩ h
    obtain ⟨hsound, hheld⟩ := step_held hi.1 hb
    exact ⟨hsound, fun g => (hheld g).trans (hi.2 g)⟩
  refine ⟨?_, hrun.2⟩
  rw [total_eq_held hrun.1, total_eq_held hs]
  exact sumBy_congr fun p _ => hrun.2 p.guid

/-- Three players and a house. -/
def sampleRealm : Realm where
  players := [⟨1, ['A', 'n', 'n'], 1, true, false, 0⟩, ⟨2, ['B', 'o', 'b'], 2, true, false, 0⟩,
    ⟨3, ['C', 'i', 'd'], 3, true, false, 0⟩]
  houses := [7]
  maxHousesLimit := 5
  guids := by decide
  names := by decide
  named := by decide
  nodup := by decide

def sampleStart (house : House) : State := ⟨fun _ => 1000, fun _ => house⟩

def sampleBids : List Op := [.bid 1 7 100 50, .bid 2 7 60 50, .bid 2 7 200 50]

/-- A first bid, a lower one, and one that outbids. -/
theorem escrow_kept_sample :
    total sampleRealm (run (step sampleRealm) (sampleStart { rent := 10 }) sampleBids) = 3000 := by
  have hs : AllSound sampleRealm (sampleStart { rent := 10 }) := fun h _ =>
    ⟨fun _ => rfl, fun h => absurd rfl h, fun h => absurd rfl h, nofun⟩
  have hb : Meets (step sampleRealm) (Backed sampleRealm) (sampleStart { rent := 10 }) sampleBids :=
    ⟨fun _ _ _ h => absurd h (by decide), fun _ _ _ h => absurd h (by decide), fun _ _ _ h => absurd h (by decide), trivial⟩
  exact (escrow_kept sampleRealm hs hb).1.trans (by decide)

/-- A transfer accepted by a player whose name was typed in small letters gives him the rent back; a bid on a rented
    house is lost when its owner puts it under transfer; who bids on a house under transfer pays for a bid that nobody
    paid. -/
theorem escrow_lost :
    total sampleRealm (run (step sampleRealm) (sampleStart { rent := 10, owner := 1, state := .Rented })
      [.transfer 1 7 50 ['b', 'o', 'b'] 100, .acceptTransfer 2 7]) = 3010 ∧
    total sampleRealm (run (step sampleRealm) (sampleStart { rent := 10, owner := 1, state := .Rented })
      [.bid 2 7 100 50, .transfer 1 7 50 ['B', 'o', 'b'] 100]) = 2890 ∧
    total sampleRealm (run (step sampleRealm) (sampleStart { rent := 10, owner := 1, state := .Rented })
      [.transfer 1 7 50 ['B', 'o', 'b'] 100, .bid 1 7 200 50]) = 2800 ∧
    total sampleRealm (sampleStart { rent := 10, owner := 1, state := .Rented }) = 3000 := by
  decide

end CrystalServer.HouseAuction
