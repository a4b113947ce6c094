import CrystalServer.Game.Trade
import CrystalServer.Lib.Forest
import CrystalServer.Lib.Run

/-! # Trades: partners, offers, and who accepted what

Partners trade with each other, `tradeItems` lists just the offers, and no offered item lies inside another one. The
items change hands after both players accepted both offers, unless one of them accepted before the other one had
made his. -/

namespace CrystalServer.Trade
open Lib

/-! ### What holds between the requests -/

structure Consistent (s : State) : Prop where
  partner : ∀ {p q}, s.tradePartner p = some q → s.tradePartner q = some p ∧ q ≠ p
  none_iff : ∀ p, s.tradeState p = .NONE ↔ s.tradePartner p = none
  settled : ∀ p, s.tradeState p ≠ .TRANSFER
  offering : ∀ {p t}, s.tradeItem p = some t → s.tradeState p = .INITIATED ∨ s.tradeState p = .ACCEPT
  initiated : ∀ {p}, s.tradeState p = .INITIATED → (s.tradeItem p).isSome
  listed : ∀ t p, (t, p) ∈ s.tradeItems ↔ s.tradeItem p = some t
  keys : (s.tradeItems.map (·.1)).Nodup
  apart : ∀ {p q t u}, s.tradeItem p = some t → s.tradeItem q = some u → ¬Below s.parent t u

/-- The containers lie in each other as a forest does. -/
structure Wood (parent : Ref → Option Ref) (next : Ref) : Prop where
  acyclic : Acyclic parent
  made : ∀ {r c}, parent r = some c → r < next ∧ c < next

/-- The place of an item is a slot, or a container that is not inside it. -/
def CanLie (parent : Ref → Option Ref) (next item : Ref) (place : Option Ref) : Prop :=
  ∀ c, place = some c → item < next ∧ c < next ∧ c ≠ item ∧ ¬Below parent c item

/-- The places that the two items of a trade come to. -/
def CanMove (s : State) (item1 item2 : Ref) : Outcome → Prop
  | .refused => True
  | .first place₁ => CanLie s.parent s.next item1 place₁
  | .both place₁ place₂ =>
    CanLie s.parent s.next item1 place₁ ∧ CanLie (Function.update s.parent item1 place₁) s.next item2 place₂

/-- No container comes to lie inside itself. -/
def Fits (s : State) : Op → Prop
  | .playerAcceptTrade player outcome => ∀ partner item1 item2, s.tradePartner player = some partner →
      s.tradeItem player = some item1 → s.tradeItem partner = some item2 → CanMove s item1 item2 outcome
  | _ => True

/-- The request of an offer that goes through. -/
def Offers (player : PlayerRef) (s : State) (op : Op) : Prop :=
  ∃ partner item, op = .playerRequestTrade player partner item ∧ partner ≠ player ∧ alreadyTraded s item = false ∧
    cannotStart s player partner = false

/-- A player accepts while both items are offered. -/
def Accepts (player partner : PlayerRef) (item1 item2 : Ref) (s : State) (op : Op) : Prop :=
  (∃ outcome, op = .playerAcceptTrade player outcome) ∧ s.tradePartner player = some partner ∧
    s.tradeItem player = some item1 ∧ s.tradeItem partner = some item2

/-- No offer is answered by a player whose partner has accepted already. -/
def Answered (s : State) (op : Op) : Prop :=
  ∀ player partner, Offers player s op → s.tradePartner player = some partner → s.tradeState partner ≠ .ACCEPT

/-- What holds after a run of requests. -/
structure Fair (s : State) (ops : List Op) : Prop where
  consistent : Consistent (run step s ops)
  own_offer : ∀ p, ((run step s ops).tradeItem p).isSome ↔
    ((run step s ops).tradeState p = .INITIATED ∨ (run step s ops).tradeState p = .ACCEPT) ∧
      Since step (Offers p) (fun s => s.tradePartner p ≠ none) s ops
  change_hands : ∀ p outcome, (playerAcceptTrade (run step s ops) p outcome).2 = true → ∃ q item1 item2,
    Accepts p q item1 item2 (run step s ops) (.playerAcceptTrade p outcome) ∧
      Since step (Accepts q p item2 item1) (fun s => s.tradePartner q = some p) s ops

variable {s : State} {op : Op} {p q : PlayerRef} {t u : Ref} {outcome : Outcome}

/-! ### Containers -/

theorem holdsLoop_iff {parent : Ref → Option Ref} {container : Ref} {n : Nat} {item : Ref} (h : Ends parent n item) :
    holdsLoop parent container n item = true ↔ Below parent item container := by
  induction n generalizing item with
  | zero => exact iff_of_false (by simp [holdsLoop]) (not_below_of_root h)
  | succ n ih =>
    rw [holdsLoop]
    cases hp : parent item with
    | none => exact iff_of_false (by simp) (not_below_of_root hp)
    | some p =>
      simp only [Bool.or_eq_true, beq_iff_eq, ih (h p hp)]
      constructor
      · rintro (rfl | hb)
        · exact below_of_parent hp
        · exact .head hp hb
      · intro hb
        obtain ⟨p', hp', hb⟩ := below_cases hb
        cases hp.symm.trans hp'
        exact hb

theorem Wood.ends {parent : Ref → Option Ref} {next : Ref} (h : Wood parent next) (r : Ref) : Ends parent next r := by
  have := h.acyclic.ends (Finset.range next) r fun y _ hy => by
    obtain ⟨c, hc⟩ := Option.isSome_iff_exists.mp hy
    exact Finset.mem_range.mpr (h.made hc).1
  rwa [Finset.card_range] at this

theorem Wood.move {parent : Ref → Option Ref} {next item : Ref} {place : Option Ref} (h : Wood parent next)
    (hp : CanLie parent next item place) : Wood (Function.update parent item place) next := by
  cases place with
  | none =>
    refine ⟨h.acyclic.cut item, fun {r c} hr => ?_⟩
    by_cases hri : r = item
    · rw [hri, Function.update_self] at hr
      exact nomatch hr
    · rw [Function.update_of_ne hri] at hr
      exact h.made hr
  | some d =>
    obtain ⟨hi, hd, hne, hb⟩ := hp d rfl
    refine ⟨h.acyclic.hang hne hb, fun {r c} hr => ?_⟩
    by_cases hri : r = item
    · rw [hri, Function.update_self] at hr
      cases hr
      exact ⟨hri ▸ hi, hd⟩
    · rw [Function.update_of_ne hri] at hr
      exact h.made hr

/-- What is neither the moved item nor inside it lies where it did. -/
theorem below_of_move {parent : Ref → Option Ref} {item a b : Ref} {place : Option Ref} (hne : a ≠ item)
    (ha : ¬Below parent a item) (h : Below (Function.update parent item place) a b) : Below parent a b := by
  cases place with
  | none => exact below_of_cut h
  | some d =>
    rcases below_of_hang h with h | ⟨h | h, -⟩
    · exact h
    · exact absurd h hne
    · exact absurd h ha

theorem alreadyTraded_eq_false (hw : Wood s.parent s.next) (h : alreadyTraded s t = false) {it : Ref × PlayerRef}
    (hit : it ∈ s.tradeItems) : t ≠ it.1 ∧ ¬Below s.parent it.1 t ∧ ¬Below s.parent t it.1 := by
  have h := List.any_eq_false.mp h it hit
  simp only [Bool.or_eq_true, beq_iff_eq, not_or, isHoldingItem, holdsLoop_iff (hw.ends _)] at h
  exact ⟨h.1.1, h.1.2, h.2⟩

/-! ### What a request changes -/

/-- Two partners leave their trade. -/
def ended (s : State) (p q : PlayerRef) (parent : Ref → Option Ref) : State where
  tradePartner := Function.update (Function.update s.tradePartner p none) q none
  tradeItem := Function.update (Function.update s.tradeItem p none) q none
  tradeState := Function.update (Function.update s.tradeState p .NONE) q .NONE
  tradeItems := s.tradeItems.filter fun it => s.tradeItem p ≠ some it.1 ∧ s.tradeItem q ≠ some it.1
  parent := parent
  next := s.next

/-- An offer is made. -/
def offered (s : State) (p q : PlayerRef) (t : Ref) : State where
  tradePartner := Function.update s.tradePartner p (some q)
  tradeItem := Function.update s.tradeItem p (some t)
  tradeState := Function.update s.tradeState p .INITIATED
  tradeItems := (t, p) :: s.tradeItems.filter (·.1 ≠ t)
  parent := s.parent
  next := s.next

/-- What is offered elsewhere keeps its place. -/
structure Spares (s : State) (p q : PlayerRef) (parent : Ref → Option Ref) : Prop where
  wood : Wood parent s.next
  below : ∀ {p' t u}, p' ≠ p → p' ≠ q → s.tradeItem p' = some t → Below parent t u → Below s.parent t u

/-- The ways in which a request changes the trades. -/
inductive Change (s : State) : Op → State → Prop
  | refused (op : Op) (h : ∀ p, ¬Offers p s op) : Change s op s
  | accept (p q : PlayerRef) (outcome : Outcome) (hq : s.tradePartner p = some q)
      (hp : s.tradeState p = .ACKNOWLEDGE ∨ s.tradeState p = .INITIATED) :
      Change s (.playerAcceptTrade p outcome) (setTradeState s p .ACCEPT)
  | ended (op : Op) (p q : PlayerRef) (parent : Ref → Option Ref) (h : ∀ p, ¬Offers p s op)
      (hq : s.tradePartner p = some q) (hs : Spares s p q parent) : Change s op (ended s p q parent)
  | first (p q : PlayerRef) (t : Ref) (h : Offers p s (.playerRequestTrade p q t)) (hp : s.tradeState p = .NONE)
      (hq : s.tradeState q = .NONE) :
      Change s (.playerRequestTrade p q t)
        (setTradePartner (setTradeState (offered s p q t) q .ACKNOWLEDGE) q (some p))
  | counter (p q : PlayerRef) (t : Ref) (h : Offers p s (.playerRequestTrade p q t))
      (hp : s.tradeState p = .ACKNOWLEDGE) (hq : s.tradePartner p = some q) :
      Change s (.playerRequestTrade p q t) (offered s p q t)

namespace Consistent

theorem tradeItem_of_none (h : Consistent s) (hp : s.tradePartner p = none) : s.tradeItem p = none := by
  rw [Option.eq_none_iff_forall_ne_some]
  intro t ht
  have hn := (h.none_iff p).mpr hp
  rcases h.offering ht with hs | hs
  · exact absurd (hn.symm.trans hs) nofun
  · exact absurd (hn.symm.trans hs) nofun

/-- No item is offered by two players. -/
theorem tradeItem_inj (h : Consistent s) (hp : s.tradeItem p = some t) (hq : s.tradeItem q = some t) : p = q := by
  have := List.inj_on_of_nodup_map h.keys ((h.listed t p).mpr hp) ((h.listed t q).mpr hq) rfl
  exact congrArg Prod.snd this

end Consistent

theorem Spares.refl (hw : Wood s.parent s.next) (p q : PlayerRef) : Spares s p q s.parent := ⟨hw, fun _ _ _ h => h⟩

theorem Spares.move {parent : Ref → Option Ref} {place : Option Ref} (hc : Consistent s) (hs : Spares s p q parent)
    (ht : s.tradeItem p = some t ∨ s.tradeItem q = some t) (hp : CanLie parent s.next t place) :
    Spares s p q (Function.update parent t place) where
  wood := hs.wood.move hp
  below {p' t' u} hne hne' ht' hb := by
    have hnot : ¬Below parent t' t := fun h => by
      have h := hs.below hne hne' ht' h
      rcases ht with ht | ht
      · exact hc.apart ht' ht h
      · exact hc.apart ht' ht h
    refine hs.below hne hne' ht' (below_of_move ?_ hnot hb)
    rintro rfl
    rcases ht with ht | ht
    · exact hne (hc.tradeItem_inj ht' ht)
    · exact hne' (hc.tradeItem_inj ht' ht)

theorem filter_ne_none (l : List (Ref × PlayerRef)) : (l.filter fun it => (none : Option Ref) ≠ some it.1) = l := by
  simp

/-- What is offered, if anything is, is erased. -/
theorem getD_map_eraseTradeItem (s : State) (item : Option Ref) :
    (item.map (eraseTradeItem s)).getD s = { s with tradeItems := s.tradeItems.filter fun it => item ≠ some it.1 } := by
  cases item with
  | none => simp
  | some t => simp [eraseTradeItem, eq_comm]

theorem dropTradeItem_eq (s : State) (p : PlayerRef) :
    dropTradeItem s p = { s with tradeItem := Function.update s.tradeItem p none
                                 tradeItems := s.tradeItems.filter fun it => s.tradeItem p ≠ some it.1 } := by
  rw [dropTradeItem]
  split
  next hp => rw [hp, filter_ne_none, Function.update_eq_self_iff.mpr hp.symm]
  next t hp => simp [hp, setTradeItem, eraseTradeItem, eq_comm]

theorem internalCloseTrade_eq (hc : Consistent s) (hq : s.tradePartner p = some q) :
    internalCloseTrade s p = ended s p q s.parent := by
  have hne := (hc.partner hq).2
  have hguard : ¬((s.tradePartner p).any (fun partner => s.tradeState partner = .TRANSFER) ∨ s.tradeState p = .TRANSFER) := by
    simp [hq, hc.settled]
  rw [internalCloseTrade]
  dsimp only
  rw [if_neg hguard, hq]
  dsimp only
  rw [dropTradeItem_eq (leaveTrade _ _), dropTradeItem_eq]
  simp [leaveTrade, setTradePartner, setTradeState, ended, Function.update_of_ne hne, List.filter_filter, Bool.and_comm]

theorem internalCloseTrade_none (hc : Consistent s) (hp : s.tradePartner p = none) : internalCloseTrade s p = s := by
  have hn := (hc.none_iff p).mpr hp
  rw [internalCloseTrade]
  dsimp only
  rw [if_neg (by simp [hp, hn]), hp]
  dsimp only
  have ht := hc.tradeItem_of_none hp
  rw [dropTradeItem_eq, ht, filter_ne_none, leaveTrade]
  dsimp only [setTradePartner, setTradeState]
  rw [Function.update_eq_self_iff.mpr hp.symm, Function.update_eq_self_iff.mpr ht.symm,
    Function.update_eq_self_iff.mpr hn.symm]

/-- Where the two items lie after the moves. -/
def movedParent (parent : Ref → Option Ref) (t u : Ref) : Outcome → Ref → Option Ref
  | .refused => parent
  | .first place₁ => Function.update parent t place₁
  | .both place₁ place₂ => Function.update (Function.update parent t place₁) u place₂

theorem moveItems_eq (s : State) (t u : Ref) (outcome : Outcome) :
    (moveItems s t u outcome).1 = { s with parent := movedParent s.parent t u outcome } := by
  cases outcome <;> rfl

theorem transfer_spares (hc : Consistent s) (hw : Wood s.parent s.next) (ht : s.tradeItem p = some t)
    (hu : s.tradeItem q = some u) (hm : CanMove s t u outcome) : Spares s p q (movedParent s.parent t u outcome) := by
  have hs := Spares.refl hw p q
  cases outcome with
  | refused => exact hs
  | first place₁ => exact hs.move hc (.inl ht) hm
  | both place₁ place₂ => exact (hs.move hc (.inl ht) hm.1).move hc (.inr hu) hm.2

theorem transfer_eq (hc : Consistent s) (hq : s.tradePartner p = some q) (state : PlayerRef → TradeState) (outcome : Outcome) :
    (transfer { s with tradeState := state } p q outcome).1 =
      { ended s p q ((s.tradeItem p).elim s.parent fun t => (s.tradeItem q).elim s.parent fun u => movedParent s.parent t u outcome)
        with tradeState := Function.update (Function.update state p .NONE) q .NONE } := by
  have hne := (hc.partner hq).2
  have hstates : Function.update (Function.update (Function.update (Function.update state p .TRANSFER) q .TRANSFER) p .NONE)
      q .NONE = Function.update (Function.update state p .NONE) q .NONE := by
    rw [Function.update_comm hne, Function.update_idem, Function.update_idem]
  rw [transfer]
  dsimp only
  rw [getD_map_eraseTradeItem, getD_map_eraseTradeItem]
  cases hp : s.tradeItem p with
  | none => simp [hp, endTrade, setTradeState, setTradePartner, setTradeItem, ended, hstates]
  | some t =>
    cases hq' : s.tradeItem q with
    | none => simp [hp, hq', endTrade, setTradeState, setTradePartner, setTradeItem, ended, hstates]
    | some u =>
      simp [hp, hq', endTrade, setTradeState, setTradePartner, setTradeItem, ended, hstates, moveItems_eq,
        List.filter_filter, Bool.and_comm]

theorem start_eq (h : Offers p s (.playerRequestTrade p q t)) :
    step s (.playerRequestTrade p q t) =
      if (offered s p q t).tradeState q = .NONE then
        setTradePartner (setTradeState (offered s p q t) q .ACKNOWLEDGE) q (some p)
      else offered s p q t := by
  obtain ⟨q', t', heq, hne, ht, hstart⟩ := h
  cases heq
  simp only [step, playerRequestTrade, if_neg hne, ht, internalStartTrade, hstart, Bool.false_eq_true, if_false]
  rfl

/-- A request of a trade that does not go through changes nothing. -/
theorem request_refused (h : ¬Offers p s (.playerRequestTrade p q t)) : step s (.playerRequestTrade p q t) = s := by
  rw [step, playerRequestTrade]
  split
  next => rfl
  next hne =>
    split
    next => rfl
    next ht =>
      rw [internalStartTrade]
      split
      next => rfl
      next hstart =>
        exact absurd ⟨q, t, rfl, hne, Bool.eq_false_of_not_eq_true ht, Bool.eq_false_of_not_eq_true hstart⟩ h

theorem cannotStart_eq_false (h : cannotStart s p q = false) :
    (s.tradeState p = .NONE ∨ s.tradeState p = .ACKNOWLEDGE ∧ s.tradePartner p = some q) ∧
      (s.tradeState q = .NONE ∨ s.tradePartner q = some p) := by
  simpa [cannotStart, or_iff_not_imp_left] using h

/-- What every request changes. -/
theorem step_change (hc : Consistent s) (hw : Wood s.parent s.next) (hf : Fits s op) : Change s op (step s op) := by
  cases op with
  | playerRequestTrade p q t =>
    by_cases h : Offers p s (.playerRequestTrade p q t)
    · have h' := h
      obtain ⟨q', t', heq, hne, -, hstart⟩ := h'
      cases heq
      obtain ⟨hp, hq⟩ := cannotStart_eq_false hstart
      have hstate : (offered s p q t).tradeState q = s.tradeState q := Function.update_of_ne hne _ _
      rw [start_eq h, hstate]
      rcases hp with hp | ⟨hp, hpq⟩
      · have hq : s.tradeState q = .NONE := by
          refine hq.resolve_right fun hqp => ?_
          have := (hc.none_iff p).mp hp
          rw [(hc.partner hqp).1] at this
          exact nomatch this
        rw [if_pos hq]
        exact .first p q t h hp hq
      · have hq : s.tradeState q ≠ .NONE := fun hq => by
          have := (hc.none_iff q).mp hq
          rw [(hc.partner hpq).1] at this
          exact nomatch this
        rw [if_neg hq]
        exact .counter p q t h hp hpq
    · rw [request_refused h]
      refine .refused _ fun p' h' => h ?_
      obtain ⟨q', t', heq, hne, ht, hstart⟩ := h'
      cases heq
      exact ⟨q, t, rfl, hne, ht, hstart⟩
  | playerAcceptTrade p outcome =>
    have hno : ∀ p', ¬Offers p' s (.playerAcceptTrade p outcome) := by
      rintro p' ⟨q, t, heq, -⟩
      exact nomatch heq
    rw [step, playerAcceptTrade]
    split
    next => exact .refused _ hno
    next hp =>
      split
      next => exact .refused _ hno
      next q hq =>
        dsimp only
        split
        next =>
          rw [setTradeState, transfer_eq hc hq]
          have hstates : Function.update (Function.update (Function.update s.tradeState p .ACCEPT) p .NONE) q .NONE =
              Function.update (Function.update s.tradeState p .NONE) q .NONE := by rw [Function.update_idem]
          rw [hstates]
          refine .ended _ p q _ hno hq ?_
          cases ht : s.tradeItem p with
          | none => exact Spares.refl hw p q
          | some t =>
            cases hu : s.tradeItem q with
            | none => exact Spares.refl hw p q
            | some u => exact transfer_spares hc hw ht hu (hf q t u hq ht hu)
        next => exact .accept p q outcome hq (not_not.mp hp)
  | playerCloseTrade p =>
    have hno : ∀ p', ¬Offers p' s (.playerCloseTrade p) := by
      rintro p' ⟨q, t, heq, -⟩
      exact nomatch heq
    rw [step]
    cases hq : s.tradePartner p with
    | none =>
      rw [internalCloseTrade_none hc hq]
      exact .refused _ hno
    | some q =>
      rw [internalCloseTrade_eq hc hq]
      exact .ended _ p q _ hno hq (Spares.refl hw p q)

/-! ### The lists stay consistent -/

theorem update_none_eq_some {α : Type} {f : PlayerRef → Option α} {a : PlayerRef} {x : α} :
    Function.update (Function.update f p none) q none a = some x ↔ a ≠ p ∧ a ≠ q ∧ f a = some x := by
  by_cases hq : a = q
  · simp [hq]
  · by_cases hp : a = p
    · subst hp
      simp [Function.update_of_ne hq]
    · simp [hq, hp]

theorem ended_tradeState (s : State) (p q : PlayerRef) (parent : Ref → Option Ref) (a : PlayerRef) :
    (ended s p q parent).tradeState a = if a = p ∨ a = q then .NONE else s.tradeState a := by
  by_cases hq : a = q
  · simp [ended, hq]
  · by_cases hp : a = p
    · subst hp
      simp [ended, Function.update_of_ne hq]
    · simp [ended, hq, hp]

theorem Consistent.ended {parent : Ref → Option Ref} (hc : Consistent s) (hq : s.tradePartner p = some q)
    (hs : Spares s p q parent) : Consistent (ended s p q parent) where
  partner {a b} hab := by
    obtain ⟨hap, haq, hab⟩ := update_none_eq_some.mp hab
    obtain ⟨hba, hne⟩ := hc.partner hab
    refine ⟨update_none_eq_some.mpr ⟨?_, ?_, hba⟩, hne⟩
    · rintro rfl
      exact haq (Option.some.inj (hba.symm.trans hq))
    · rintro rfl
      exact hap (Option.some.inj (hba.symm.trans (hc.partner hq).1))
  none_iff a := by
    rw [ended_tradeState]
    split
    next ha =>
      refine iff_of_true rfl (Option.eq_none_iff_forall_ne_some.mpr fun b hb => ?_)
      obtain ⟨hap, haq, -⟩ := update_none_eq_some.mp hb
      exact ha.elim hap haq
    next ha =>
      rw [not_or] at ha
      rw [hc.none_iff, Trade.ended]
      dsimp only
      rw [Function.update_of_ne ha.2, Function.update_of_ne ha.1]
  settled a := by
    rw [ended_tradeState]
    split
    · exact nofun
    · exact hc.settled a
  offering {a t} ha := by
    obtain ⟨hap, haq, ha⟩ := update_none_eq_some.mp ha
    rw [ended_tradeState, if_neg (not_or.mpr ⟨hap, haq⟩)]
    exact hc.offering ha
  initiated {a} ha := by
    rw [ended_tradeState] at ha
    split at ha
    next => exact nomatch ha
    next hne =>
      rw [not_or] at hne
      obtain ⟨t, ht⟩ := Option.isSome_iff_exists.mp (hc.initiated ha)
      exact Option.isSome_iff_exists.mpr ⟨t, update_none_eq_some.mpr ⟨hne.1, hne.2, ht⟩⟩
  listed t a := by
    simp only [Trade.ended, update_none_eq_some, List.mem_filter, hc.listed, decide_eq_true_eq]
    constructor
    · rintro ⟨ha, hp, hq⟩
      refine ⟨?_, ?_, ha⟩
      · rintro rfl
        exact hp ha
      · rintro rfl
        exact hq ha
    · rintro ⟨hap, haq, ha⟩
      exact ⟨ha, fun h => hap (hc.tradeItem_inj ha h), fun h => haq (hc.tradeItem_inj ha h)⟩
  keys := (List.filter_sublist.map _).nodup hc.keys
  apart {a b t u} ha hb := by
    obtain ⟨hap, haq, ha⟩ := update_none_eq_some.mp ha
    obtain ⟨-, -, hb⟩ := update_none_eq_some.mp hb
    exact fun h => hc.apart ha hb (hs.below hap haq ha h)

theorem tradeState_setTradeState (s : State) (p : PlayerRef) (state : TradeState) (a : PlayerRef) :
    (setTradeState s p state).tradeState a = if a = p then state else s.tradeState a := Function.update_apply ..

theorem Consistent.accept (hc : Consistent s) (hq : s.tradePartner p = some q) :
    Consistent (setTradeState s p .ACCEPT) where
  partner := hc.partner
  none_iff a := by
    by_cases ha : a = p
    · subst ha
      simp [setTradeState, hq]
    · rw [tradeState_setTradeState, if_neg ha]
      exact hc.none_iff a
  settled a := by
    by_cases ha : a = p
    · simp [setTradeState, ha]
    · rw [tradeState_setTradeState, if_neg ha]
      exact hc.settled a
  offering {a t} ht := by
    by_cases ha : a = p
    · simp [setTradeState, ha]
    · rw [tradeState_setTradeState, if_neg ha]
      exact hc.offering ht
  initiated {a} hi := by
    by_cases ha : a = p
    · simp [setTradeState, ha] at hi
    · rw [tradeState_setTradeState, if_neg ha] at hi
      exact hc.initiated hi
  listed := hc.listed
  keys := hc.keys
  apart := hc.apart

theorem offered_tradeItem (s : State) (p q : PlayerRef) (t : Ref) (a : PlayerRef) :
    (offered s p q t).tradeItem a = if a = p then some t else s.tradeItem a := Function.update_apply ..

theorem offered_tradePartner (s : State) (p q : PlayerRef) (t : Ref) (a : PlayerRef) :
    (offered s p q t).tradePartner a = if a = p then some q else s.tradePartner a := Function.update_apply ..

theorem offered_tradeState (s : State) (p q : PlayerRef) (t : Ref) (a : PlayerRef) :
    (offered s p q t).tradeState a = if a = p then .INITIATED else s.tradeState a := Function.update_apply ..

section
variable (hc : Consistent s) (hw : Wood s.parent s.next) (ht : alreadyTraded s t = false)
include hc hw ht

/-- What is offered newly lies apart from the other offers. -/
theorem apart_of_tradeItem {a : PlayerRef} {u : Ref} (hu : s.tradeItem a = some u) :
    t ≠ u ∧ ¬Below s.parent u t ∧ ¬Below s.parent t u :=
  alreadyTraded_eq_false hw ht ((hc.listed u a).mpr hu)

theorem offered_listed (q : PlayerRef) (hp : s.tradeItem p = none) (u : Ref) (a : PlayerRef) :
    (u, a) ∈ (offered s p q t).tradeItems ↔ (offered s p q t).tradeItem a = some u := by
  rw [offered_tradeItem]
  simp only [offered, List.mem_cons, List.mem_filter, hc.listed, Prod.mk.injEq, decide_eq_true_eq]
  split
  next ha =>
    subst ha
    rw [hp]
    simp [eq_comm]
  next ha =>
    simp only [ha, and_false, false_or, and_iff_left_iff_imp]
    exact fun hu => Ne.symm (apart_of_tradeItem hc hw ht hu).1

theorem offered_apart (q : PlayerRef) {a b : PlayerRef} {u v : Ref} (hu : (offered s p q t).tradeItem a = some u)
    (hv : (offered s p q t).tradeItem b = some v) : ¬Below s.parent u v := by
  rw [offered_tradeItem] at hu hv
  split at hu
  next =>
    cases hu
    split at hv
    next =>
      cases hv
      exact hw.acyclic t
    next => exact (apart_of_tradeItem hc hw ht hv).2.2
  next =>
    split at hv
    next =>
      cases hv
      exact (apart_of_tradeItem hc hw ht hu).2.1
    next => exact hc.apart hu hv

end

theorem offered_keys (hc : Consistent s) (p q : PlayerRef) (t : Ref) : ((offered s p q t).tradeItems.map (·.1)).Nodup := by
  rw [offered, List.map_cons, List.nodup_cons]
  refine ⟨?_, (List.filter_sublist.map _).nodup hc.keys⟩
  rw [List.mem_map]
  rintro ⟨it, hit, rfl⟩
  simp at hit

/-- A player who acknowledged has made no offer. -/
theorem Consistent.tradeItem_of_acknowledge (hc : Consistent s) (hp : s.tradeState p = .ACKNOWLEDGE) :
    s.tradeItem p = none := by
  rw [Option.eq_none_iff_forall_ne_some]
  intro t ht
  rcases hc.offering ht with h | h
  · exact absurd (hp.symm.trans h) nofun
  · exact absurd (hp.symm.trans h) nofun

theorem Consistent.counter (hc : Consistent s) (hw : Wood s.parent s.next) (ht : alreadyTraded s t = false)
    (hp : s.tradeState p = .ACKNOWLEDGE) (hq : s.tradePartner p = some q) : Consistent (offered s p q t) where
  partner {a b} hab := by
    have : (offered s p q t).tradePartner = s.tradePartner := Function.update_eq_self_iff.mpr hq.symm
    rw [this] at hab ⊢
    exact hc.partner hab
  none_iff a := by
    rw [offered_tradeState, offered_tradePartner]
    split
    · exact iff_of_false nofun nofun
    · exact hc.none_iff a
  settled a := by
    rw [offered_tradeState]
    split
    · exact nofun
    · exact hc.settled a
  offering {a u} hu := by
    rw [offered_tradeState]
    rw [offered_tradeItem] at hu
    split at hu
    next ha => exact .inl (if_pos ha)
    next ha =>
      rw [if_neg ha]
      exact hc.offering hu
  initiated {a} ha := by
    rw [offered_tradeState] at ha
    rw [offered_tradeItem]
    split
    next => rfl
    next hne =>
      rw [if_neg hne] at ha
      exact hc.initiated ha
  listed := offered_listed hc hw ht q (hc.tradeItem_of_acknowledge hp)
  keys := offered_keys hc p q t
  apart := offered_apart hc hw ht q

theorem Consistent.first (hc : Consistent s) (hw : Wood s.parent s.next) (hne : q ≠ p) (ht : alreadyTraded s t = false)
    (hp : s.tradeState p = .NONE) (hq : s.tradeState q = .NONE) :
    Consistent (setTradePartner (setTradeState (offered s p q t) q .ACKNOWLEDGE) q (some p)) := by
  have hpn := (hc.none_iff p).mp hp
  have hqn := (hc.none_iff q).mp hq
  have hpartner (a : PlayerRef) : (setTradePartner (setTradeState (offered s p q t) q .ACKNOWLEDGE) q (some p)).tradePartner a =
      if a = q then some p else if a = p then some q else s.tradePartner a := by
    rw [← offered_tradePartner s p q t a]
    exact Function.update_apply ..
  have hstate (a : PlayerRef) : (setTradePartner (setTradeState (offered s p q t) q .ACKNOWLEDGE) q (some p)).tradeState a =
      if a = q then .ACKNOWLEDGE else if a = p then .INITIATED else s.tradeState a := by
    rw [← offered_tradeState s p q t a]
    exact Function.update_apply ..
  -- nobody else trades with one of the two
  have hfree {a b : PlayerRef} (hab : s.tradePartner a = some b) : b ≠ p ∧ b ≠ q := by
    have hba := (hc.partner hab).1
    constructor
    · rintro rfl
      exact nomatch hba.symm.trans hpn
    · rintro rfl
      exact nomatch hba.symm.trans hqn
  refine ⟨?_, ?_, ?_, ?_, ?_, offered_listed hc hw ht q (hc.tradeItem_of_none hpn), offered_keys hc p q t, offered_apart hc hw ht q⟩
  · intro a b hab
    rw [hpartner] at hab ⊢
    split at hab
    next ha =>
      cases hab
      exact ⟨by rw [if_neg hne.symm, if_pos rfl, ha], ha ▸ hne.symm⟩
    next =>
      split at hab
      next ha =>
        cases hab
        exact ⟨by rw [if_pos rfl, ha], ha ▸ hne⟩
      next =>
        obtain ⟨hbp, hbq⟩ := hfree hab
        rw [if_neg hbq, if_neg hbp]
        exact hc.partner hab
  · intro a
    rw [hpartner, hstate]
    split
    · exact iff_of_false nofun nofun
    · split
      · exact iff_of_false nofun nofun
      · exact hc.none_iff a
  · intro a
    rw [hstate]
    split
    · exact nofun
    · split
      · exact nofun
      · exact hc.settled a
  · intro a u hu
    change (offered s p q t).tradeItem a = some u at hu
    rw [offered_tradeItem] at hu
    have haq : a ≠ q := by
      rintro rfl
      rw [if_neg hne, hc.tradeItem_of_none hqn] at hu
      exact nomatch hu
    rw [hstate, if_neg haq]
    split at hu
    next ha => exact .inl (if_pos ha)
    next ha =>
      rw [if_neg ha]
      exact hc.offering hu
  · intro a ha
    rw [hstate] at ha
    change ((offered s p q t).tradeItem a).isSome
    rw [offered_tradeItem]
    split at ha
    next => exact nomatch ha
    next =>
      split
      next => rfl
      next hap =>
        rw [if_neg hap] at ha
        exact hc.initiated ha

/-- What a request keeps, whatever it changes. -/
theorem Change.consistent {s' : State} (h : Change s op s') (hc : Consistent s) (hw : Wood s.parent s.next) :
    Consistent s' ∧ Wood s'.parent s'.next := by
  cases h with
  | refused op h => exact ⟨hc, hw⟩
  | accept p q outcome hq hp => exact ⟨hc.accept hq, hw⟩
  | ended op p q parent h hq hs => exact ⟨hc.ended hq hs, hs.wood⟩
  | first p q t h hp hq =>
    obtain ⟨q', t', heq, hne, ht, -⟩ := h
    cases heq
    exact ⟨hc.first hw hne ht hp hq, hw⟩
  | counter p q t h hp hq =>
    obtain ⟨q', t', heq, -, ht, -⟩ := h
    cases heq
    exact ⟨hc.counter hw ht hp hq, hw⟩

/-! ### Who offered and who accepted -/

/-- The partners who accepted saw both offers, if both are made. -/
def Seen (s : State) (ops : List Op) : Prop :=
  ∀ {p q t u}, (run step s ops).tradeState p = .ACCEPT → (run step s ops).tradePartner p = some q →
    (run step s ops).tradeItem p = some t → (run step s ops).tradeItem q = some u →
    Since step (Accepts p q t u) (fun s => s.tradePartner p = some q) s ops

/-- Exactly the players who made an offer have an item in the trade. -/
def OwnOffers (s : State) (ops : List Op) : Prop :=
  ∀ p, ((run step s ops).tradeItem p).isSome ↔ Since step (Offers p) (fun s => s.tradePartner p ≠ none) s ops

variable {ops : List Op} {s₀ : State}

theorem OwnOffers.concat (h : OwnOffers s₀ ops) (hs : run step s₀ ops = s) (hc : Consistent s) (hw : Wood s.parent s.next)
    (hch : Change s op (step s op)) : OwnOffers s₀ (ops ++ [op]) := by
  have hc' := (hch.consistent hc hw).1
  intro a
  have ha := h a
  rw [hs] at ha
  rw [run_concat, since_concat, hs, ← ha]
  have hpartner {a} (h : ((step s op).tradeItem a).isSome) : (step s op).tradePartner a ≠ none := fun hn => by
    rw [hc'.tradeItem_of_none hn] at h
    exact nomatch h
  have hgoal (hiff : (step s op).tradePartner a ≠ none →
      (((step s op).tradeItem a).isSome ↔ Offers a s op ∨ (s.tradeItem a).isSome)) :
      ((step s op).tradeItem a).isSome ↔
        (step s op).tradePartner a ≠ none ∧ (Offers a s op ∨ (s.tradeItem a).isSome) :=
    ⟨fun h => ⟨hpartner h, (hiff (hpartner h)).mp h⟩, fun h => (hiff h.1).mpr h.2⟩
  refine hgoal ?_
  generalize step s op = s' at hch ⊢
  intro hne
  cases hch with
  | refused op h => simp [h a]
  | accept p q outcome hq hp =>
    have : ¬Offers a s (.playerAcceptTrade p outcome) := by
      rintro ⟨q, t, heq, -⟩
      exact nomatch heq
    simp [this, setTradeState]
  | ended op p q parent h hq hs =>
    obtain ⟨b, hb⟩ := Option.ne_none_iff_exists'.mp hne
    obtain ⟨hap, haq, -⟩ := update_none_eq_some.mp hb
    simp [h a, ended, Function.update_of_ne haq, Function.update_of_ne hap]
  | first p q t h hp hq =>
    change ((offered s p q t).tradeItem a).isSome ↔ _
    rw [offered_tradeItem]
    split
    next ha => exact iff_of_true rfl (.inl (ha ▸ h))
    next ha =>
      refine (or_iff_right fun h' => ha ?_).symm
      obtain ⟨q', t', heq, -⟩ := h'
      cases heq
      rfl
  | counter p q t h hp hq =>
    rw [offered_tradeItem]
    split
    next ha => exact iff_of_true rfl (.inl (ha ▸ h))
    next ha =>
      refine (or_iff_right fun h' => ha ?_).symm
      obtain ⟨q', t', heq, -⟩ := h'
      cases heq
      rfl

theorem Seen.concat (h : Seen s₀ ops) (hs : run step s₀ ops = s) (hc : Consistent s) (hch : Change s op (step s op))
    (ha : Answered s op) : Seen s₀ (ops ++ [op]) := by
  intro a b v w hstate hpartner hv hw'
  rw [Seen, hs] at h
  rw [run_concat, hs] at hstate hpartner hv hw'
  rw [since_concat, hs]
  refine ⟨hpartner, ?_⟩
  generalize step s op = s' at *
  cases hch with
  | refused op => exact .inr (h hstate hpartner hv hw')
  | accept p q outcome hq hp =>
    rw [tradeState_setTradeState] at hstate
    split at hstate
    next hap =>
      subst hap
      exact .inl ⟨⟨outcome, rfl⟩, hpartner, hv, hw'⟩
    next => exact .inr (h hstate hpartner hv hw')
  | ended op p q parent _ hq hsp =>
    obtain ⟨hap, haq, hpartner⟩ := update_none_eq_some.mp hpartner
    rw [ended_tradeState, if_neg (not_or.mpr ⟨hap, haq⟩)] at hstate
    exact .inr (h hstate hpartner (update_none_eq_some.mp hv).2.2 (update_none_eq_some.mp hw').2.2)
  | first p q t ho hp hq =>
    have haq : a ≠ q := by
      rintro rfl
      simp [setTradePartner, setTradeState] at hstate
    have hstate : (offered s p q t).tradeState a = .ACCEPT := by
      rwa [setTradePartner, tradeState_setTradeState, if_neg haq] at hstate
    rw [offered_tradeState] at hstate
    split at hstate
    next => exact nomatch hstate
    next hap =>
      have hab : s.tradePartner a = some b := by
        rw [← hpartner, setTradePartner]
        dsimp only
        rw [Function.update_of_ne haq]
        exact ((offered_tradePartner s p q t a).trans (if_neg hap)).symm
      have hbp : b ≠ p := by
        rintro rfl
        exact nomatch ((hc.none_iff b).mp hp).symm.trans (hc.partner hab).1
      exact .inr (h hstate hab (((offered_tradeItem s p q t a).trans (if_neg hap)).symm.trans hv)
        (((offered_tradeItem s p q t b).trans (if_neg hbp)).symm.trans hw'))
  | counter p q t ho hp hq =>
    rw [offered_tradeState] at hstate
    split at hstate
    next => exact nomatch hstate
    next hap =>
      rw [offered_tradePartner, if_neg hap] at hpartner
      rw [offered_tradeItem, if_neg hap] at hv
      -- the partner who counters finds that this player has not accepted
      have hbp : b ≠ p := by
        rintro rfl
        exact ha b a ho (hc.partner hpartner).1 hstate
      rw [offered_tradeItem, if_neg hbp] at hw'
      exact .inr (h hstate hpartner hv hw')

/-- Items change hands when the second one accepts. -/
theorem changed_hands (h : (playerAcceptTrade s p outcome).2 = true) (hc : Consistent s) :
    ∃ q t u, s.tradePartner p = some q ∧ s.tradeState q = .ACCEPT ∧ s.tradeItem p = some t ∧ s.tradeItem q = some u := by
  rw [playerAcceptTrade] at h
  split at h
  next => exact nomatch h
  next hp =>
    split at h
    next => exact nomatch h
    next q hq =>
      dsimp only at h
      split at h
      next hstate =>
        rw [tradeState_setTradeState, if_neg (hc.partner hq).2] at hstate
        rw [transfer] at h
        dsimp only [setTradeState] at h
        cases ht : s.tradeItem p with
        | none =>
          rw [ht] at h
          exact nomatch h
        | some t =>
          cases hu : s.tradeItem q with
          | none =>
            rw [ht, hu] at h
            exact nomatch h
          | some u => exact ⟨q, t, u, hq, hstate, rfl, hu⟩
      next => exact nomatch h

theorem Consistent.start (parent : Ref → Option Ref) (next : Ref) : Consistent (State.start parent next) where
  partner h := nomatch h
  none_iff _ := iff_of_true rfl rfl
  settled _ := nofun
  offering h := nomatch h
  initiated h := nomatch h
  listed _ _ := iff_of_false List.not_mem_nil nofun
  keys := List.nodup_nil
  apart h := nomatch h

/-- In every state of a run in which no offer answers a player who has accepted, the trades are consistent and fair. -/
theorem fair_run {parent : Ref → Option Ref} {next : Ref} (hwood : Wood parent next) {ops : List Op}
    (hfits : Meets step Fits (.start parent next) ops) (hops : Meets step Answered (.start parent next) ops) :
    ∀ xs, xs <+: ops → Fair (.start parent next) xs := by
  have key : ∀ xs, xs <+: ops → (Consistent (run step (.start parent next) xs) ∧
      Wood (run step (.start parent next) xs).parent (run step (.start parent next) xs).next) ∧
      OwnOffers (.start parent next) xs ∧ Seen (.start parent next) xs := by
    intro xs
    induction xs using List.reverseRecOn with
    | nil =>
      intro _
      refine ⟨⟨.start parent next, hwood⟩, fun p => iff_of_false nofun (not_since_nil _), ?_⟩
      intro p q t u h
      exact nomatch h
    | append_singleton xs op ih =>
      intro hxs
      obtain ⟨⟨hc, hw⟩, hown, hseen⟩ := ih ((List.prefix_append xs [op]).trans hxs)
      obtain ⟨ys, rfl⟩ := hxs
      have hch := step_change hc hw hfits.of_append.last
      rw [run_concat]
      exact ⟨hch.consistent hc hw, hown.concat rfl hc hw hch, hseen.concat rfl hc hch hops.of_append.last⟩
  intro xs hxs
  obtain ⟨⟨hc, hw⟩, hown, hseen⟩ := key xs hxs
  refine ⟨hc, fun p => ?_, fun p outcome h => ?_⟩
  · rw [← hown p, iff_and_self]
    intro hp
    obtain ⟨t, ht⟩ := Option.isSome_iff_exists.mp hp
    exact hc.offering ht
  · obtain ⟨q, t, u, hq, hstate, ht, hu⟩ := changed_hands h hc
    exact ⟨q, t, u, ⟨⟨outcome, rfl⟩, hq, ht, hu⟩, hseen hstate (hc.partner hq).1 hu ht⟩

/-! ### Two trades -/

theorem wood_empty (next : Ref) : Wood (fun _ => none) next where
  acyclic _ h := not_below_of_root rfl h
  made h := nomatch h

/-- Both offer, and then both accept. -/
theorem fair_run_sample : Fair (.start (fun _ => none) 2) [Op.playerRequestTrade 0 1 0, .playerRequestTrade 1 0 1,
    .playerAcceptTrade 0 .refused, .playerAcceptTrade 1 (.both none none)] := by
  refine fair_run (wood_empty 2) ?_ ?_ _ (List.prefix_refl _)
  · refine ⟨trivial, trivial, ?_, ?_, trivial⟩
    · exact fun _ _ _ _ _ _ => trivial
    · exact fun _ _ _ _ _ _ => ⟨nofun, nofun⟩
  · refine ⟨?_, ?_, ?_, ?_, trivial⟩
    · rintro p q ⟨_, _, heq, -⟩ hq
      cases heq
      exact nomatch hq
    · rintro p q ⟨_, _, heq, -⟩ hq
      cases heq
      cases hq
      decide
    · rintro p q ⟨_, _, heq, -⟩
      exact nomatch heq
    · rintro p q ⟨_, _, heq, -⟩
      exact nomatch heq

/-- The first player accepts before the second one offers anything. -/
theorem accepted_unseen : ¬∀ (parent : Ref → Option Ref) (next : Ref) (ops : List Op), Wood parent next →
    Meets step Fits (.start parent next) ops → ∀ xs, xs <+: ops → Fair (.start parent next) xs := by
  intro h
  have hfits : Meets step Fits (.start (fun _ => none) 2)
      [.playerRequestTrade 0 1 0, .playerAcceptTrade 0 .refused, .playerRequestTrade 1 0 1] :=
    ⟨trivial, fun _ _ _ _ _ _ => trivial, trivial, trivial⟩
  have hfair := h _ 2 _ (wood_empty 2) hfits _ List.prefix_rfl
  obtain ⟨q, t, u, ⟨-, hq, -⟩, hsince⟩ := hfair.change_hands 1 (.both none none) rfl
  cases hq
  rw [show ([.playerRequestTrade 0 1 0, .playerAcceptTrade 0 .refused, .playerRequestTrade 1 0 1] : List Op) =
    [] ++ [.playerRequestTrade 0 1 0] ++ [.playerAcceptTrade 0 .refused] ++ [.playerRequestTrade 1 0 1] from rfl] at hsince
  rcases (since_concat.mp hsince).2 with ⟨⟨_, heq⟩, -⟩ | hsince
  · exact nomatch heq
  rcases (since_concat.mp hsince).2 with ⟨-, -, -, hu⟩ | hsince
  · exact nomatch hu
  rcases (since_concat.mp hsince).2 with ⟨⟨_, heq⟩, -⟩ | hsince
  · exact nomatch heq
  · exact not_since_nil _ hsince

end CrystalServer.Trade
