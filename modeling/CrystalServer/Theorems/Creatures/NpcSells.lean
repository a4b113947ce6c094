import CrystalServer.Theorems.Creatures.NpcPays

/-! # Selling to an NPC: a sale pays for what it takes

The cost is a 32-bit product, another currency comes as one item with a count of one byte, and what of a payment does not
go in is lost. A sale is exact when none of this happens, and so is every run of sales. -/

namespace CrystalServer
namespace Npc
open Game

/-- The arguments of a sale. -/
structure Sale where
  itemId : UInt16
  amount : UInt16
  ignore : Bool
  parent : Option Ref

variable {τ : Type} {env : NpcEnv τ} {units : τ → UInt16 → Nat} {p : PlayerRef} {s s' s'' : SaleState τ} {e : Sale}

section
variable (env : NpcEnv τ) (p : PlayerRef) (s : SaleState τ) (e : Sale)

/-- `onPlayerSellItem`, without `totalPrice`. -/
def sell : SaleState τ := (onPlayerSellItem env s p e.itemId e.amount e.ignore 0 e.parent).1

/-- The sale comes to an end before the second pass. -/
def Refuses : Prop :=
  e.itemId = ITEM_GOLD_POUCH ∨ sellPrice env e.itemId = 0 ∨
    willRemove env s.world p e.itemId e.amount e.ignore e.parent = 0 ∨
    hasRoomForCoins env s.world p (sellPrice env e.itemId)
      (willRemove env s.world p e.itemId e.amount e.ignore e.parent) = false

instance : Decidable (Refuses env p s e) := inferInstanceAs (Decidable (_ ∨ _))

/-- The items of the player that both passes look at. -/
def offered : List Ref := Player.getInventoryItemsFromId env.toEnv s.world p e.itemId e.ignore

/-- The items that a sale takes, each with what it takes of it. -/
def taken : List (Ref × UInt16) :=
  if Refuses env p s e then [] else removals env s.world e.parent (offered env p s e) e.amount

/-- The units that a sale takes. -/
def sold : Nat := Npc.units env.items e.itemId (taken env p s e)

/-- What they are to bring. -/
def cost : Nat := sold env p s e * (sellPrice env e.itemId).toNat

/-- The product with 32 bits is the cost, and the payment comes whole. -/
def Pays : Prop :=
  taken env p s e = [] ∨ counted (taken env p s e) * (sellPrice env e.itemId).toNat % 2 ^ 32 = cost env p s e ∧
    Received env p (sellLoop env p e.parent (offered env p s e) s e.amount).1 (.ofNat (cost env p s e))

end

/-- Exactly what is taken is paid: of other things than the currency the player has what was taken less, and with what was
    taken of the currency his holdings have grown by the cost. -/
structure Sells (env : NpcEnv τ) (units : τ → UInt16 → Nat) (p : PlayerRef) (s s' : SaleState τ) (e : Sale) : Prop where
  most : sold env p s e ≤ e.amount.toNat
  eligible : ∀ r ∈ taken env p s e, isEligible env s.world e.parent r.1 ∧ (s.world.item r.1).id = e.itemId ∧
    r.2.toNat ≤ (s.world.item r.1).getItemCount
  goods : ∀ id, unitWorth env.getCurrency id = 0 →
    around env units p s' id + (if e.itemId = id then sold env p s e else 0) = around env units p s id
  payment : holdings env units p s' + sold env p s e * unitWorth env.getCurrency e.itemId =
    holdings env units p s + cost env p s e

/-! ### One sale -/

theorem mem_removals {w : World} {parent : Option Ref} {l : List Ref} {toRemove : UInt16} {r : Ref × UInt16}
    (h : r ∈ removals env w parent l toRemove) :
    r.1 ∈ l ∧ isEligible env w parent r.1 ∧ 0 < r.2.toNat ∧ r.2.toNat ≤ (w.item r.1).getItemCount := by
  induction l generalizing toRemove with
  | nil => exact absurd h List.not_mem_nil
  | cons x l ih =>
    unfold removals at h
    dsimp only at h
    split_ifs at h with htakes
    · rcases List.mem_cons.mp h with rfl | h
      · have hcount : (w.item x).getItemCount < 256 := (w.item x).count.toNat_lt
        have hmin := min_toNat toRemove (.ofNat (w.item x).getItemCount)
        rw [UInt16.toNat_ofNat', Nat.mod_eq_of_lt (by omega)] at hmin
        refine ⟨List.mem_cons_self, htakes.1, Nat.pos_of_ne_zero fun hz => htakes.2.2 (UInt16.toNat_inj.mp hz), ?_⟩
        exact hmin.le.trans (Nat.min_le_right ..)
      · obtain ⟨hmem, hrest⟩ := ih h
        exact ⟨List.mem_cons_of_mem x hmem, hrest⟩
    · obtain ⟨hmem, hrest⟩ := ih h
      exact ⟨List.mem_cons_of_mem x hmem, hrest⟩

/-- Every item that is taken is counted. -/
theorem length_le_counted {l : List (Ref × UInt16)} (h : ∀ r ∈ l, 0 < r.2.toNat) : l.length ≤ counted l := by
  induction l with
  | nil => exact le_rfl
  | cons r l ih =>
    have hr := h r List.mem_cons_self
    have hl := ih fun r hr => h r (List.mem_cons_of_mem _ hr)
    unfold counted at hl ⊢
    rw [List.map_cons, List.sum_cons, List.length_cons]
    omega

theorem units_le_counted (items : UInt16 → ItemType) (itemId : UInt16) {l : List (Ref × UInt16)}
    (h : ∀ r ∈ l, 0 < r.2.toNat) : Npc.units items itemId l ≤ counted l := by
  unfold Npc.units
  split_ifs
  · exact le_rfl
  · exact length_le_counted h

theorem units_pos {items : UInt16 → ItemType} {itemId : UInt16} {l : List (Ref × UInt16)} (h : ∀ r ∈ l, 0 < r.2.toNat)
    (hne : l ≠ []) : 0 < Npc.units items itemId l := by
  have hlength := List.length_pos_iff.mpr hne
  unfold Npc.units
  split_ifs
  · exact hlength.trans_le (length_le_counted h)
  · exact hlength

/-- The total is only counted. -/
theorem onPlayerSellItem_total (env : NpcEnv τ) (p : PlayerRef) (s : SaleState τ) (e : Sale) (totalPrice : UInt64) :
    (onPlayerSellItem env s p e.itemId e.amount e.ignore totalPrice e.parent).1 = sell env p s e := by
  unfold sell onPlayerSellItem
  dsimp only
  split_ifs <;> rfl

theorem sell_of_refuses (h : Refuses env p s e) : ∃ l, sell env p s e = { s with scheduled := l } := by
  unfold sell onPlayerSellItem
  dsimp only
  by_cases hpouch : e.itemId = ITEM_GOLD_POUCH
  · rw [if_pos hpouch]
    exact ⟨_, rfl⟩
  rw [if_neg hpouch]
  by_cases hprice : sellPrice env e.itemId = 0
  · rw [if_pos hprice]
    exact ⟨_, rfl⟩
  rw [if_neg hprice]
  by_cases hremove : willRemove env s.world p e.itemId e.amount e.ignore e.parent = 0
  · rw [if_pos hremove]
    exact ⟨_, rfl⟩
  rw [if_neg hremove]
  rcases h with h | h | h | h
  · exact absurd h hpouch
  · exact absurd h hprice
  · exact absurd h hremove
  · rw [if_pos (by rw [h]; rfl)]
    exact ⟨_, rfl⟩

theorem sell_of_not_refuses (h : ¬Refuses env p s e) :
    let res := sellLoop env p e.parent (offered env p s e) s e.amount
    let totalCost := (sellPrice env e.itemId * (e.amount - res.2).toUInt32).toUInt64
    sell env p s e = if e.amount - res.2 = 0 then res.1 else if totalCost > 0 then pay env p res.1 totalCost else res.1 := by
  obtain ⟨hpouch, hprice, hremove, hroom⟩ : _ ∧ _ ∧ _ ∧ _ := by
    unfold Refuses at h
    simpa only [not_or] using h
  unfold sell onPlayerSellItem
  dsimp only
  rw [if_neg hpouch, if_neg hprice, if_neg hremove, if_neg (by simpa using hroom)]
  unfold offered
  cases sellLoop env p e.parent _ s e.amount with
  | mk s₁ toRemove =>
    dsimp only
    split_ifs <;> rfl

/-- What the second pass leaves of everything. -/
theorem Taking.around {itemId : UInt16} {plan : List (Ref × UInt16)} (h : Taking env p itemId s s' plan) (id : UInt16) :
    around env units p s' id + (if itemId = id then Npc.units env.items itemId plan else 0) = around env units p s id := by
  have hheld := h.held id
  unfold Npc.around
  rw [h.tile]
  omega

theorem Taking.holdings {itemId : UInt16} {plan : List (Ref × UInt16)} (h : Taking env p itemId s s' plan) :
    holdings env units p s' + Npc.units env.items itemId plan * unitWorth env.getCurrency itemId = holdings env units p s := by
  have hworth : worth env.getCurrency (Npc.around env units p s) = worth env.getCurrency (Npc.around env units p s') +
      Npc.units env.items itemId plan * unitWorth env.getCurrency itemId := by
    rw [← worth_single, ← worth_add]
    exact congrArg (worth env.getCurrency) (funext fun id => (h.around id).symm)
  unfold Npc.holdings
  rw [h.bank, hworth, Nat.add_assoc]

theorem listed_offered (h : Trading env s p) : Listed s.world p e.itemId (offered env p s e) :=
  ⟨Player.inventoryItems_pairwise env.toEnv h.carried h.slotted p e.itemId e.ignore,
    fun _ hx => Player.mem_inventoryItems h.carried h.slotted hx⟩

/-- Every item that is taken is eligible, and something is taken of it. -/
theorem taken_spec (h : Trading env s p) : ∀ r ∈ taken env p s e, 0 < r.2.toNat ∧ isEligible env s.world e.parent r.1 ∧
    (s.world.item r.1).id = e.itemId ∧ r.2.toNat ≤ (s.world.item r.1).getItemCount := by
  intro r hr
  unfold taken at hr
  split_ifs at hr
  · exact absurd hr List.not_mem_nil
  · obtain ⟨hmem, heligible, hpos, hle⟩ := mem_removals hr
    exact ⟨hpos, heligible, ((listed_offered h).mem r.1 hmem).1, hle⟩

theorem toNat_product (price : UInt32) (totalRemoved : UInt16) :
    (price * totalRemoved.toUInt32).toUInt64.toNat = totalRemoved.toNat * price.toNat % 2 ^ 32 := by
  rw [UInt32.toNat_toUInt64, UInt32.toNat_mul, UInt16.toNat_toUInt32, Nat.mul_comm]

/-- A sale that takes nothing leaves everything. -/
theorem sells_of_nothing (hnone : taken env p s e = []) (haround : ∀ id, around env units p s' id = around env units p s id)
    (hholdings : holdings env units p s' = holdings env units p s) : Sells env units p s s' e := by
  have hsold : sold env p s e = 0 := by
    rw [sold, hnone]
    exact ite_self 0
  refine ⟨hsold ▸ Nat.zero_le _, fun r hr => ?_, fun id _ => ?_, ?_⟩
  · rw [hnone] at hr
    exact absurd hr List.not_mem_nil
  · rw [hsold, ite_self, add_zero]
    exact haround id
  · rw [cost, hsold, Nat.zero_mul, Nat.zero_mul, hholdings]

theorem sell_spec (ht : TileTakes env.toPlayerAddEnv units) (hc : CoinsStack env.items) (h : Trading env s p) :
    Trading env (sell env p s e) p ∧ (Pays env p s e → Sells env units p s (sell env p s e) e) ∧
      (counted (taken env p s e) = sold env p s e → Sells env units p s (sell env p s e) e → Pays env p s e) := by
  by_cases hrefuse : Refuses env p s e
  · obtain ⟨l, heq⟩ := sell_of_refuses hrefuse
    have hnone : taken env p s e = [] := if_pos hrefuse
    rw [heq]
    exact ⟨⟨h.carried, h.slotted, h.obtained, h.loot⟩, fun _ => sells_of_nothing hnone (fun _ => rfl) rfl, fun _ _ => .inl hnone⟩
  have hplan : taken env p s e = removals env s.world e.parent (offered env p s e) e.amount := if_neg hrefuse
  have heq := sell_of_not_refuses hrefuse
  have hspec := taken_spec (e := e) h
  have hloop : let res := sellLoop env p e.parent (offered env p s e) s e.amount
      Taking env p e.itemId s res.1 (removals env s.world e.parent (offered env p s e) e.amount) ∧ _ :=
    sellLoop_spec h (listed_offered h) e.amount
  obtain ⟨htake, hcount⟩ := hloop
  unfold Pays
  dsimp only at heq
  rw [← hplan] at htake hcount
  generalize sellLoop env p e.parent (offered env p s e) s e.amount = res at heq htake hcount ⊢
  obtain ⟨s₁, toRemove⟩ := res
  dsimp only at heq htake hcount ⊢
  have htotal : (e.amount - toRemove).toNat = counted (taken env p s e) := by
    rw [UInt16.toNat_sub_of_le _ _ (UInt16.le_iff_toNat_le.mpr (by omega))]
    omega
  by_cases hnone : taken env p s e = []
  · have hzero : e.amount - toRemove = 0 := UInt16.toNat_inj.mp (by rw [htotal, hnone]; rfl)
    rw [if_pos hzero, htake.none hnone] at heq
    rw [heq]
    exact ⟨h, fun _ => sells_of_nothing hnone (fun _ => rfl) rfl, fun _ _ => .inl hnone⟩
  have hunits : sold env p s e ≤ counted (taken env p s e) := units_le_counted _ _ fun r hr => (hspec r hr).1
  have hsold : 0 < sold env p s e := units_pos (fun r hr => (hspec r hr).1) hnone
  have hprice : 0 < (sellPrice env e.itemId).toNat :=
    Nat.pos_of_ne_zero fun hz => hrefuse (.inr (.inl (UInt32.toNat_inj.mp hz)))
  have hcost : 0 < cost env p s e := Nat.mul_pos hsold hprice
  have hzero : e.amount - toRemove ≠ 0 := fun hz => by
    rw [hz] at htotal
    exact absurd (hsold.trans_le (hunits.trans htotal.ge)) (lt_irrefl _)
  have hproduct := toNat_product (sellPrice env e.itemId) (e.amount - toRemove)
  have haround : ∀ id, around env units p s₁ id + (if e.itemId = id then sold env p s e else 0) = around env units p s id :=
    htake.around
  have hholdings : holdings env units p s₁ + sold env p s e * unitWorth env.getCurrency e.itemId = holdings env units p s :=
    htake.holdings
  rw [htotal] at hproduct
  rw [if_neg hzero] at heq
  generalize (sellPrice env e.itemId * (e.amount - toRemove).toUInt32).toUInt64 = c at hproduct heq
  have hpays : counted (taken env p s e) * (sellPrice env e.itemId).toNat % 2 ^ 32 = cost env p s e ∧
      Received env p s₁ (.ofNat (cost env p s e)) ↔ c.toNat = cost env p s e ∧ Received env p s₁ c := by
    rw [← hproduct]
    refine and_congr_right fun hexact => ?_
    rw [← hexact, UInt64.ofNat_toNat]
  by_cases hpos : c > 0
  swap
  · have hz : c.toNat = 0 := Nat.eq_zero_of_not_pos fun hlt => hpos (UInt64.lt_iff_toNat_lt.mpr hlt)
    rw [if_neg hpos] at heq
    rw [heq]
    refine ⟨htake.trading, fun hp => ?_, fun _ hs => ?_⟩
    · have hexact := (hpays.mp (hp.resolve_left hnone)).1
      omega
    · have hpayment := hs.payment
      omega
  · have hlt : c.toNat < 2 ^ 32 := hproduct ▸ Nat.mod_lt _ (by decide)
    obtain ⟨htrading, hmost, hwhole, hother⟩ := pay_spec ht hc htake.trading (UInt64.lt_iff_toNat_lt.mp hpos) hlt
    rw [if_pos hpos] at heq
    rw [heq]
    refine ⟨htrading, fun hp => ?_, fun hequal hs => .inr (hpays.mpr ?_)⟩
    · obtain ⟨hexact, hreceived⟩ := hpays.mp (hp.resolve_left hnone)
      have hall := hwhole.mpr hreceived
      refine ⟨by omega, fun r hr => (hspec r hr).2, fun id hid => ?_, by omega⟩
      rw [hother hreceived id hid]
      exact haround id
    · have hpayment := hs.payment
      have hle : c.toNat ≤ cost env p s e := by
        rw [hproduct, hequal]
        exact Nat.mod_le ..
      have hexact : c.toNat = cost env p s e := by omega
      exact ⟨hexact, hwhole.mp (by omega)⟩

/-- An item that does not stack is one. -/
def Single (env : NpcEnv τ) (p : PlayerRef) (s : SaleState τ) (e : Sale) : Prop :=
  ¬(env.items e.itemId).stackable → ∀ r ∈ offered env p s e, (s.world.item r).getItemCount ≤ 1

theorem counted_eq_sold (h : Single env p s e) : counted (taken env p s e) = sold env p s e := by
  unfold sold Npc.units
  split_ifs with hs
  · rfl
  have hone : ∀ r ∈ taken env p s e, r.2.toNat = 1 := fun r hr => by
    unfold taken at hr
    split_ifs at hr
    · exact absurd hr List.not_mem_nil
    · obtain ⟨hmem, -, hpos, hle⟩ := mem_removals hr
      exact le_antisymm (hle.trans (h hs r.1 hmem)) hpos
  unfold counted
  rw [List.map_congr_left hone, List.map_const', List.sum_replicate_nat, Nat.mul_one]

/-! ### Runs -/

section
variable (env : NpcEnv τ) (p : PlayerRef)

/-- A scheduled call is taken off the list before it runs. -/
def before (s : SaleState τ) : Op → SaleState τ
  | .onPlayerSellItem .. => s
  | .onPlayerSellAllLoot index .. => { s with scheduled := s.scheduled.eraseIdx index }

/-- The sales that an operation makes. -/
def sales (s : SaleState τ) : Op → List Sale
  | .onPlayerSellItem itemId amount ignore => [⟨itemId, amount, ignore, none⟩]
  | .onPlayerSellAllLoot index stays toSell =>
    match s.scheduled[index]? with
    | none => []
    | some (ignore, _) =>
      match if stays then Player.getLootPouch env.toEnv s.world p else none with
      | none => []
      | some container =>
        if toSell.isPerm (batch env s.world container).toSell then toSell.map fun b => ⟨b.1, b.2, ignore, some container⟩
        else []

/-- Every sale of the operation pays. -/
def OpPays (s : SaleState τ) (op : Op) : Prop := Lib.Meets (sell env p) (Pays env p) (before s op) (sales env p s op)

/-- What sales take, one by one. -/
def ledger : SaleState τ → List Sale → List (UInt16 × Nat)
  | _, [] => []
  | s, e :: l => (e.itemId, sold env p s e) :: ledger (sell env p s e) l

def runLedger : SaleState τ → List Op → List (UInt16 × Nat)
  | _, [] => []
  | s, op :: ops => ledger env p (before s op) (sales env p s op) ++ runLedger (step env p s op) ops

end

/-- The units of an id on the ledger. -/
def pieces (l : List (UInt16 × Nat)) (id : UInt16) : Nat := (l.map fun e => if e.1 = id then e.2 else 0).sum

/-- The prices of what is on the ledger. -/
def prices (env : NpcEnv τ) (l : List (UInt16 × Nat)) : Nat := (l.map fun e => e.2 * (sellPrice env e.1).toNat).sum

/-- Exactly what is on the ledger is taken, and its prices are paid. -/
structure Sold (env : NpcEnv τ) (units : τ → UInt16 → Nat) (p : PlayerRef) (s s' : SaleState τ) (l : List (UInt16 × Nat)) :
    Prop where
  trading : Trading env s' p
  goods : ∀ id, unitWorth env.getCurrency id = 0 → around env units p s' id + pieces l id = around env units p s id
  payment : holdings env units p s' + worth env.getCurrency (pieces l) = holdings env units p s + prices env l

theorem pieces_append (l l' : List (UInt16 × Nat)) (id : UInt16) : pieces (l ++ l') id = pieces l id + pieces l' id := by
  rw [pieces, List.map_append, List.sum_append]
  rfl

theorem worth_pieces_append (currency : UInt16) (l l' : List (UInt16 × Nat)) :
    worth currency (pieces (l ++ l')) = worth currency (pieces l) + worth currency (pieces l') := by
  rw [← worth_add]
  exact congrArg (worth currency) (funext (pieces_append l l'))

theorem prices_append (l l' : List (UInt16 × Nat)) : prices env (l ++ l') = prices env l + prices env l' := by
  rw [prices, List.map_append, List.sum_append]
  rfl

theorem Sold.refl (h : Trading env s p) : Sold env units p s s [] := by
  refine ⟨h, fun _ _ => rfl, congrArg (holdings env units p s + ·) ?_⟩
  unfold worth
  split_ifs <;> rfl

theorem Sold.trans {l l' : List (UInt16 × Nat)} (h : Sold env units p s s' l) (h' : Sold env units p s' s'' l') :
    Sold env units p s s'' (l ++ l') := by
  refine ⟨h'.trading, fun id hid => ?_, ?_⟩
  · rw [pieces_append, ← h.goods id hid, ← h'.goods id hid]
    omega
  · have hfirst := h.payment
    have hthen := h'.payment
    rw [worth_pieces_append, prices_append]
    omega

theorem sold_of_sells (h : Trading env s' p) (hs : Sells env units p s s' e) :
    Sold env units p s s' [(e.itemId, sold env p s e)] := by
  have hpieces : pieces [(e.itemId, sold env p s e)] = fun id => if e.itemId = id then sold env p s e else 0 :=
    funext fun _ => Nat.add_zero _
  refine ⟨h, fun id hid => ?_, ?_⟩
  · rw [hpieces]
    exact hs.goods id hid
  · rw [hpieces, worth_single, hs.payment]
    rfl

theorem sold_run (ht : TileTakes env.toPlayerAddEnv units) (hc : CoinsStack env.items) {l : List Sale} (h : Trading env s p)
    (hm : Lib.Meets (sell env p) (Pays env p) s l) : Sold env units p s (Lib.run (sell env p) s l) (ledger env p s l) := by
  induction l generalizing s with
  | nil => exact Sold.refl h
  | cons e l ih =>
    obtain ⟨htrading, hpays, -⟩ := sell_spec ht hc h
    exact (sold_of_sells htrading (hpays hm.1)).trans (ih htrading hm.2)

theorem sell_foldl (env : NpcEnv τ) (p : PlayerRef) (ignore : Bool) (container : Ref) (toSell : List (UInt16 × UInt16))
    (s : SaleState τ) (totalPrice : UInt64) :
    (toSell.foldl (fun (sold : SaleState τ × UInt64) b =>
      onPlayerSellItem env sold.1 p b.1 b.2 ignore sold.2 (some container)) (s, totalPrice)).1 =
      Lib.run (sell env p) s (toSell.map fun b => ⟨b.1, b.2, ignore, some container⟩) := by
  induction toSell generalizing s totalPrice with
  | nil => rfl
  | cons b toSell ih =>
    rw [List.foldl_cons, List.map_cons, Lib.run_cons, ← onPlayerSellItem_total env p s _ totalPrice]
    exact ih _ _

/-- An operation makes its sales, and schedules. -/
theorem step_eq (env : NpcEnv τ) (p : PlayerRef) (s : SaleState τ) (op : Op) :
    ∃ l, step env p s op = { Lib.run (sell env p) (before s op) (sales env p s op) with scheduled := l } := by
  cases op with
  | onPlayerSellItem itemId amount ignore => exact ⟨_, rfl⟩
  | onPlayerSellAllLoot index stays toSell =>
    unfold step sales
    dsimp only
    cases hscheduled : s.scheduled[index]? with
    | none => exact ⟨s.scheduled, rfl⟩
    | some call =>
      obtain ⟨ignore, totalPrice⟩ := call
      dsimp only
      generalize (if stays then Player.getLootPouch env.toEnv s.world p else none) = pouch
      cases pouch with
      | none => exact ⟨_, rfl⟩
      | some container =>
        dsimp only
        split_ifs
        · unfold onPlayerSellAllLoot
          dsimp only
          rw [← sell_foldl env p ignore container toSell _ totalPrice]
          split_ifs <;> exact ⟨_, rfl⟩
        · exact ⟨_, rfl⟩

theorem sold_step (ht : TileTakes env.toPlayerAddEnv units) (hc : CoinsStack env.items) (h : Trading env s p) {op : Op}
    (hop : OpPays env p s op) : Sold env units p s (step env p s op) (ledger env p (before s op) (sales env p s op)) := by
  obtain ⟨l, heq⟩ := step_eq env p s op
  have hbefore : Trading env (before s op) p := by
    cases op with
    | onPlayerSellItem => exact h
    | onPlayerSellAllLoot => exact ⟨h.carried, h.slotted, h.obtained, h.loot⟩
  have hsold := sold_run ht hc hbefore hop
  have hsame : ∀ id, around env units p (before s op) id = around env units p s id := fun id => by
    cases op <;> rfl
  have hheld : holdings env units p (before s op) = holdings env units p s := by
    cases op <;> rfl
  rw [heq]
  refine ⟨⟨hsold.trading.carried, hsold.trading.slotted, hsold.trading.obtained, hsold.trading.loot⟩, fun id hid => ?_, ?_⟩
  · exact (hsold.goods id hid).trans (hsame id)
  · exact hsold.payment.trans (congrArg (· + _) hheld)

/-- Sales that all pay come to what they take, and its prices. -/
theorem sold_steps (ht : TileTakes env.toPlayerAddEnv units) (hc : CoinsStack env.items) (h : Trading env s p) {ops : List Op}
    (hops : Lib.Meets (step env p) (OpPays env p) s ops) :
    Sold env units p s (Lib.run (step env p) s ops) (runLedger env p s ops) := by
  induction ops generalizing s with
  | nil => exact Sold.refl h
  | cons op ops ih =>
    have hfirst := sold_step ht hc h hops.1
    exact hfirst.trans (ih hfirst.trading hops.2)

/-- A sale takes and pays exactly what it should just when it pays, and so do all sales of a run, the batches of
    `onPlayerSellAllLoot` among them. -/
theorem onPlayerSellItem_pays (ht : TileTakes env.toPlayerAddEnv units) (hc : CoinsStack env.items) (h : Trading env s p) :
    (∀ (e : Sale) (totalPrice : UInt64),
      let s' := (onPlayerSellItem env s p e.itemId e.amount e.ignore totalPrice e.parent).1
      (Pays env p s e → Sells env units p s s' e) ∧ (Single env p s e → Sells env units p s s' e → Pays env p s e)) ∧
    ∀ ops, Lib.Meets (step env p) (OpPays env p) s ops →
      Sold env units p s (Lib.run (step env p) s ops) (runLedger env p s ops) := by
  refine ⟨fun e totalPrice => ?_, fun ops hops => sold_steps ht hc h hops⟩
  obtain ⟨-, hpays, hneeds⟩ : _ ∧ (_ → Sells env units p s (sell env p s e) e) ∧ _ := sell_spec ht hc h
  rw [onPlayerSellItem_total]
  exact ⟨hpays, fun hsingle => hneeds (counted_eq_sold hsingle)⟩

/-! ### Arrows for gold and for tokens -/

/-- A shop that buys arrows for three each. -/
def arrowShop (currency : UInt16) : NpcEnv (UInt16 → Nat) where
  toMoneyEnv := { tileEnv with AUTOBANK := true }
  type _ := .other
  addToPlayerTile w tile x := (fun id => tile id + w.brought tileEnv.items x id, .NOERROR)
  newContainer _ := none
  itemEnv := ⟨tileEnv.items, fun _ => 0, 10, 0, 0, fun _ => true⟩
  hasImbuements _ _ := false
  getCurrency := currency
  shopVector := [⟨3447, 3⟩]
  empty := nofun
  single := nofun

/-- A player with 95 arrows. -/
def arrowSeller : SaleState (UInt16 → Nat) where
  world := arrowWorld
  tile _ := 0
  looting := arrowState.looting
  lootContainers _ := none
  bankBalance := 0
  scheduled := []

theorem arrowShop_takes (currency : UInt16) : TileTakes (arrowShop currency).toPlayerAddEnv fun tile => tile :=
  fun _ _ _ _ _ _ => ⟨rfl, fun _ => rfl⟩

theorem arrowShop_coins (currency : UInt16) : CoinsStack (arrowShop currency).items := ⟨rfl, rfl, rfl⟩

theorem arrowSeller_trading (currency : UInt16) : Trading (arrowShop currency) arrowSeller 0 where
  carried := ⟨arrowWorld_carried.forest, fun r h => by cases r <;> exact (nomatch h), arrowWorld_carried.slots,
    arrowWorld_carried.made⟩
  slotted.slot p r h := by
    match r with
    | 0 =>
      cases h
      exact ⟨10, by decide, rfl⟩
    | _ + 1 => exact nomatch h
  slotted.once p i j r hi hj := by
    obtain ⟨⟨-, rfl⟩, -⟩ := Option.ite_none_right_eq_some.mp hi
    obtain ⟨⟨-, rfl⟩, -⟩ := Option.ite_none_right_eq_some.mp hj
    rfl
  obtained _ _ h := nomatch h
  loot _ _ h := nomatch h

theorem arrowSeller_pays : Pays (arrowShop ITEM_GOLD_COIN) 0 arrowSeller ⟨3447, 50, false, none⟩ := by
  have hgold : (arrowShop ITEM_GOLD_COIN).getCurrency = ITEM_GOLD_COIN := rfl
  have hbank : (arrowShop ITEM_GOLD_COIN).AUTOBANK = true := rfl
  refine .inr ⟨by decide, ?_⟩
  rw [Received, if_pos hgold, if_pos hbank]
  decide

theorem onPlayerSellItem_pays_arrows :
    Sells (arrowShop ITEM_GOLD_COIN) (fun tile => tile) 0 arrowSeller
      (onPlayerSellItem (arrowShop ITEM_GOLD_COIN) arrowSeller 0 3447 50 false 0 none).1 ⟨3447, 50, false, none⟩ ∧
    Sold (arrowShop ITEM_GOLD_COIN) (fun tile => tile) 0 arrowSeller
      (Lib.run (step (arrowShop ITEM_GOLD_COIN) 0) arrowSeller [.onPlayerSellItem 3447 50 false])
      (runLedger (arrowShop ITEM_GOLD_COIN) 0 arrowSeller [.onPlayerSellItem 3447 50 false]) := by
  obtain ⟨hone, hrun⟩ := onPlayerSellItem_pays (arrowShop_takes ITEM_GOLD_COIN) (arrowShop_coins ITEM_GOLD_COIN)
    (arrowSeller_trading ITEM_GOLD_COIN)
  exact ⟨(hone ⟨3447, 50, false, none⟩ 0).1 arrowSeller_pays, hrun _ ⟨⟨arrowSeller_pays, trivial⟩, trivial⟩⟩

/-- 95 arrows are to bring 285 tokens, and bring 29. -/
theorem onPlayerSellItem_underpays : ¬∀ (env : NpcEnv (UInt16 → Nat)) (s : SaleState (UInt16 → Nat)) (p : PlayerRef)
    (e : Sale), TileTakes env.toPlayerAddEnv (fun tile => tile) → CoinsStack env.items → Trading env s p →
    Sells env (fun tile => tile) p s (onPlayerSellItem env s p e.itemId e.amount e.ignore 0 e.parent).1 e := by
  intro h
  have hs := h (arrowShop 22516) arrowSeller 0 ⟨3447, 95, false, none⟩ (arrowShop_takes 22516) (arrowShop_coins 22516)
    (arrowSeller_trading 22516)
  have hpayment := hs.payment
  revert hpayment
  decide

end Npc
end CrystalServer
