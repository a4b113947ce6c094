import CrystalServer.Game.Bank
import CrystalServer.Theorems.Game.Money

/-! # Money in the bank

Each operation of the bank takes its amount from one balance or from the coins of a player and gives it to one
balance, or changes nothing. What is taken is checked, what is given is not. -/

namespace CrystalServer
namespace Bank
open Bankable

/-- The operations on the banks of bankables. -/
inductive Op
  | credit (bankable : Bankable) (amount : UInt64)
  | debit (bankable : Bankable) (amount : UInt64)
  | transferTo (bankable destination : Bankable) (amount : UInt64)
  | deposit (bankable destination : Bankable) (amount : UInt64)

namespace Op

def execute (env : BankEnv) (s : BankState) : Op → BankState × Bool
  | credit b amount => Bank.credit ⟨some b⟩ s amount
  | debit b amount => Bank.debit ⟨some b⟩ s amount
  | transferTo b destination amount => Bank.transferTo ⟨some b⟩ s env (some ⟨some destination⟩) amount
  | deposit b destination amount => Bank.deposit ⟨some b⟩ s env (some ⟨some destination⟩) amount

/-- What the operation is to take from a balance. -/
def taken : Op → Bankable → Nat
  | debit b amount, c | transferTo b _ amount, c => if c = b then amount.toNat else 0
  | credit .., _ | deposit .., _ => 0

/-- What the operation is to give to a balance. -/
def given : Op → Bankable → Nat
  | credit b amount, c | transferTo _ b amount, c | deposit _ b amount, c => if c = b then amount.toNat else 0
  | debit .., _ => 0

end Op

/-- The coins of the player can be paid with: each can be taken away, and the change can be put somewhere. -/
structure Payable (env : BankEnv) (s : BankState) (p : PlayerRef) (amount : UInt64) : Prop where
  stack : CoinsStack env.items
  purse : Purse env.items s.toMoneyState
  removable : ∀ r, Lib.Below s.world.holder (.container r) (.player p) → (s.world.item r).isCoin →
    Removable env.toMoneyEnv r
  change : ∀ s' m, Game.change env.toMoneyEnv
    (env.sort (Game.lowerCoin s.world) (Game.gather s.world (.player p)).moneyItems) s.toMoneyState amount =
      some (s', m) → Game.PlacesChange env.toMoneyEnv (.player p) 0 s' m

/-- The coins in the hands of the players, in containers and on the tile after the operation. -/
def CoinsExact (env : BankEnv) (s s' : BankState) : Op → Prop
  | .deposit (.player p) _ amount => Payable env s p amount →
    s'.worth env.items (.player p) + amount.toNat = s.worth env.items (.player p)
  | _ => s'.world = s.world ∧ s'.tile = s.tile

/-- The operation moves exactly its amount if it answers `true`, and changes nothing if it answers `false`. -/
structure Conserves (env : BankEnv) (s : BankState) (op : Op) : Prop where
  balances : (op.execute env s).2 = true → ∀ b : Bankable,
    (b.getBankBalance (op.execute env s).1).toNat + op.taken b = (b.getBankBalance s).toNat + op.given b
  coins : (op.execute env s).2 = true → CoinsExact env s (op.execute env s).1 op
  refused : (op.execute env s).2 = false → (op.execute env s).1 = s

/-- The balance that is to get the amount, if it comes to that, has room for it. A transfer to oneself makes room. -/
def Fits (env : BankEnv) (s : BankState) : Op → Prop
  | .credit b amount => (b.getBankBalance s).toNat + amount.toNat < 2 ^ 64
  | .debit .. => True
  | .transferTo b destination amount => refuses env b destination = false → amount ≤ b.getBankBalance s →
    b ≠ destination → (destination.getBankBalance s).toNat + amount.toNat < 2 ^ 64
  | .deposit b destination amount => ∀ p, b.getPlayer = some p →
    amount ≤ (Game.gather s.world (.player p)).moneyCount →
      (destination.getBankBalance s).toNat + amount.toNat < 2 ^ 64

/-! ### Balances -/

variable {env : BankEnv}

theorem getBankBalance_setBankBalance (s : BankState) (amount : UInt64) (b c : Bankable) :
    c.getBankBalance (b.setBankBalance s amount) = if c = b then amount else c.getBankBalance s := by
  cases b <;> cases c <;> simp [getBankBalance, setBankBalance, Function.update_apply]

@[simp] theorem world_setBankBalance (s : BankState) (amount : UInt64) (b : Bankable) :
    (b.setBankBalance s amount).world = s.world := by
  cases b <;> rfl

@[simp] theorem tile_setBankBalance (s : BankState) (amount : UInt64) (b : Bankable) :
    (b.setBankBalance s amount).tile = s.tile := by
  cases b <;> rfl

theorem credit_eq (s : BankState) (b : Bankable) (amount : UInt64) :
    Bank.credit ⟨some b⟩ s amount = (b.setBankBalance s (b.getBankBalance s + amount), true) := rfl

theorem debit_eq (s : BankState) (b : Bankable) (amount : UInt64) :
    Bank.debit ⟨some b⟩ s amount =
      if amount ≤ b.getBankBalance s then (b.setBankBalance s (b.getBankBalance s - amount), true)
      else (s, false) := by
  unfold Bank.debit hasBalance
  simp only [Bool.not_eq_true', decide_eq_false_iff_not, ge_iff_le, ite_not]
  rfl

/-- A credit gives exactly its amount, to one balance, where this has room for it. -/
theorem credit_exact_iff (s : BankState) (b : Bankable) (amount : UInt64) :
    (∀ c : Bankable, (c.getBankBalance (b.setBankBalance s (b.getBankBalance s + amount))).toNat =
      (c.getBankBalance s).toNat + if c = b then amount.toNat else 0) ↔
    (b.getBankBalance s).toNat + amount.toNat < 2 ^ 64 := by
  have hadd := UInt64.toNat_add (b.getBankBalance s) amount
  constructor
  · intro h
    have hb := h b
    rw [getBankBalance_setBankBalance, if_pos rfl, if_pos rfl, hadd] at hb
    omega
  · intro h c
    rw [getBankBalance_setBankBalance]
    by_cases hc : c = b
    · subst hc
      rw [if_pos rfl, if_pos rfl, hadd, Nat.mod_eq_of_lt h]
    · rw [if_neg hc, if_neg hc, Nat.add_zero]

/-! ### Operations -/

theorem credit_conserves_iff (s : BankState) (b : Bankable) (amount : UInt64) :
    Conserves env s (.credit b amount) ↔ Fits env s (.credit b amount) := by
  rw [Fits, ← credit_exact_iff]
  constructor
  · exact fun h => h.balances rfl
  · exact fun h => ⟨fun _ => h, fun _ => ⟨world_setBankBalance .., tile_setBankBalance ..⟩, nofun⟩

theorem debit_conserves (env : BankEnv) (s : BankState) (b : Bankable) (amount : UInt64) :
    Conserves env s (.debit b amount) := by
  have heq : Op.execute env s (.debit b amount) = _ := debit_eq s b amount
  by_cases hle : amount ≤ b.getBankBalance s
  · rw [if_pos hle] at heq
    constructor
    · intro _ c
      rw [heq, getBankBalance_setBankBalance]
      have hsub := UInt64.toNat_sub_of_le _ _ hle
      have hle' := UInt64.le_iff_toNat_le.mp hle
      by_cases hc : c = b
      · subst hc
        simp only [Op.taken, Op.given, if_true]
        omega
      · simp only [Op.taken, Op.given, hc, if_false]
    · intro _
      rw [heq]
      exact ⟨world_setBankBalance .., tile_setBankBalance ..⟩
    · rw [heq]
      exact nofun
  · rw [if_neg hle] at heq
    constructor <;> rw [heq]
    · exact nofun
    · exact nofun
    · exact fun _ => rfl

theorem transferTo_eq (env : BankEnv) (s : BankState) (b destination : Bankable) (amount : UInt64) :
    Op.execute env s (.transferTo b destination amount) =
      if refuses env b destination = false ∧ amount ≤ b.getBankBalance s then
        Bank.credit ⟨some destination⟩ (b.setBankBalance s (b.getBankBalance s - amount)) amount
      else (s, false) := by
  change Bank.transferTo ⟨some b⟩ s env (some ⟨some destination⟩) amount = _
  unfold Bank.transferTo
  dsimp only
  rw [debit_eq]
  cases hr : refuses env b destination with
  | true => simp
  | false =>
    by_cases hle : amount ≤ b.getBankBalance s
    · simp [hle]
    · simp [hle]

theorem transferTo_conserves_iff (s : BankState) (b destination : Bankable) (amount : UInt64) :
    Conserves env s (.transferTo b destination amount) ↔ Fits env s (.transferTo b destination amount) := by
  have heq := transferTo_eq env s b destination amount
  by_cases hgo : refuses env b destination = false ∧ amount ≤ b.getBankBalance s
  · have ⟨hr, hle⟩ := hgo
    rw [if_pos hgo, credit_eq] at heq
    have hdebit := (debit_conserves env s b amount).balances
    have hdeq : Op.execute env s (.debit b amount) = _ := debit_eq s b amount
    rw [if_pos hle] at hdeq
    rw [hdeq] at hdebit
    generalize hs : b.setBankBalance s (b.getBankBalance s - amount) = s₁ at heq hdebit
    have htaken : ∀ c : Bankable, (c.getBankBalance s₁).toNat + (if c = b then amount.toNat else 0) =
      (c.getBankBalance s).toNat := hdebit rfl
    have hiff : (∀ c : Bankable, (c.getBankBalance (destination.setBankBalance s₁
        (destination.getBankBalance s₁ + amount))).toNat + Op.taken (.transferTo b destination amount) c =
        (c.getBankBalance s).toNat + Op.given (.transferTo b destination amount) c) ↔
        (destination.getBankBalance s₁).toNat + amount.toNat < 2 ^ 64 := by
      rw [← credit_exact_iff]
      refine forall_congr' fun c => ?_
      have hc := htaken c
      simp only [Op.taken, Op.given]
      omega
    have hfits : (destination.getBankBalance s₁).toNat + amount.toNat < 2 ^ 64 ↔
        Fits env s (.transferTo b destination amount) := by
      have hd := htaken destination
      by_cases hself : b = destination
      · subst hself
        rw [if_pos rfl] at hd
        rw [hd]
        exact iff_of_true (UInt64.toNat_lt _) fun _ _ hne => absurd rfl hne
      · rw [if_neg fun h => hself h.symm, Nat.add_zero] at hd
        rw [hd]
        exact ⟨fun h _ _ _ => h, fun h => h hr hle hself⟩
    rw [← hfits, ← hiff]
    constructor
    · intro h c
      have hc := h.balances (by rw [heq]) c
      rwa [heq] at hc
    · intro h
      constructor <;> rw [heq]
      · exact fun _ => h
      · subst hs
        exact fun _ => ⟨by simp, by simp⟩
      · exact nofun
  · rw [if_neg hgo] at heq
    refine iff_of_true ?_ fun hr hle => absurd ⟨hr, hle⟩ hgo
    constructor <;> rw [heq]
    · exact nofun
    · exact nofun
    · exact fun _ => rfl

theorem deposit_eq (env : BankEnv) (s : BankState) (p : PlayerRef) (destination : Bankable) (amount : UInt64) :
    Op.execute env s (.deposit (.player p) destination amount) =
      if (Game.removeMoney env.toMoneyEnv s.toMoneyState (.player p) amount 0 false).2 then
        Bank.credit ⟨some destination⟩ { s with toMoneyState :=
          (Game.removeMoney env.toMoneyEnv s.toMoneyState (.player p) amount 0 false).1 } amount
      else (s, false) := by
  change Bank.deposit ⟨some (.player p)⟩ s env (some ⟨some destination⟩) amount = _
  unfold Bank.deposit
  dsimp only [getPlayer]
  generalize Game.removeMoney env.toMoneyEnv s.toMoneyState (.player p) amount 0 false = r
  obtain ⟨paid, ok⟩ := r
  cases ok <;> rfl

theorem deposit_conserves_iff (s : BankState) (b destination : Bankable) (amount : UInt64) :
    Conserves env s (.deposit b destination amount) ↔ Fits env s (.deposit b destination amount) := by
  cases b with
  | guild g => exact iff_of_true ⟨(by rintro ⟨⟩), (by rintro ⟨⟩), fun _ => rfl⟩ (by rintro _ ⟨⟩)
  | player p =>
    have heq := deposit_eq env s p destination amount
    obtain ⟨hgo, hbank⟩ := Game.removeMoney_coins env.toMoneyEnv s.toMoneyState (.player p) amount 0
    have hpays := fun h : Payable env s p amount =>
      Game.removeMoney_pays h.stack h.purse amount 0 false h.removable h.change
    generalize Game.removeMoney env.toMoneyEnv s.toMoneyState (.player p) amount 0 false = r at heq hgo hbank hpays
    obtain ⟨paid, ok⟩ := r
    dsimp only at heq hgo hbank hpays
    cases ok with
    | false =>
      have hlack : ¬amount ≤ (Game.gather s.world (.player p)).moneyCount := fun h => by cases hgo.mpr h
      refine iff_of_true ?_ fun q hq hle => ?_
      · constructor <;> rw [heq]
        · rintro ⟨⟩
        · rintro ⟨⟩
        · exact fun _ => rfl
      · cases hq
        exact absurd hle hlack
    | true =>
      rw [if_pos rfl, credit_eq] at heq
      generalize hs : ({ s with toMoneyState := paid } : BankState) = s₁ at heq
      have hsame : ∀ c : Bankable, c.getBankBalance s₁ = c.getBankBalance s := by
        subst hs
        intro c
        cases c with
        | player q => exact congrFun hbank q
        | guild g => rfl
      have hiff : (∀ c : Bankable, (c.getBankBalance (destination.setBankBalance s₁
          (destination.getBankBalance s₁ + amount))).toNat + 0 =
          (c.getBankBalance s).toNat + if c = destination then amount.toNat else 0) ↔
          Fits env s (.deposit (.player p) destination amount) := by
        have hexact := credit_exact_iff s₁ destination amount
        simp only [hsame] at hexact ⊢
        refine hexact.trans ⟨fun h _ _ _ => h, fun h => h p rfl (hgo.mp rfl)⟩
      rw [← hiff]
      constructor
      · intro h c
        have hc := h.balances (by rw [heq]) c
        rwa [heq] at hc
      · intro h
        constructor <;> rw [heq]
        · exact fun _ => h
        · intro _ hpayable
          have hpaid := (hpays hpayable rfl).1
          have hown : paid.bank (.player p) = s.bank (.player p) := congrArg UInt64.toNat (congrFun hbank p)
          have hworth : (destination.setBankBalance s₁ (destination.getBankBalance s₁ + amount)).worth env.items
              (.player p) = paid.worth env.items (.player p) := by
            unfold MoneyState.worth MoneyState.tileWorth
            rw [world_setBankBalance, tile_setBankBalance, ← hs]
          rw [hworth]
          omega
        · rintro ⟨⟩

/-- Money is conserved by an operation of the bank exactly where the balance that is to get the amount has room. -/
theorem conserves_iff (env : BankEnv) (s : BankState) (op : Op) : Conserves env s op ↔ Fits env s op := by
  cases op with
  | credit b amount => exact credit_conserves_iff s b amount
  | debit b amount => exact iff_of_true (debit_conserves env s b amount) trivial
  | transferTo b destination amount => exact transferTo_conserves_iff s b destination amount
  | deposit b destination amount => exact deposit_conserves_iff s b destination amount

/-! ### Handing out -/

/-- The state in which the coins are handed out. -/
def debited (s : BankState) (b : Bankable) (amount : UInt64) : BankState :=
  b.setBankBalance s (b.getBankBalance s - amount)

theorem withdraw_eq (s : BankState) (env : BankEnv) (b : Bankable) (player : PlayerRef) (amount : UInt64) :
    Bank.withdraw ⟨some b⟩ s env (some player) amount =
      if amount ≤ b.getBankBalance s then
        ({ debited s b amount with
            toMoneyState := Game.addMoney env.toMoneyEnv (.player player) amount 0 (debited s b amount).toMoneyState }, true)
      else (s, false) := by
  unfold Bank.withdraw
  dsimp only
  rw [debit_eq]
  split_ifs <;> rfl

theorem worth_placed {env : MoneyEnv} {cyl : Cylinder} {flags : UInt32} {m : MoneyState} {l : List (UInt16 × UInt16)}
    (h : Lib.Meets (Game.placeCoins env cyl flags)
      (fun s c => Places env.items cyl s (Game.placeCoins env cyl flags s c) c) m l) :
    (l.foldl (Game.placeCoins env cyl flags) m).worth env.items cyl = m.worth env.items cyl + Game.stacksWorth l := by
  induction l generalizing m with
  | nil => rfl
  | cons c l ih =>
    have hstacks : Game.stacksWorth (c :: l) = c.2.toNat * coinUnit c.1 + Game.stacksWorth l := List.sum_cons
    rw [List.foldl_cons, ih h.2, h.1.worth, hstacks, Nat.add_assoc]

/-- The stacks that are made come to the amount, and this is what a withdrawal that succeeds takes from the balance and
    adds to the coins of the player and the tile, if they can all be put somewhere. -/
structure Withdraws (env : BankEnv) (s : BankState) (b : Bankable) (player : PlayerRef) (amount : UInt64) : Prop where
  created : Game.stacksWorth (Game.moneyStacks amount) = amount.toNat
  balance : (Bank.withdraw ⟨some b⟩ s env (some player) amount).2 = true →
    (b.getBankBalance (Bank.withdraw ⟨some b⟩ s env (some player) amount).1).toNat +
      Game.stacksWorth (Game.moneyStacks amount) = (b.getBankBalance s).toNat
  coins : (Bank.withdraw ⟨some b⟩ s env (some player) amount).2 = true →
    Game.PlacesChange env.toMoneyEnv (.player player) 0 (debited s b amount).toMoneyState amount →
    (Bank.withdraw ⟨some b⟩ s env (some player) amount).1.worth env.items (.player player) =
      s.worth env.items (.player player) + amount.toNat

/-- The loop over the coins of one kind ends and makes stacks of up to a hundred of it. All coins of an amount come to it,
    and are what a withdrawal takes, exactly where the crystal coins of the amount can be counted with 32 bits. -/
theorem withdraw_exact_iff (env : BankEnv) (s : BankState) (b : Bankable) (player : PlayerRef) (amount : UInt64) :
    (∀ itemId (count : UInt32) n, count.toNat ≤ n → Game.coinStacks itemId n count = Game.addCoins itemId count) ∧
    (∀ coins ∈ Game.moneyStacks amount, 0 < coinUnit coins.1 ∧ 0 < coins.2.toNat ∧ coins.2.toNat ≤ 100) ∧
    ((Bank.withdraw ⟨some b⟩ s env (some player) amount).2 = false →
      (Bank.withdraw ⟨some b⟩ s env (some player) amount).1 = s) ∧
    (Withdraws env s b player amount ↔ amount.toNat < 2 ^ 32 * 10000) := by
  have heq := withdraw_eq s env b player amount
  refine ⟨fun itemId count n hn => Game.coinStacks_of_le hn, fun coins hcoins => ?_, fun hfail => ?_, fun h => ?_,
    fun hlt => ?_⟩
  · exact ⟨(Game.moneyStacks_coins amount coins hcoins).1, Game.moneyStacks_sizes amount hcoins⟩
  · rw [heq] at hfail ⊢
    split_ifs at hfail ⊢
    rfl
  · exact (Game.moneyStacks_exact_iff amount).mp h.created
  · have hcreated := (Game.moneyStacks_exact_iff amount).mpr hlt
    by_cases hle : amount ≤ b.getBankBalance s
    swap
    · rw [if_neg hle] at heq
      exact ⟨hcreated, by rw [heq]; exact nofun, by rw [heq]; exact nofun⟩
    rw [if_pos hle] at heq
    refine ⟨hcreated, fun _ => ?_, fun _ hplaces => ?_⟩
    · have hbank : b.getBankBalance (Bank.withdraw ⟨some b⟩ s env (some player) amount).1 =
          b.getBankBalance (debited s b amount) := by
        rw [heq]
        cases b with
        | guild g => rfl
        | player p => exact congrFun (Game.bank_addMoney env.toMoneyEnv (.player player) amount 0 _) p
      rw [hbank, debited, getBankBalance_setBankBalance, if_pos rfl, hcreated, UInt64.toNat_sub_of_le _ _ hle]
      have := UInt64.le_iff_toNat_le.mp hle
      omega
    · have hworth := worth_placed hplaces
      rw [hcreated] at hworth
      rw [heq]
      refine hworth.trans (congrArg (· + _) ?_)
      unfold MoneyState.worth MoneyState.tileWorth debited
      rw [world_setBankBalance, tile_setBankBalance]

/-- A player whose balance is the largest there is, and one who sends a coin. -/
def bankEnv : BankEnv where
  toMoneyEnv := Game.tileEnv
  getName p := if p = 0 then "Sender" else "Receiver"
  getTownID _ := 5
  MIN_TOWN_ID_TO_BANK_TRANSFER_FROM_MAIN := 4

def bankState : BankState where
  toMoneyState := { Game.coinState with bankBalance := fun p => if p = 0 then 10 else 18446744073709551615 }
  guildBalance _ := 0

/-- The transfer succeeds, and the balance of the one who gets the coin is gone. -/
theorem transferTo_overflows : ¬Conserves bankEnv bankState (.transferTo (.player 0) (.player 1) 1) := by
  intro h
  have h1 := h.balances (by decide +kernel) (.player 1)
  revert h1
  decide +kernel

/-- What 2^32 crystal coins are worth makes no coin at all. -/
theorem addMoney_drops : ¬∀ amount : UInt64, Game.stacksWorth (Game.moneyStacks amount) = amount.toNat := by
  intro h
  have h1 := h 42949672960000
  revert h1
  decide +kernel

end Bank
end CrystalServer
