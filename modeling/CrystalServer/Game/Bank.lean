import CrystalServer.Game.Money
import CrystalServer.Utils.Tools

/-! # The bank

`Bank` (`game/bank/bank.cpp`) moves money between the balances of players and guilds, and takes coins in. -/

namespace CrystalServer

abbrev GuildRef := Nat

/-- `Bankable`: a player or a guild. -/
inductive Bankable
  | player (p : PlayerRef)
  | guild (g : GuildRef)
  deriving DecidableEq

/-- `Bank` with its `m_bankable`. -/
structure Bank where
  m_bankable : Option Bankable

structure BankState extends MoneyState where
  guildBalance : GuildRef → UInt64

/-- What a transfer reads of the players: `getName`, `getTown()->getID()` and the configured town. -/
structure BankEnv extends MoneyEnv where
  getName : PlayerRef → String
  getTownID : PlayerRef → UInt32
  MIN_TOWN_ID_TO_BANK_TRANSFER_FROM_MAIN : Int32

namespace Bankable

/-- `Bankable::getPlayer`. -/
def getPlayer : Bankable → Option PlayerRef
  | player p => some p
  | guild _ => none

/-- `Bankable::getBankBalance`. -/
def getBankBalance (s : BankState) : Bankable → UInt64
  | player p => s.bankBalance p
  | guild g => s.guildBalance g

/-- `Bankable::setBankBalance`. -/
def setBankBalance (s : BankState) (amount : UInt64) : Bankable → BankState
  | player p => { s with bankBalance := Function.update s.bankBalance p amount }
  | guild g => { s with guildBalance := Function.update s.guildBalance g amount }

end Bankable

namespace Bank
variable (bank : Bank) (s : BankState)

/-- `Bank::balance`. -/
def balance : UInt64 :=
  match bank.m_bankable with
  | none => 0
  | some bankable => bankable.getBankBalance s

/-- `Bank::balance` with an amount. -/
def setBalance (amount : UInt64) : BankState × Bool :=
  match bank.m_bankable with
  | none => (s, false)
  | some bankable => (bankable.setBankBalance s amount, true)

/-- `Bank::hasBalance`. -/
def hasBalance (amount : UInt64) : Bool := bank.balance s ≥ amount

/-- `Bank::credit`. -/
def credit (amount : UInt64) : BankState × Bool := bank.setBalance s (bank.balance s + amount)

/-- `Bank::debit`. -/
def debit (amount : UInt64) : BankState × Bool :=
  if !bank.hasBalance s amount then (s, false) else bank.setBalance s (bank.balance s - amount)

def deniedNames : List String :=
  ["accountmanager", "rooksample", "druidsample", "sorcerersample", "knightsample", "paladinsample", "monksample"]

variable (env : BankEnv)

/-- The checks of a transfer between two players: the name of the one who gets the money, and the towns on both
    sides of the configured one. -/
def refuses (bankable destinationBankable : Bankable) : Bool :=
  match destinationBankable.getPlayer, bankable.getPlayer with
  | some destinationPlayer, some bankablePlayer =>
    let name := (replaceString (env.getName destinationPlayer).toLower " " "").getD ""
    let destinationTownId := env.getTownID destinationPlayer
    let bankableTownId := env.getTownID bankablePlayer
    let minTownIdToTransferFromMain := env.MIN_TOWN_ID_TO_BANK_TRANSFER_FROM_MAIN.toUInt32
    if deniedNames.contains name then true
    else if destinationTownId < minTownIdToTransferFromMain ∧ bankableTownId ≥ minTownIdToTransferFromMain then true
    else if bankableTownId < minTownIdToTransferFromMain ∧ destinationTownId ≥ minTownIdToTransferFromMain then true
    else false
  | _, _ => false

/-- `Bank::transferTo`. -/
def transferTo (destination : Option Bank) (amount : UInt64) : BankState × Bool :=
  match destination with
  | none => (s, false)
  | some destination =>
    match bank.m_bankable with
    | none => (s, false)
    | some bankable =>
      match destination.m_bankable with
      | none => (s, false)
      | some destinationBankable =>
        if refuses env bankable destinationBankable then (s, false)
        else
          match bank.debit s amount with
          | (s, false) => (s, false)
          | (s, true) => destination.credit s amount

/-- `Bank::deposit` of an amount. A guild has no player that could pay. -/
def deposit (destination : Option Bank) (amount : UInt64) : BankState × Bool :=
  match destination with
  | none => (s, false)
  | some destination =>
    match bank.m_bankable with
    | none => (s, false)
    | some bankable =>
      match bankable.getPlayer with
      | none => (s, false)
      | some player =>
        match Game.removeMoney env.toMoneyEnv s.toMoneyState (.player player) amount 0 false with
        | (_, false) => (s, false)
        | (paid, true) => destination.credit { s with toMoneyState := paid } amount

/-- `Bank::withdraw`. -/
def withdraw (player : Option PlayerRef) (amount : UInt64) : BankState × Bool :=
  match player with
  | none => (s, false)
  | some player =>
    match bank.debit s amount with
    | (s, false) => (s, false)
    | (s, true) =>
      ({ s with toMoneyState := Game.addMoney env.toMoneyEnv (.player player) amount 0 s.toMoneyState }, true)

end Bank
end CrystalServer
