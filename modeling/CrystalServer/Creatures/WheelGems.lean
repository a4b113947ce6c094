import Mathlib.Data.Char
import Mathlib.Data.List.AList
import Mathlib.Data.List.Lex
import Mathlib.Data.List.Sort

/-! # Wheel gems

The revealed and the active gems of `PlayerWheel`, and how they are saved in the key-value store
(`creatures/players/wheel/player_wheel.cpp`). Prices, fragments and what is sent to the client are left out. -/

namespace CrystalServer.WheelGems

/-- What `KV::generateUUID` makes: a text with a dash in it. -/
structure Uuid where
  text : List Char
  dash : '-' ∈ text
  deriving DecidableEq

inductive WheelGemAffinity where
  | Green
  | Red
  | Blue
  | Purple
  deriving DecidableEq

namespace WheelGemAffinity

def toInt : WheelGemAffinity → Int
  | Green => 0
  | Red => 1
  | Blue => 2
  | Purple => 3

/-- The cast from a number, of those that the affinities have. -/
def ofInt (n : Int) : WheelGemAffinity := if n = 1 then Red else if n = 2 then Blue else if n = 3 then Purple else Green

/-- `convertWheelGemAffinityToDomain`. -/
def toDomain : WheelGemAffinity → WheelGemAffinity
  | Green => Red
  | Red => Purple
  | Blue => Green
  | Purple => Blue

end WheelGemAffinity

/-- `PlayerWheelGem`, where it holds a gem. -/
structure PlayerWheelGem where
  uuid : Uuid
  locked : Bool
  affinity : WheelGemAffinity
  quality : UInt8
  basicModifier1 : UInt8
  basicModifier2 : UInt8
  supremeModifier : UInt8
  deriving DecidableEq

/-- The map that `PlayerWheelGem::serialize` makes. -/
structure GemMap where
  locked : Bool
  affinity : Int
  quality : Int
  basicModifier1 : Int
  basicModifier2 : Int
  supremeModifier : Int

def PlayerWheelGem.serialize (gem : PlayerWheelGem) : GemMap :=
  ⟨gem.locked, gem.affinity.toInt, gem.quality.toNat, gem.basicModifier1.toNat, gem.basicModifier2.toNat,
    gem.supremeModifier.toNat⟩

def PlayerWheelGem.deserialize (uuid : Uuid) (map : GemMap) : PlayerWheelGem :=
  ⟨uuid, map.locked, .ofInt map.affinity, UInt8.ofNat map.quality.toNat, UInt8.ofNat map.basicModifier1.toNat,
    UInt8.ofNat map.basicModifier2.toNat, UInt8.ofNat map.supremeModifier.toNat⟩

/-- The store under `gems`: the scopes `revealed` and `active`. -/
structure Store where
  revealed : AList fun _ : Uuid => GemMap
  active : WheelGemAffinity → Option Uuid

/-- A wheel, whose empty active gems are none, and the store. -/
structure State where
  m_activeGems : WheelGemAffinity → Option PlayerWheelGem
  m_revealedGems : List PlayerWheelGem
  m_destroyedGems : List PlayerWheelGem
  kv : Store

/-- A player who never revealed a gem. -/
def State.start : State := ⟨fun _ => none, [], [], ⟨∅, fun _ => none⟩⟩

/-! ### The order of the gems -/

/-- `std::stoull` of digits. -/
def stoull (s : List Char) : Nat := s.foldl (fun n c => 10 * n + (c.toNat - '0'.toNat)) 0

/-- The comparison by which the gems and the keys are sorted. -/
def less (a b : Uuid) : Bool :=
  if a.text.all Char.isDigit && b.text.all Char.isDigit then stoull a.text < stoull b.text else a.text < b.text

/-- `std::ranges::sort` by the comparison. -/
def sortBy {α : Type} (uuid : α → Uuid) (l : List α) : List α :=
  l.insertionSort fun a b => less (uuid b) (uuid a) = false

/-! ### Changes -/

variable (s : State)

/-- `PlayerWheel::revealGem`, with the gem that was made; the price and the unrevealed gem may be missing. -/
def revealGem (gem : PlayerWheelGem) (paid : Bool) : State :=
  if !paid then s
  else { s with m_revealedGems := sortBy PlayerWheelGem.uuid (s.m_revealedGems ++ [{ gem with locked := false }]) }

def getGem (index : Nat) : Option PlayerWheelGem := s.m_revealedGems[index]?

/-- `PlayerWheel::destroyGem`; the player may have no room for the fragments. -/
def destroyGem (index : Nat) (received : Bool) : State :=
  match getGem s index with
  | none => s
  | some gem =>
    if gem.locked then s
    else if !received then s
    else
      { s with m_destroyedGems := s.m_destroyedGems ++ [gem]
               m_revealedGems := s.m_revealedGems.eraseIdx index }

def switchGemDomain (index : Nat) (paid : Bool) : State :=
  match getGem s index with
  | none => s
  | some gem =>
    if gem.locked then s
    else if !paid then s
    else { s with m_revealedGems := s.m_revealedGems.set index { gem with affinity := gem.affinity.toDomain } }

def toggleGemLock (index : Nat) : State :=
  match getGem s index with
  | none => s
  | some gem => { s with m_revealedGems := s.m_revealedGems.set index { gem with locked := !gem.locked } }

def setActiveGem (affinity : WheelGemAffinity) (index : Nat) : State :=
  match getGem s index with
  | none => s
  | some gem =>
    if gem.affinity ≠ affinity then s
    else { s with m_activeGems := Function.update s.m_activeGems affinity (some gem) }

def removeActiveGem (affinity : WheelGemAffinity) : State :=
  { s with m_activeGems := Function.update s.m_activeGems affinity none }

/-! ### Save and load -/

def saveRevealedGems : State :=
  let revealed := s.m_destroyedGems.foldl (fun kv gem => kv.erase gem.uuid) s.kv.revealed
  let revealed := s.m_revealedGems.foldl (fun kv gem => kv.insert gem.uuid gem.serialize) revealed
  { s with kv := { s.kv with revealed := revealed } }

def saveActiveGems : State := { s with kv := { s.kv with active := fun affinity => (s.m_activeGems affinity).map (·.uuid) } }

/-- The save of a player, of which the gems come first. -/
def save : State := saveActiveGems (saveRevealedGems s)

def loadRevealedGems : State :=
  let sorted := sortBy id s.kv.revealed.keys
  { s with m_revealedGems := s.m_revealedGems ++
      sorted.filterMap fun uuid => (s.kv.revealed.lookup uuid).map (PlayerWheelGem.deserialize uuid) }

def loadActiveGems : State :=
  { s with m_activeGems := fun affinity =>
      match s.kv.active affinity with
      | none => s.m_activeGems affinity
      | some uuid =>
        match s.m_revealedGems.find? fun gem => gem.uuid = uuid with
        | none => s.m_activeGems affinity
        | some gem => some gem }

/-- A wheel that was just made, on the store of this one. -/
def fresh : State := { State.start with kv := s.kv }

/-- The player is saved, and loaded when he comes back. -/
def relog : State := loadActiveGems (loadRevealedGems (fresh (save s)))

inductive Op where
  | revealGem (gem : PlayerWheelGem) (paid : Bool)
  | destroyGem (index : Nat) (received : Bool)
  | switchGemDomain (index : Nat) (paid : Bool)
  | toggleGemLock (index : Nat)
  | setActiveGem (affinity : WheelGemAffinity) (index : Nat)
  | removeActiveGem (affinity : WheelGemAffinity)
  | save
  | relog

def step : Op → State
  | .revealGem gem paid => revealGem s gem paid
  | .destroyGem index received => destroyGem s index received
  | .switchGemDomain index paid => switchGemDomain s index paid
  | .toggleGemLock index => toggleGemLock s index
  | .setActiveGem affinity index => setActiveGem s affinity index
  | .removeActiveGem affinity => removeActiveGem s affinity
  | .save => save s
  | .relog => relog s

end CrystalServer.WheelGems
