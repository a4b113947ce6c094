import Mathlib.Data.List.Basic

/-! # `stdext::arraylist` (`utils/arraylist.hpp`)

What is pushed to the front is parked in a vector of its own, the latest last, until a call needs the elements in order. -/

namespace CrystalServer

structure ArrayList (α : Type) where
  backContainer : List α
  frontContainer : List α
  needUpdate : Bool

namespace ArrayList
variable {α : Type}

/-- `arraylist()`, and the constructor that reserves. -/
def empty : ArrayList α := ⟨[], [], false⟩

/-- The constructor from a list. -/
def ofList (list : List α) : ArrayList α := ⟨list, [], false⟩

def update (a : ArrayList α) : ArrayList α :=
  if !a.needUpdate then a else ⟨a.frontContainer.reverse ++ a.backContainer, [], false⟩

/-- `assign`, and the assignment from a list. -/
def assign (a : ArrayList α) (list : List α) : ArrayList α := { a with backContainer := list }

def contains [BEq α] (a : ArrayList α) (v : α) : ArrayList α × Bool :=
  let a := a.update
  (a, a.backContainer.any (· == v))

/-- `erase` of a value: the first element equal to it goes. -/
def erase [BEq α] (a : ArrayList α) (v : α) : ArrayList α × Bool :=
  let a := a.update
  if !a.backContainer.any (· == v) then (a, false)
  else ({ a with backContainer := a.backContainer.eraseP (· == v) }, true)

def size (a : ArrayList α) : Nat := a.backContainer.length + a.frontContainer.length

/-- `erase` of a range. -/
def eraseRange (a : ArrayList α) (first last : Nat) : ArrayList α × Bool :=
  let a := a.update
  if first > a.size ∨ last > a.size then (a, false)
  else ({ a with backContainer := a.backContainer.take first ++ a.backContainer.drop last }, true)

def eraseIf (a : ArrayList α) (fnc : α → Bool) : ArrayList α × Bool :=
  let a := a.update
  ({ a with backContainer := a.backContainer.filter fun v => !fnc v }, a.backContainer.any fnc)

def front (a : ArrayList α) : ArrayList α × Option α :=
  let a := a.update
  (a, a.backContainer.head?)

def popBack (a : ArrayList α) : ArrayList α :=
  let a := a.update
  { a with backContainer := a.backContainer.dropLast }

def back (a : ArrayList α) : ArrayList α × Option α :=
  let a := a.update
  (a, a.backContainer.getLast?)

def pushFront (a : ArrayList α) (v : α) : ArrayList α :=
  { a with needUpdate := true, frontContainer := a.frontContainer ++ [v] }

def pushBack (a : ArrayList α) (v : α) : ArrayList α := { a with backContainer := a.backContainer ++ [v] }

def isEmpty (a : ArrayList α) : Bool := a.backContainer.isEmpty && a.frontContainer.isEmpty

def clear (a : ArrayList α) : ArrayList α := { a with frontContainer := [], backContainer := [] }

/-- What `begin` to `end` goes over, and `data`. -/
def data (a : ArrayList α) : ArrayList α × List α :=
  let a := a.update
  (a, a.backContainer)

/-- `operator[]`, read. -/
def get (a : ArrayList α) (i : Nat) : ArrayList α × Option α :=
  let a := a.update
  (a, a.backContainer[i]?)

/-- `operator[]`, written to. -/
def set (a : ArrayList α) (i : Nat) (v : α) : ArrayList α :=
  let a := a.update
  { a with backContainer := a.backContainer.set i v }

/-- A call. -/
inductive Op (α : Type) where
  | pushFront (v : α) | pushBack (v : α) | popBack | assign (list : List α) | clear
  | erase (v : α) | eraseRange (first last : Nat) | eraseIf (fnc : α → Bool)
  | contains (v : α) | front | back | get (i : Nat) | set (i : Nat) (v : α) | data | size | isEmpty

/-- What a call gives back. -/
inductive Answer (α : Type) where
  | unit | bool (b : Bool) | elem (v : Option α) | size (n : Nat) | list (l : List α)

/-- One call. -/
def call [BEq α] (a : ArrayList α) : Op α → ArrayList α × Answer α
  | .pushFront v => (a.pushFront v, .unit)
  | .pushBack v => (a.pushBack v, .unit)
  | .popBack => (a.popBack, .unit)
  | .assign list => (a.assign list, .unit)
  | .clear => (a.clear, .unit)
  | .erase v => (a.erase v).map id .bool
  | .eraseRange first last => (a.eraseRange first last).map id .bool
  | .eraseIf fnc => (a.eraseIf fnc).map id .bool
  | .contains v => (a.contains v).map id .bool
  | .front => a.front.map id .elem
  | .back => a.back.map id .elem
  | .get i => (a.get i).map id .elem
  | .set i v => (a.set i v, .unit)
  | .data => a.data.map id .list
  | .size => (a, .size a.size)
  | .isEmpty => (a, .bool a.isEmpty)

end ArrayList
end CrystalServer
