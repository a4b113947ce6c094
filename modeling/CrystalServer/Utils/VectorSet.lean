import Mathlib.Data.List.Sort

/-! # `stdext::vector_set` and `stdext::vector_sort` (`utils/vectorset.hpp`, `utils/vectorsort.hpp`)

A vector that is sorted, and in a set rid of what stands there twice, when a call next needs it so. -/

namespace CrystalServer
variable {α : Type} [LinearOrder α]

/-- `std::ranges::lower_bound`, in a range whose elements below `v` come first. -/
def lowerBound (range : List α) (v : α) : Nat := (range.takeWhile (· < v)).length

def binarySearch (range : List α) (v : α) : Bool :=
  match range[lowerBound range v]? with
  | some a => !decide (v < a)
  | none => false

/-- `std::ranges::unique`: of neighbours that are equal the first stays. -/
def unique : List α → List α
  | [] => []
  | [a] => [a]
  | a :: b :: range => if a = b then unique (b :: range) else a :: unique (b :: range)

structure VectorSet (α : Type) where
  container : List α
  needUpdate : Bool

namespace VectorSet

def empty : VectorSet α := ⟨[], false⟩

def update (a : VectorSet α) : VectorSet α :=
  if !a.needUpdate then a else ⟨unique (a.container.insertionSort (· ≤ ·)), false⟩

def contains (a : VectorSet α) (v : α) : VectorSet α × Bool :=
  let a := a.update
  (a, binarySearch a.container v)

/-- `erase` of a value. -/
def erase (a : VectorSet α) (v : α) : VectorSet α × Bool :=
  let a := a.update
  let it := lowerBound a.container v
  if it = a.container.length then (a, false) else ({ a with container := a.container.eraseIdx it }, true)

def eraseIf (a : VectorSet α) (fnc : α → Bool) : VectorSet α × Bool :=
  let a := a.update
  ({ a with container := a.container.filter fun v => !fnc v }, a.container.any fnc)

/-- `insert` of a value, and `emplace`. -/
def insert (a : VectorSet α) (v : α) : VectorSet α := ⟨a.container ++ [v], true⟩

def insertAll (a : VectorSet α) (list : List α) : VectorSet α := ⟨a.container ++ list, true⟩

/-- `insert` at a position, of one value or of a range. -/
def insertAt (a : VectorSet α) (position : Nat) (list : List α) : VectorSet α :=
  ⟨a.container.take position ++ list ++ a.container.drop position, true⟩

def isEmpty (a : VectorSet α) : Bool := a.container.isEmpty

def size (a : VectorSet α) : VectorSet α × Nat :=
  let a := a.update
  (a, a.container.length)

/-- What `begin` to `end` goes over, and `data`. -/
def data (a : VectorSet α) : VectorSet α × List α :=
  let a := a.update
  (a, a.container)

/-- `operator[]`, read. -/
def get (a : VectorSet α) (i : Nat) : VectorSet α × Option α :=
  let a := a.update
  (a, a.container[i]?)

def clear (a : VectorSet α) : VectorSet α := { a with container := [] }

/-- A call. -/
inductive Op (α : Type) where
  | insert (v : α) | insertAll (list : List α) | insertAt (position : Nat) (list : List α)
  | erase (v : α) | eraseIf (fnc : α → Bool) | contains (v : α) | size | isEmpty | data | get (i : Nat) | clear

/-- What a call gives back. -/
inductive Answer (α : Type) where
  | unit | bool (b : Bool) | size (n : Nat) | list (l : List α) | elem (v : Option α)
  deriving DecidableEq

/-- One call. -/
def call (a : VectorSet α) : Op α → VectorSet α × Answer α
  | .insert v => (a.insert v, .unit)
  | .insertAll list => (a.insertAll list, .unit)
  | .insertAt position list => (a.insertAt position list, .unit)
  | .erase v => (a.erase v).map id .bool
  | .eraseIf fnc => (a.eraseIf fnc).map id .bool
  | .contains v => (a.contains v).map id .bool
  | .size => a.size.map id .size
  | .isEmpty => (a, .bool a.isEmpty)
  | .data => a.data.map id .list
  | .get i => (a.get i).map id .elem
  | .clear => (a.clear, .unit)

end VectorSet

/-- `partialBegin` and `partialEnd` elements at the two ends are left out of the sort. -/
structure VectorSort (α : Type) where
  container : List α
  needUpdate : Bool
  partialBegin : Nat
  partialEnd : Nat

namespace VectorSort

def update (a : VectorSort α) : VectorSort α :=
  if !a.needUpdate then a
  else
    let last := a.container.length - a.partialEnd
    { a with
      needUpdate := false
      container := a.container.take a.partialBegin ++
        ((a.container.take last).drop a.partialBegin).insertionSort (· ≤ ·) ++ a.container.drop (max a.partialBegin last) }

/-- `erase` of a value. -/
def erase (a : VectorSort α) (v : α) : VectorSort α × Bool :=
  let a := a.update
  let it := lowerBound a.container v
  if it = a.container.length then (a, false) else ({ a with container := a.container.eraseIdx it }, true)

end VectorSort
end CrystalServer
