import Mathlib.Data.List.Basic

/-! # The tree of the names online (`utils/wildcardtree.cpp`)

A name is a path from the root; its last node is a breakpoint. The children of a node are a map by character, which is
asked for one character, for its size, and for its first entry where that is the only one: the order of the entries is
not seen. -/

namespace CrystalServer

structure WildcardTreeNode where
  children : List (UInt8 × WildcardTreeNode)
  breakpoint : Bool

namespace WildcardTreeNode

/-- The values of `ReturnValue` that `findOne` gives. -/
inductive FindValue where
  | NOERROR | PLAYERWITHTHISNAMEISNOTONLINE | NAMEISTOOAMBIGUOUS
  deriving DecidableEq

def getChild (node : WildcardTreeNode) (ch : UInt8) : Option WildcardTreeNode := node.children.lookup ch

/-- The entry of `ch` holds `child`: in its place, or as a new one. -/
def setChild (node : WildcardTreeNode) (ch : UInt8) (child : WildcardTreeNode) : WildcardTreeNode :=
  match node.getChild ch with
  | some _ => { node with children := node.children.map fun entry => if entry.1 = ch then (ch, child) else entry }
  | none => { node with children := node.children ++ [(ch, child)] }

def eraseChild (node : WildcardTreeNode) (ch : UInt8) : WildcardTreeNode :=
  { node with children := node.children.filter fun entry => entry.1 ≠ ch }

/-- The child that `addChild` gives back, made when it is missing. -/
def addedChild (node : WildcardTreeNode) (ch : UInt8) (breakp : Bool) : WildcardTreeNode :=
  match node.getChild ch with
  | some child => if breakp && !child.breakpoint then { child with breakpoint := true } else child
  | none => { children := [], breakpoint := breakp }

def addChild (node : WildcardTreeNode) (ch : UInt8) (breakp : Bool) : WildcardTreeNode :=
  node.setChild ch (node.addedChild ch breakp)

/-- The walk down goes on in the child of `addChild`, whose place in the tree it keeps. A name has a character. -/
def insert (node : WildcardTreeNode) : List UInt8 → WildcardTreeNode
  | [] => node
  | [ch] => node.addChild ch true
  | ch :: ch' :: str => node.setChild ch ((node.addedChild ch false).insert (ch' :: str))

/-- `remove` below a node; `none` where the walk down finds no child and returns. On the way back up the loop stops at the
    first node that has children or is a breakpoint: the nodes above it then have that child, and change no more. -/
def removeBelow (node : WildcardTreeNode) : List UInt8 → Option WildcardTreeNode
  | [] => some { node with breakpoint := false }
  | ch :: str => do
    let child ← node.getChild ch
    let cur ← child.removeBelow str
    if !cur.children.isEmpty || cur.breakpoint then some (node.setChild ch cur) else some (node.eraseChild ch)

def remove (node : WildcardTreeNode) (str : List UInt8) : WildcardTreeNode := (node.removeBelow str).getD node

/-- The loop of `findOne` behind the query, down the only children. -/
def findLast (result : List UInt8) : WildcardTreeNode → FindValue × List UInt8
  | ⟨[], _⟩ => (.NOERROR, result)
  | ⟨[(ch, child)], breakpoint⟩ =>
    if breakpoint then (.NAMEISTOOAMBIGUOUS, result) else findLast (result ++ [ch]) child
  | ⟨_ :: _ :: _, _⟩ => (.NAMEISTOOAMBIGUOUS, result)

/-- The node that a walk by characters ends at. -/
def descend (node : WildcardTreeNode) : List UInt8 → Option WildcardTreeNode
  | [] => some node
  | ch :: query => do (← node.getChild ch).descend query

/-- `findOne`; `result` is what the caller's string holds. -/
def findOne (node : WildcardTreeNode) (query result : List UInt8) : FindValue × List UInt8 :=
  match node.descend query with
  | none => (.PLAYERWITHTHISNAMEISNOTONLINE, result)
  | some cur => findLast query cur

/-- `Game::init` makes the root. -/
def root : WildcardTreeNode := { children := [], breakpoint := false }

/-- `Game::addPlayer` and `Game::removePlayer`. -/
inductive Op where
  | insert (str : List UInt8)
  | remove (str : List UInt8)

def Op.name : Op → List UInt8
  | insert str => str
  | remove str => str

def step (node : WildcardTreeNode) : Op → WildcardTreeNode
  | .insert str => node.insert str
  | .remove str => node.remove str

end WildcardTreeNode
end CrystalServer
