import CrystalServer.Lib.LittleEndian

/-! # OTB files and property streams (`io/fileloader.hpp`, `io/fileloader.cpp`)

A file is the list of its bytes, an iterator into it a position. -/

namespace CrystalServer

open Lib

namespace OTB

/-! ### `Node::NodeChar` -/

def ESCAPE : UInt8 := 0xFD
def START : UInt8 := 0xFE
def END : UInt8 := 0xFF

/-- `Node`. -/
inductive Node where
  | mk (type : UInt8) (propsBegin propsEnd : Nat) (children : List Node)

namespace Node

def type : Node → UInt8
  | mk t _ _ _ => t

def propsBegin : Node → Nat
  | mk _ b _ _ => b

def propsEnd : Node → Nat
  | mk _ _ e _ => e

def children : Node → List Node
  | mk _ _ _ c => c

def setPropsEnd : Node → Nat → Node
  | mk t b _ c, e => mk t b e c

/-- `children.emplace_back()`, for a child that is complete. -/
def addChild : Node → Node → Node
  | mk t b e c, child => mk t b e (c ++ [child])

end Node

/-- `InvalidOTBFormat`, or a byte read at or behind the end of the file. -/
inductive LoadError where
  | invalidOTBFormat
  | outOfRange
  deriving DecidableEq

namespace Loader

def identifierSize : Nat := 4

/-- `Identifier`. -/
abbrev Identifier := Vector UInt8 identifierSize

def wildcard : Identifier := .replicate identifierSize 0

def minimalSize : Nat := identifierSize + 1 + 1 + 1

/-- The checks of the constructor. -/
def construct (fileContents : List UInt8) (acceptedIdentifier : Identifier) : Except LoadError Unit :=
  if fileContents.length ≤ minimalSize then .error .invalidOTBFormat
  else
    let fileIdentifier := fileContents.take identifierSize
    if fileIdentifier ≠ acceptedIdentifier.toList ∧ fileIdentifier ≠ wildcard.toList then
      .error .invalidOTBFormat
    else .ok ()

/-- What the loop of `parseTree` works on. A node stays on the stack until it is popped and joins the children
    of its parent then: up to that point only its own descendants are pushed and popped. -/
structure ParseState where
  root : Node
  parseStack : List Node

/-- `parseStack.pop()`. -/
def ParseState.pop (currentNode : Node) : List Node → Node → ParseState
  | [], _ => { root := currentNode, parseStack := [] }
  | parent :: stack, root => { root, parseStack := parent.addChild currentNode :: stack }

/-- The assignment of `propsEnd` on a node without children. -/
def endProps (currentNode : Node) (it : Nat) : Node :=
  if currentNode.children.isEmpty then currentNode.setPropsEnd it else currentNode

/-- The loop of `parseTree`: `it` is the position of the first byte that is left. -/
def parseLoop : Nat → List UInt8 → ParseState → Except LoadError ParseState
  | _, [], s => .ok s
  | it, b :: left, s =>
    if b = START then
      match s.parseStack with
      | [] => .error .invalidOTBFormat
      | currentNode :: stack =>
        match left with
        | [] => .error .invalidOTBFormat
        | type :: left =>
          parseLoop (it + 2) left
            { s with parseStack := .mk type (it + 2) 0 [] :: endProps currentNode it :: stack }
    else if b = END then
      match s.parseStack with
      | [] => .error .invalidOTBFormat
      | currentNode :: stack => parseLoop (it + 1) left (.pop (endProps currentNode it) stack s.root)
    else if b = ESCAPE then
      match left with
      | [] => .error .invalidOTBFormat
      | _ :: left => parseLoop (it + 2) left s
    else parseLoop (it + 1) left s

/-- `Loader::parseTree`. -/
def parseTree (fileContents : List UInt8) : Except LoadError Node :=
  match fileContents.drop identifierSize with
  | [] => .error .outOfRange
  | start :: left =>
    if start ≠ START then .error .invalidOTBFormat
    else
      match left with
      | [] => .error .outOfRange
      | type :: left =>
        let root := Node.mk type (identifierSize + 2) 0 []
        match parseLoop (identifierSize + 2) left { root, parseStack := [root] } with
        | .error e => .error e
        | .ok s => if s.parseStack.isEmpty then .ok s.root else .error .invalidOTBFormat

/-- A loader is made for a file, then its tree is parsed. -/
def load (fileContents : List UInt8) (acceptedIdentifier : Identifier) : Except LoadError Node :=
  match construct fileContents acceptedIdentifier with
  | .error e => .error e
  | .ok () => parseTree fileContents

/-- The bytes that the predicate of `getProps` lets through. -/
def copyProps : Bool → List UInt8 → List UInt8
  | _, [] => []
  | lastEscaped, byte :: bytes =>
    let lastEscaped := byte == ESCAPE && !lastEscaped
    if lastEscaped then copyProps true bytes else byte :: copyProps false bytes

/-- `Loader::getProps`: what the property stream is started on, `none` for `false`. -/
def getProps (fileContents : List UInt8) (node : Node) : Option (List UInt8) :=
  let size := node.propsEnd - node.propsBegin
  if size = 0 then none else some (copyProps false ((fileContents.drop node.propsBegin).take size))

end Loader
end OTB

/-! ### `PropStream` and `PropWriteStream` -/

/-- The bytes between `p` and `end`. -/
abbrev PropStream := List UInt8

namespace PropStream

/-- `PropStream::read` of a type of `size` bytes. -/
def read (size : Nat) (stream : PropStream) : Option (List UInt8 × PropStream) :=
  if stream.length < size then none else some (stream.take size, stream.drop size)

def readU8 (stream : PropStream) : Option (UInt8 × PropStream) :=
  (read 1 stream).map fun r => (.ofNat (LittleEndian.value r.1), r.2)

def readU16 (stream : PropStream) : Option (UInt16 × PropStream) :=
  (read 2 stream).map fun r => (.ofNat (LittleEndian.value r.1), r.2)

def readU32 (stream : PropStream) : Option (UInt32 × PropStream) :=
  (read 4 stream).map fun r => (.ofNat (LittleEndian.value r.1), r.2)

def readU64 (stream : PropStream) : Option (UInt64 × PropStream) :=
  (read 8 stream).map fun r => (.ofNat (LittleEndian.value r.1), r.2)

/-- `PropStream::readString`. -/
def readString (stream : PropStream) : Option (List UInt8 × PropStream) :=
  match readU16 stream with
  | none => none
  | some (strLen, stream) =>
    if stream.length < strLen.toNat then none else some (stream.take strLen.toNat, stream.drop strLen.toNat)

/-- `PropStream::read` of an integer type. -/
def readInt (t : IntType) (stream : PropStream) : Option (Int × PropStream) :=
  (read t.size stream).map fun r => (t.decode r.1, r.2)

/-- `PropStream::skip`. -/
def skip (n : Nat) (stream : PropStream) : Option PropStream :=
  if stream.length < n then none else some (stream.drop n)

end PropStream

/-- `PropWriteStream::write` of a value of `size` bytes. -/
def PropWriteStream.write (size value : Nat) (buffer : List UInt8) : List UInt8 :=
  buffer ++ LittleEndian.bytes size value

/-- `PropWriteStream::write` of an integer type. -/
def PropWriteStream.writeInt (t : IntType) (value : Int) (buffer : List UInt8) : List UInt8 := buffer ++ t.encode value

/-- `PropWriteStream::writeString`. -/
def PropWriteStream.writeString (str buffer : List UInt8) : List UInt8 :=
  if str.length > 65535 then write 2 0 buffer else write 2 str.length buffer ++ str

end CrystalServer

/-! ## File streams (`io/filestream.hpp`, `io/filestream.cpp`)

The fields `m_data`, `m_pos` and `m_nodes` of a `FileStream`. An accessor gives `none` where the code reads outside
of `m_data`. A value that cannot be read for lack of data is 0, as in the code. -/

namespace CrystalServer

open Lib OTB

/-- `FileStream`. -/
structure FileStream where
  m_data : List UInt8
  m_pos : UInt32
  m_nodes : UInt32

namespace FileStream

def tell (s : FileStream) : UInt32 := s.m_pos

/-- `m_data[pos]`. -/
def at? (s : FileStream) (pos : UInt32) : Option UInt8 := s.m_data[pos.toNat]?

/-- One turn of the loop of `read` with `escape`. -/
def readByte (s : FileStream) : Option (UInt8 × FileStream) :=
  match s.at? s.m_pos with
  | none => none
  | some b =>
    let pos := if b = ESCAPE then s.m_pos + 1 else s.m_pos
    match s.at? pos with
    | none => none
    | some b => some (b, { s with m_pos := pos + 1 })

/-- The loop of `read` with `escape`. -/
def readBytes : Nat → FileStream → Option (List UInt8 × FileStream)
  | 0, s => some ([], s)
  | n + 1, s =>
    match readByte s with
    | none => none
    | some (b, s) =>
      match readBytes n s with
      | none => none
      | some (bs, s) => some (b :: bs, s)

/-- `FileStream::read` of a type of `size` bytes; the bytes are `none` where it returns false. -/
def read (size : Nat) (escape : Bool) (s : FileStream) : Option (Option (List UInt8) × FileStream) :=
  if s.m_pos.toNat + size > s.m_data.length then some (none, s)
  else if escape then (readBytes size s).map fun r => (some r.1, r.2)
  else
    some (some ((s.m_data.drop s.m_pos.toNat).take size), { s with m_pos := s.m_pos + .ofNat size })

/-- `v` after `read(v, m_nodes > 0)`. -/
def getValue (size : Nat) (s : FileStream) : Option (Nat × FileStream) :=
  (read size (decide (s.m_nodes > 0)) s).map fun r => (LittleEndian.value (r.1.getD []), r.2)

/-- `FileStream::getU8`. -/
def getU8 (s : FileStream) : Option (UInt8 × FileStream) :=
  if (s.m_pos + 1).toNat > s.m_data.length then some (0, s)
  else
    match s.at? s.m_pos with
    | none => none
    | some b =>
      let pos := if s.m_nodes > 0 ∧ b = ESCAPE then s.m_pos + 1 else s.m_pos
      match s.at? pos with
      | none => none
      | some v => some (v, { s with m_pos := pos + 1 })

def getU16 (s : FileStream) : Option (UInt16 × FileStream) :=
  (getValue 2 s).map fun r => (.ofNat r.1, r.2)

def getU32 (s : FileStream) : Option (UInt32 × FileStream) :=
  (getValue 4 s).map fun r => (.ofNat r.1, r.2)

def getU64 (s : FileStream) : Option (UInt64 × FileStream) :=
  (getValue 8 s).map fun r => (.ofNat r.1, r.2)

/-- `FileStream::getString`. -/
def getString (s : FileStream) : Option (List UInt8 × FileStream) :=
  match getU16 s with
  | none => none
  | some (len, s) =>
    if len > 0 ∧ len < 8192 then
      if (s.m_pos + len.toUInt32).toNat > s.m_data.length then some ([], s)
      else
        -- the bytes as they stand in the file, escape bytes included
        let str := (s.m_data.drop s.m_pos.toNat).take len.toNat
        if str.length < len.toNat then none else some (str, { s with m_pos := s.m_pos + len.toUInt32 })
    else some ([], s)

end FileStream
end CrystalServer
