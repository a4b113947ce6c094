import CrystalServer.Lib.LittleEndian
import CrystalServer.Lib.Updates
import CrystalServer.Map.Sector

/-! # Network messages (`server/network/message/networkmessage.hpp`, `networkmessage.cpp`)

A message is its buffer with a length and a position. The conversion of texts between UTF-8 and ISO-8859-1 is
that of Boost.Locale: a parameter. A reading accessor gives `none` where the code reads outside of the buffer. -/

namespace CrystalServer

open Lib

/-! ### Constants -/

def NETWORKMESSAGE_MAXSIZE : Nat := 65500
def INPUTMESSAGE_MAXSIZE : Nat := 4096
def HEADER_LENGTH : Nat := 2
def CHECKSUM_LENGTH : Nat := 4
def XTEA_MULTIPLE : Nat := 8
def MAX_BODY_LENGTH : Nat := NETWORKMESSAGE_MAXSIZE - HEADER_LENGTH - CHECKSUM_LENGTH - XTEA_MULTIPLE

/-- `boost::locale::conv` between UTF-8 and ISO-8859-1: every text of ISO-8859-1 is converted to UTF-8 and back. -/
structure Charset where
  toUtf : List UInt8 → List UInt8
  fromUtf : List UInt8 → List UInt8
  from_toUtf : ∀ latin1, fromUtf (toUtf latin1) = latin1
  toUtf_nil : toUtf [] = []

/-- `NetworkMessage`: `info.length`, `info.position` and `buffer`. -/
structure NetworkMessage where
  length : UInt16
  position : UInt16
  buffer : List UInt8
  size : buffer.length = NETWORKMESSAGE_MAXSIZE

namespace NetworkMessage

def INITIAL_BUFFER_POSITION : Nat := 7

/-- A new message. -/
def new : NetworkMessage where
  length := 0
  position := .ofNat INITIAL_BUFFER_POSITION
  buffer := .replicate NETWORKMESSAGE_MAXSIZE 0
  size := List.length_replicate

def setBufferPosition (m : NetworkMessage) (newPosition : UInt16) : NetworkMessage :=
  { m with position := newPosition }

def setLength (m : NetworkMessage) (newLength : UInt16) : NetworkMessage := { m with length := newLength }

/-- The buffer after bytes were stored through `getBuffer() + pos`. -/
def store (m : NetworkMessage) (pos : Nat) (bytes : List UInt8) : NetworkMessage :=
  { m with buffer := overwrite m.buffer pos bytes, size := (length_overwrite ..).trans m.size }

/-- `NetworkMessage::canAdd`. -/
def canAdd (m : NetworkMessage) (size : Nat) : Bool := size + m.position.toNat < MAX_BODY_LENGTH

/-- `NetworkMessage::canRead`. -/
def canRead (m : NetworkMessage) (size : Int) : Bool :=
  size ≤ m.length.toNat - ((m.position.toNat : Int) - INITIAL_BUFFER_POSITION)

/-! ### Writing -/

/-- Bytes copied to the position, which moves behind them with the length. -/
def put (m : NetworkMessage) (bytes : List UInt8) : NetworkMessage :=
  { m.store m.position.toNat bytes with
    length := m.length + .ofNat bytes.length
    position := m.position + .ofNat bytes.length }

/-- `NetworkMessage::addByte`; `buffer.at` throws behind the end, with the position moved. -/
def addByte (m : NetworkMessage) (value : UInt8) : NetworkMessage :=
  if ¬m.canAdd 1 then m
  else if m.position.toNat < m.buffer.length then m.put [value]
  else { m with position := m.position + 1 }

/-- `NetworkMessage::add` of a type of `size` bytes. -/
def add (m : NetworkMessage) (size value : Nat) : NetworkMessage :=
  if ¬m.canAdd size then m
  else if m.position.toNat + size > m.buffer.length then m
  else m.put (LittleEndian.bytes size value)

/-- `NetworkMessage::addPosition`. -/
def addPosition (m : NetworkMessage) (pos : Position) : NetworkMessage :=
  ((m.add 2 pos.x.toNat).add 2 pos.y.toNat).addByte pos.z

/-- `NetworkMessage::addString`. -/
def addString (charset : Charset) (m : NetworkMessage) (value : List UInt8) : NetworkMessage :=
  if value.isEmpty then m.add 2 0
  else
    let latin1Str := charset.fromUtf value
    let stringLen := latin1Str.length
    if ¬m.canAdd (stringLen + 2) then m
    else if stringLen > NETWORKMESSAGE_MAXSIZE then m
    else (m.add 2 (UInt16.ofNat stringLen).toNat).put latin1Str

/-! ### Reading -/

/-- `NetworkMessage::getByte`. -/
def getByte (m : NetworkMessage) : Option (UInt8 × NetworkMessage) :=
  if ¬m.canRead 1 then some (0, m)
  else if m.position = 0 then some (0, m)
  else some (m.buffer[m.position.toNat]?.getD 0, { m with position := m.position + 1 })

/-- `NetworkMessage::get` of a type of `size` bytes. -/
def get (m : NetworkMessage) (size : Nat) : Option (Nat × NetworkMessage) :=
  if ¬m.canRead size then some (0, m)
  else if m.position.toNat + size > m.buffer.length then none
  else
    some (LittleEndian.value ((m.buffer.drop m.position.toNat).take size),
      { m with position := m.position + .ofNat size })

def getU16 (m : NetworkMessage) : Option (UInt16 × NetworkMessage) := (m.get 2).map fun r => (.ofNat r.1, r.2)

def getU32 (m : NetworkMessage) : Option (UInt32 × NetworkMessage) := (m.get 4).map fun r => (.ofNat r.1, r.2)

def getU64 (m : NetworkMessage) : Option (UInt64 × NetworkMessage) := (m.get 8).map fun r => (.ofNat r.1, r.2)

/-- `NetworkMessage::getString`. -/
def getString (charset : Charset) (stringLen : UInt16) (m : NetworkMessage) :
    Option (List UInt8 × NetworkMessage) :=
  match if stringLen = 0 then m.getU16 else some (stringLen, m) with
  | none => none
  | some (stringLen, m) =>
    if ¬m.canRead stringLen.toNat then some ([], m)
    else if stringLen.toNat > NETWORKMESSAGE_MAXSIZE then some ([], m)
    else if m.position.toNat + stringLen.toNat > m.buffer.length then none
    else
      some (charset.toUtf ((m.buffer.drop m.position.toNat).take stringLen.toNat),
        { m with position := m.position + stringLen })

/-- `NetworkMessage::getPosition`. -/
def getPosition (m : NetworkMessage) : Option (Position × NetworkMessage) :=
  match m.getU16 with
  | none => none
  | some (x, m) =>
    match m.getU16 with
    | none => none
    | some (y, m) =>
      match m.getByte with
      | none => none
      | some (z, m) => some ({ x, y, z }, m)

end NetworkMessage
end CrystalServer
