import CrystalServer.Network.NetworkMessage

/-! # Protocols (`server/network/protocol/protocol.cpp`)

How a message that came in is checked and decrypted before a packet is parsed. -/

namespace CrystalServer

open Lib

/-- `ChecksumMethods_t`. -/
inductive ChecksumMethod where
  | none
  | adler
  | sequence
  deriving DecidableEq

/-- `Protocol`: what receiving reads and writes. -/
structure Protocol where
  key : Vector UInt32 4
  clientSequenceNumber : UInt32
  checksumMethod : ChecksumMethod
  encryptionEnabled : Bool
  sequence : clientSequenceNumber < 0x7FFFFFFF

/-! ### `adlerChecksum` -/

/-- One turn of the outer loop. -/
def adlerChunk (data : List UInt8) (s : UInt32 × UInt32) : UInt32 × UInt32 :=
  let s := data.foldl (fun s byte => (s.1 + byte.toUInt32, s.2 + (s.1 + byte.toUInt32))) s
  (s.1 % 65521, s.2 % 65521)

/-- The outer loop, with at most `n` turns. -/
def adlerLoop : Nat → List UInt8 → UInt32 × UInt32 → UInt32 × UInt32
  | 0, _, s => s
  | n + 1, data, s => if data.isEmpty then s else adlerLoop n (data.drop 5552) (adlerChunk (data.take 5552) s)

def adlerChecksum (data : List UInt8) : UInt32 :=
  if data.length > NETWORKMESSAGE_MAXSIZE then 0
  else
    let s := adlerLoop data.length data (1, 0)
    s.2 <<< 16 ||| s.1

namespace Protocol

/-! ### XTEA -/

def delta : UInt32 := 0x61C88647

/-- `newKey[i & 3]`. -/
def keyAt (key : Vector UInt32 4) (i : UInt32) : UInt32 := key[(i &&& 3).toNat]?.getD 0

/-- `precachedControlSum` to encrypt, from the control sum `sum` on. -/
def encryptSums (key : Vector UInt32 4) : Nat → UInt32 → List (UInt32 × UInt32)
  | 0, _ => []
  | n + 1, sum =>
    (sum + keyAt key sum, (sum - delta) + keyAt key ((sum - delta) >>> 11)) :: encryptSums key n (sum - delta)

/-- `precachedControlSum` to decrypt. -/
def decryptSums (key : Vector UInt32 4) : Nat → UInt32 → List (UInt32 × UInt32)
  | 0, _ => []
  | n + 1, sum =>
    (sum + keyAt key (sum >>> 11), (sum + delta) + keyAt key (sum + delta)) :: decryptSums key n (sum + delta)

/-- `((v << 4 ^ v >> 5) + v) ^ c`. -/
def mix (v c : UInt32) : UInt32 := ((v <<< 4 ^^^ v >>> 5) + v) ^^^ c

def encryptRound (v c : UInt32 × UInt32) : UInt32 × UInt32 :=
  let vData0 := v.1 + mix v.2 c.1
  (vData0, v.2 + mix vData0 c.2)

def decryptRound (v c : UInt32 × UInt32) : UInt32 × UInt32 :=
  let vData1 := v.2 - mix v.1 c.1
  (v.1 - mix vData1 c.2, vData1)

/-- The rounds on the two words of a block. -/
def rounds (key : Vector UInt32 4) (encrypt : Bool) (v : UInt32 × UInt32) : UInt32 × UInt32 :=
  if encrypt then (encryptSums key 32 0).foldl encryptRound v
  else (decryptSums key 32 0xC6EF3720).foldl decryptRound v

/-- One turn of the loop over the blocks. -/
def transformBlock (key : Vector UInt32 4) (encrypt : Bool) (block : List UInt8) : List UInt8 :=
  let v := rounds key encrypt
    (.ofNat (LittleEndian.value (block.take 4)), .ofNat (LittleEndian.value (block.drop 4)))
  LittleEndian.bytes 4 v.1.toNat ++ LittleEndian.bytes 4 v.2.toNat

/-- The loop over the blocks, with `n` turns. -/
def transformBlocks (key : Vector UInt32 4) (encrypt : Bool) : Nat → List UInt8 → List UInt8
  | 0, _ => []
  | n + 1, buffer => transformBlock key encrypt (buffer.take 8) ++ transformBlocks key encrypt n (buffer.drop 8)

/-- `Protocol::XTEA_transform`: what the first `messageLength` bytes of the buffer, up to a whole block, become. -/
def XTEA_transform (key : Vector UInt32 4) (messageLength : Nat) (encrypt : Bool) (buffer : List UInt8) :
    List UInt8 :=
  transformBlocks key encrypt ((messageLength + 7) / 8) buffer

/-- `Protocol::XTEA_decrypt`. -/
def XTEA_decrypt (p : Protocol) (msg : NetworkMessage) : Option (Bool × NetworkMessage) :=
  let msgLength := msg.length - if p.checksumMethod = .none then 2 else 6
  if msgLength % 8 ≠ 0 then some (false, msg)
  else if msg.position.toNat + msgLength.toNat > msg.buffer.length then none
  else
    let transformed := XTEA_transform p.key msgLength.toNat false (msg.buffer.drop msg.position.toNat)
    match (msg.store msg.position.toNat transformed).getByte with
    | none => none
    | some (paddingSize, msg) =>
      let innerLength := msgLength - paddingSize.toUInt16
      if innerLength.toNat + paddingSize.toNat > msgLength.toNat then some (false, msg)
      else some (true, msg.setLength (msgLength - paddingSize.toUInt16))

/-! ### Receiving -/

/-- `Protocol::sendRecvMessageCallback`; `true` hands the message over to `parsePacket`. -/
def sendRecvMessageCallback (p : Protocol) (msg : NetworkMessage) : Option (Bool × Protocol × NetworkMessage) :=
  if p.encryptionEnabled then (XTEA_decrypt p msg).map fun r => (r.1, p, r.2)
  else some (true, p, msg)

/-- `++clientSequenceNumber`, set back at the end. -/
def nextSequence (p : Protocol) : Protocol :=
  if h : p.clientSequenceNumber + 1 < 0x7FFFFFFF then
    { p with clientSequenceNumber := p.clientSequenceNumber + 1, sequence := h }
  else { p with clientSequenceNumber := 0, sequence := by decide }

/-- `Protocol::onRecvMessage`. -/
def onRecvMessage (p : Protocol) (msg : NetworkMessage) : Option (Bool × Protocol × NetworkMessage) :=
  if p.checksumMethod = .none then sendRecvMessageCallback p msg
  else
    match msg.getU32 with
    | none => none
    | some (recvChecksum, msg) =>
      if p.checksumMethod = .sequence then
        if recvChecksum = 0 then some (false, p, msg)
        else if recvChecksum ≠ p.clientSequenceNumber + 1 then some (false, p.nextSequence, msg)
        else sendRecvMessageCallback p.nextSequence msg
      else
        let len := msg.length.toNat - msg.position.toNat
        let checksum := if len > 0 then adlerChecksum ((msg.buffer.drop msg.position.toNat).take len) else 0
        if recvChecksum ≠ checksum then some (false, p, msg) else sendRecvMessageCallback p msg

end Protocol

/-! ### `Connection` (`server/network/connection/connection.cpp`) -/

namespace Connection

/-- `asio::async_read` of bytes into the buffer at a position. -/
def asyncRead (m : NetworkMessage) (pos : Nat) (bytes : List UInt8) : NetworkMessage := m.store pos bytes

/-- `NetworkMessage::getLengthHeader`. -/
def getLengthHeader (m : NetworkMessage) : UInt16 := .ofNat (LittleEndian.value (m.buffer.take 2))

/-- `Connection::parseHeader` on a connection that is open and within its packet rate: `none` closes it, otherwise the
    message is set up for a body of `size` bytes. -/
def parseHeader (protocol : Bool) (m : NetworkMessage) : Option (UInt16 × NetworkMessage) :=
  let size := getLengthHeader m
  let size := if protocol then size * 8 + 4 else size
  if size = 0 ∨ size.toNat > INPUTMESSAGE_MAXSIZE then none
  else some (size, { m with length := size + .ofNat HEADER_LENGTH, position := 2 })

end Connection
end CrystalServer
