import CrystalServer.Lib.Run
import CrystalServer.Network.Protocol

/-! # Sending on a connection

`OutputMessage` (`server/network/message/outputmessage.hpp`), what a `Protocol` makes of it, and the queue of a `Connection`
(`server/network/connection/connection.cpp`). A block under `connectionLock` is one step, and so is the start of a posted
`internalWorker`; `onSendMessage` runs between two of them. -/

namespace CrystalServer

open Lib

/-! ### Messages that go out -/

/-- `OutputMessage`. -/
structure OutputMessage extends NetworkMessage where
  outputBufferStart : UInt16

namespace OutputMessage

/-- A new message, as `OutputMessagePool::getOutputMessage` gives it. -/
def getOutputMessage : OutputMessage := { NetworkMessage.new with outputBufferStart := .ofNat NetworkMessage.INITIAL_BUFFER_POSITION }

/-- The bytes from `getOutputBuffer()` on, as many as `getLength()`. -/
def output (m : OutputMessage) : List UInt8 := (m.buffer.drop m.outputBufferStart.toNat).take m.length.toNat

/-- `add_header`: a value in front of the others. -/
def add_header (m : OutputMessage) (bytes : List UInt8) : OutputMessage :=
  if m.outputBufferStart.toNat < bytes.length then m
  else
    let outputBufferStart := m.outputBufferStart - .ofNat bytes.length
    { m.store outputBufferStart.toNat bytes with
      length := m.length + .ofNat bytes.length
      outputBufferStart }

/-- `NetworkMessage::addPaddingBytes`. -/
def addPaddingBytes (m : OutputMessage) (n : Nat) : OutputMessage :=
  if ¬m.canAdd n then m else { m.put (List.replicate n 0x33) with outputBufferStart := m.outputBufferStart }

/-- `NetworkMessage::addBytes`. -/
def addBytes (m : OutputMessage) (bytes : List UInt8) : OutputMessage :=
  if ¬m.canAdd bytes.length then m
  else if bytes.length > NETWORKMESSAGE_MAXSIZE then m
  else { m.put bytes with outputBufferStart := m.outputBufferStart }

/-- `NetworkMessage::reset`. -/
def reset (m : OutputMessage) : OutputMessage :=
  { m with length := 0, position := .ofNat NetworkMessage.INITIAL_BUFFER_POSITION }

def writePaddingAmount (m : OutputMessage) : OutputMessage :=
  let paddingAmount := 8 - m.length.toNat % 8 - 1
  (m.addPaddingBytes paddingAmount).add_header [.ofNat paddingAmount]

def writeMessageLength (m : OutputMessage) : OutputMessage :=
  m.add_header (LittleEndian.bytes 2 ((m.length.toNat - 4) / 8))

/-- `addCryptoHeader`; the checksum is `none` where none is added. -/
def addCryptoHeader (m : OutputMessage) (checksum : Option UInt32) : OutputMessage :=
  match checksum with
  | some checksum => (m.add_header (LittleEndian.bytes 4 checksum.toNat)).writeMessageLength
  | none => m.writeMessageLength

end OutputMessage

/-- `Protocol`: what sending reads and writes. -/
structure SendingProtocol where
  key : Vector UInt32 4
  serverSequenceNumber : UInt32
  checksumMethod : ChecksumMethod
  encryptionEnabled : Bool
  rawMessages : Bool

namespace SendingProtocol

/-- `Protocol::XTEA_encrypt`. -/
def XTEA_encrypt (p : SendingProtocol) (outputMessage : OutputMessage) : OutputMessage :=
  let paddingBytes := outputMessage.length.toNat % 8
  let m := if paddingBytes ≠ 0 then outputMessage.addPaddingBytes (8 - paddingBytes) else outputMessage
  let transformed := Protocol.XTEA_transform p.key m.length.toNat true (m.buffer.drop m.outputBufferStart.toNat)
  { m.store m.outputBufferStart.toNat transformed with outputBufferStart := m.outputBufferStart }

/-- `Protocol::compression`: `deflate` is that of zlib, which may fail or not be set up. -/
def compression (p : SendingProtocol) (deflate : List UInt8 → Option (List UInt8)) (outputMessage : OutputMessage) :
    Bool × OutputMessage :=
  if p.checksumMethod ≠ .sequence then (false, outputMessage)
  else if outputMessage.length.toNat > NETWORKMESSAGE_MAXSIZE then (false, outputMessage)
  else
    match deflate outputMessage.output with
    | none => (false, outputMessage)
    | some compressed =>
      if compressed.length = 0 then (false, outputMessage) else (true, outputMessage.reset.addBytes compressed)

/-- `++serverSequenceNumber`, set back at the end. -/
def nextSequence (p : SendingProtocol) : SendingProtocol :=
  let n := p.serverSequenceNumber + 1
  { p with serverSequenceNumber := if n ≥ 0x7FFFFFFF then 0 else n }

/-- `Protocol::onSendMessage`. -/
def onSendMessage (p : SendingProtocol) (deflate : List UInt8 → Option (List UInt8)) (msg : OutputMessage) :
    SendingProtocol × OutputMessage :=
  if p.rawMessages then (p, msg)
  else
    let (compressed, msg) := if msg.length.toNat ≥ 128 then p.compression deflate msg else (false, msg)
    let sendMessageChecksum : UInt32 := if compressed then 0x80000000 else 0
    if ¬p.encryptionEnabled then (p, msg.writeMessageLength)
    else
      let msg := p.XTEA_encrypt msg.writePaddingAmount
      match p.checksumMethod with
      | .none => (p, msg.addCryptoHeader none)
      | .adler => (p, msg.addCryptoHeader (some (adlerChecksum msg.output)))
      | .sequence =>
        (p.nextSequence, msg.addCryptoHeader (some (sendMessageChecksum ||| (p.serverSequenceNumber + 1))))

end SendingProtocol

/-! ### The queue -/

/-- `ConnectionState_t`. -/
inductive ConnectionState where
  | CONNECTION_STATE_OPEN | CONNECTION_STATE_IDENTIFYING | CONNECTION_STATE_READINGS | CONNECTION_STATE_CLOSED
  deriving DecidableEq

/-- `Connection`: what sending reads and writes. The handlers that are under way are those posted to the executor, those
between the two locks around `onSendMessage`, each with its `outputMessage`, and the writes that were started. The code keeps
no list of what was accepted, prepared and written. -/
structure SendQueue (Message : Type*) where
  connectionState : ConnectionState
  messageQueue : List Message
  socketOpen : Bool
  posted : Nat
  preparing : List Message
  writing : List Message
  accepted : List Message
  prepared : List Message
  written : List Message

namespace SendQueue
variable {Message : Type*}

/-- A new connection that was accepted. -/
def accept (Message : Type*) : SendQueue Message where
  connectionState := .CONNECTION_STATE_OPEN
  messageQueue := []
  socketOpen := true
  posted := 0
  preparing := []
  writing := []
  accepted := []
  prepared := []
  written := []

def closeSocket (c : SendQueue Message) : SendQueue Message := { c with socketOpen := false }

/-- `Connection::close`. -/
def close (force : Bool) (c : SendQueue Message) : SendQueue Message :=
  if c.connectionState = .CONNECTION_STATE_CLOSED then c
  else
    let c := { c with connectionState := .CONNECTION_STATE_CLOSED }
    if c.messageQueue.isEmpty || force then c.closeSocket else c

/-- `Connection::send`; `asio::post` may throw. -/
def send (outputMessage : Message) (throws : Bool) (c : SendQueue Message) : SendQueue Message :=
  if c.connectionState = .CONNECTION_STATE_CLOSED then c
  else
    let noPendingWrite := c.messageQueue.isEmpty
    let c := { c with
      messageQueue := c.messageQueue ++ [outputMessage]
      accepted := c.accepted ++ [outputMessage] }
    if noPendingWrite then
      if c.socketOpen then if throws then c.close true else { c with posted := c.posted + 1 } else c.close true
    else c

/-- The lock is left and `onSendMessage` runs. -/
def prepare (outputMessage : Message) (c : SendQueue Message) : SendQueue Message :=
  { c with preparing := c.preparing ++ [outputMessage], prepared := c.prepared ++ [outputMessage] }

/-- `Connection::internalWorker`, up to `onSendMessage`. -/
def internalWorker (c : SendQueue Message) : SendQueue Message :=
  if c.posted = 0 then c
  else
    let c := { c with posted := c.posted - 1 }
    match c.messageQueue with
    | [] => if c.connectionState = .CONNECTION_STATE_CLOSED then c.closeSocket else c
    | outputMessage :: _ => c.prepare outputMessage

/-- `Connection::internalSend`, after one of the running `onSendMessage`; `asio::async_write` may throw. -/
def internalSend (i : Nat) (throws : Bool) (c : SendQueue Message) : SendQueue Message :=
  match c.preparing[i]? with
  | none => c
  | some outputMessage =>
    let c := { c with preparing := c.preparing.eraseIdx i }
    if throws then c.close true else { c with writing := c.writing ++ [outputMessage] }

/-- `Connection::onWriteOperation` of one of the writes. -/
def onWriteOperation (i : Nat) (error : Bool) (c : SendQueue Message) : SendQueue Message :=
  match c.writing[i]? with
  | none => c
  | some outputMessage =>
    let c := { c with writing := c.writing.eraseIdx i }
    if error then { c with messageQueue := [] }.close true
    else
      let c := { c with messageQueue := c.messageQueue.tail, written := c.written ++ [outputMessage] }
      match c.messageQueue with
      | outputMessage :: _ => c.prepare outputMessage
      | [] => if c.connectionState = .CONNECTION_STATE_CLOSED then c.closeSocket else c

inductive Event (Message : Type*) where
  | send (outputMessage : Message) (throws : Bool)
  | close (force : Bool)
  | handleTimeout
  | internalWorker
  | internalSend (i : Nat) (throws : Bool)
  | onWriteOperation (i : Nat) (error : Bool)

def step (c : SendQueue Message) : Event Message → SendQueue Message
  | .send outputMessage throws => c.send outputMessage throws
  | .close force => c.close force
  | .handleTimeout => c.close true
  | .internalWorker => c.internalWorker
  | .internalSend i throws => c.internalSend i throws
  | .onWriteOperation i error => c.onWriteOperation i error

end SendQueue
end CrystalServer
