import Capybara.Lib.Wire
import Capybara.Sender

namespace Capybara

open Wire

structure SenderState where
  unsentSeqNo : SeqNumber
  sendUnacked : SeqNumber
  sendNext : SeqNumber
  sendWindow : UInt32
  sendWindowLastUpdateSeq : SeqNumber
  sendWindowLastUpdateAck : SeqNumber
  mss : UInt32
  windowScale : UInt8
  unackedQueue : List UnackedSegment
  unsentQueue : List Buffer
  deriving DecidableEq, Repr

structure ReceiverState where
  readerNext : SeqNumber
  receiveNext : SeqNumber
  recvQueue : List Buffer
  deriving DecidableEq, Repr

structure ControlBlockState where
  local_ : SocketAddrV4
  remote : SocketAddrV4
  receiveBufferSize : UInt32
  windowScale : UInt32
  outOfOrderFin : Option SeqNumber
  outOfOrderQueue : List (SeqNumber × Buffer)
  receiver : ReceiverState
  sender : SenderState
  deriving DecidableEq, Repr

/-- A registered application state, as the bytes its `serialize` writes; there are `serialized_size` of them. -/
structure ApplicationState where
  image : Buffer
  deriving DecidableEq, Repr

def ApplicationState.serializedSize (state : ApplicationState) : Nat := state.image.length

inductive MigratedApplicationState
  | none
  | registered (state : ApplicationState)
  | migratedIn (buf : Buffer)
  deriving DecidableEq, Repr

def MigratedApplicationState.serializedSize : MigratedApplicationState → Nat
  | .registered state => state.serializedSize
  | .none | .migratedIn _ => 0

structure TcpState where
  cb : ControlBlockState
  appState : MigratedApplicationState
  deriving DecidableEq, Repr

def SeqNumber.serializeInto (s : SeqNumber) : Write := put (be32 s.value)

/-- The length prefix of a buffer or queue; a length that does not fit is a panic. -/
def lenInto (n : Nat) : Write := Write.guard (n < 2 ^ 32) (put (be32 (UInt32.ofNat n)))

def bufferInto (buf : Buffer) : Write := (lenInto buf.length).andThen (put buf)

def dequeInto {α : Type} (w : α → Write) (queue : List α) : Write := (lenInto queue.length).andThen (writeAll w queue)

def optionInto {α : Type} (w : α → Write) : Option α → Write
  | some a => (put [1]).andThen (w a)
  | none => put [0]

def outOfOrderInto (entry : SeqNumber × Buffer) : Write := entry.1.serializeInto.andThen (bufferInto entry.2)

def UnackedSegment.serializeInto (segment : UnackedSegment) : Write := bufferInto segment.bytes

def SocketAddrV4.octets (addr : SocketAddrV4) : Buffer :=
  [addr.ip.a, addr.ip.b, addr.ip.c, addr.ip.d] ++ be16 addr.port

def SenderState.serializeInto (s : SenderState) : Write :=
  s.unsentSeqNo.serializeInto |>.andThen s.sendUnacked.serializeInto |>.andThen s.sendNext.serializeInto
    |>.andThen (put (be32 s.sendWindow)) |>.andThen s.sendWindowLastUpdateSeq.serializeInto
    |>.andThen s.sendWindowLastUpdateAck.serializeInto |>.andThen (put (be32 s.mss))
    |>.andThen (put [s.windowScale]) |>.andThen (dequeInto UnackedSegment.serializeInto s.unackedQueue)
    |>.andThen (dequeInto bufferInto s.unsentQueue)

def ReceiverState.serializeInto (r : ReceiverState) : Write :=
  r.readerNext.serializeInto |>.andThen r.receiveNext.serializeInto |>.andThen (dequeInto bufferInto r.recvQueue)

def ControlBlockState.serializeInto (c : ControlBlockState) : Write :=
  put c.local_.octets |>.andThen (put c.remote.octets) |>.andThen (put (be32 c.receiveBufferSize))
    |>.andThen (put (be32 c.windowScale)) |>.andThen (optionInto SeqNumber.serializeInto c.outOfOrderFin)
    |>.andThen (dequeInto outOfOrderInto c.outOfOrderQueue) |>.andThen c.receiver.serializeInto
    |>.andThen c.sender.serializeInto

def SenderState.serializedSize (s : SenderState) : Nat :=
  29 + (4 + s.unackedQueue.foldl (fun acc e => acc + 4 + e.bytes.length) 0)
    + (4 + s.unsentQueue.foldl (fun acc e => acc + 4 + e.length) 0)

def ReceiverState.serializedSize (r : ReceiverState) : Nat :=
  8 + (4 + r.recvQueue.foldl (fun acc e => acc + 4 + e.length) 0)

def ControlBlockState.serializedSize (c : ControlBlockState) : Nat :=
  20 + (1 + if c.outOfOrderFin.isSome then 4 else 0)
    + (4 + c.outOfOrderQueue.foldl (fun acc e => acc + 4 + 4 + e.2.length) 0)
    + c.receiver.serializedSize + c.sender.serializedSize

namespace TcpState

def serializedSize (s : TcpState) : Nat :=
  s.cb.serializedSize + 1 + s.appState.serializedSize

def appStateInto : MigratedApplicationState → Write
  | .registered state => if state.serializedSize = 0 then put [0] else (put [1]).andThen (put state.image)
  | .none | .migratedIn _ => put [0]

/-- `DataBuffer::new`, zero-filled; a capacity of zero is refused and the caller unwraps. -/
def newBuffer (capacity : Nat) : Option Buffer := if capacity = 0 then none else some (List.replicate capacity 0)

def serializeInto (s : TcpState) : Write := s.cb.serializeInto.andThen (appStateInto s.appState)

def serialize (s : TcpState) : Option Buffer := do
  let buf ← newBuffer s.serializedSize
  let (written, remaining) ← s.serializeInto buf
  some (written ++ remaining)

end TcpState

def SeqNumber.deserializeFrom : Read SeqNumber := do
  let value ← readBe32
  pure ⟨value⟩

def bufferFrom : Read Buffer := do
  let len ← readBe32
  take len.toNat

def dequeFrom {α : Type} (r : Read α) : Read (List α) := do
  let size ← readBe32
  readMany r size.toNat

def optionFrom {α : Type} (r : Read α) : Read (Option α) := do
  let discriminant ← readU8
  if discriminant = 0 then pure none
  else if discriminant = 1 then some <$> r
  else failure

def outOfOrderFrom : Read (SeqNumber × Buffer) := do
  let seq ← SeqNumber.deserializeFrom
  let buffer ← bufferFrom
  pure (seq, buffer)

/-- The transmission time of an unacknowledged segment is not part of its encoding. -/
def UnackedSegment.deserializeFrom : Read UnackedSegment := do
  let bytes ← bufferFrom
  pure ⟨bytes, none⟩

def SocketAddrV4.fromOctets : Read SocketAddrV4 := do
  let a ← readU8
  let b ← readU8
  let c ← readU8
  let d ← readU8
  let port ← readBe16
  pure ⟨⟨a, b, c, d⟩, port⟩

def SenderState.deserializeFrom : Read SenderState := do
  let unsentSeqNo ← SeqNumber.deserializeFrom
  let sendUnacked ← SeqNumber.deserializeFrom
  let sendNext ← SeqNumber.deserializeFrom
  let sendWindow ← readBe32
  let sendWindowLastUpdateSeq ← SeqNumber.deserializeFrom
  let sendWindowLastUpdateAck ← SeqNumber.deserializeFrom
  let mss ← readBe32
  let windowScale ← readU8
  let unackedQueue ← dequeFrom UnackedSegment.deserializeFrom
  let unsentQueue ← dequeFrom bufferFrom
  pure ⟨unsentSeqNo, sendUnacked, sendNext, sendWindow, sendWindowLastUpdateSeq, sendWindowLastUpdateAck, mss,
    windowScale, unackedQueue, unsentQueue⟩

def ReceiverState.deserializeFrom : Read ReceiverState := do
  let readerNext ← SeqNumber.deserializeFrom
  let receiveNext ← SeqNumber.deserializeFrom
  let recvQueue ← dequeFrom bufferFrom
  pure ⟨readerNext, receiveNext, recvQueue⟩

def ControlBlockState.deserializeFrom : Read ControlBlockState := do
  let local_ ← SocketAddrV4.fromOctets
  let remote ← SocketAddrV4.fromOctets
  let receiveBufferSize ← readBe32
  let windowScale ← readBe32
  let outOfOrderFin ← optionFrom SeqNumber.deserializeFrom
  let outOfOrderQueue ← dequeFrom outOfOrderFrom
  let receiver ← ReceiverState.deserializeFrom
  let sender ← SenderState.deserializeFrom
  pure ⟨local_, remote, receiveBufferSize, windowScale, outOfOrderFin, outOfOrderQueue, receiver, sender⟩

def TcpState.deserialize (buf : Buffer) : Option TcpState := do
  let (cb, buf) ← ControlBlockState.deserializeFrom buf
  let (tag, appState) ← readU8 buf
  some ⟨cb, if tag = 0 then .none else .migratedIn appState⟩

end Capybara
