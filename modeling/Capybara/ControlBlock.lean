import Capybara.TcpHeader
import Capybara.StatsHandle

namespace Capybara

def maxOutOfOrder : Nat := 2048

inductive State
  | established | finWait1 | finWait2 | closing | timeWait | closeWait | lastAck | closed
  deriving DecidableEq, Repr

structure UnackedSegment where
  bytes : Buffer
  initialTx : Option Instant
  deriving DecidableEq, Repr

structure Sender where
  sendUnacked : SeqNumber
  unackedQueue : List UnackedSegment
  sendNext : SeqNumber
  unsentQueue : List Buffer
  unsentSeqNo : SeqNumber
  sendWindow : UInt32
  /-- Whether `send_window` was set since the background sender last watched it. -/
  sendWindowChanged : Bool
  sendWindowLastUpdateSeq : SeqNumber
  sendWindowLastUpdateAck : SeqNumber
  windowScale : UInt8
  mss : Nat
  deriving DecidableEq, Repr

def Sender.new (seqNo : SeqNumber) (sendWindow : UInt32) (windowScale : UInt8) (mss : Nat) : Sender where
  sendUnacked := seqNo
  unackedQueue := []
  sendNext := seqNo
  unsentQueue := []
  unsentSeqNo := seqNo
  sendWindow := sendWindow
  sendWindowChanged := false
  sendWindowLastUpdateSeq := seqNo
  sendWindowLastUpdateAck := seqNo
  windowScale := windowScale
  mss := mss

structure Receiver where
  readerNext : SeqNumber
  receiveNext : SeqNumber
  recvQueue : List Buffer
  recvQueueStats : StatsHandle
  rpsStats : StatsHandle
  deriving DecidableEq, Repr

def Receiver.new (readerNext receiveNext : SeqNumber) (recvQueueStats rpsStats : StatsHandle) : Receiver where
  readerNext := readerNext
  receiveNext := receiveNext
  recvQueue := []
  recvQueueStats := recvQueueStats
  rpsStats := rpsStats

/-- One segment handed to the runtime. `delayed` marks the ACKs that the delayed-ACK timer decided on. -/
structure Transmission where
  delayed : Bool
  segment : TcpSegment
  deriving DecidableEq, Repr

/-- The transmission control block. `rt` keeps what was passed to `rt.transmit`, oldest first. -/
structure ControlBlock where
  local_ : SocketAddrV4
  remote : SocketAddrV4
  rt : List Transmission
  sender : Sender
  state : State
  ackDelayTimeout : Duration
  ackDeadline : Option Instant
  receiveBufferSize : UInt32
  windowScale : UInt32
  outOfOrder : List (SeqNumber × Buffer)
  outOfOrderFin : Option SeqNumber
  receiver : Receiver
  userIsDoneSending : Bool
  retransmitDeadline : Option Instant
  deriving DecidableEq, Repr

/-- What the components around a control block answer during one call: the clock, the ARP cache for the
remote address, the RTO estimate and the congestion control. -/
structure Env where
  now : Instant
  arp : Option MacAddress
  rto : Duration
  cwnd : UInt32
  limitedTransmitCwndIncrease : UInt32
  deriving DecidableEq, Repr

namespace ControlBlock

def new (local_ remote : SocketAddrV4) (receiverSeqNo : SeqNumber) (ackDelayTimeout : Duration)
    (receiverWindowSize receiverWindowScale : UInt32) (senderSeqNo : SeqNumber) (senderWindowSize : UInt32)
    (senderWindowScale : UInt8) (senderMss : Nat) : ControlBlock where
  local_ := local_
  remote := remote
  rt := []
  sender := .new senderSeqNo senderWindowSize senderWindowScale senderMss
  state := .established
  ackDelayTimeout := ackDelayTimeout
  ackDeadline := none
  receiveBufferSize := receiverWindowSize
  windowScale := receiverWindowScale
  outOfOrder := []
  outOfOrderFin := none
  receiver := .new receiverSeqNo receiverSeqNo .new .new
  userIsDoneSending := false
  retransmitDeadline := none

def getReceiveWindowSize (cb : ControlBlock) : Option Nat :=
  let bytesUnread := (cb.receiver.receiveNext - cb.receiver.readerNext).toNat
  checkedSub cb.receiveBufferSize.toNat bytesUnread

def hdrWindowSize (cb : ControlBlock) : Option UInt16 := do
  let windowSize ← cb.getReceiveWindowSize
  -- A shift by 32 or more and a result beyond u16 both panic.
  if cb.windowScale.toNat < 32 ∧ windowSize / 2 ^ cb.windowScale.toNat < 2 ^ 16 then
    some (UInt16.ofNat (windowSize / 2 ^ cb.windowScale.toNat))
  else none

/-- The header of a segment to the peer, with the current window and acknowledgement number. -/
def tcpHeader (cb : ControlBlock) : Option TcpHeader := do
  let windowSize ← cb.hdrWindowSize
  some { TcpHeader.new cb.local_.port cb.remote.port with
    windowSize := windowSize
    ack := true
    ackNum := cb.receiver.receiveNext }

/-- The state after a segment with a FIN was sent. -/
def stateAfterFin : State → State
  | .established => .finWait1
  | .closeWait => .lastAck
  | s => s

def emit (cb : ControlBlock) (delayed : Bool) (header : TcpHeader) (body : Option Buffer)
    (remoteLinkAddr : MacAddress) : Option ControlBlock := do
  debugAssert header.ack
  some { cb with
    rt := cb.rt ++ [⟨delayed, ⟨remoteLinkAddr, cb.local_.ip, cb.remote.ip, header, body⟩⟩]
    ackDeadline := none
    state := if header.fin then stateAfterFin cb.state else cb.state }

def sendAck (cb : ControlBlock) (delayed : Bool) (env : Env) : Option ControlBlock := do
  let header ← cb.tcpHeader
  match env.arp with
  | some remoteLinkAddr => cb.emit delayed { header with seqNum := cb.sender.sendNext } none remoteLinkAddr
  | none => some cb

def disableStats (cb : ControlBlock) : ControlBlock :=
  { cb with receiver := { cb.receiver with
      recvQueueStats := cb.receiver.recvQueueStats.disable
      rpsStats := cb.receiver.rpsStats.disable } }

def enableStats (cb : ControlBlock) : Option ControlBlock := do
  let recvQueueStats ← cb.receiver.recvQueueStats.enable false cb.receiver.recvQueue.length
  let rpsStats ← cb.receiver.rpsStats.enable true 0
  some { cb with receiver := { cb.receiver with recvQueueStats := recvQueueStats, rpsStats := rpsStats } }

end ControlBlock

namespace Receiver

/-- `none` here is an empty receive queue. -/
def pop (r : Receiver) : Option (Buffer × Receiver) :=
  match r.recvQueue with
  | [] => none
  | buf :: recvQueue => some (buf, { r with
      recvQueue := recvQueue
      recvQueueStats := r.recvQueueStats.set recvQueue.length
      readerNext := r.readerNext + SeqNumber.ofNat buf.length })

def push (r : Receiver) (buf : Buffer) : Receiver :=
  { r with
    recvQueue := r.recvQueue ++ [buf]
    recvQueueStats := r.recvQueueStats.set (r.recvQueue ++ [buf]).length
    rpsStats := r.rpsStats.increment
    receiveNext := r.receiveNext + SeqNumber.ofNat buf.length }

end Receiver

/-- `poll_recv`: the next buffer for the application, or nothing yet. -/
def ControlBlock.pollRecv (cb : ControlBlock) : Option Buffer × ControlBlock :=
  match cb.receiver.pop with
  | none => (none, cb)
  | some (buf, receiver) => (some buf, { cb with receiver := receiver })

end Capybara
