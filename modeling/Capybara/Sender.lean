import Capybara.ControlBlock

namespace Capybara

def unsentQueueCutoff : Nat := 1024

namespace Sender

/-- Removes acknowledged bytes from the front of the retransmission queue. Running out of segments, or an
end-of-send marker with more than one byte left to remove, is a failed debug assertion. -/
def removeAcknowledgedData : List UnackedSegment → Nat → Option (List UnackedSegment)
  | queue, 0 => some queue
  | [], _ + 1 => none
  | segment :: queue, bytesRemaining + 1 =>
    if segment.bytes.length > bytesRemaining + 1 then do
      let bytes ← adjust segment.bytes (bytesRemaining + 1)
      some (⟨bytes, none⟩ :: queue)
    else if segment.bytes.length = 0 then
      if bytesRemaining + 1 = 1 then some queue else none
    else removeAcknowledgedData queue (bytesRemaining + 1 - segment.bytes.length)

/-- `None` of the source is the inner `none`. -/
def popOneUnsentByte (s : Sender) : Option (Option (Buffer × Sender)) :=
  match s.unsentQueue with
  | [] => some none
  | buf :: queue => do
    let rest ← adjust buf 1
    let byte ← trim buf (buf.length - 1)
    some (some (byte, { s with unsentQueue := rest :: queue }))

def popUnsent (s : Sender) (maxBytes : Nat) : Option (Option ((Buffer × Bool) × Sender)) :=
  match s.unsentQueue with
  | [] => some none
  | buf :: queue =>
    if buf.length > maxBytes then do
      let rest ← adjust buf maxBytes
      let first ← trim buf (buf.length - maxBytes)
      some (some ((first, false), { s with unsentQueue := rest :: queue }))
    else some (some ((buf, true), { s with unsentQueue := queue }))

def topSizeUnsent (s : Sender) : Option Nat := s.unsentQueue.head?.map List.length

def updateSendWindow (s : Sender) (header : TcpHeader) : Option Sender :=
  if s.sendWindowLastUpdateSeq.lt header.seqNum ∨
      (s.sendWindowLastUpdateSeq = header.seqNum ∧ s.sendWindowLastUpdateAck.le header.ackNum) then
    -- A shift by 32 or more panics; bits shifted out are lost.
    if s.windowScale.toNat < 32 then
      some { s with
        sendWindow := UInt32.ofNat (header.windowSize.toNat * 2 ^ s.windowScale.toNat)
        sendWindowChanged := true
        sendWindowLastUpdateSeq := header.seqNum
        sendWindowLastUpdateAck := header.ackNum }
    else none
  else some s

end Sender

namespace ControlBlock

/-- The sequence numbers a buffer takes when it is sent: the empty end-of-send marker takes one. -/
def sequenceLength (buf : Buffer) : Nat := if buf.length = 0 then 1 else buf.length

/-- Sets FIN for the end-of-send marker, else PSH unless the buffer is only a part. -/
def markHeader (header : TcpHeader) (buf : Buffer) (doPush : Bool) : TcpHeader :=
  if buf.length = 0 then { header with fin := true }
  else if doPush then { header with psh := true }
  else header

/-- Moves SND.NXT over a segment just sent and appends it to the retransmission queue. -/
def noteSent (cb : ControlBlock) (bytes : Buffer) (now : Instant) : ControlBlock :=
  { cb with sender := { cb.sender with
      sendNext := cb.sender.sendNext + SeqNumber.ofNat (sequenceLength bytes)
      unackedQueue := cb.sender.unackedQueue ++ [⟨bytes, some now⟩] } }

def startRetransmitTimer (cb : ControlBlock) (env : Env) : ControlBlock :=
  match cb.retransmitDeadline with
  | none => { cb with retransmitDeadline := some (env.now + env.rto) }
  | some _ => cb

/-- The immediate path of `send`; the inner `none` leaves the buffer to the queue. -/
def sendImmediate (cb : ControlBlock) (buf : Buffer) (env : Env) : Option (Option ControlBlock) :=
  if cb.sender.unsentQueue.isEmpty then do
    let sentData := (cb.sender.sendNext - cb.sender.sendUnacked).toNat
    let inFlightAfterSend ← addU32 sentData buf.length
    let effectiveCwnd ← addU32 env.cwnd.toNat env.limitedTransmitCwndIncrease.toNat
    let winSz := cb.sender.sendWindow.toNat
    if winSz > 0 ∧ winSz ≥ inFlightAfterSend ∧ effectiveCwnd ≥ inFlightAfterSend then
      match env.arp with
      | some remoteLinkAddr =>
        let header ← cb.tcpHeader
        let header := markHeader { header with seqNum := cb.sender.sendNext } buf true
        let cb ← cb.emit false header (some buf) remoteLinkAddr
        let cb := cb.noteSent buf env.now
        let cb := { cb with sender := { cb.sender with
          unsentSeqNo := cb.sender.unsentSeqNo + SeqNumber.ofNat (sequenceLength buf) } }
        some (some (cb.startRetransmitTimer env))
      | none => some none
    else some none
  else some none

def send (cb : ControlBlock) (buf : Buffer) (env : Env) : Option (Except Fail Unit × ControlBlock) :=
  if cb.userIsDoneSending then some (.error ⟨.EINVAL, "Connection is closing"⟩, cb)
  else if buf.length ≥ 2 ^ 32 then some (.error ⟨.EINVAL, "buffer too large"⟩, cb)
  else do
    match ← cb.sendImmediate buf env with
    | some cb => some (.ok (), cb)
    | none =>
      if cb.sender.unsentQueue.length > unsentQueueCutoff then
        some (.error ⟨.EBUSY, "too many packets to send"⟩, cb)
      else
        -- On this path the end-of-send marker adds nothing to the unsent sequence number.
        some (.ok (), { cb with sender := { cb.sender with
          unsentQueue := cb.sender.unsentQueue ++ [buf]
          unsentSeqNo := cb.sender.unsentSeqNo + SeqNumber.ofNat buf.length } })

def retransmit (cb : ControlBlock) (env : Env) : Option ControlBlock :=
  match cb.sender.unackedQueue with
  | [] => some cb
  | segment :: queue => do
    let cb := { cb with sender := { cb.sender with unackedQueue := { segment with initialTx := none } :: queue } }
    match env.arp with
    | some remoteLinkAddr =>
      let header ← cb.tcpHeader
      let header := markHeader { header with seqNum := cb.sender.sendUnacked } segment.bytes true
      cb.emit false header (some segment.bytes) remoteLinkAddr
    | none => some cb

def close (cb : ControlBlock) (env : Env) : Option (Except Fail Unit × ControlBlock) :=
  if cb.userIsDoneSending then some (.ok (), cb)
  else do
    let cb := cb.disableStats
    debugAssert (cb.state = .established ∨ cb.state = .closeWait)
    match ← cb.send [] env with
    | (.ok _, cb) => some (.ok (), { cb with userIsDoneSending := true })
    | (.error _, _) => none

end ControlBlock

end Capybara
