import Capybara.OutOfOrder
import Capybara.Sender

namespace Capybara

/-- The local variables of `receive` that the window trimming updates. -/
structure Incoming where
  header : TcpHeader
  data : Buffer
  segStart : SeqNumber
  segEnd : SeqNumber
  segLen : Nat
  deriving DecidableEq, Repr

/-- `none` drops the segment, after an ACK unless it carries RST. -/
abbrev Trimmed := Option Incoming

namespace ControlBlock

/-- The segment length in sequence numbers and the number of its last byte. -/
def incoming (header : TcpHeader) (data : Buffer) : Option Incoming := do
  let segLen := data.length % 2 ^ 32
  let segLen ← if header.syn then addU32 segLen 1 else some segLen
  let segLen ← if header.fin then addU32 segLen 1 else some segLen
  let segEnd := if segLen > 0 then header.seqNum + SeqNumber.ofNat (segLen - 1) else header.seqNum
  some ⟨header, data, header.seqNum, segEnd, segLen⟩

/-- Cuts off what lies before RCV.NXT. -/
def trimFront (receiveNext afterReceiveWindow : SeqNumber) (s : Incoming) : Option Trimmed :=
  if s.segStart = receiveNext then some (some s)
  else if s.segStart.lt receiveNext then
    if s.segEnd.lt receiveNext then some none
    else do
      let duplicate := (receiveNext - s.segStart).toNat
      let segLen ← checkedSub s.segLen duplicate
      let segStart := s.segStart + SeqNumber.ofNat duplicate
      if s.header.syn then
        let duplicate ← checkedSub duplicate 1
        let data ← adjust s.data duplicate
        some (some ⟨{ s.header with syn := false }, data, segStart, s.segEnd, segLen⟩)
      else
        let data ← adjust s.data duplicate
        some (some ⟨s.header, data, segStart, s.segEnd, segLen⟩)
  else if s.segStart.ge afterReceiveWindow then some none
  else some (some s)

/-- Cuts off what lies behind the receive window. -/
def trimBack (afterReceiveWindow : SeqNumber) (s : Incoming) : Option Incoming :=
  if s.segLen > 0 ∧ s.segEnd.ge afterReceiveWindow then do
    let excess := (s.segEnd - afterReceiveWindow).toNat + 1
    let segEnd := s.segEnd - SeqNumber.ofNat excess
    let segLen ← checkedSub s.segLen excess
    if s.header.fin then
      let data ← trim s.data (excess - 1)
      some ⟨{ s.header with fin := false }, data, s.segStart, segEnd, segLen⟩
    else
      let data ← trim s.data excess
      some ⟨s.header, data, s.segStart, segEnd, segLen⟩
  else some s

/-- The acceptability test and the trimming to the receive window. -/
def trimToWindow (cb : ControlBlock) (header : TcpHeader) (data : Buffer) : Option Trimmed := do
  let s ← incoming header data
  let receiveNext := cb.receiver.receiveNext
  let windowSize ← cb.getReceiveWindowSize
  let afterReceiveWindow := receiveNext + SeqNumber.ofNat windowSize
  match ← trimFront receiveNext afterReceiveWindow s with
  | none => some none
  | some s =>
    let s ← trimBack afterReceiveWindow s
    debugAssert (receiveNext.le s.segStart && s.segEnd.lt afterReceiveWindow)
    some (some s)

/-- What our peer's RST does; a second RST finds the connection closed already. -/
def processRst (cb : ControlBlock) : ControlBlock := { cb.disableStats with state := .closed }

/-- The state after everything we sent, a possible FIN included, is acknowledged. -/
def stateAfterAck : State → State
  | .finWait1 => .finWait2
  | .closing => .timeWait
  | .lastAck => .closed
  | s => s

/-- ACK processing; the inner `none` drops a segment that acknowledges data not sent yet. -/
def processAck (cb : ControlBlock) (header : TcpHeader) (env : Env) : Option (Option ControlBlock) :=
  let sendUnacknowledged := cb.sender.sendUnacked
  let sendNext := cb.sender.sendNext
  if sendUnacknowledged.lt header.ackNum then
    if header.ackNum.le sendNext then do
      let bytesAcknowledged := (header.ackNum - sendUnacknowledged).toNat
      let unackedQueue ← Sender.removeAcknowledgedData cb.sender.unackedQueue bytesAcknowledged
      let sender ← { cb.sender with
        unackedQueue := unackedQueue, sendUnacked := header.ackNum }.updateSendWindow header
      if header.ackNum = sendNext then
        some (some { cb with sender := sender, retransmitDeadline := none, state := stateAfterAck cb.state })
      else
        some (some { cb with sender := sender, retransmitDeadline := some (env.now + env.rto) })
    else some none
  else some (some cb)

/-- The states in which the peer may still send data. -/
def canReceiveData (s : State) : Bool :=
  match s with
  | .established | .finWait1 | .finWait2 => true
  | _ => false

/-- An out-of-order segment: its FIN and its data are stored for later. -/
def receiveOutOfOrder (cb : ControlBlock) (s : Incoming) (env : Env) : Option ControlBlock :=
  if s.segLen > 0 ∧ canReceiveData cb.state then do
    let (cb, segEnd, segLen) :=
      if s.header.fin then
        (cb.storeOutOfOrderFin s.segEnd, s.segEnd - SeqNumber.ofNat 1, s.segLen - 1)
      else (cb, s.segEnd, s.segLen)
    debugAssert (segLen = s.data.length % 2 ^ 32)
    let cb ← if segLen > 0 then cb.storeOutOfOrderSegment s.segStart segEnd s.data else some cb
    cb.sendAck false env
  else some cb

/-- The state after the peer's FIN; in state CLOSED the FIN is a panic. -/
def stateAfterPeerFin : State → Option State
  | .established => some .closeWait
  | .finWait1 => some .closing
  | .finWait2 => some .timeWait
  | .closed => none
  | s => some s

def processFin (cb : ControlBlock) (env : Env) : Option ControlBlock := do
  let cb := cb.disableStats
  let state ← stateAfterPeerFin cb.state
  let cb := { cb with
    state := state
    receiver := { cb.receiver with receiveNext := cb.receiver.receiveNext + SeqNumber.ofNat 1 } }
  cb.sendAck false env

/-- The delayed-ACK timer is started, or an ACK that is already owed is sent now. -/
def scheduleAck (cb : ControlBlock) (env : Env) : Option ControlBlock :=
  match cb.ackDeadline with
  | none => some { cb with ackDeadline := some (env.now + cb.ackDelayTimeout) }
  | some _ => { cb with ackDeadline := none }.sendAck true env

/-- The text and the FIN of a segment that starts at RCV.NXT. -/
def receiveInOrder (cb : ControlBlock) (s : Incoming) (env : Env) : Option ControlBlock := do
  let (shouldScheduleAck, fin, cb) ←
    if !s.data.isEmpty ∧ canReceiveData cb.state then do
      let (fin, cb) ← cb.receiveData s.segStart s.data
      some (true, s.header.fin || fin, cb)
    else some (false, s.header.fin, cb)
  if fin then cb.processFin env
  else if shouldScheduleAck then cb.scheduleAck env
  else some cb

/-- The main receive routine, from the RST check on. -/
def receiveTrimmed (cb : ControlBlock) (s : Incoming) (receiveNext : SeqNumber) (env : Env) :
    Option ControlBlock :=
  if s.header.rst then some cb.processRst
  else if s.header.syn then some { cb with state := .closed }
  else if !s.header.ack then some cb
  else do
    match ← cb.processAck s.header env with
    | none => cb.sendAck false env
    | some cb =>
      if s.segStart ≠ receiveNext then cb.receiveOutOfOrder s env
      else cb.receiveInOrder s env

/-- The main receive routine. -/
def receive (cb : ControlBlock) (header : TcpHeader) (data : Buffer) (env : Env) : Option ControlBlock := do
  match ← cb.trimToWindow header data with
  | none => if header.rst then some cb else cb.sendAck false env
  | some s => cb.receiveTrimmed s cb.receiver.receiveNext env

end ControlBlock

end Capybara
