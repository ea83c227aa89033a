import Capybara.Lib.Matching
import Capybara.Delivery

namespace Capybara

open Matching

def TcpHeader.hidePort (header : TcpHeader) : TcpHeader := { header with srcPort := 0 }

/-- A segment without the address of its sender. -/
def TcpSegment.hideLocal (segment : TcpSegment) : TcpSegment :=
  { segment with localIp := ⟨0, 0, 0, 0⟩, tcpHdr := segment.tcpHdr.hidePort }

/-- What a peer sees of the transmissions when local addresses and delayed ACKs do not matter. -/
def segmentsOf (rt : List Transmission) : List TcpSegment :=
  (rt.filter fun t => !t.delayed).map fun t => t.segment.hideLocal

@[simp] theorem segmentsOf_append (rt rt' : List Transmission) :
    segmentsOf (rt ++ rt') = segmentsOf rt ++ segmentsOf rt' := by
  simp [segmentsOf]

/-- Two calls that find the same ARP entry and the same congestion window. -/
structure Env.Alike (env env' : Env) : Prop where
  arp : env'.arp = env.arp
  cwnd : env'.cwnd = env.cwnd
  limitedTransmitCwndIncrease : env'.limitedTransmitCwndIncrease = env.limitedTransmitCwndIncrease

structure SenderMirrors (watching : Prop) (s s' : Sender) : Prop where
  sendUnacked : s'.sendUnacked = s.sendUnacked
  unackedQueue : s'.unackedQueue.map UnackedSegment.bytes = s.unackedQueue.map UnackedSegment.bytes
  sendNext : s'.sendNext = s.sendNext
  unsentQueue : s'.unsentQueue = s.unsentQueue
  unsentSeqNo : s'.unsentSeqNo = s.unsentSeqNo
  sendWindow : s'.sendWindow = s.sendWindow
  sendWindowChanged : watching → s'.sendWindowChanged = s.sendWindowChanged
  sendWindowLastUpdateSeq : s'.sendWindowLastUpdateSeq = s.sendWindowLastUpdateSeq
  sendWindowLastUpdateAck : s'.sendWindowLastUpdateAck = s.sendWindowLastUpdateAck
  windowScale : s'.windowScale = s.windowScale
  mss : s'.mss = s.mss

structure ReceiverMirrors (r r' : Receiver) : Prop where
  readerNext : r'.readerNext = r.readerNext
  receiveNext : r'.receiveNext = r.receiveNext
  recvQueue : r'.recvQueue = r.recvQueue

/-- The second control block is the first one up to its local address, its clock readings, its statistics and its
delayed ACKs, and has sent the same segments since the first one had sent those of `base`. -/
structure Mirrors (base : List TcpSegment) (watching : Prop) (cb cb' : ControlBlock) : Prop where
  remote : cb'.remote = cb.remote
  rt : segmentsOf cb.rt = base ++ segmentsOf cb'.rt
  sender : SenderMirrors watching cb.sender cb'.sender
  state : cb'.state = cb.state
  receiveBufferSize : cb'.receiveBufferSize = cb.receiveBufferSize
  windowScale : cb'.windowScale = cb.windowScale
  outOfOrder : cb'.outOfOrder = cb.outOfOrder
  outOfOrderFin : cb'.outOfOrderFin = cb.outOfOrderFin
  receiver : ReceiverMirrors cb.receiver cb'.receiver
  userIsDoneSending : cb'.userIsDoneSending = cb.userIsDoneSending
  retransmitDeadline : cb'.retransmitDeadline.isSome = cb.retransmitDeadline.isSome

/-- A change that sends nothing but delayed ACKs. -/
structure OnlyDelayedAcks (cb cb₁ : ControlBlock) : Prop where
  eq : cb₁ = { cb with rt := cb₁.rt, ackDeadline := cb₁.ackDeadline }
  rt : segmentsOf cb₁.rt = segmentsOf cb.rt

section

variable {base : List TcpSegment} {watching : Prop} {cb cb' cb₁ : ControlBlock} {env env' : Env}

/-- The advertised window can be computed. -/
def WindowFits (cb : ControlBlock) : Prop := cb.tcpHeader.isSome = true

abbrev MirrorMatches (base : List TcpSegment) (watching : Prop) (o o' : Option ControlBlock) : Prop :=
  Matches (fun _ => True) (Mirrors base watching) o o'

theorem Mirrors.tcpHeader (h : Mirrors base watching cb cb') :
    cb'.tcpHeader = cb.tcpHeader.map fun header => { header with srcPort := cb'.local_.port } := by
  have hw : cb'.hdrWindowSize = cb.hdrWindowSize := by
    simp only [ControlBlock.hdrWindowSize, ControlBlock.getReceiveWindowSize, h.receiver.receiveNext,
      h.receiver.readerNext, h.receiveBufferSize, h.windowScale]
  simp only [ControlBlock.tcpHeader, hw, h.remote, h.receiver.receiveNext]
  cases cb.hdrWindowSize <;> rfl

theorem Mirrors.windowFits (h : Mirrors base watching cb cb') (hf : WindowFits cb) :
    ∃ header, cb'.tcpHeader = some header := by
  obtain ⟨header, hh⟩ := Option.isSome_iff_exists.mp hf
  exact ⟨_, by rw [h.tcpHeader, hh]; rfl⟩

theorem Mirrors.delayed_left (h : Mirrors base watching cb cb') (hd : OnlyDelayedAcks cb cb₁) :
    Mirrors base watching cb₁ cb' := by
  rw [hd.eq]
  exact { h with rt := by rw [← h.rt]; exact hd.rt }

theorem Mirrors.delayed_right (h : Mirrors base watching cb cb') (hd : OnlyDelayedAcks cb' cb₁) :
    Mirrors base watching cb cb₁ := by
  rw [hd.eq]
  exact { h with rt := by rw [h.rt]; exact congrArg _ hd.rt.symm }

theorem emit_mirrors (h : Mirrors base watching cb cb') {header header' : TcpHeader}
    (hh : header'.hidePort = header.hidePort) (delayed : Bool) (body : Option Buffer) (mac : MacAddress) :
    MirrorMatches base watching (cb.emit delayed header body mac) (cb'.emit delayed header' body mac) := by
  have hack : header'.ack = header.ack := by
    have hhide := congrArg TcpHeader.ack hh
    exact hhide
  have hfin : header'.fin = header.fin := by
    have hhide := congrArg TcpHeader.fin hh
    exact hhide
  simp only [ControlBlock.emit, hack, hfin, h.state, h.remote]
  refine .bind (.same _) fun _ _ _ => .ret { h with rt := ?_, state := rfl, remote := rfl }
  rw [segmentsOf_append, segmentsOf_append, h.rt, List.append_assoc]
  congr 2
  cases delayed with
  | true => rfl
  | false => simp [segmentsOf, TcpSegment.hideLocal, hh]

theorem sendAck_delayed (h : cb.sendAck true env = some cb₁) : OnlyDelayedAcks cb cb₁ := by
  obtain ⟨header, hh, h⟩ := Option.bind_eq_some_iff.mp h
  obtain ⟨hack, hfin⟩ := tcpHeader_flags hh
  cases ha : env.arp with
  | none =>
    simp only [ha, Option.some.injEq] at h
    subst h
    exact ⟨rfl, rfl⟩
  | some mac =>
    simp only [ha, ControlBlock.emit, hack, hfin, debugAssert, if_true, Bool.false_eq_true, if_false,
      Option.bind_eq_bind, Option.bind_some, Option.some.injEq] at h
    subst h
    exact ⟨rfl, by simp [segmentsOf]⟩

theorem scheduleAck_delayed (h : cb.scheduleAck env = some cb₁) : OnlyDelayedAcks cb cb₁ := by
  unfold ControlBlock.scheduleAck at h
  split at h
  next =>
    cases Option.some.inj h
    exact ⟨rfl, rfl⟩
  next =>
    obtain ⟨heq, hrt⟩ := sendAck_delayed h
    exact ⟨heq, hrt⟩

theorem OnlyDelayedAcks.windowFits (h : OnlyDelayedAcks cb cb₁) : WindowFits cb₁ ↔ WindowFits cb := by
  rw [h.eq]
  exact Iff.rfl

/-- The delayed-ACK timer may run on one side only; all it needs is a window to advertise. -/
theorem scheduleAck_mirrors (h : Mirrors base watching cb cb') :
    Matches WindowFits (Mirrors base watching) (cb.scheduleAck env) (cb'.scheduleAck env') := by
  intro cb₁ hcb hfits
  have hd := scheduleAck_delayed hcb
  obtain ⟨header, hheader⟩ := h.windowFits (hd.windowFits.mp hfits)
  obtain ⟨cb₁', hcb', -⟩ := scheduleAck_of_header hheader env'
  exact ⟨cb₁', hcb', (h.delayed_left hd).delayed_right (scheduleAck_delayed hcb')⟩

theorem sendAck_mirrors (h : Mirrors base watching cb cb') (he : env.Alike env') (delayed : Bool) :
    MirrorMatches base watching (cb.sendAck delayed env) (cb'.sendAck delayed env') := by
  simp only [ControlBlock.sendAck, h.tcpHeader, he.arp, h.sender.sendNext]
  cases cb.tcpHeader with
  | none => exact .fail
  | some header =>
    cases env.arp with
    | none => exact .ret h
    | some mac =>
      simp only [Option.map_some, Option.bind_eq_bind, Option.bind_some]
      refine emit_mirrors h ?_ delayed none mac
      rfl

end

end Capybara
