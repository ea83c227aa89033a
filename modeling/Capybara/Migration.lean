import Capybara.InFlight
import Capybara.StateRoundTrip

namespace Capybara

/-- `SenderState::from`; an MSS beyond `u32` is a panic. -/
def Sender.toState (s : Sender) : Option SenderState :=
  if s.mss < 2 ^ 32 then
    some {
      unsentSeqNo := s.unsentSeqNo
      sendUnacked := s.sendUnacked
      sendNext := s.sendNext
      sendWindow := s.sendWindow
      sendWindowLastUpdateSeq := s.sendWindowLastUpdateSeq
      sendWindowLastUpdateAck := s.sendWindowLastUpdateAck
      mss := UInt32.ofNat s.mss
      windowScale := s.windowScale
      unackedQueue := s.unackedQueue
      unsentQueue := s.unsentQueue }
  else none

def Receiver.toState (r : Receiver) : ReceiverState where
  readerNext := r.readerNext
  receiveNext := r.receiveNext
  recvQueue := r.recvQueue

/-- `ControlBlockState::from`. -/
def ControlBlock.toState (cb : ControlBlock) : Option ControlBlockState := do
  let sender ← cb.sender.toState
  some {
    local_ := cb.local_
    remote := cb.remote
    receiveBufferSize := cb.receiveBufferSize
    windowScale := cb.windowScale
    outOfOrderFin := cb.outOfOrderFin
    outOfOrderQueue := cb.outOfOrder
    receiver := cb.receiver.toState
    sender := sender }

/-- `Sender::from`. -/
def Sender.fromState (s : SenderState) : Sender where
  sendUnacked := s.sendUnacked
  unackedQueue := s.unackedQueue
  sendNext := s.sendNext
  unsentQueue := s.unsentQueue
  unsentSeqNo := s.unsentSeqNo
  sendWindow := s.sendWindow
  sendWindowChanged := false
  sendWindowLastUpdateSeq := s.sendWindowLastUpdateSeq
  sendWindowLastUpdateAck := s.sendWindowLastUpdateAck
  windowScale := s.windowScale
  mss := s.mss.toNat

def Receiver.fromState (r : ReceiverState) (recvQueueStats rpsStats : StatsHandle) : Receiver where
  readerNext := r.readerNext
  receiveNext := r.receiveNext
  recvQueue := r.recvQueue
  recvQueueStats := recvQueueStats
  rpsStats := rpsStats

def ControlBlock.fromState (ackDelayTimeout : Duration) (s : ControlBlockState) : ControlBlock where
  local_ := s.local_
  remote := s.remote
  rt := []
  sender := .fromState s.sender
  state := .established
  ackDelayTimeout := ackDelayTimeout
  ackDeadline := none
  receiveBufferSize := s.receiveBufferSize
  windowScale := s.windowScale
  outOfOrder := s.outOfOrderQueue
  outOfOrderFin := s.outOfOrderFin
  receiver := .fromState s.receiver .new .new
  userIsDoneSending := false
  retransmitDeadline := none

def ControlBlockState.setLocal (s : ControlBlockState) (local_ : SocketAddrV4) : ControlBlockState :=
  { s with local_ := local_ }

/-- The way of a connection from one server to another: export, encoding, decoding and import, with a new background
task. -/
def EstablishedSocket.migrate (s : EstablishedSocket) (appState : MigratedApplicationState) (local_ : SocketAddrV4)
    (ackDelayTimeout : Duration) : Option EstablishedSocket := do
  let cb ← s.cb.toState
  let buf ← TcpState.serialize ⟨cb, appState⟩
  let state ← TcpState.deserialize buf
  some ⟨.fromState ackDelayTimeout (state.cb.setLocal local_), .top⟩

/-- All queues and buffers of a control block fit the encoding of its state. -/
structure ControlBlock.Fits (cb : ControlBlock) : Prop where
  mss : cb.sender.mss < 2 ^ 32
  outOfOrder : DequeFits (fun e => BufferFits e.2) cb.outOfOrder
  recvQueue : DequeFits BufferFits cb.receiver.recvQueue
  unackedQueue : DequeFits (fun e => BufferFits e.bytes) cb.sender.unackedQueue
  unsentQueue : DequeFits BufferFits cb.sender.unsentQueue

/-- What arrives at the target of a control block. -/
def ControlBlock.arrived (cb : ControlBlock) (local_ : SocketAddrV4) (ackDelayTimeout : Duration) : ControlBlock :=
  { cb with
    local_ := local_
    rt := []
    sender := { cb.sender with
      unackedQueue := cb.sender.unackedQueue.map UnackedSegment.resetTx
      sendWindowChanged := false }
    state := .established
    ackDelayTimeout := ackDelayTimeout
    ackDeadline := none
    receiver := { cb.receiver with recvQueueStats := .new, rpsStats := .new }
    userIsDoneSending := false
    retransmitDeadline := none }

theorem migrate_of_fits {s : EstablishedSocket} (h : s.cb.Fits) (appState : MigratedApplicationState)
    (local_ : SocketAddrV4) (ackDelayTimeout : Duration) :
    s.migrate appState local_ ackDelayTimeout = some ⟨s.cb.arrived local_ ackDelayTimeout, .top⟩ := by
  have hmss : (UInt32.ofNat s.cb.sender.mss).toNat = s.cb.sender.mss := UInt32.toNat_ofNat_of_lt' h.mss
  obtain ⟨state, hstate, hfits, hback⟩ : ∃ state, s.cb.toState = some state ∧ state.Fits ∧
      ControlBlock.fromState ackDelayTimeout (state.resetTx.setLocal local_) = s.cb.arrived local_ ackDelayTimeout := by
    refine ⟨_, by simp only [ControlBlock.toState, Sender.toState, if_pos h.mss]; rfl, ?_, ?_⟩
    · exact ⟨h.outOfOrder, h.recvQueue, h.unackedQueue, h.unsentQueue⟩
    · simp only [ControlBlock.fromState, ControlBlockState.setLocal, ControlBlockState.resetTx, SenderState.resetTx,
        Sender.fromState, Receiver.fromState, Receiver.toState, ControlBlock.arrived, hmss]
  have hs := @TcpState.serialize_of_fits ⟨state, appState⟩ hfits
  have hd := @TcpState.deserialize_encode ⟨state, appState⟩ hfits
  simp only [EstablishedSocket.migrate, hstate, Option.bind_eq_bind, Option.bind_some, hs, hd, hback]

theorem fits_of_migrate {s t : EstablishedSocket} {appState : MigratedApplicationState} {local_ : SocketAddrV4}
    {ackDelayTimeout : Duration} (h : s.migrate appState local_ ackDelayTimeout = some t) : s.cb.Fits := by
  obtain ⟨state, hstate, h⟩ := Option.bind_eq_some_iff.mp h
  obtain ⟨buf, hbuf, -⟩ := Option.bind_eq_some_iff.mp h
  have hfits : state.Fits := by
    by_contra hn
    rw [@TcpState.serialize_of_not_fits ⟨state, appState⟩ hn] at hbuf
    cases hbuf
  obtain ⟨sender, hsender, hstate⟩ := Option.bind_eq_some_iff.mp hstate
  unfold Sender.toState at hsender
  split at hsender
  next hmss =>
    cases Option.some.inj hsender
    cases Option.some.inj hstate
    exact ⟨hmss, hfits.1, hfits.2.1, hfits.2.2.1, hfits.2.2.2⟩
  next => cases hsender

/-- The move changes nothing about what is on its way and what waits. -/
theorem arrived_outbox (cb : ControlBlock) (local_ : SocketAddrV4) (ackDelayTimeout : Duration) :
    (cb.arrived local_ ackDelayTimeout).sender.outbox = cb.sender.outbox := by
  simp only [ControlBlock.arrived, Sender.outbox, List.map_map]
  rfl

theorem Coherent.arrived {s : EstablishedSocket} (h : Coherent s) (local_ : SocketAddrV4) (ackDelayTimeout : Duration) :
    Coherent ⟨s.cb.arrived local_ ackDelayTimeout, .top⟩ where
  counts := by
    dsimp only
    rw [arrived_outbox]
    exact h.counts
  window := h.window
  scale := h.scale
  oneByte := fun _ _ _ hp => by cases hp
  watched := fun _ _ _ hp => by cases hp

end Capybara
