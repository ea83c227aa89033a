import Capybara.Delivery
import Capybara.EstablishedSocket

namespace Capybara

open ControlBlock

/-- The send side of a connection over buffers: what is on its way to the peer and what waits to be sent. -/
structure Outbox where
  sendUnacked : SeqNumber
  inFlight : List Buffer
  sendNext : SeqNumber
  waiting : List Buffer
  unsentSeqNo : SeqNumber
  deriving DecidableEq, Repr

def Sender.outbox (s : Sender) : Outbox :=
  ⟨s.sendUnacked, s.unackedQueue.map UnackedSegment.bytes, s.sendNext, s.unsentQueue, s.unsentSeqNo⟩

/-- The sequence numbers a list of buffers takes. -/
def seqTotal (bufs : List Buffer) : Nat := (bufs.map sequenceLength).sum

namespace Outbox

def send (o : Outbox) (buf : Buffer) : Outbox :=
  { o with inFlight := o.inFlight ++ [buf], sendNext := o.sendNext + SeqNumber.ofNat (sequenceLength buf) }

/-- What `send` does to a buffer that goes out at once. -/
def sendNow (o : Outbox) (buf : Buffer) : Outbox :=
  { o.send buf with unsentSeqNo := o.unsentSeqNo + SeqNumber.ofNat (sequenceLength buf) }

def queue (o : Outbox) (buf : Buffer) : Outbox :=
  { o with waiting := o.waiting ++ [buf], unsentSeqNo := o.unsentSeqNo + SeqNumber.ofNat buf.length }

end Outbox

/-- The sequence number and the bytes of a segment that is more than an ACK. -/
def Transmission.text (t : Transmission) : Option (SeqNumber × Buffer) :=
  t.segment.data.map fun buf => (t.segment.tcpHdr.seqNum, buf)

/-- What the sending side leaves alone. -/
structure SameInbound (cb cb' : ControlBlock) : Prop where
  receiveNext : cb'.receiver.receiveNext = cb.receiver.receiveNext
  readerNext : cb'.receiver.readerNext = cb.receiver.readerNext
  recvQueue : cb'.receiver.recvQueue = cb.receiver.recvQueue
  outOfOrder : cb'.outOfOrder = cb.outOfOrder
  outOfOrderFin : cb'.outOfOrderFin = cb.outOfOrderFin
  receiveBufferSize : cb'.receiveBufferSize = cb.receiveBufferSize
  windowScale : cb'.windowScale = cb.windowScale

/-- The window of the peer, as far as only its ACKs change it. -/
structure SameWindow (cb cb' : ControlBlock) : Prop where
  sendWindow : cb'.sender.sendWindow = cb.sender.sendWindow
  sendWindowChanged : cb.sender.sendWindowChanged = false → cb'.sender.sendWindowChanged = false
  windowScale : cb'.sender.windowScale = cb.sender.windowScale
  mss : cb'.sender.mss = cb.sender.mss

/-- Two blocks that differ in timers, statistics and send queues at most. -/
structure Aside (cb cb' : ControlBlock) : Prop where
  rt : cb'.rt = cb.rt
  state : cb'.state = cb.state
  inbound : SameInbound cb cb'
  window : SameWindow cb cb'
  done : cb'.userIsDoneSending = cb.userIsDoneSending

def stateAfterSending : Option (SeqNumber × Buffer) → State → State
  | some (_, []), s => stateAfterFin s
  | _, s => s

/-- What goes out: ACKs and at most one segment with text, or with the FIN if its text is empty. -/
def Emits (cb cb' : ControlBlock) (sent : Option (SeqNumber × Buffer)) : Prop :=
  ∃ out : List Transmission, cb'.rt = cb.rt ++ out ∧ out.filterMap Transmission.text = sent.toList ∧
    ∀ t ∈ out, t.segment.tcpHdr.fin = true ↔ t.segment.data = some []

/-- A move of the sending side: at most one segment with text or FIN goes out, and the queues become those of `o`. -/
structure Moves (cb cb' : ControlBlock) (sent : Option (SeqNumber × Buffer)) (o : Outbox) : Prop where
  emitted : Emits cb cb' sent
  outbox : cb'.sender.outbox = o
  state : cb'.state = stateAfterSending sent cb.state
  inbound : SameInbound cb cb'
  window : SameWindow cb cb'
  done : cb'.userIsDoneSending = cb.userIsDoneSending

section

variable {cb cb' cb₁ : ControlBlock} {o : Outbox} {sent : Option (SeqNumber × Buffer)} {env : Env}

theorem Emits.nothing (hrt : cb'.rt = cb.rt) : Emits cb cb' none := ⟨[], by simp [hrt], rfl, by simp⟩

theorem Emits.trans (h : Emits cb cb₁ sent) (hrt : cb'.rt = cb₁.rt) : Emits cb cb' sent := by
  rw [Emits, hrt]
  exact h

theorem Emits.congr (h : Emits cb₁ cb' sent) (hrt : cb₁.rt = cb.rt) : Emits cb cb' sent := by
  rw [Emits, ← hrt]
  exact h

theorem SameInbound.refl (cb : ControlBlock) : SameInbound cb cb := ⟨rfl, rfl, rfl, rfl, rfl, rfl, rfl⟩

theorem SameWindow.refl (cb : ControlBlock) : SameWindow cb cb := ⟨rfl, id, rfl, rfl⟩

theorem Moves.refl (cb : ControlBlock) : Moves cb cb none cb.sender.outbox where
  emitted := .nothing rfl
  outbox := rfl
  state := rfl
  inbound := .refl cb
  window := .refl cb
  done := rfl

theorem SameInbound.trans (h : SameInbound cb cb₁) (h' : SameInbound cb₁ cb') : SameInbound cb cb' :=
  ⟨h'.1.trans h.1, h'.2.trans h.2, h'.3.trans h.3, h'.4.trans h.4, h'.5.trans h.5, h'.6.trans h.6, h'.7.trans h.7⟩

theorem SameWindow.trans (h : SameWindow cb cb₁) (h' : SameWindow cb₁ cb') : SameWindow cb cb' :=
  ⟨h'.1.trans h.1, h'.2 ∘ h.2, h'.3.trans h.3, h'.4.trans h.4⟩

theorem Aside.sender {s : Sender} (h : SameWindow cb { cb with sender := s }) : Aside cb { cb with sender := s } :=
  ⟨rfl, rfl, ⟨rfl, rfl, rfl, rfl, rfl, rfl, rfl⟩, h, rfl⟩

theorem Aside.timers (cb : ControlBlock) (ackDeadline retransmitDeadline : Option Instant) :
    Aside cb { cb with ackDeadline := ackDeadline, retransmitDeadline := retransmitDeadline } :=
  ⟨rfl, rfl, ⟨rfl, rfl, rfl, rfl, rfl, rfl, rfl⟩, ⟨rfl, id, rfl, rfl⟩, rfl⟩

theorem Aside.disableStats (cb : ControlBlock) : Aside cb cb.disableStats :=
  ⟨rfl, rfl, ⟨rfl, rfl, rfl, rfl, rfl, rfl, rfl⟩, ⟨rfl, id, rfl, rfl⟩, rfl⟩

/-- Afterwards something that no move is about may change, and the queues may be set. -/
theorem Moves.finish (h : Moves cb cb₁ sent o) {o' : Outbox} (ha : Aside cb₁ cb') (ho : cb'.sender.outbox = o') :
    Moves cb cb' sent o' where
  emitted := h.emitted.trans ha.rt
  outbox := ho
  state := ha.state.trans h.state
  inbound := h.inbound.trans ha.inbound
  window := h.window.trans ha.window
  done := ha.done.trans h.done

theorem Moves.precede (h : Moves cb₁ cb' sent o) (ha : Aside cb cb₁) : Moves cb cb' sent o where
  emitted := h.emitted.congr ha.rt
  outbox := h.outbox
  state := ha.state ▸ h.state
  inbound := ha.inbound.trans h.inbound
  window := ha.window.trans h.window
  done := h.done.trans ha.done

theorem emit_moves {delayed : Bool} {header : TcpHeader} {body : Option Buffer} {mac : MacAddress}
    (h : cb.emit delayed header body mac = some cb') (hfin : header.fin = true ↔ body = some []) :
    Moves cb cb' (body.map fun buf => (header.seqNum, buf)) cb.sender.outbox := by
  obtain ⟨-, -, h⟩ := Option.bind_eq_some_iff.mp h
  cases Option.some.inj h
  refine ⟨⟨_, rfl, ?_, ?_⟩, rfl, ?_, ⟨rfl, rfl, rfl, rfl, rfl, rfl, rfl⟩, ⟨rfl, id, rfl, rfl⟩, rfl⟩
  · cases body <;> rfl
  · simpa using hfin
  · rcases body with - | - | ⟨byte, buf⟩
    · simp [stateAfterSending, hfin]
    · simp [stateAfterSending, hfin]
    · simp [stateAfterSending, hfin]

theorem sendAck_moves {delayed : Bool} (h : cb.sendAck delayed env = some cb') : Moves cb cb' none cb.sender.outbox := by
  obtain ⟨header, hh, h⟩ := Option.bind_eq_some_iff.mp h
  obtain ⟨-, hfin⟩ := tcpHeader_flags hh
  cases ha : env.arp with
  | none =>
    simp only [ha, Option.some.injEq] at h
    subst cb'
    exact .refl cb
  | some mac =>
    simp only [ha] at h
    exact emit_moves h (by simp [hfin])

theorem markHeader_fin {header : TcpHeader} (h : header.fin = false) (buf : Buffer) (doPush : Bool) :
    (markHeader header buf doPush).fin = true ↔ some buf = some [] := by
  unfold markHeader
  split
  next he => simpa using List.eq_nil_of_length_eq_zero he
  next hne => split <;> simpa [h] using fun he => hne (by simp [he])

theorem markHeader_seqNum (header : TcpHeader) (buf : Buffer) (doPush : Bool) :
    (markHeader header buf doPush).seqNum = header.seqNum := by
  unfold markHeader
  split
  · rfl
  · split <;> rfl

/-- A segment from the send queues goes out. -/
theorem emitMarked_moves {header : TcpHeader} {seqNum : SeqNumber} {buf : Buffer} {doPush : Bool} {mac : MacAddress}
    (hh : cb.tcpHeader = some header)
    (h : cb.emit false (markHeader { header with seqNum := seqNum } buf doPush) (some buf) mac = some cb') :
    Moves cb cb' (some (seqNum, buf)) cb.sender.outbox := by
  have hfin : ({ header with seqNum := seqNum } : TcpHeader).fin = false := (tcpHeader_flags hh).2
  have hm := emit_moves h (markHeader_fin hfin buf doPush)
  rwa [markHeader_seqNum] at hm

theorem startRetransmitTimer_moves (h : Moves cb cb₁ sent o) : Moves cb (cb₁.startRetransmitTimer env) sent o := by
  unfold startRetransmitTimer
  split
  · exact h.finish (.timers cb₁ cb₁.ackDeadline _) h.outbox
  · exact h

theorem noteSent_outbox (cb : ControlBlock) (buf : Buffer) (now : Instant) :
    (cb.noteSent buf now).sender.outbox = cb.sender.outbox.send buf := by
  simp [noteSent, Sender.outbox, Outbox.send]

theorem noteSent_moves (h : Moves cb cb₁ sent o) (buf : Buffer) (now : Instant) :
    Moves cb (cb₁.noteSent buf now) sent (o.send buf) :=
  h.finish (.sender ⟨rfl, id, rfl, rfl⟩) (by rw [noteSent_outbox, h.outbox])

/-- Whether `send` sends a buffer at once. -/
def SendsNow (cb : ControlBlock) (buf : Buffer) (env : Env) : Prop :=
  cb.sender.unsentQueue = [] ∧ env.arp.isSome ∧ 0 < cb.sender.sendWindow.toNat ∧
    (cb.sender.sendNext - cb.sender.sendUnacked).toNat + buf.length ≤
      min cb.sender.sendWindow.toNat (env.cwnd.toNat + env.limitedTransmitCwndIncrease.toNat)

instance (cb : ControlBlock) (buf : Buffer) (env : Env) : Decidable (SendsNow cb buf env) :=
  inferInstanceAs (Decidable (_ ∧ _))

/-- Whether `send` leaves a buffer to the background sender, if the user is not done. -/
def Queues (cb : ControlBlock) (buf : Buffer) (env : Env) : Prop :=
  ¬SendsNow cb buf env ∧ buf.length < 2 ^ 32 ∧ cb.sender.unsentQueue.length ≤ unsentQueueCutoff

instance (cb : ControlBlock) (buf : Buffer) (env : Env) : Decidable (Queues cb buf env) :=
  inferInstanceAs (Decidable (_ ∧ _))

theorem sendImmediate_cases {buf : Buffer} {result : Option ControlBlock} (h : cb.sendImmediate buf env = some result) :
    (result = none ∧ ¬SendsNow cb buf env) ∨ ∃ cb', result = some cb' ∧ SendsNow cb buf env ∧
      Moves cb cb' (some (cb.sender.sendNext, buf)) (cb.sender.outbox.sendNow buf) := by
  unfold sendImmediate at h
  split at h
  next hempty =>
    have hqueue : cb.sender.unsentQueue = [] := List.isEmpty_iff.mp hempty
    obtain ⟨inFlight, hin, h⟩ := Option.bind_eq_some_iff.mp h
    obtain ⟨cwnd, hcwnd, h⟩ := Option.bind_eq_some_iff.mp h
    obtain ⟨-, hin⟩ := Option.ite_none_right_eq_some.mp hin
    obtain ⟨-, hcwnd⟩ := Option.ite_none_right_eq_some.mp hcwnd
    cases hin
    cases hcwnd
    dsimp only at h
    split at h
    next hroom =>
      split at h
      next mac harp =>
        obtain ⟨header, hh, h⟩ := Option.bind_eq_some_iff.mp h
        obtain ⟨cb₁, hemit, h⟩ := Option.bind_eq_some_iff.mp h
        cases Option.some.inj h
        have hm := emitMarked_moves hh hemit
        refine .inr ⟨_, rfl, ⟨hqueue, by simp [harp], hroom.1, by omega⟩, ?_⟩
        apply startRetransmitTimer_moves
        refine (noteSent_moves hm buf env.now).finish (.sender ⟨rfl, id, rfl, rfl⟩) ?_
        have hout := noteSent_outbox cb₁ buf env.now
        rw [hm.outbox] at hout
        change { (cb₁.noteSent buf env.now).sender.outbox with
          unsentSeqNo := (cb₁.noteSent buf env.now).sender.outbox.unsentSeqNo + SeqNumber.ofNat (sequenceLength buf) } = _
        rw [hout]
        rfl
      next harp =>
        cases Option.some.inj h
        refine .inl ⟨rfl, fun hs => ?_⟩
        obtain ⟨-, hsome, -⟩ := hs
        simp [harp] at hsome
    next hroom =>
      cases Option.some.inj h
      refine .inl ⟨rfl, fun hs => hroom ?_⟩
      obtain ⟨-, -, hpos, hle⟩ := hs
      omega
  next hne =>
    cases Option.some.inj h
    exact .inl ⟨rfl, fun hs => hne (by simp [hs.1])⟩

theorem send_cases {buf : Buffer} {result : Except Fail Unit} (h : cb.send buf env = some (result, cb')) :
    ((∃ fail, result = .error fail) ∧ cb' = cb) ∨
      (result = .ok () ∧ cb.userIsDoneSending = false ∧
        ((SendsNow cb buf env ∧ Moves cb cb' (some (cb.sender.sendNext, buf)) (cb.sender.outbox.sendNow buf)) ∨
          (Queues cb buf env ∧ Moves cb cb' none (cb.sender.outbox.queue buf)))) := by
  unfold ControlBlock.send at h
  split at h
  next =>
    cases h
    exact .inl ⟨⟨_, rfl⟩, rfl⟩
  next hopen =>
    have hdone : cb.userIsDoneSending = false := by simpa using hopen
    split at h
    next =>
      cases h
      exact .inl ⟨⟨_, rfl⟩, rfl⟩
    next hlen =>
      obtain ⟨immediate, himm, h⟩ := Option.bind_eq_some_iff.mp h
      rcases sendImmediate_cases himm with ⟨rfl, hnot⟩ | ⟨cb₁, rfl, hnow, hm⟩
      · dsimp only at h
        split at h
        next =>
          cases h
          exact .inl ⟨⟨_, rfl⟩, rfl⟩
        next hroom =>
          cases h
          refine .inr ⟨rfl, hdone, .inr ⟨⟨hnot, by omega, by omega⟩, ?_⟩⟩
          exact (Moves.refl cb).finish (.sender ⟨rfl, id, rfl, rfl⟩) rfl
      · cases h
        exact .inr ⟨rfl, hdone, .inl ⟨hnow, hm⟩⟩

/-- The oldest segment on its way goes out again. -/
theorem retransmit_moves (h : cb.retransmit env = some cb') :
    Moves cb cb' none cb.sender.outbox ∨ ∃ buf rest, cb.sender.outbox.inFlight = buf :: rest ∧
      Moves cb cb' (some (cb.sender.sendUnacked, buf)) cb.sender.outbox := by
  unfold ControlBlock.retransmit at h
  split at h
  next =>
    cases h
    exact .inl (.refl cb)
  next segment queue hq =>
    have hout : cb.sender.outbox.inFlight = segment.bytes :: queue.map UnackedSegment.bytes := by
      simp [Sender.outbox, hq]
    have hsame : { cb.sender with unackedQueue := { segment with initialTx := none } :: queue }.outbox =
        cb.sender.outbox := by
      simp [Sender.outbox, hq]
    have hstart : Moves cb { cb with sender := { cb.sender with
        unackedQueue := { segment with initialTx := none } :: queue } } none cb.sender.outbox :=
      (Moves.refl cb).finish (.sender ⟨rfl, id, rfl, rfl⟩) hsame
    dsimp only [Option.bind_eq_bind] at h
    split at h
    next mac harp =>
      obtain ⟨header, hh, h⟩ := Option.bind_eq_some_iff.mp h
      have hm := emitMarked_moves hh h
      rw [hsame] at hm
      exact .inr ⟨_, _, hout, hm.precede (.sender hstart.window)⟩
    next =>
      cases h
      exact .inl hstart

theorem emitProbe_moves {byte : UInt8} {seqNum : SeqNumber} {mac : MacAddress}
    (h : cb.emitProbe [byte] seqNum mac = some cb') : Moves cb cb' (some (seqNum, [byte])) cb.sender.outbox := by
  obtain ⟨header, hh, h⟩ := Option.bind_eq_some_iff.mp h
  have hfin := (tcpHeader_flags hh).2
  exact emit_moves h (by simp [hfin])

theorem close_cases {result : Except Fail Unit} (h : cb.close env = some (result, cb')) :
    (cb.userIsDoneSending = true ∧ cb' = cb) ∨
      (cb.userIsDoneSending = false ∧ (cb.state = .established ∨ cb.state = .closeWait) ∧ ∃ cb₁,
        cb' = { cb₁ with userIsDoneSending := true } ∧
        ((SendsNow cb [] env ∧ Moves cb cb₁ (some (cb.sender.sendNext, [])) (cb.sender.outbox.sendNow [])) ∨
          (Queues cb [] env ∧ Moves cb cb₁ none (cb.sender.outbox.queue [])))) := by
  unfold ControlBlock.close at h
  split at h
  next hdone =>
    cases h
    exact .inl ⟨hdone, rfl⟩
  next hopen =>
    have hdone : cb.userIsDoneSending = false := by simpa using hopen
    obtain ⟨_, hassert, h⟩ := Option.bind_eq_some_iff.mp h
    obtain ⟨hstate, -⟩ := Option.ite_none_right_eq_some.mp hassert
    obtain ⟨⟨result₁, cb₁⟩, hsend, h⟩ := Option.bind_eq_some_iff.mp h
    have hstats : ∀ {cb₁ sent o}, Moves cb.disableStats cb₁ sent o → Moves cb cb₁ sent o :=
      fun hm => hm.precede (.disableStats cb)
    rcases send_cases hsend with ⟨⟨fail, rfl⟩, -⟩ | ⟨rfl, -, hmoves⟩
    · cases h
    · obtain ⟨-, rfl⟩ := Prod.mk.inj (Option.some.inj h)
      refine .inr ⟨hdone, of_decide_eq_true hstate, cb₁, rfl, ?_⟩
      exact hmoves.imp (fun hm => ⟨hm.1, hstats hm.2⟩) fun hm => ⟨hm.1, hstats hm.2⟩

/-- The window probe: the first waiting buffer loses its first byte, which goes out alone. -/
theorem sendProbe_cases {sendNext : SeqNumber} {mac : MacAddress} {now : Instant} {s : EstablishedSocket}
    (h : cb.sendProbe sendNext mac now = some s) :
    ∃ byte rest queue, cb.sender.unsentQueue = (byte :: rest) :: queue ∧ s.sender = .probing [byte] sendNext mac ∧
      s.cb.sender.sendWindowChanged = false ∧ Moves cb s.cb (some (sendNext, [byte]))
        ({ cb.sender.outbox with waiting := rest :: queue }.send [byte]) := by
  obtain ⟨popped, hpop, h⟩ := Option.bind_eq_some_iff.mp h
  unfold Sender.popOneUnsentByte at hpop
  split at hpop
  next =>
    cases hpop
    cases h
  next buf queue hq =>
    cases buf with
    | nil => cases hpop
    | cons byte rest =>
      have hone : adjust (byte :: rest) 1 = some rest := adjust_of_le (by simp)
      have hlast : trim (byte :: rest) ((byte :: rest).length - 1) = some [byte] := by
        rw [trim_of_le (by simp)]
        simp
      simp only [hone, hlast, Option.bind_eq_bind, Option.bind_some, Option.some.injEq] at hpop
      subst hpop
      obtain ⟨cb₁, hemit, h⟩ := Option.bind_eq_some_iff.mp h
      cases Option.some.inj h
      have hm := emitProbe_moves hemit
      refine ⟨byte, rest, queue, hq, rfl, rfl, ?_⟩
      have hout : cb₁.sender.outbox = { cb.sender.outbox with waiting := rest :: queue }.send [byte] := by
        rw [hm.outbox]
        simp [Sender.outbox, Outbox.send, sequenceLength]
      have hsent : Moves cb cb₁ (some (sendNext, [byte])) _ :=
        hm.precede (.sender ⟨rfl, id, rfl, rfl⟩)
      exact hsent.finish (.sender ⟨rfl, fun _ => rfl, rfl, rfl⟩) hout

theorem popUnsent_cases {s s' : Sender} {maxBytes : Nat} {piece : Buffer} {doPush : Bool}
    (h : s.popUnsent maxBytes = some (some ((piece, doPush), s'))) :
    ∃ buf queue, s.unsentQueue = buf :: queue ∧ piece = buf.take maxBytes ∧
      s' = { s with unsentQueue := if buf.length ≤ maxBytes then queue else buf.drop maxBytes :: queue } := by
  unfold Sender.popUnsent at h
  split at h
  next => cases h
  next buf queue hq =>
    refine ⟨buf, queue, hq, ?_⟩
    split at h
    next hlong =>
      have hrest : adjust buf maxBytes = some (buf.drop maxBytes) := adjust_of_le (by omega)
      have hfirst : trim buf (buf.length - maxBytes) = some (buf.take maxBytes) := by
        rw [trim_of_le (by omega), Nat.sub_sub_self (by omega)]
      simp only [hrest, hfirst, Option.bind_eq_bind, Option.bind_some, Option.some.injEq, Prod.mk.injEq] at h
      obtain ⟨⟨rfl, -⟩, rfl⟩ := h
      exact ⟨rfl, by rw [if_neg (by omega)]⟩
    next hshort =>
      simp only [Option.some.injEq, Prod.mk.injEq] at h
      obtain ⟨⟨rfl, -⟩, rfl⟩ := h
      exact ⟨(List.take_of_length_le (by omega)).symm, by rw [if_pos (by omega)]⟩

/-- A segment from the unsent queue, of the given size at most. -/
theorem sendUnsent_cases {sendNext : SeqNumber} {maxSize : Nat} {mac : MacAddress} {s : EstablishedSocket}
    (h : cb.sendUnsent sendNext maxSize mac env = some s) :
    s.sender = .top ∧ ∃ buf queue, cb.sender.unsentQueue = buf :: queue ∧
      (buf.take maxSize = [] → cb.userIsDoneSending = true) ∧
      Moves cb s.cb (some (sendNext, buf.take maxSize))
        ({ cb.sender.outbox with
          waiting := if buf.length ≤ maxSize then queue else buf.drop maxSize :: queue }.send (buf.take maxSize)) := by
  obtain ⟨popped, hpop, h⟩ := Option.bind_eq_some_iff.mp h
  rcases popped with - | ⟨⟨piece, doPush⟩, sender⟩
  · cases h
  · obtain ⟨buf, queue, hq, rfl, rfl⟩ := popUnsent_cases hpop
    obtain ⟨header, hh, h⟩ := Option.bind_eq_some_iff.mp h
    obtain ⟨_, hassert, h⟩ := Option.bind_eq_some_iff.mp h
    obtain ⟨hmarker, -⟩ := Option.ite_none_right_eq_some.mp hassert
    obtain ⟨cb₁, hemit, h⟩ := Option.bind_eq_some_iff.mp h
    cases Option.some.inj h
    have hm := emitMarked_moves hh hemit
    refine ⟨rfl, buf, queue, hq, fun he => ?_, ?_⟩
    · simpa [he] using hmarker
    · have hsent : Moves cb cb₁ (some (sendNext, buf.take maxSize)) _ :=
        hm.precede (.sender ⟨rfl, id, rfl, rfl⟩)
      apply startRetransmitTimer_moves
      exact noteSent_moves hsent _ _

/-- What the background sender holds when it sends: what it reads at the top of its loop, or what it read there before
it had to wait for the link address. -/
inductive HasRead (s : EstablishedSocket) (env : Env) : Awaiting → Prop
  | before {awaiting : Awaiting} (htask : s.sender = .awaiting awaiting) : HasRead s env awaiting
  | closed (htop : s.sender = .top) (hsent : s.cb.sender.sendNext ≠ s.cb.sender.unsentSeqNo)
      (hwin : s.cb.sender.sendWindow = 0) : HasRead s env (.probe s.cb.sender.sendNext)
  | opened {buf : Buffer} {queue : List Buffer} (htop : s.sender = .top)
      (hsent : s.cb.sender.sendNext ≠ s.cb.sender.unsentSeqNo) (hwin : s.cb.sender.sendWindow ≠ 0)
      (hsum : env.cwnd.toNat + env.limitedTransmitCwndIncrease.toNat < 2 ^ 32)
      (hq : s.cb.sender.unsentQueue = buf :: queue)
      (hroom : (s.cb.sender.sendNext - s.cb.sender.sendUnacked).toNat + buf.length % 2 ^ 32 <
        s.cb.sender.sendWindow.toNat)
      (hcwnd : (s.cb.sender.sendNext - s.cb.sender.sendUnacked).toNat + s.cb.sender.mss % 2 ^ 32 <
        env.cwnd.toNat + env.limitedTransmitCwndIncrease.toNat) :
      HasRead s env (.segment s.cb.sender.sendNext s.cb.sender.sendWindow.toNat
        (s.cb.sender.sendNext - s.cb.sender.sendUnacked).toNat (env.cwnd.toNat + env.limitedTransmitCwndIncrease.toNat))

theorem HasRead.not_probing {s : EstablishedSocket} {awaiting : Awaiting} {buf : Buffer} {sendNext : SeqNumber}
    {mac : MacAddress} (h : HasRead s env awaiting) : s.sender ≠ .probing buf sendNext mac := by
  intro htask
  cases h with
  | before hsame => cases htask.symm.trans hsame
  | closed htop => cases htask.symm.trans htop
  | opened htop => cases htask.symm.trans htop

/-- Whether a turn of the background sender sends a window probe. -/
def EstablishedSocket.sendsProbe (s : EstablishedSocket) (env : Env) : Bool :=
  env.arp.isSome && match s.sender with
    | .top => s.cb.sender.sendNext ≠ s.cb.sender.unsentSeqNo && s.cb.sender.sendWindow = 0
    | .awaiting (.probe _) => true
    | .awaiting (.segment _ _ _ _) | .probing _ _ _ => false

/-- Whether a turn of the background sender can cut a segment off the unsent queue. -/
def EstablishedSocket.cutsSegment (s : EstablishedSocket) (env : Env) : Bool :=
  env.arp.isSome && match s.sender with
    | .top => s.cb.sender.sendNext ≠ s.cb.sender.unsentSeqNo && s.cb.sender.sendWindow ≠ 0
    | .awaiting (.segment _ _ _ _) => true
    | .awaiting (.probe _) | .probing _ _ _ => false

theorem HasRead.sendsProbe {s : EstablishedSocket} {sendNext : SeqNumber} {mac : MacAddress}
    (h : HasRead s env (.probe sendNext)) (harp : env.arp = some mac) : s.sendsProbe env = true := by
  cases h with
  | before htask => simp [EstablishedSocket.sendsProbe, htask, harp]
  | closed htop hsent hwin => simp [EstablishedSocket.sendsProbe, htop, harp, hsent, hwin]

theorem HasRead.cutsSegment {s : EstablishedSocket} {sendNext : SeqNumber} {winSz sentData effectiveCwnd : Nat}
    {mac : MacAddress} (h : HasRead s env (.segment sendNext winSz sentData effectiveCwnd)) (harp : env.arp = some mac) :
    s.cutsSegment env = true ∧ s.sendsProbe env = false := by
  cases h with
  | before htask => simp [EstablishedSocket.cutsSegment, EstablishedSocket.sendsProbe, htask, harp]
  | opened htop hsent hwin =>
    simp [EstablishedSocket.cutsSegment, EstablishedSocket.sendsProbe, htop, harp, hsent, hwin]

theorem sendsProbe_hasRead {s : EstablishedSocket} (h : s.sendsProbe env = true) :
    ∃ sendNext, HasRead s env (.probe sendNext) := by
  unfold EstablishedSocket.sendsProbe at h
  cases htask : s.sender with
  | top =>
    simp only [htask, Bool.and_eq_true, decide_eq_true_eq] at h
    exact ⟨_, .closed htask h.2.1 h.2.2⟩
  | awaiting awaiting =>
    cases awaiting with
    | probe sendNext => exact ⟨sendNext, .before htask⟩
    | segment => simp [htask] at h
  | probing => simp [htask] at h

/-- What one turn of the background sender does: nothing, an ARP query, a window probe, or one segment. -/
inductive SenderTurn (s : EstablishedSocket) (env : Env) (s' : EstablishedSocket) : Prop
  | idle (hnone : ∀ awaiting, ¬HasRead s env awaiting) (h : s' = s)
  | awaits {awaiting : Awaiting} (hread : HasRead s env awaiting) (harp : env.arp = none)
      (h : s' = ⟨s.cb, .awaiting awaiting⟩)
  | probe {sendNext : SeqNumber} {byte : UInt8} {rest : Buffer} {queue : List Buffer} {mac : MacAddress}
      (hread : HasRead s env (.probe sendNext)) (harp : env.arp = some mac)
      (hq : s.cb.sender.unsentQueue = (byte :: rest) :: queue) (htask : s'.sender = .probing [byte] sendNext mac)
      (hchanged : s'.cb.sender.sendWindowChanged = false)
      (hm : Moves s.cb s'.cb (some (sendNext, [byte])) ({ s.cb.sender.outbox with waiting := rest :: queue }.send [byte]))
  | segment {sendNext : SeqNumber} {winSz sentData effectiveCwnd maxSize : Nat} {buf : Buffer} {queue : List Buffer}
      {mac : MacAddress} (hread : HasRead s env (.segment sendNext winSz sentData effectiveCwnd))
      (harp : env.arp = some mac)
      (hsize : maxSize = min (min (winSz - sentData) s.cb.sender.mss) (effectiveCwnd - sentData))
      (hq : s.cb.sender.unsentQueue = buf :: queue) (htask : s'.sender = .top)
      (hdone : buf.take maxSize = [] → s.cb.userIsDoneSending = true)
      (hm : Moves s.cb s'.cb (some (sendNext, buf.take maxSize))
        ({ s.cb.sender.outbox with
          waiting := if buf.length ≤ maxSize then queue else buf.drop maxSize :: queue }.send (buf.take maxSize)))

/-- At most one segment with text or FIN goes out in a turn, and nothing is acknowledged. -/
theorem SenderTurn.moves {s s' : EstablishedSocket} (h : SenderTurn s env s') :
    ∃ sent o, Moves s.cb s'.cb sent o ∧ o.sendUnacked = s.cb.sender.sendUnacked := by
  cases h with
  | idle _ h =>
    rw [h]
    exact ⟨none, _, .refl _, rfl⟩
  | awaits _ _ h =>
    rw [h]
    exact ⟨none, _, .refl _, rfl⟩
  | probe _ _ _ _ _ hm => exact ⟨_, _, hm, rfl⟩
  | segment _ _ _ _ _ _ hm => exact ⟨_, _, hm, rfl⟩

theorem senderReads_hasRead {s : EstablishedSocket} {awaiting : Option Awaiting} (htop : s.sender = .top)
    (h : s.cb.senderReads env = some awaiting) :
    (∀ a, awaiting = some a → HasRead s env a) ∧ (awaiting = none → ∀ a, ¬HasRead s env a) := by
  unfold senderReads at h
  split at h
  next hsent =>
    cases h
    refine ⟨fun a ha => (by cases ha), fun _ a ha => ?_⟩
    cases ha with
    | before htask => cases htop.symm.trans htask
    | closed _ hne => exact hne hsent
    | opened _ hne => exact hne hsent
  next hsent =>
    split at h
    next hzero =>
      cases h
      refine ⟨fun a ha => ?_, fun hno => by cases hno⟩
      cases ha
      exact .closed htop hsent hzero
    next hopen =>
      obtain ⟨cwnd, hcwnd, h⟩ := Option.bind_eq_some_iff.mp h
      obtain ⟨size, hsize, h⟩ := Option.bind_eq_some_iff.mp h
      obtain ⟨needed, hneeded, h⟩ := Option.bind_eq_some_iff.mp h
      obtain ⟨hsum, hcwnd⟩ := Option.ite_none_right_eq_some.mp hcwnd
      obtain ⟨-, hneeded⟩ := Option.ite_none_right_eq_some.mp hneeded
      cases hcwnd
      cases hneeded
      cases hq : s.cb.sender.unsentQueue with
      | nil => simp [Sender.topSizeUnsent, hq] at hsize
      | cons buf queue =>
        simp only [Sender.topSizeUnsent, hq, List.head?_cons, Option.map_some, Option.some.injEq] at hsize
        subst size
        split at h
        next hblocked =>
          cases h
          refine ⟨fun a ha => (by cases ha), fun _ a ha => ?_⟩
          cases ha with
          | before htask => cases htop.symm.trans htask
          | closed _ _ hzero => exact hopen hzero
          | opened _ _ _ _ hq' hroom hcwnd =>
            cases hq.symm.trans hq'
            omega
        next hroom =>
          cases h
          refine ⟨fun a ha => ?_, fun hno => by cases hno⟩
          cases ha
          exact .opened htop hsent hopen hsum hq (by omega) (by omega)

theorem senderQueries_turn {s s' : EstablishedSocket} {awaiting : Awaiting} (hread : HasRead s env awaiting)
    (h : s.cb.senderQueries env awaiting = some s') : SenderTurn s env s' := by
  unfold senderQueries at h
  split at h
  next harp =>
    cases h
    exact .awaits hread harp rfl
  next mac harp =>
    cases awaiting with
    | probe sendNext =>
      obtain ⟨byte, rest, queue, hq, htask, hchanged, hm⟩ := sendProbe_cases h
      exact .probe hread harp hq htask hchanged hm
    | segment sendNext winSz sentData effectiveCwnd =>
      obtain ⟨htask, buf, queue, hq, hdone, hm⟩ := sendUnsent_cases h
      exact .segment hread harp rfl hq htask hdone hm

theorem background_turn {s s' : EstablishedSocket} (h : s.background env = some s') : SenderTurn s env s' := by
  unfold EstablishedSocket.background at h
  split at h
  next htop =>
    obtain ⟨awaiting, hreads, h⟩ := Option.bind_eq_some_iff.mp h
    obtain ⟨hread, hnone⟩ := senderReads_hasRead htop hreads
    cases awaiting with
    | none =>
      cases h
      exact .idle (hnone rfl) rfl
    | some awaiting => exact senderQueries_turn (hread awaiting rfl) h
  next awaiting htask => exact senderQueries_turn (.before htask) h
  next buf sendNext mac htask =>
    cases h
    exact .idle (fun a ha => ha.not_probing htask) rfl

end

end Capybara
