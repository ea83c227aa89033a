import Capybara.Lib.Runs
import Capybara.Delivery

namespace Capybara

open Slice Reassembly Runs

inductive ReceiverEvent
  | segment (header : TcpHeader) (lo hi : Nat) (env : Env)
  | pop
  deriving DecidableEq, Repr

/-- A control block that receives a stream, what the application has popped, and the ranges of the stream that were
accepted so far. -/
structure ReceiverRun where
  cb : ControlBlock
  popped : Buffer
  accepted : List Range
  deriving DecidableEq, Repr

namespace ReceiverRun

def start (cb : ControlBlock) : ReceiverRun := ⟨cb, [], []⟩

def delivered (s : ReceiverRun) : Buffer := s.popped ++ s.cb.receiver.recvQueue.flatten

/-- The stream position at which the receive window ends. -/
def limit (s : ReceiverRun) : Nat := s.popped.length + s.cb.receiveBufferSize.toNat

/-- The part of a segment that lies in the receive window, if its ACK number lets its text through. -/
def acceptedPart (s : ReceiverRun) (header : TcpHeader) (lo hi : Nat) : List Range :=
  if ackAllows s.cb.sender.sendUnacked header ∧ max lo s.delivered.length < min hi s.limit then
    [(max lo s.delivered.length, min hi s.limit)]
  else []

def step (stream : Buffer) (s : ReceiverRun) : ReceiverEvent → Option ReceiverRun
  | .segment header lo hi env => (s.cb.receive header (slice stream lo hi) env).map fun cb =>
    { s with cb := cb, accepted := s.accepted ++ s.acceptedPart header lo hi }
  | .pop => match s.cb.pollRecv with
    | (none, cb) => some { s with cb := cb }
    | (some buf, cb) => some { s with cb := cb, popped := s.popped ++ buf }

/-- The segments are slices of the stream and their sequence numbers are within half a turn of RCV.NXT. -/
def SlicesOf (stream : Buffer) (isn : SeqNumber) (s : ReceiverRun) : ReceiverEvent → Prop
  | .segment header lo hi _ => DataHeader isn header lo ∧ lo < hi ∧ hi ≤ stream.length ∧
      s.delivered.length < lo + 2 ^ 31 ∧ hi ≤ s.delivered.length + 2 ^ 31
  | .pop => True

instance (stream : Buffer) (isn : SeqNumber) (s : ReceiverRun) : (e : ReceiverEvent) → Decidable (SlicesOf stream isn s e)
  | .segment _ _ _ _ => inferInstanceAs (Decidable (_ ∧ _))
  | .pop => inferInstanceAs (Decidable True)

/-- The ACK number of a segment is not exactly half a turn from SND.NXT. -/
def NoHalfTurnAck (s : ReceiverRun) : ReceiverEvent → Prop
  | .segment header _ _ _ => (s.cb.sender.sendNext - header.ackNum).toNat ≠ 2 ^ 31
  | .pop => True

instance (s : ReceiverRun) : (e : ReceiverEvent) → Decidable (NoHalfTurnAck s e)
  | .segment _ _ _ _ => inferInstanceAs (Decidable (_ ≠ _))
  | .pop => inferInstanceAs (Decidable True)

end ReceiverRun

/-- An open connection that has sent and received nothing yet. -/
structure Fresh (isn : SeqNumber) (cb : ControlBlock) : Prop where
  state : cb.state = .established
  outOfOrderFin : cb.outOfOrderFin = none
  sendNext : cb.sender.sendNext = cb.sender.sendUnacked
  unackedQueue : cb.sender.unackedQueue = []
  buffer : cb.receiveBufferSize.toNat < 2 ^ 31
  scale : cb.windowScale.toNat < 32
  window : cb.receiveBufferSize.toNat / 2 ^ cb.windowScale.toNat < 2 ^ 16
  receiveNext : cb.receiver.receiveNext = isn
  readerNext : cb.receiver.readerNext = isn
  recvQueue : cb.receiver.recvQueue = []
  outOfOrder : cb.outOfOrder = []

/-- A new control block is fresh when its receive buffer is a window shifted by the window scale, below half the
sequence space. -/
theorem fresh_new {local_ remote : SocketAddrV4} {isn senderSeqNo : SeqNumber} {ackDelayTimeout : Duration}
    {receiverWindowSize receiverWindowScale senderWindowSize : UInt32} {senderWindowScale : UInt8} {senderMss : Nat}
    (hb : receiverWindowSize.toNat < 2 ^ 31) (hs : receiverWindowScale.toNat < 32)
    (hw : receiverWindowSize.toNat / 2 ^ receiverWindowScale.toNat < 2 ^ 16) :
    Fresh isn (.new local_ remote isn ackDelayTimeout receiverWindowSize receiverWindowScale senderSeqNo
      senderWindowSize senderWindowScale senderMss) :=
  ⟨rfl, rfl, rfl, rfl, hb, hs, hw, rfl, rfl, rfl, rfl⟩

theorem Fresh.refines {isn : SeqNumber} {cb : ControlBlock} (h : Fresh isn cb) (stream : Buffer) :
    Refines ⟨stream, isn, cb.sender.sendUnacked, cb.receiveBufferSize.toNat⟩ cb ⟨0, 0, []⟩ where
  established := h.state
  noFin := h.outOfOrderFin
  sendUnacked := rfl
  sendNext := h.sendNext
  unacked := h.unackedQueue
  size := rfl
  buffer := h.buffer
  scale := h.scale
  window := h.window
  receiveNext := by rw [h.receiveNext, SeqNumber.atPos_zero]
  readerNext := by rw [h.readerNext, SeqNumber.atPos_zero]
  popped_le := Nat.le_refl _
  space := Nat.zero_le _
  next_le := Nat.zero_le _
  queue := by rw [h.recvQueue]; rfl
  store := h.outOfOrder
  bounded := by simp [Bounded]

section

variable {c : Inbound} {cb : ControlBlock} {r : Reassembly}

theorem pollRecv_refines (h : Refines c cb r) :
    cb.pollRecv = (none, cb) ∨ ∃ buf cb', cb.pollRecv = (some buf, cb') ∧
      buf = slice c.stream r.popped (r.popped + buf.length) ∧
      Refines c cb' { r with popped := r.popped + buf.length } := by
  rcases hq : cb.receiver.recvQueue with - | ⟨buf, rest⟩
  · exact .inl (by simp [ControlBlock.pollRecv, Receiver.pop, hq])
  · have hflat : buf ++ rest.flatten = slice c.stream r.popped r.next := by rw [← h.queue, hq, List.flatten_cons]
    have hlen : (buf ++ rest.flatten).length = r.next - r.popped := by rw [hflat, length_slice_of_le h.next_le]
    have hp := h.popped_le
    have hsp := h.space
    have hle : r.popped + buf.length ≤ r.next := by
      rw [List.length_append] at hlen
      omega
    have htake : buf = slice c.stream r.popped (r.popped + buf.length) := by
      rw [← take_slice hle, ← hflat, List.take_left]
    have hdrop : rest.flatten = slice c.stream (r.popped + buf.length) r.next := by
      rw [← drop_slice, ← hflat, List.drop_left]
    refine .inr ⟨buf, _, by simp only [ControlBlock.pollRecv, Receiver.pop, hq]; rfl, htake, ?_⟩
    exact { h with
      readerNext := by simp only [h.readerNext, SeqNumber.atPos_add]
      popped_le := hle
      space := by simp only; omega
      queue := hdrop
      bounded := fun x hx => by
        obtain ⟨h₁, h₂, h₃⟩ := h.bounded x hx
        exact ⟨h₁, h₂, by simp only; omega⟩ }

namespace ReceiverRun

/-- The run is at the positions that `r` says. -/
structure At (c : Inbound) (s : ReceiverRun) (r : Reassembly) : Prop where
  refines : Refines c s.cb r
  popped : s.popped = c.stream.take r.popped

variable {s : ReceiverRun}

theorem At.popped_length (h : At c s r) : s.popped.length = r.popped := by
  have hp := h.refines.popped_le
  have hn := h.refines.next_le
  rw [h.popped, List.length_take]
  omega

theorem At.limit (h : At c s r) : s.limit = r.popped + c.size := by
  rw [ReceiverRun.limit, h.popped_length, h.refines.size]

theorem At.delivered (h : At c s r) : s.delivered = c.stream.take r.next := by
  rw [ReceiverRun.delivered, h.popped, h.refines.queue, ← slice_zero, ← slice_zero,
    slice_append c.stream (Nat.zero_le _) h.refines.popped_le]

theorem At.delivered_length (h : At c s r) : s.delivered.length = r.next := by
  rw [h.delivered, List.length_take, Nat.min_eq_left h.refines.next_le]

theorem step_pop (h : At c s r) :
    ∃ s', step c.stream s .pop = some s' ∧ s'.accepted = s.accepted ∧
      ∃ popped, At c s' { r with popped := popped } := by
  rcases pollRecv_refines h.refines with hnone | ⟨buf, cb', hsome, hbuf, hr⟩
  · refine ⟨s, ?_, rfl, r.popped, h⟩
    rw [step, hnone]
  · refine ⟨{ s with cb := cb', popped := s.popped ++ buf }, ?_, rfl, _, hr, ?_⟩
    · rw [step, hsome]
    · rw [h.popped, hbuf, ← slice_zero, ← slice_zero, slice_append c.stream (Nat.zero_le _) (Nat.le_add_right _ _)]
      simp [length_slice_of_le (Nat.le_trans hr.popped_le hr.next_le)]

/-- A segment, as long as no stored range is so far behind that its sequence numbers come round again. -/
theorem step_segment {header : TcpHeader} {lo hi bound : Nat} {env : Env} (h : At c s r)
    (hok : SlicesOf c.stream c.isn s (.segment header lo hi env)) (hb : Bounded bound r.store)
    (hhi : min hi (r.popped + c.size) ≤ bound) (hbs : bound ≤ c.stream.length) (hlim : bound ≤ r.popped + c.size)
    (hclose : ∀ x ∈ r.store, bound < x.1 + 2 ^ 32) :
    (step c.stream s (.segment header lo hi env) = none ∧ ¬NoHalfTurnAck s (.segment header lo hi env)) ∨
      ∃ s', step c.stream s (.segment header lo hi env) = some s' ∧
        s'.accepted = s.accepted ++ s.acceptedPart header lo hi ∧
        At c s' (if ackAllows c.sendUnacked header then r.accept (r.popped + c.size) lo hi else r) := by
  obtain ⟨hh, hlt, hs, hback, hahead⟩ := hok
  rw [h.delivered_length] at hback hahead
  rcases @receive_refines c s.cb r header lo hi bound env h.refines hh hlt hs hback hahead hb hhi hbs hlim hclose with
    ⟨hnone, hhalf⟩ | ⟨cb', hsome, hr⟩
  · exact .inl ⟨by rw [step, hnone]; rfl, by simp [NoHalfTurnAck, h.refines.sendNext, hhalf]⟩
  · refine .inr ⟨_, by rw [step, hsome]; rfl, rfl, hr, ?_⟩
    have hpopped : (if ackAllows c.sendUnacked header then r.accept (r.popped + c.size) lo hi else r).popped =
        r.popped := by
      split
      · exact accept_popped r _ lo hi
      · rfl
    rw [hpopped]
    exact h.popped

end ReceiverRun

end

/-- A receiver whose sequence numbers are about to wrap around. -/
def sampleReceiver : ControlBlock :=
  .new ⟨⟨10, 0, 1, 8⟩, 10000⟩ ⟨⟨10, 0, 1, 7⟩, 50000⟩ ⟨4294967294⟩ 0 65535 0 ⟨7⟩ 65535 0 1460

end Capybara
