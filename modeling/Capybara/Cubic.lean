import Capybara.SeqNumber

namespace Capybara

/-- Which update overflows: that of the congestion window, or another one. -/
inductive CubicPanic
  | cwnd
  | other
  deriving DecidableEq, Repr

/-- The result of an addition or multiplication on `u32`. -/
def inU32 (panic : CubicPanic) (n : Nat) : Except CubicPanic Nat := if n < 2 ^ 32 then .ok n else .error panic

/-- The result of a subtraction on `u32`. -/
def subU32 (panic : CubicPanic) (a b : Nat) : Except CubicPanic Nat := if b ≤ a then .ok (a - b) else .error panic

theorem inU32_of_lt {panic : CubicPanic} {n : Nat} (h : n < 2 ^ 32) : inU32 panic n = .ok n := if_pos h

theorem inU32_of_not_lt {panic : CubicPanic} {n : Nat} (h : ¬n < 2 ^ 32) : inU32 panic n = .error panic := if_neg h

theorem subU32_of_le {panic : CubicPanic} {a b : Nat} (h : b ≤ a) : subU32 panic a b = .ok (a - b) := if_pos h

theorem subU32_of_not_le {panic : CubicPanic} {a b : Nat} (h : ¬b ≤ a) : subU32 panic a b = .error panic := if_neg h

theorem inU32_lt {panic : CubicPanic} {n m : Nat} (h : inU32 panic n = .ok m) : m < 2 ^ 32 := by
  unfold inU32 at h
  split at h
  next hlt => exact Except.ok.inj h ▸ hlt
  next => cases h

theorem CubicPanic.bind_eq_ok_iff {α β : Type} {x : Except CubicPanic α} {f : α → Except CubicPanic β} {b : β} :
    (x >>= f) = .ok b ↔ ∃ a, x = .ok a ∧ f a = .ok b := by
  cases x with
  | error panic =>
    constructor
    · intro h
      cases h
    · rintro ⟨_, h, -⟩
      cases h
  | ok a =>
    refine ⟨fun h => ⟨a, rfl, h⟩, ?_⟩
    rintro ⟨_, ha, h⟩
    cases ha
    exact h

theorem CubicPanic.bind_ok {α β : Type} {x : Except CubicPanic α} {a : α} (h : x = .ok a)
    (f : α → Except CubicPanic β) : (x >>= f) = f a := by
  rw [h]
  rfl

theorem CubicPanic.bind_error {α β : Type} {x : Except CubicPanic α} {panic : CubicPanic} (h : x = .error panic)
    (f : α → Except CubicPanic β) : (x >>= f) = .error panic := by
  rw [h]
  rfl

theorem CubicPanic.bind_ne {α β : Type} {x : Except CubicPanic α} {f : α → Except CubicPanic β} {panic : CubicPanic}
    (h : x ≠ .error panic) (hf : ∀ a, f a ≠ .error panic) : (x >>= f) ≠ .error panic := by
  cases x with
  | error panic' =>
    intro heq
    exact h (congrArg _ (Except.error.inj heq))
  | ok a => exact hf a

/-- What comes after the last update cannot panic. -/
theorem CubicPanic.bind_pure_ne_iff {α β : Type} {x : Except CubicPanic α} {f : α → β} {panic : CubicPanic} :
    (x >>= fun a => pure (f a)) ≠ .error panic ↔ x ≠ .error panic := by
  cases x with
  | error panic' =>
    constructor
    · intro h heq
      exact h (congrArg _ (Except.error.inj heq))
    · intro h heq
      exact h (congrArg _ (Except.error.inj heq))
  | ok a =>
    constructor
    · intro _ heq
      cases heq
    · intro _ heq
      cases heq

theorem CubicPanic.eq_ok_of_toOption {α : Type} {x : Except CubicPanic α} {a : α} (h : x.toOption = some a) :
    x = .ok a := by
  cases x with
  | error panic => cases h
  | ok b => exact congrArg _ (Option.some.inj h)

/-- The binary32 value nearest to a whole number, ties going to the even one. -/
def toBinary32 (n : Nat) : Nat :=
  let unit := 2 ^ (n.log2 - 23)
  let rest := n % unit
  let down := n / unit
  unit * (if 2 * rest < unit then down else if unit < 2 * rest then down + 1 else down + down % 2)

/-- `(cwnd as f32 * f) as u32` for the binary32 value `f` of `significand` parts in 2 to the 24. -/
def scaleBinary32 (significand cwnd : Nat) : Nat :=
  min (toBinary32 (toBinary32 cwnd * significand) / 2 ^ 24) (2 ^ 32 - 1)

/-- `BETA_CUBIC`, which is 0.7. -/
def betaCubic : Nat := 11744051

example : scaleBinary32 betaCubic 4380 = 3066 := by decide

/-- Half of `1. + BETA_CUBIC`. -/
def halfOnePlusBetaCubic : Nat := 14260634

structure Cubic where
  mss : Nat
  cwnd : Nat
  fastConvergence : Bool
  initialCwnd : Nat
  lastCongestionWasRto : Bool
  retransmittedPacketsInFlight : Nat
  ssthresh : Nat
  wMax : Nat
  duplicateAckCount : Nat
  fastRetransmitNow : Bool
  inFastRecovery : Bool
  prevAckSeqNo : SeqNumber
  recover : SeqNumber
  limitedTransmitCwndIncrease : Nat
  deriving DecidableEq, Repr

/-- What the floating-point formulas of congestion avoidance come to: a new window, or an increment. -/
inductive WindowEstimate
  | set (cwnd : UInt32)
  | grow (increment : UInt32)
  deriving DecidableEq, Repr

namespace Cubic

def dupAckThreshold : Nat := 3

def initialCwndOf (mss : Nat) : Except CubicPanic Nat :=
  if mss ≤ 1095 then inU32 .other (4 * mss)
  else if mss ≤ 2190 then inU32 .other (3 * mss)
  else inU32 .other (2 * mss)

def new (mss : Nat) (seqNo : SeqNumber) (fastConvergence : Bool) : Except CubicPanic Cubic := do
  let mss ← inU32 .other mss
  let initialCwnd ← initialCwndOf mss
  return {
    mss := mss
    cwnd := initialCwnd
    fastConvergence := fastConvergence
    initialCwnd := initialCwnd
    lastCongestionWasRto := false
    retransmittedPacketsInFlight := 0
    ssthresh := 2 ^ 32 - 1
    wMax := 0
    duplicateAckCount := 0
    fastRetransmitNow := false
    inFastRecovery := false
    prevAckSeqNo := seqNo
    recover := seqNo
    limitedTransmitCwndIncrease := 0 }

/-- The new `w_max`; the divisions panic when the MSS is zero. -/
def convergedWMax (c : Cubic) : Except CubicPanic Nat :=
  if c.fastConvergence then
    if c.mss = 0 then .error .other
    else if c.cwnd / c.mss < c.wMax / c.mss then .ok (scaleBinary32 halfOnePlusBetaCubic c.cwnd)
    else .ok c.cwnd
  else .ok c.cwnd

/-- The first duplicates let the sender send one more segment each. -/
def limitedTransmit (c : Cubic) (duplicateAckCount : Nat) : Except CubicPanic Nat :=
  if duplicateAckCount < dupAckThreshold then inU32 .other (c.limitedTransmitCwndIncrease + c.mss)
  else .ok c.limitedTransmitCwndIncrease

def incrementDupAckCount (c : Cubic) : Except CubicPanic Cubic := do
  let duplicateAckCount ← inU32 .other (c.duplicateAckCount + 1)
  let increase ← c.limitedTransmit duplicateAckCount
  return { c with duplicateAckCount := duplicateAckCount, limitedTransmitCwndIncrease := increase }

def ackCoversRecover (c : Cubic) (ackSeqNo : SeqNumber) : Bool := (ackSeqNo - .ofNat 1).gt c.recover

def retransmittedPacketDroppedHeuristic (c : Cubic) (ackSeqNo : SeqNumber) : Except CubicPanic Bool :=
  if c.mss < c.cwnd then do
    let bound ← inU32 .other (4 * c.mss)
    return decide ((ackSeqNo - c.prevAckSeqNo).toNat ≤ bound)
  else .ok false

def enterFastRecovery (c : Cubic) (sendNext : SeqNumber) : Except CubicPanic Cubic := do
  let reducedCwnd := scaleBinary32 betaCubic c.cwnd
  let wMax ← c.convergedWMax
  let twoMss ← inU32 .other (2 * c.mss)
  return { c with
    inFastRecovery := true, recover := sendNext, wMax := wMax, ssthresh := max reducedCwnd twoMss,
    cwnd := reducedCwnd, fastRetransmitNow := true }

/-- The answer to a duplicate once it has been counted. -/
def onDupAckCounted (c : Cubic) (heuristic : Bool) (sendNext ackSeqNo : SeqNumber) : Except CubicPanic Cubic :=
  if c.duplicateAckCount = dupAckThreshold ∧ (c.ackCoversRecover ackSeqNo ∨ heuristic) then
    c.enterFastRecovery sendNext
  else if dupAckThreshold < c.duplicateAckCount ∨ c.inFastRecovery then do
    let cwnd ← inU32 .cwnd (c.cwnd + c.mss)
    return { c with cwnd := cwnd }
  else .ok c

def onDupAckReceived (c : Cubic) (sendNext ackSeqNo : SeqNumber) : Except CubicPanic Cubic := do
  let c ← c.incrementDupAckCount
  let heuristic ← c.retransmittedPacketDroppedHeuristic ackSeqNo
  c.onDupAckCounted heuristic sendNext ackSeqNo

/-- `c - bytes_acknowledged`, and one MSS more when the acknowledgement covers one. -/
def cwndAfterPartialAck (c : Cubic) (bytesAcknowledged : Nat) : Except CubicPanic Nat := do
  let rest ← subU32 .cwnd c.cwnd bytesAcknowledged
  if c.mss ≤ bytesAcknowledged then inU32 .cwnd (rest + c.mss) else .ok rest

def onAckReceivedFastRecovery (c : Cubic) (sendUnacked sendNext ackSeqNo : SeqNumber) : Except CubicPanic Cubic := do
  let bytesOutstanding := (sendNext - sendUnacked).toNat
  let bytesAcknowledged := (ackSeqNo - sendUnacked).toNat
  if ackSeqNo.gt c.recover then
    let window ← inU32 .cwnd (max bytesOutstanding c.mss + c.mss)
    return { c with cwnd := min c.ssthresh window, lastCongestionWasRto := false, inFastRecovery := false }
  else
    let cwnd ← c.cwndAfterPartialAck bytesAcknowledged
    return { c with fastRetransmitNow := true, cwnd := cwnd }

def cwndAfterAck (c : Cubic) (estimate : WindowEstimate) (bytesAcknowledged : Nat) : Except CubicPanic Nat :=
  if c.cwnd < c.ssthresh then inU32 .cwnd (c.cwnd + min bytesAcknowledged c.mss)
  else match estimate with
    | .set cwnd => .ok cwnd.toNat
    | .grow increment => inU32 .cwnd (c.cwnd + increment.toNat)

def onAckReceivedSsCa (c : Cubic) (estimate : WindowEstimate) (sendUnacked ackSeqNo : SeqNumber) :
    Except CubicPanic Cubic := do
  let cwnd ← c.cwndAfterAck estimate (ackSeqNo - sendUnacked).toNat
  return { c with cwnd := cwnd }

/-- The answer to an acknowledgement that is no duplicate. -/
def onNewAckReceived (c : Cubic) (estimate : WindowEstimate) (sendUnacked sendNext ackSeqNo : SeqNumber) :
    Except CubicPanic Cubic :=
  if c.inFastRecovery then c.onAckReceivedFastRecovery sendUnacked sendNext ackSeqNo
  else c.onAckReceivedSsCa estimate sendUnacked ackSeqNo

def onAckReceived (c : Cubic) (estimate : WindowEstimate) (sendUnacked sendNext ackSeqNo : SeqNumber) :
    Except CubicPanic Cubic :=
  if (ackSeqNo - sendUnacked).toNat = 0 then do
    let c ← c.onDupAckReceived sendNext ackSeqNo
    return { c with retransmittedPacketsInFlight := c.retransmittedPacketsInFlight - 1 }
  else do
    let c ← { c with duplicateAckCount := 0 }.onNewAckReceived estimate sendUnacked sendNext ackSeqNo
    return { c with prevAckSeqNo := ackSeqNo }

/-- A lost packet that had been retransmitted already does not shrink the threshold again. -/
def ssthreshAfterRto (c : Cubic) : Except CubicPanic Nat :=
  if c.retransmittedPacketsInFlight = 0 then do
    let twoMss ← inU32 .other (2 * c.mss)
    return max (scaleBinary32 betaCubic c.cwnd) twoMss
  else .ok c.ssthresh

def onRtoSsCa (c : Cubic) : Except CubicPanic Cubic := do
  let wMax ← c.convergedWMax
  let ssthresh ← c.ssthreshAfterRto
  let inFlight ← inU32 .other (c.retransmittedPacketsInFlight + 1)
  return { c with
    wMax := wMax, cwnd := c.mss, ssthresh := ssthresh, retransmittedPacketsInFlight := inFlight,
    lastCongestionWasRto := true }

def onRtoFastRecovery (c : Cubic) (sendUnacked : SeqNumber) : Cubic :=
  { c with recover := sendUnacked, inFastRecovery := false }

def onRto (c : Cubic) (sendUnacked : SeqNumber) : Except CubicPanic Cubic := do
  let c ← c.onRtoSsCa
  return c.onRtoFastRecovery sendUnacked

/-- The argument says whether nothing has been sent for longer than the last round trip. -/
def onCwndCheckBeforeSend (c : Cubic) (longTimeSinceSend : Bool) : Cubic :=
  if longTimeSinceSend then { c with cwnd := min c.initialCwnd c.cwnd, limitedTransmitCwndIncrease := 0 } else c

def onSend (c : Cubic) (numBytesSent : Nat) : Cubic :=
  { c with limitedTransmitCwndIncrease := c.limitedTransmitCwndIncrease - numBytesSent }

def onFastRetransmit (c : Cubic) : Cubic := { c with fastRetransmitNow := false }

end Cubic

/-- The congestion control of a control block with the sequence numbers that it is told. -/
structure CubicSender where
  cubic : Cubic
  sendUnacked : SeqNumber
  sendNext : SeqNumber
  deriving DecidableEq, Repr

/-- What `receive`, the two senders and the retransmitter tell the congestion control. -/
inductive CubicEvent
  | ack (ackNum : SeqNumber) (estimate : WindowEstimate)
  | send (longTimeSinceSend : Bool) (winSz bufLen : Nat)
  | probe
  | fastRetransmit
  | rto
  deriving DecidableEq, Repr

namespace CubicSender

def start (mss : Nat) (seqNo : SeqNumber) (fastConvergence : Bool) : Except CubicPanic CubicSender :=
  (Cubic.new mss seqNo fastConvergence).map fun cubic => ⟨cubic, seqNo, seqNo⟩

/-- The part of `receive` that tells the congestion control of an acknowledgement. -/
def receiveAck (s : CubicSender) (ackNum : SeqNumber) (estimate : WindowEstimate) : Except CubicPanic CubicSender := do
  let cubic ← s.cubic.onAckReceived estimate s.sendUnacked s.sendNext ackNum
  let accepted := s.sendUnacked.lt ackNum && ackNum.le s.sendNext
  return { s with cubic := cubic, sendUnacked := if accepted then ackNum else s.sendUnacked }

/-- Sends a buffer if both windows have room for it; an empty one is the end of the stream and takes a number. -/
def sendBuffer (s : CubicSender) (longTimeSinceSend : Bool) (winSz bufLen : Nat) : Except CubicPanic CubicSender := do
  let sentData := (s.sendNext - s.sendUnacked).toNat
  let inFlightAfterSend ← inU32 .other (sentData + bufLen)
  let cubic := s.cubic.onCwndCheckBeforeSend longTimeSinceSend
  let effectiveCwnd ← inU32 .other (cubic.cwnd + cubic.limitedTransmitCwndIncrease)
  if 0 < winSz ∧ inFlightAfterSend ≤ winSz ∧ inFlightAfterSend ≤ effectiveCwnd then
    return { s with cubic := cubic.onSend sentData, sendNext := s.sendNext + .ofNat (max bufLen 1) }
  else return { s with cubic := cubic }

/-- A panic ends the run. -/
def step (s : CubicSender) : CubicEvent → Option CubicSender
  | .ack ackNum estimate => (s.receiveAck ackNum estimate).toOption
  | .send longTimeSinceSend winSz bufLen => (s.sendBuffer longTimeSinceSend winSz bufLen).toOption
  | .probe => some { s with sendNext := s.sendNext + .ofNat 1 }
  | .fastRetransmit => some { s with cubic := s.cubic.onFastRetransmit }
  | .rto => (s.cubic.onRto s.sendUnacked).toOption.map fun cubic => { s with cubic := cubic }

end CubicSender

end Capybara
