import Capybara.Cubic
import Capybara.Lib.Runs

namespace Capybara

namespace Cubic

open CubicPanic

variable {c c' : Cubic}

theorem scaleBinary32_lt (significand cwnd : Nat) : scaleBinary32 significand cwnd < 2 ^ 32 := by
  unfold scaleBinary32
  omega

/-- The windows and the MSS are values of `u32`. -/
structure InRange (c : Cubic) : Prop where
  cwnd : c.cwnd < 2 ^ 32
  initialCwnd : c.initialCwnd < 2 ^ 32
  mss : c.mss < 2 ^ 32

theorem new_inRange {mss : Nat} {seqNo : SeqNumber} {fastConvergence : Bool}
    (h : Cubic.new mss seqNo fastConvergence = .ok c) : c.InRange := by
  obtain ⟨m, hm, h⟩ := bind_eq_ok_iff.mp h
  obtain ⟨initialCwnd, hinitial, h⟩ := bind_eq_ok_iff.mp h
  cases h
  have hlt : initialCwnd < 2 ^ 32 := by
    unfold initialCwndOf at hinitial
    split at hinitial
    next => exact inU32_lt hinitial
    next => split at hinitial <;> exact inU32_lt hinitial
  exact ⟨hlt, hlt, inU32_lt hm⟩

theorem incrementDupAckCount_inRange (h : c.InRange) (hc : c.incrementDupAckCount = .ok c') : c'.InRange := by
  obtain ⟨count, -, hc⟩ := bind_eq_ok_iff.mp hc
  obtain ⟨increase, -, hc⟩ := bind_eq_ok_iff.mp hc
  cases hc
  exact ⟨h.cwnd, h.initialCwnd, h.mss⟩

theorem onDupAckReceived_inRange {sendNext ackSeqNo : SeqNumber} (h : c.InRange)
    (hc : c.onDupAckReceived sendNext ackSeqNo = .ok c') : c'.InRange := by
  obtain ⟨counted, hcount, hc⟩ := bind_eq_ok_iff.mp hc
  have hr := incrementDupAckCount_inRange h hcount
  obtain ⟨heuristic, -, hc⟩ := bind_eq_ok_iff.mp hc
  unfold onDupAckCounted at hc
  split at hc
  next =>
    obtain ⟨wMax, -, hc⟩ := bind_eq_ok_iff.mp hc
    obtain ⟨twoMss, -, hc⟩ := bind_eq_ok_iff.mp hc
    cases hc
    exact ⟨scaleBinary32_lt _ _, hr.initialCwnd, hr.mss⟩
  next =>
    split at hc
    next =>
      obtain ⟨cwnd, hcwnd, hc⟩ := bind_eq_ok_iff.mp hc
      cases hc
      exact ⟨inU32_lt hcwnd, hr.initialCwnd, hr.mss⟩
    next =>
      cases hc
      exact hr

theorem cwndAfterPartialAck_lt {bytesAcknowledged cwnd : Nat} (h : c.InRange)
    (hc : c.cwndAfterPartialAck bytesAcknowledged = .ok cwnd) : cwnd < 2 ^ 32 := by
  obtain ⟨rest, hrest, hc⟩ := bind_eq_ok_iff.mp hc
  split at hc
  next => exact inU32_lt hc
  next =>
    cases hc
    unfold subU32 at hrest
    split at hrest
    next => exact Except.ok.inj hrest ▸ Nat.lt_of_le_of_lt (Nat.sub_le _ _) h.cwnd
    next => cases hrest

theorem onAckReceivedFastRecovery_inRange {sendUnacked sendNext ackSeqNo : SeqNumber} (h : c.InRange)
    (hc : c.onAckReceivedFastRecovery sendUnacked sendNext ackSeqNo = .ok c') : c'.InRange := by
  unfold onAckReceivedFastRecovery at hc
  split at hc
  next =>
    obtain ⟨window, hwindow, hc⟩ := bind_eq_ok_iff.mp hc
    cases hc
    exact ⟨Nat.lt_of_le_of_lt (Nat.min_le_right _ _) (inU32_lt hwindow), h.initialCwnd, h.mss⟩
  next =>
    obtain ⟨cwnd, hcwnd, hc⟩ := bind_eq_ok_iff.mp hc
    cases hc
    exact ⟨cwndAfterPartialAck_lt h hcwnd, h.initialCwnd, h.mss⟩

theorem onAckReceivedSsCa_inRange {estimate : WindowEstimate} {sendUnacked ackSeqNo : SeqNumber} (h : c.InRange)
    (hc : c.onAckReceivedSsCa estimate sendUnacked ackSeqNo = .ok c') : c'.InRange := by
  obtain ⟨cwnd, hcwnd, hc⟩ := bind_eq_ok_iff.mp hc
  cases hc
  refine ⟨?_, h.initialCwnd, h.mss⟩
  unfold cwndAfterAck at hcwnd
  split at hcwnd
  next => exact inU32_lt hcwnd
  next =>
    cases estimate with
    | set cwnd' => exact Except.ok.inj hcwnd ▸ cwnd'.toNat_lt
    | grow increment => exact inU32_lt hcwnd

theorem onAckReceived_inRange {estimate : WindowEstimate} {sendUnacked sendNext ackSeqNo : SeqNumber} (h : c.InRange)
    (hc : c.onAckReceived estimate sendUnacked sendNext ackSeqNo = .ok c') : c'.InRange := by
  unfold onAckReceived at hc
  split at hc
  next =>
    obtain ⟨c₁, hdup, hc⟩ := bind_eq_ok_iff.mp hc
    have hr := onDupAckReceived_inRange h hdup
    cases hc
    exact ⟨hr.cwnd, hr.initialCwnd, hr.mss⟩
  next =>
    have hreset : { c with duplicateAckCount := 0 }.InRange := ⟨h.cwnd, h.initialCwnd, h.mss⟩
    obtain ⟨c₁, hack, hc⟩ := bind_eq_ok_iff.mp hc
    have hr : c₁.InRange := by
      unfold onNewAckReceived at hack
      split at hack
      next => exact onAckReceivedFastRecovery_inRange hreset hack
      next => exact onAckReceivedSsCa_inRange hreset hack
    cases hc
    exact ⟨hr.cwnd, hr.initialCwnd, hr.mss⟩

theorem onRto_inRange {sendUnacked : SeqNumber} (h : c.InRange) (hc : c.onRto sendUnacked = .ok c') : c'.InRange := by
  obtain ⟨c₁, hrto, hc⟩ := bind_eq_ok_iff.mp hc
  obtain ⟨wMax, -, hrto⟩ := bind_eq_ok_iff.mp hrto
  obtain ⟨ssthresh, -, hrto⟩ := bind_eq_ok_iff.mp hrto
  obtain ⟨inFlight, -, hrto⟩ := bind_eq_ok_iff.mp hrto
  cases hrto
  cases hc
  exact ⟨h.mss, h.initialCwnd, h.mss⟩

theorem onCwndCheckBeforeSend_inRange (h : c.InRange) (longTimeSinceSend : Bool) :
    (c.onCwndCheckBeforeSend longTimeSinceSend).InRange := by
  unfold onCwndCheckBeforeSend
  split
  next => exact ⟨Nat.lt_of_le_of_lt (Nat.min_le_right _ _) h.cwnd, h.initialCwnd, h.mss⟩
  next => exact h

/-- No counter overflows before a duplicate acknowledgement comes to the window. -/
def CountersFit (c : Cubic) : Prop :=
  c.duplicateAckCount + 1 < 2 ^ 32 ∧
    (c.duplicateAckCount + 1 < dupAckThreshold → c.limitedTransmitCwndIncrease + c.mss < 2 ^ 32) ∧
    (c.mss < c.cwnd → 4 * c.mss < 2 ^ 32)

/-- The third duplicate acknowledgement in a row enters fast recovery, also from within it. -/
def EntersRecovery (c : Cubic) (ackSeqNo : SeqNumber) : Prop :=
  c.duplicateAckCount + 1 = dupAckThreshold ∧
    (c.ackCoversRecover ackSeqNo = true ∨ c.mss < c.cwnd ∧ (ackSeqNo - c.prevAckSeqNo).toNat ≤ 4 * c.mss)

instance CountersFit.decidable (c : Cubic) : Decidable c.CountersFit :=
  inferInstanceAs (Decidable (_ ∧ (_ → _) ∧ (_ → _)))

instance EntersRecovery.decidable (c : Cubic) (ackSeqNo : SeqNumber) : Decidable (c.EntersRecovery ackSeqNo) :=
  inferInstanceAs (Decidable (_ ∧ (_ ∨ _ ∧ _)))

theorem incrementDupAckCount_of_lt (hcount : c.duplicateAckCount + 1 < 2 ^ 32)
    (hincrease : c.duplicateAckCount + 1 < dupAckThreshold → c.limitedTransmitCwndIncrease + c.mss < 2 ^ 32) :
    ∃ c', c.incrementDupAckCount = .ok c' ∧ c'.duplicateAckCount = c.duplicateAckCount + 1 ∧ c'.cwnd = c.cwnd ∧
      c'.mss = c.mss ∧ c'.inFastRecovery = c.inFastRecovery ∧ c'.prevAckSeqNo = c.prevAckSeqNo ∧
      c'.recover = c.recover := by
  have hlimited : ∃ increase, c.limitedTransmit (c.duplicateAckCount + 1) = .ok increase := by
    unfold limitedTransmit
    split
    next hfew => exact ⟨_, inU32_of_lt (hincrease hfew)⟩
    next => exact ⟨_, rfl⟩
  obtain ⟨increase, hlimited⟩ := hlimited
  rw [incrementDupAckCount, bind_ok (inU32_of_lt hcount), bind_ok hlimited]
  exact ⟨_, rfl, rfl, rfl, rfl, rfl, rfl, rfl⟩

theorem heuristic_of_fit (h : c.mss < c.cwnd → 4 * c.mss < 2 ^ 32) (ackSeqNo : SeqNumber) :
    c.retransmittedPacketDroppedHeuristic ackSeqNo =
      .ok (decide (c.mss < c.cwnd ∧ (ackSeqNo - c.prevAckSeqNo).toNat ≤ 4 * c.mss)) := by
  unfold retransmittedPacketDroppedHeuristic
  by_cases hcwnd : c.mss < c.cwnd
  · rw [if_pos hcwnd, bind_ok (inU32_of_lt (h hcwnd))]
    simp only [hcwnd, true_and]
    rfl
  · simp [hcwnd]

theorem inU32_other_ne (n : Nat) : inU32 .other n ≠ .error .cwnd := by
  unfold inU32
  split <;> exact fun h => by cases h

/-- A counter that overflows ends the call before it comes to the window. -/
theorem onDupAckReceived_of_not_fit (h : ¬c.CountersFit) (sendNext ackSeqNo : SeqNumber) :
    c.onDupAckReceived sendNext ackSeqNo = .error .other := by
  by_cases hcount : c.duplicateAckCount + 1 < 2 ^ 32
  · by_cases hincrease : c.duplicateAckCount + 1 < dupAckThreshold → c.limitedTransmitCwndIncrease + c.mss < 2 ^ 32
    · obtain ⟨hcwnd, hmss⟩ := Classical.not_imp.mp fun hmss => h ⟨hcount, hincrease, hmss⟩
      obtain ⟨counted, hcounted, -, hwindow, hsize, -⟩ := incrementDupAckCount_of_lt hcount hincrease
      rw [onDupAckReceived, bind_ok hcounted, retransmittedPacketDroppedHeuristic, hwindow, hsize, if_pos hcwnd]
      exact bind_error (bind_error (inU32_of_not_lt hmss) _) _
    · obtain ⟨hfew, hover⟩ := Classical.not_imp.mp hincrease
      have hlimited : c.limitedTransmit (c.duplicateAckCount + 1) = .error .other :=
        (if_pos hfew).trans (inU32_of_not_lt hover)
      rw [onDupAckReceived, incrementDupAckCount, bind_ok (inU32_of_lt hcount), bind_error hlimited]
      rfl
  · rw [onDupAckReceived, incrementDupAckCount, bind_error (inU32_of_not_lt hcount)]
    rfl

theorem enterFastRecovery_ne (c : Cubic) (sendNext : SeqNumber) : c.enterFastRecovery sendNext ≠ .error .cwnd := by
  refine bind_ne ?_ fun wMax => bind_ne (inU32_other_ne _) fun twoMss h => by cases h
  unfold convergedWMax
  split
  next => split <;> [skip; split] <;> exact fun h => by cases h
  next => exact fun h => by cases h

/-- In fast recovery a duplicate overflows the window when it is neither stopped by a counter nor enters anew. -/
theorem onDupAckReceived_ne_iff (hrecovery : c.inFastRecovery = true) (sendNext ackSeqNo : SeqNumber) :
    c.onDupAckReceived sendNext ackSeqNo ≠ .error .cwnd ↔
      (c.CountersFit → c.EntersRecovery ackSeqNo ∨ c.cwnd + c.mss < 2 ^ 32) := by
  by_cases hfit : c.CountersFit
  · obtain ⟨counted, hcount, hduplicates, hcwnd, hmss, hin, hprev, hrecover⟩ :=
      incrementDupAckCount_of_lt hfit.1 hfit.2.1
    have hheuristic := @heuristic_of_fit counted (by rw [hcwnd, hmss]; exact hfit.2.2) ackSeqNo
    rw [onDupAckReceived, bind_ok hcount, bind_ok hheuristic, onDupAckCounted, hduplicates, hcwnd, hmss, hin, hprev]
    have henters : c.duplicateAckCount + 1 = dupAckThreshold ∧ (counted.ackCoversRecover ackSeqNo = true ∨
        decide (c.mss < c.cwnd ∧ (ackSeqNo - c.prevAckSeqNo).toNat ≤ 4 * c.mss) = true) ↔
        c.EntersRecovery ackSeqNo := by
      rw [ackCoversRecover, hrecover, decide_eq_true_eq]
      rfl
    by_cases henter : c.EntersRecovery ackSeqNo
    · rw [if_pos (henters.mpr henter)]
      exact ⟨fun _ _ => Or.inl henter, fun _ => enterFastRecovery_ne counted sendNext⟩
    · rw [if_neg fun h => henter (henters.mp h), if_pos (Or.inr hrecovery)]
      by_cases hlt : c.cwnd + c.mss < 2 ^ 32
      · rw [bind_ok (inU32_of_lt hlt)]
        exact ⟨fun _ _ => Or.inr hlt, fun _ h => by cases h⟩
      · rw [bind_error (inU32_of_not_lt hlt)]
        exact ⟨fun h => absurd rfl h, fun h => absurd (h hfit) (not_or.mpr ⟨henter, hlt⟩)⟩
  · rw [onDupAckReceived_of_not_fit hfit]
    exact ⟨fun _ h => absurd h hfit, fun _ h => by cases h⟩

theorem cwndAfterPartialAck_iff (hcwnd : c.cwnd < 2 ^ 32) (bytesAcknowledged : Nat) :
    (c.cwndAfterPartialAck bytesAcknowledged ≠ .error .cwnd ∧
      ∀ cwnd, c.cwndAfterPartialAck bytesAcknowledged = .ok cwnd → c.mss ≤ cwnd) ↔
    bytesAcknowledged ≤ c.cwnd ∧ (c.mss ≤ bytesAcknowledged ∨ bytesAcknowledged + c.mss ≤ c.cwnd) := by
  unfold cwndAfterPartialAck
  by_cases hle : bytesAcknowledged ≤ c.cwnd
  · rw [bind_ok (subU32_of_le hle)]
    by_cases hmss : c.mss ≤ bytesAcknowledged
    · rw [if_pos hmss, inU32_of_lt (by omega)]
      refine ⟨fun _ => ⟨hle, Or.inl hmss⟩, fun _ => ⟨(fun h => by cases h), fun cwnd h => ?_⟩⟩
      cases h
      exact Nat.le_add_left _ _
    · rw [if_neg hmss]
      constructor
      · rintro ⟨-, h⟩
        have hleft := h _ rfl
        exact ⟨hle, Or.inr (by omega)⟩
      · rintro ⟨-, h⟩
        refine ⟨(fun h => by cases h), fun cwnd heq => ?_⟩
        cases heq
        omega
  · rw [bind_error (subU32_of_not_le hle)]
    exact ⟨fun h => absurd rfl h.1, fun h => absurd h.1 hle⟩

end Cubic

namespace CubicSender

open CubicPanic

variable {s s' : CubicSender}

/-- The acknowledgement neither overflows nor underflows the window, and a partial one leaves at least an MSS of it. -/
def CwndInRange (s : CubicSender) (ackNum : SeqNumber) (estimate : WindowEstimate) : Prop :=
  s.receiveAck ackNum estimate ≠ .error .cwnd ∧
    ∀ s', s.receiveAck ackNum estimate = .ok s' → (ackNum - s.sendUnacked).toNat ≠ 0 →
      ackNum.gt s.cubic.recover = false → s.cubic.mss ≤ s'.cubic.cwnd

/-- A duplicate leaves room for one more MSS, a full acknowledgement finds no more than the address space outstanding,
and a partial one covers no more than the window, of which it leaves an MSS. -/
def AckFits (s : CubicSender) (ackNum : SeqNumber) : Prop :=
  let bytesAcknowledged := (ackNum - s.sendUnacked).toNat
  if bytesAcknowledged = 0 then
    s.cubic.CountersFit → s.cubic.EntersRecovery ackNum ∨ s.cubic.cwnd + s.cubic.mss < 2 ^ 32
  else if ackNum.gt s.cubic.recover then
    max (s.sendNext - s.sendUnacked).toNat s.cubic.mss + s.cubic.mss < 2 ^ 32
  else
    bytesAcknowledged ≤ s.cubic.cwnd ∧
      (s.cubic.mss ≤ bytesAcknowledged ∨ bytesAcknowledged + s.cubic.mss ≤ s.cubic.cwnd)

instance AckFits.decidable (s : CubicSender) (ackNum : SeqNumber) : Decidable (s.AckFits ackNum) :=
  instDecidableIte

theorem receiveAck_ne_iff (ackNum : SeqNumber) (estimate : WindowEstimate) :
    s.receiveAck ackNum estimate ≠ .error .cwnd ↔
      s.cubic.onAckReceived estimate s.sendUnacked s.sendNext ackNum ≠ .error .cwnd :=
  bind_pure_ne_iff

theorem onAckReceived_dup_ne_iff {ackNum : SeqNumber} (hdup : (ackNum - s.sendUnacked).toNat = 0)
    (estimate : WindowEstimate) :
    s.cubic.onAckReceived estimate s.sendUnacked s.sendNext ackNum ≠ .error .cwnd ↔
      s.cubic.onDupAckReceived s.sendNext ackNum ≠ .error .cwnd := by
  rw [Cubic.onAckReceived, if_pos hdup]
  exact bind_pure_ne_iff

theorem onAckReceived_full_ne_iff {ackNum : SeqNumber} (hnew : (ackNum - s.sendUnacked).toNat ≠ 0)
    (hrecovery : s.cubic.inFastRecovery = true) (hfull : ackNum.gt s.cubic.recover = true) (estimate : WindowEstimate) :
    s.cubic.onAckReceived estimate s.sendUnacked s.sendNext ackNum ≠ .error .cwnd ↔
      max (s.sendNext - s.sendUnacked).toNat s.cubic.mss + s.cubic.mss < 2 ^ 32 := by
  rw [Cubic.onAckReceived, if_neg hnew, Cubic.onNewAckReceived, if_pos hrecovery, Cubic.onAckReceivedFastRecovery]
  dsimp only
  rw [if_pos hfull]
  refine bind_pure_ne_iff.trans (bind_pure_ne_iff.trans ?_)
  unfold inU32
  split
  next hlt => exact ⟨fun _ => hlt, fun _ h => by cases h⟩
  next hge => exact ⟨fun h => absurd rfl h, fun h => absurd h hge⟩

/-- A partial acknowledgement does what is done to the window. -/
theorem receiveAck_partial {ackNum : SeqNumber} (hnew : (ackNum - s.sendUnacked).toNat ≠ 0)
    (hrecovery : s.cubic.inFastRecovery = true) (hpart : ackNum.gt s.cubic.recover = false)
    (estimate : WindowEstimate) :
    (∃ panic, s.cubic.cwndAfterPartialAck (ackNum - s.sendUnacked).toNat = .error panic ∧
      s.receiveAck ackNum estimate = .error panic) ∨
    ∃ s', s.cubic.cwndAfterPartialAck (ackNum - s.sendUnacked).toNat = .ok s'.cubic.cwnd ∧
      s.receiveAck ackNum estimate = .ok s' := by
  rw [receiveAck, Cubic.onAckReceived, if_neg hnew, Cubic.onNewAckReceived, if_pos hrecovery,
    Cubic.onAckReceivedFastRecovery]
  dsimp only
  rw [if_neg (Bool.eq_false_iff.mp hpart)]
  have hsame : { s.cubic with duplicateAckCount := 0 }.cwndAfterPartialAck (ackNum - s.sendUnacked).toNat =
      s.cubic.cwndAfterPartialAck (ackNum - s.sendUnacked).toNat := rfl
  cases hcwnd : s.cubic.cwndAfterPartialAck (ackNum - s.sendUnacked).toNat with
  | error panic =>
    refine Or.inl ⟨panic, rfl, ?_⟩
    rw [bind_error (hsame.trans hcwnd)]
    rfl
  | ok cwnd =>
    rw [bind_ok (hsame.trans hcwnd)]
    exact Or.inr ⟨_, rfl, rfl⟩

/-- In fast recovery the window stays in range exactly when the acknowledgement fits. -/
theorem cwndInRange_iff (h : s.cubic.InRange) (hrecovery : s.cubic.inFastRecovery = true) (ackNum : SeqNumber)
    (estimate : WindowEstimate) : s.CwndInRange ackNum estimate ↔ s.AckFits ackNum := by
  unfold CwndInRange AckFits
  by_cases hdup : (ackNum - s.sendUnacked).toNat = 0
  · rw [if_pos hdup, receiveAck_ne_iff, onAckReceived_dup_ne_iff hdup, Cubic.onDupAckReceived_ne_iff hrecovery]
    exact ⟨fun h => h.1, fun h => ⟨h, fun _ _ hne => absurd hdup hne⟩⟩
  · rw [if_neg hdup]
    cases hfull : ackNum.gt s.cubic.recover with
    | true =>
      rw [if_pos rfl, receiveAck_ne_iff, onAckReceived_full_ne_iff hdup hrecovery hfull]
      exact ⟨fun h => h.1, fun h => ⟨h, fun _ _ _ hpart => by cases hpart⟩⟩
    | false =>
      rw [if_neg Bool.false_ne_true, ← Cubic.cwndAfterPartialAck_iff h.cwnd]
      rcases receiveAck_partial hdup hrecovery hfull estimate with ⟨panic, hcwnd, hack⟩ | ⟨s', hcwnd, hack⟩
      · rw [hcwnd, hack]
        have hvacuous : (∀ s' : CubicSender, Except.error panic = .ok s' → (ackNum - s.sendUnacked).toNat ≠ 0 →
            false = false → s.cubic.mss ≤ s'.cubic.cwnd) ↔ ∀ cwnd, Except.error panic = .ok cwnd → s.cubic.mss ≤ cwnd :=
          iff_of_true (fun _ h => by cases h) (fun _ h => by cases h)
        rw [hvacuous, ne_eq, ne_eq, Except.error.injEq, Except.error.injEq]
      · rw [hcwnd, hack]
        constructor
        · rintro ⟨-, hleft⟩
          refine ⟨(fun h => by cases h), fun cwnd heq => ?_⟩
          cases heq
          exact hleft s' rfl hdup rfl
        · rintro ⟨-, hleft⟩
          refine ⟨(fun h => by cases h), fun s₁ heq _ _ => ?_⟩
          cases heq
          exact hleft _ rfl

/-- Every acknowledgement in fast recovery keeps the window in range. -/
def UpdatesInRange (s : CubicSender) : CubicEvent → Prop
  | .ack ackNum estimate => s.cubic.inFastRecovery = true → s.CwndInRange ackNum estimate
  | _ => True

def EventFits (s : CubicSender) : CubicEvent → Prop
  | .ack ackNum _ => s.cubic.inFastRecovery = true → s.AckFits ackNum
  | _ => True

instance EventFits.decidable (s : CubicSender) : (e : CubicEvent) → Decidable (s.EventFits e)
  | .ack ackNum _ => inferInstanceAs (Decidable (_ → s.AckFits ackNum))
  | .send _ _ _ | .probe | .fastRetransmit | .rto => inferInstanceAs (Decidable True)

theorem start_inRange {mss : Nat} {seqNo : SeqNumber} {fastConvergence : Bool}
    (h : start mss seqNo fastConvergence = .ok s) : s.cubic.InRange := by
  unfold start at h
  cases hnew : Cubic.new mss seqNo fastConvergence with
  | error panic =>
    rw [hnew] at h
    cases h
  | ok cubic =>
    rw [hnew] at h
    cases h
    exact Cubic.new_inRange hnew

theorem step_inRange {e : CubicEvent} (h : s.cubic.InRange) (hstep : s.step e = some s') : s'.cubic.InRange := by
  cases e with
  | ack ackNum estimate =>
    obtain ⟨cubic, hack, hs⟩ := bind_eq_ok_iff.mp (eq_ok_of_toOption hstep)
    cases hs
    exact Cubic.onAckReceived_inRange h hack
  | send longTimeSinceSend winSz bufLen =>
    obtain ⟨inFlight, -, hs⟩ := bind_eq_ok_iff.mp (eq_ok_of_toOption hstep)
    obtain ⟨effectiveCwnd, -, hs⟩ := bind_eq_ok_iff.mp hs
    have hcheck := Cubic.onCwndCheckBeforeSend_inRange h longTimeSinceSend
    split at hs
    next =>
      cases hs
      exact ⟨hcheck.cwnd, hcheck.initialCwnd, hcheck.mss⟩
    next =>
      cases hs
      exact hcheck
  | probe =>
    cases hstep
    exact h
  | fastRetransmit =>
    cases hstep
    exact ⟨h.cwnd, h.initialCwnd, h.mss⟩
  | rto =>
    obtain ⟨cubic, hrto, hs⟩ := Option.map_eq_some_iff.mp hstep
    cases hs
    exact Cubic.onRto_inRange h (eq_ok_of_toOption hrto)

theorem run_cwndInRange_iff {mss : Nat} {seqNo : SeqNumber} {fastConvergence : Bool}
    (hstart : start mss seqNo fastConvergence = .ok s) (events : List CubicEvent) :
    Runs.Admits step UpdatesInRange s events ↔ Runs.Admits step EventFits s events := by
  refine Runs.admits_congr_of_invariant (fun _ _ _ h hstep => step_inRange h hstep) (fun s e h => ?_)
    (start_inRange hstart)
  cases e with
  | ack ackNum estimate =>
    constructor
    · intro hrange hrecovery
      exact (cwndInRange_iff h hrecovery ackNum estimate).mp (hrange hrecovery)
    · intro hfits hrecovery
      exact (cwndInRange_iff h hrecovery ackNum estimate).mpr (hfits hrecovery)
  | _ => exact Iff.rfl

/-- A new connection with an MSS of 1000 bytes. -/
def thousandByteStart : CubicSender where
  cubic := {
    mss := 1000, cwnd := 4000, fastConvergence := true, initialCwnd := 4000, lastCongestionWasRto := false,
    retransmittedPacketsInFlight := 0, ssthresh := 2 ^ 32 - 1, wMax := 0, duplicateAckCount := 0,
    fastRetransmitNow := false, inFastRecovery := false, prevAckSeqNo := ⟨0⟩, recover := ⟨0⟩,
    limitedTransmitCwndIncrease := 0 }
  sendUnacked := ⟨0⟩
  sendNext := ⟨0⟩

/-- Of four segments the first one is lost. -/
def lossEvents : List CubicEvent :=
  List.replicate 4 (.send false 65535 1000) ++ List.replicate 3 (.ack ⟨0⟩ (.grow 0)) ++ [.fastRetransmit]

/-- The connection after the loss: the window is 2800 bytes, and 4000 are outstanding. -/
def afterLoss : CubicSender where
  cubic := {
    mss := 1000, cwnd := 2800, fastConvergence := true, initialCwnd := 4000, lastCongestionWasRto := false,
    retransmittedPacketsInFlight := 0, ssthresh := 2800, wMax := 4000, duplicateAckCount := 3,
    fastRetransmitNow := false, inFastRecovery := true, prevAckSeqNo := ⟨0⟩, recover := ⟨4000⟩,
    limitedTransmitCwndIncrease := 2000 }
  sendUnacked := ⟨0⟩
  sendNext := ⟨4000⟩

theorem start_thousandByteStart : start 1000 ⟨0⟩ true = .ok thousandByteStart := rfl

theorem run_lossEvents : Runs.run step thousandByteStart lossEvents = some afterLoss := by decide +kernel

/-- An acknowledgement of 3000 bytes underflows the window, as do one of all 4000 and one of an older byte. -/
theorem run_cwndInRange_fails : start 1000 ⟨0⟩ true = .ok thousandByteStart ∧
    Runs.run step thousandByteStart lossEvents = some afterLoss ∧ afterLoss.cubic.inFastRecovery = true ∧
    ¬afterLoss.CwndInRange ⟨3000⟩ (.grow 0) ∧ ¬afterLoss.CwndInRange ⟨4000⟩ (.grow 0) ∧
    ¬afterLoss.CwndInRange (⟨0⟩ - ⟨1⟩) (.grow 0) :=
  ⟨start_thousandByteStart, run_lossEvents, rfl, fun h => h.1 rfl, fun h => h.1 rfl, fun h => h.1 rfl⟩

theorem run_cwndInRange_iff_loss :
    Runs.Admits step UpdatesInRange thousandByteStart (lossEvents ++ [.ack ⟨2000⟩ (.grow 0), .ack ⟨2000⟩ (.grow 0)]) :=
  (run_cwndInRange_iff start_thousandByteStart _).mpr (by decide +kernel)

end CubicSender

end Capybara
