import Capybara.Completeness

namespace Capybara

open Slice Reassembly Runs

/-- Calls of `store_out_of_order_segment` with a part of the stream and of `receive_data` with the text at RCV.NXT. -/
inductive StoreCall
  | store (lo hi : Nat)
  | deliver (hi : Nat)
  deriving DecidableEq, Repr

namespace ReceiverRun

/-- One call; `accepted` collects the ranges passed to the store. -/
def call (stream : Buffer) (isn : SeqNumber) (s : ReceiverRun) : StoreCall → Option ReceiverRun
  | .store lo hi => do
    let cb ← s.cb.storeOutOfOrderSegment (isn.atPos lo) (isn.atPos (hi - 1)) (slice stream lo hi)
    some { s with cb := cb, accepted := s.accepted ++ [(lo, hi)] }
  | .deliver hi => do
    let next := s.delivered.length
    let (_, cb) ← s.cb.receiveData (isn.atPos next) (slice stream next hi)
    some { s with cb := cb }

/-- What `receive` calls the two with: text of the stream inside the receive window, which is at most half of the
sequence space, and only text that does not start at RCV.NXT goes to the store. -/
def Called (stream : Buffer) (s : ReceiverRun) : StoreCall → Prop
  | .store lo hi => s.delivered.length < lo ∧ lo < hi ∧ hi ≤ stream.length ∧ hi ≤ s.delivered.length + 2 ^ 31
  | .deliver hi => s.delivered.length < hi ∧ hi ≤ stream.length ∧ hi ≤ s.delivered.length + 2 ^ 31

/-- No stored range is overlapped partly, and text in order ends before the stored ranges. -/
def CallClean (s : ReceiverRun) : StoreCall → Prop
  | .store lo hi => Clean s.stored lo hi
  | .deliver hi => ∀ r ∈ s.stored, hi ≤ r.1

/-- The insertion stays within MAX_OUT_OF_ORDER. -/
def CallHasRoom (s : ReceiverRun) : StoreCall → Prop
  | .store lo hi => HasRoom s.stored lo hi
  | .deliver _ => True

instance (stream : Buffer) (s : ReceiverRun) : (e : StoreCall) → Decidable (Called stream s e)
  | .store _ _ => inferInstanceAs (Decidable (_ ∧ _))
  | .deliver _ => inferInstanceAs (Decidable (_ ∧ _))

instance (s : ReceiverRun) : (e : StoreCall) → Decidable (CallClean s e)
  | .store lo hi => inferInstanceAs (Decidable (Clean s.stored lo hi))
  | .deliver _ => inferInstanceAs (Decidable (∀ r ∈ s.stored, _))

instance (s : ReceiverRun) : (e : StoreCall) → Decidable (CallHasRoom s e)
  | .store lo hi => inferInstanceAs (Decidable (HasRoom s.stored lo hi))
  | .deliver _ => inferInstanceAs (Decidable True)

/-- The store is in order and ahead of RCV.NXT, and its entries are the stream's bytes at their positions. -/
structure StoreInOrder (stream : Buffer) (isn : SeqNumber) (s : ReceiverRun) : Prop where
  delivered : s.delivered = stream.take s.delivered.length
  receiveNext : s.cb.receiver.receiveNext = isn.atPos s.delivered.length
  entries : s.cb.outOfOrder = s.stored.map (entry stream isn)
  ordered : Ordered s.stored
  ahead : ∀ r ∈ s.stored, s.delivered.length < r.1
  inWindow : ∀ r ∈ s.stored, r.2 ≤ stream.length ∧ r.2 ≤ s.delivered.length + 2 ^ 31

/-- The bytes in the store are those passed to it and not delivered yet. -/
def StoreExact (s : ReceiverRun) : Prop :=
  ∀ b, Holds s.stored b ↔ s.delivered.length ≤ b ∧ Holds s.accepted b

variable {stream : Buffer} {isn : SeqNumber} {s s' : ReceiverRun} {lo hi : Nat}

theorem StoreInOrder.bounded (h : StoreInOrder stream isn s) :
    Bounded (min stream.length (s.delivered.length + 2 ^ 31)) s.stored := by
  intro r hr
  have hahead := h.ahead r hr
  have hwin := h.inWindow r hr
  exact ⟨by omega, h.ordered.nonempty r hr, Nat.le_min.mpr hwin⟩

theorem StoreInOrder.near (h : StoreInOrder stream isn s) (hlo : s.delivered.length < lo)
    (hhi : hi ≤ s.delivered.length + 2 ^ 31) : Near s.stored lo hi := by
  intro r hr
  have hahead := h.ahead r hr
  have hwin := h.inWindow r hr
  omega

theorem call_store (h : StoreInOrder stream isn s) (hc : Called stream s (.store lo hi)) :
    ∃ s', call stream isn s (.store lo hi) = some s' ∧ s'.delivered = s.delivered ∧
      s'.cb.receiver = s.cb.receiver ∧ s'.accepted = s.accepted ++ [(lo, hi)] ∧
      s'.cb.outOfOrder = (placeRange (s.stored.length + 1) s.stored lo hi).map (entry stream isn) := by
  obtain ⟨hlo, hlt, hlen, hwin⟩ := hc
  have hclose : ∀ r ∈ s.stored, hi ≤ r.1 + 2 ^ 32 := by
    intro r hr
    have hahead := h.ahead r hr
    omega
  have hplace := @placeSegment_refines stream isn (s.stored.length + 1)
    (min stream.length (s.delivered.length + 2 ^ 31)) lo hi s.stored h.bounded hlt (Nat.min_le_left _ _)
    (Nat.le_min.mpr ⟨hlen, hwin⟩) hclose (by omega) (Nat.lt_succ_self _)
  have hstored : s.cb.outOfOrder.length = s.stored.length := by rw [h.entries, List.length_map]
  refine ⟨{ s with
    cb := { s.cb with
      outOfOrder := (placeRange (s.stored.length + 1) s.stored lo hi).map (entry stream isn) }
    accepted := s.accepted ++ [(lo, hi)] }, ?_, rfl, rfl, rfl, rfl⟩
  rw [call, ControlBlock.storeOutOfOrderSegment, hstored]
  nth_rewrite 1 [h.entries]
  rw [hplace]
  rfl

theorem call_deliver (h : StoreInOrder stream isn s) (hc : Called stream s (.deliver hi))
    (hclean : CallClean s (.deliver hi)) :
    ∃ s', call stream isn s (.deliver hi) = some s' ∧ s'.accepted = s.accepted ∧
      s'.delivered = stream.take (drainRanges s.stored hi).2 ∧
      s'.cb.receiver.receiveNext = isn.atPos (drainRanges s.stored hi).2 ∧
      s'.cb.outOfOrder = (drainRanges s.stored hi).1.map (entry stream isn) := by
  obtain ⟨hlt, hlen, hwin⟩ := hc
  have halias : ∀ r ∈ s.stored, hi < r.1 + 2 ^ 32 ∧
      min stream.length (s.delivered.length + 2 ^ 31) < r.1 + 2 ^ 32 := by
    intro r hr
    have hgap := hclean r hr
    omega
  have hslice : (slice stream s.delivered.length hi).length = hi - s.delivered.length :=
    length_slice_of_le hlen _
  have hpush : (s.cb.receiver.push (slice stream s.delivered.length hi)).receiveNext = isn.atPos hi := by
    simp only [Receiver.push, h.receiveNext, hslice]
    rw [← SeqNumber.atPos_add, Nat.add_sub_cancel' (Nat.le_of_lt hlt)]
  obtain ⟨receiver, added, hdrain, hnext, -, hqueue⟩ := @drainOutOfOrder_refines stream isn
    (min stream.length (s.delivered.length + 2 ^ 31)) hi s.stored
    (s.cb.receiver.push (slice stream s.delivered.length hi)) false h.bounded (Nat.min_le_left _ _) (by omega)
    halias hpush
  have hle := (drainRanges_ordered h.ordered hclean).2.2.1
  refine ⟨{ s with cb := { s.cb with outOfOrder := _, receiver := receiver } }, ?_, rfl, ?_, hnext, rfl⟩
  · rw [call, ControlBlock.receiveData, h.receiveNext, hslice, ← SeqNumber.atPos_add,
      Nat.add_sub_cancel' (Nat.le_of_lt hlt), h.entries, hdrain]
    simp [debugAssert]
  · have hflat : s.popped ++ s.cb.receiver.recvQueue.flatten = stream.take s.delivered.length := h.delivered
    rw [ReceiverRun.delivered, hqueue, Receiver.push, List.flatten_append, ← List.append_assoc, ← List.append_assoc,
      hflat, List.flatten_singleton, ← slice_zero, slice_append stream (Nat.zero_le _) (Nat.le_of_lt hlt),
      slice_append stream (Nat.zero_le _) hle, slice_zero]

theorem step_store (h : StoreInOrder stream isn s) (hc : Called stream s (.store lo hi))
    (hclean : CallClean s (.store lo hi)) :
    ∃ s', call stream isn s (.store lo hi) = some s' ∧ StoreInOrder stream isn s' ∧
      (StoreExact s → CallHasRoom s (.store lo hi) → StoreExact s') := by
  obtain ⟨s', hcall, hdelivered, hreceiver, haccepted, hout⟩ := call_store h hc
  obtain ⟨hlo, hlt, hlen, hwin⟩ := hc
  obtain ⟨hordered, hmem⟩ := @placeRange_ordered (s.stored.length + 1) lo hi s.stored h.ordered hclean
    (h.near hlo hwin) hlt
  have hin : ∀ r ∈ placeRange (s.stored.length + 1) s.stored lo hi, s.delivered.length < r.1 ∧ r.1 < r.2 ∧
      r.2 ≤ stream.length ∧ r.2 ≤ s.delivered.length + 2 ^ 31 := by
    intro r hr
    rcases hmem r hr with rfl | hold
    · exact ⟨hlo, hlt, hlen, hwin⟩
    · exact ⟨h.ahead r hold, h.ordered.nonempty r hold, h.inWindow r hold⟩
  have hnext : s'.cb.receiver.receiveNext = isn.atPos s'.delivered.length := by
    rw [hreceiver, hdelivered, h.receiveNext]
  have hstored : s'.stored = placeRange (s.stored.length + 1) s.stored lo hi :=
    stored_eq hout hnext (by rwa [hdelivered])
  refine ⟨s', hcall, ⟨by rw [hdelivered]; exact h.delivered, hnext, by rw [hout, hstored], by rwa [hstored], ?_, ?_⟩, ?_⟩
  · rw [hstored, hdelivered]
    exact fun r hr => (hin r hr).1
  · rw [hstored, hdelivered]
    exact fun r hr => (hin r hr).2.2
  · intro hexact hroom b
    rw [hstored, hdelivered, haccepted, holds_append, holds_singleton,
      placeRange_holds h.ordered hclean (h.near hlo hwin) hlt hroom (Nat.lt_succ_self _), hexact b, and_or_left]
    have hnew : lo ≤ b ∧ b < hi → s.delivered.length ≤ b := by omega
    tauto

theorem step_deliver (h : StoreInOrder stream isn s) (hc : Called stream s (.deliver hi))
    (hclean : CallClean s (.deliver hi)) :
    ∃ s', call stream isn s (.deliver hi) = some s' ∧ StoreInOrder stream isn s' ∧ (StoreExact s → StoreExact s') := by
  obtain ⟨s', hcall, haccepted, hdelivered, hnext, hout⟩ := call_deliver h hc hclean
  obtain ⟨hlt, hlen, hwin⟩ := hc
  obtain ⟨hordered, hmem, hle, -⟩ := drainRanges_ordered h.ordered hclean
  have hbound : (drainRanges s.stored hi).2 ≤ stream.length := by
    have hb := (@drainRanges_bounded _ hi s.stored h.bounded).2.2
    omega
  have hlength : s'.delivered.length = (drainRanges s.stored hi).2 := by
    rw [hdelivered, List.length_take, Nat.min_eq_left hbound]
  have hin : ∀ r ∈ (drainRanges s.stored hi).1, (drainRanges s.stored hi).2 < r.1 ∧ r.1 < r.2 ∧
      r.2 ≤ stream.length ∧ r.2 ≤ (drainRanges s.stored hi).2 + 2 ^ 31 := by
    intro r hr
    obtain ⟨hold, hahead⟩ := hmem r hr
    have hinw := h.inWindow r hold
    exact ⟨hahead, h.ordered.nonempty r hold, hinw.1, by omega⟩
  have hstored : s'.stored = (drainRanges s.stored hi).1 :=
    stored_eq hout (by rw [hnext, hlength]) (by rwa [hlength])
  refine ⟨s', hcall, ⟨by rw [hlength, hdelivered], by rw [hnext, hlength], by rw [hout, hstored], by rwa [hstored],
    ?_, ?_⟩, ?_⟩
  · rw [hstored, hlength]
    exact fun r hr => (hin r hr).1
  · rw [hstored, hlength]
    exact fun r hr => (hin r hr).2.2
  · intro hexact b
    rw [hstored, hlength, haccepted, drainRanges_holds h.ordered hclean, hexact b]
    have hlater : (drainRanges s.stored hi).2 ≤ b → s.delivered.length ≤ b := by omega
    tauto

theorem call_keeps {e : StoreCall} (h : StoreInOrder stream isn s) (hc : Called stream s e) (hclean : CallClean s e) :
    ∃ s', call stream isn s e = some s' ∧ StoreInOrder stream isn s' ∧
      (StoreExact s → CallHasRoom s e → StoreExact s') := by
  cases e with
  | store lo hi => exact step_store h hc hclean
  | deliver hi =>
    obtain ⟨s', hcall, horder, hexact⟩ := step_deliver h hc hclean
    exact ⟨s', hcall, horder, fun hs _ => hexact hs⟩

theorem start_inOrder {cb : ControlBlock} (hn : cb.receiver.receiveNext = isn) (hq : cb.receiver.recvQueue = [])
    (ho : cb.outOfOrder = []) : StoreInOrder stream isn (start cb) ∧ StoreExact (start cb) := by
  have hdelivered : (start cb).delivered = [] := by simp [ReceiverRun.delivered, start, hq]
  have hstored : (start cb).stored = [] := by simp [ReceiverRun.stored, start, ho]
  have haccepted : (start cb).accepted = [] := rfl
  refine ⟨⟨by simp [hdelivered], ?_, by rw [hstored]; exact ho, ⟨?_, ?_⟩, ?_, ?_⟩, ?_⟩
  · rw [hdelivered, List.length_nil, SeqNumber.atPos_zero]
    exact hn
  all_goals simp [hstored, haccepted, StoreExact, Holds]

/-- As long as no segment overlaps a stored one partly the store is in order, and as long as there is room as well
it holds what was passed to it and is not delivered yet. -/
theorem calls_inOrder {cb : ControlBlock} {calls : List StoreCall} (hn : cb.receiver.receiveNext = isn)
    (hq : cb.receiver.recvQueue = []) (ho : cb.outOfOrder = [])
    (hc : Admits (call stream isn) (Called stream) (start cb) calls)
    (hclean : Admits (call stream isn) CallClean (start cb) calls) :
    ∃ s, run (call stream isn) (start cb) calls = some s ∧ StoreInOrder stream isn s ∧
      (Admits (call stream isn) CallHasRoom (start cb) calls → StoreExact s) := by
  obtain ⟨horder, hexact⟩ := @start_inOrder stream isn cb hn hq ho
  obtain ⟨s, hrun, hs⟩ := run_invariant (fun s e hi (ha : Called stream s e ∧ CallClean s e) =>
    (call_keeps hi ha.1 ha.2).imp fun _ h => ⟨h.1, h.2.1⟩) horder (hc.and hclean)
  refine ⟨s, hrun, hs, fun hroom => ?_⟩
  obtain ⟨s₂, hrun₂, -, hs₂⟩ := run_invariant
    (fun s e (hi : StoreInOrder stream isn s ∧ StoreExact s)
        (ha : (Called stream s e ∧ CallClean s e) ∧ CallHasRoom s e) =>
      (call_keeps hi.1 ha.1.1 ha.1.2).imp fun _ h => ⟨h.1, h.2.1, h.2.2 hi.2 ha.2⟩)
    ⟨horder, hexact⟩ ((hc.and hclean).and hroom)
  exact (Option.some.inj (hrun.symm.trans hrun₂)) ▸ hs₂

/-- The second piece first, then the same piece with more at both ends, then the first. -/
def cleanCalls : List StoreCall := [.store 5 8, .store 4 9, .store 6 7, .deliver 4]

theorem calls_inOrder_sample :
    ∃ s, run (call [1, 2, 3, 4, 5, 6, 7, 8, 9] ⟨4294967294⟩) (start sampleReceiver) cleanCalls = some s ∧
      StoreInOrder [1, 2, 3, 4, 5, 6, 7, 8, 9] ⟨4294967294⟩ s ∧ StoreExact s := by
  obtain ⟨s, hrun, horder, hexact⟩ := @calls_inOrder [1, 2, 3, 4, 5, 6, 7, 8, 9] ⟨4294967294⟩ sampleReceiver
    cleanCalls rfl rfl rfl (by decide) (by decide)
  exact ⟨s, hrun, horder, hexact (by decide)⟩

/-- The new segment overlaps the end of a stored one. -/
def overlapCalls : List StoreCall := [.store 5 10, .store 8 15]

/-- Of the overlapping bytes one too few is cut off. -/
theorem calls_inOrder_overlap :
    Admits (call (List.replicate 15 1) ⟨4294967294⟩) (Called (List.replicate 15 1)) (start sampleReceiver)
        overlapCalls ∧
      ∃ s, run (call (List.replicate 15 1) ⟨4294967294⟩) (start sampleReceiver) overlapCalls = some s ∧
        s.stored = [(5, 10), (9, 15)] ∧ ¬StoreInOrder (List.replicate 15 1) ⟨4294967294⟩ s := by
  refine ⟨by decide, (run (call (List.replicate 15 1) ⟨4294967294⟩) (start sampleReceiver) overlapCalls).get (by decide),
    (Option.some_get _).symm, by decide, fun h => ?_⟩
  have hapart := h.ordered.apart
  revert hapart
  decide

end ReceiverRun

end Capybara
