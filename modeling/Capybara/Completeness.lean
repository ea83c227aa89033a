import Capybara.CleanStore
import Capybara.ReceiverRun

namespace Capybara

open Slice Reassembly Runs

instance (store : List Range) (lo hi : Nat) : Decidable (Clean store lo hi) :=
  inferInstanceAs (Decidable (∀ r ∈ store, _))

instance (store : List Range) (lo hi : Nat) : Decidable (HasRoom store lo hi) :=
  inferInstanceAs (Decidable (_ ∨ _))

namespace ReceiverRun

/-- The stored segments, as ranges of the stream counted from RCV.NXT. -/
def stored (s : ReceiverRun) : List Range :=
  s.cb.outOfOrder.map fun (start, buf) =>
    let lo := s.delivered.length + (start - s.cb.receiver.receiveNext).toNat
    (lo, lo + buf.length)

/-- RCV.NXT is past every stream byte up to the first that was never accepted. -/
def Complete (isn : SeqNumber) (s : ReceiverRun) : Prop :=
  s.cb.receiver.receiveNext = isn.atPos s.delivered.length ∧
    ∀ m, (∀ b < m, ∃ r ∈ s.accepted, r.1 ≤ b ∧ b < r.2) → m ≤ s.delivered.length

/-- The store has room for what is accepted out of order. -/
def NoEviction (s : ReceiverRun) : ReceiverEvent → Prop
  | .segment header lo hi _ => ∀ part ∈ s.acceptedPart header lo hi, part.1 ≠ s.delivered.length →
      HasRoom s.stored part.1 part.2
  | .pop => True

/-- What is accepted in order ends before the stored segments, and what is accepted out of order overlaps none of
them partly. -/
def NoPartialOverlap (s : ReceiverRun) : ReceiverEvent → Prop
  | .segment header lo hi _ => ∀ part ∈ s.acceptedPart header lo hi,
      if part.1 = s.delivered.length then ∀ r ∈ s.stored, part.2 ≤ r.1 else Clean s.stored part.1 part.2
  | .pop => True

instance (s : ReceiverRun) : (e : ReceiverEvent) → Decidable (NoEviction s e)
  | .segment header lo hi _ => inferInstanceAs (Decidable (∀ part ∈ s.acceptedPart header lo hi, _))
  | .pop => inferInstanceAs (Decidable True)

instance (s : ReceiverRun) : (e : ReceiverEvent) → Decidable (NoPartialOverlap s e)
  | .segment header lo hi _ => inferInstanceAs (Decidable (∀ part ∈ s.acceptedPart header lo hi, _))
  | .pop => inferInstanceAs (Decidable True)

variable {c : Inbound} {s : ReceiverRun} {r : Reassembly}

/-- Everything accepted is delivered or stored, and the store is in order and ahead of RCV.NXT. -/
structure Covered (accepted : List Range) (r : Reassembly) : Prop where
  ordered : Ordered r.store
  ahead : ∀ x ∈ r.store, r.next < x.1
  kept : ∀ x ∈ accepted, ∀ b, x.1 ≤ b → b < x.2 → b < r.next ∨ ∃ y ∈ r.store, y.1 ≤ b ∧ b < y.2

theorem Covered.complete (h : Covered s.accepted r) (hat : At c s r) : Complete c.isn s := by
  refine ⟨by rw [hat.delivered_length, hat.refines.receiveNext], fun m hm => ?_⟩
  rw [hat.delivered_length]
  by_contra hgt
  obtain ⟨x, hx, hlo, hhi⟩ := hm r.next (by omega)
  rcases h.kept x hx r.next hlo hhi with hlt | ⟨y, hy, hy₁, -⟩
  · omega
  · have hahead := h.ahead y hy
    omega

/-- The entries are read back from the store as the ranges they hold. -/
theorem stored_eq {stream : Buffer} {isn : SeqNumber} {store : List Range} (hout : s.cb.outOfOrder = store.map (entry stream isn))
    (hnext : s.cb.receiver.receiveNext = isn.atPos s.delivered.length)
    (hin : ∀ r ∈ store, s.delivered.length < r.1 ∧ r.1 < r.2 ∧ r.2 ≤ stream.length ∧
      r.2 ≤ s.delivered.length + 2 ^ 31) : s.stored = store := by
  rw [ReceiverRun.stored, hout, List.map_map]
  refine (List.map_congr_left fun r hr => ?_).trans (List.map_id _)
  obtain ⟨h₁, h₂, h₃, h₄⟩ := hin r hr
  have hlen : (slice stream r.1 r.2).length = r.2 - r.1 := length_slice_of_le h₃ r.1
  have hdist := @SeqNumber.atPos_sub_toNat isn r.1 s.delivered.length (by omega) (by omega)
  simp only [Function.comp, entry, hnext, hdist, hlen]
  ext
  · simp only [id_eq]
    omega
  · simp only [id_eq]
    omega

theorem At.stored (h : At c s r) (ha : ∀ x ∈ r.store, r.next < x.1) : s.stored = r.store := by
  apply stored_eq h.refines.store (by rw [h.delivered_length, h.refines.receiveNext])
  intro x hx
  obtain ⟨-, hx₁, hx₂⟩ := h.refines.bounded x hx
  have hahead := ha x hx
  have hbuf := h.refines.buffer
  have hp := h.refines.popped_le
  rw [h.delivered_length]
  omega

theorem At.acceptedPart {header : TcpHeader} {lo hi : Nat} (h : At c s r) :
    s.acceptedPart header lo hi =
      if ackAllows c.sendUnacked header ∧ max lo r.next < min hi (r.popped + c.size) then
        [(max lo r.next, min hi (r.popped + c.size))]
      else [] := by
  rw [ReceiverRun.acceptedPart, h.refines.sendUnacked, h.delivered_length, h.limit]

/-- Text in order that ends before the stored ranges. -/
theorem Covered.in_order {accepted : List Range} {hi : Nat} (h : Covered accepted r)
    (hgap : ∀ x ∈ r.store, hi ≤ x.1) (hlt : r.next < hi) :
    Covered (accepted ++ [(r.next, hi)])
      { r with next := (drainRanges r.store hi).2, store := (drainRanges r.store hi).1 } := by
  obtain ⟨hordered, hmem, hle, hkept⟩ := drainRanges_ordered h.ordered hgap
  refine ⟨hordered, fun x hx => (hmem x hx).2, ?_⟩
  intro x hx b hlo hhi
  simp only at hlo hhi ⊢
  rcases List.mem_append.mp hx with hold | hnew
  · rcases h.kept x hold b hlo hhi with hdone | ⟨y, hy, hy₁, hy₂⟩
    · exact .inl (by omega)
    · rcases hkept y hy with hstays | hgone
      · exact .inr ⟨y, hstays, hy₁, hy₂⟩
      · exact .inl (by omega)
  · cases List.mem_singleton.mp hnew
    simp only at hhi
    exact .inl (by omega)

/-- Text out of order that overlaps no stored range partly and for which there is room. -/
theorem Covered.out_of_order {accepted : List Range} {lo hi : Nat} (h : Covered accepted r)
    (hclean : Clean r.store lo hi) (hroom : HasRoom r.store lo hi) (hnear : Near r.store lo hi) (hnext : r.next < lo)
    (hlt : lo < hi) :
    Covered (accepted ++ [(lo, hi)]) { r with store := placeRange (r.store.length + 1) r.store lo hi } := by
  obtain ⟨hordered, hmem⟩ := @placeRange_ordered (r.store.length + 1) lo hi r.store h.ordered hclean hnear hlt
  obtain ⟨⟨y, hy, hy₁, hy₂⟩, hkept⟩ := placeRange_keeps h.ordered hclean hnear hlt hroom (Nat.lt_succ_self _)
  refine ⟨hordered, ?_, ?_⟩
  · intro x hx
    rcases hmem x hx with rfl | hold
    · exact hnext
    · exact h.ahead x hold
  · intro x hx b hlo hhi
    rcases List.mem_append.mp hx with hold | hnew
    · rcases h.kept x hold b hlo hhi with hdone | ⟨z, hz, hz₁, hz₂⟩
      · exact .inl hdone
      · rcases hkept z hz with hstays | ⟨hin₁, hin₂⟩
        · exact .inr ⟨z, hstays, hz₁, hz₂⟩
        · exact .inr ⟨y, hy, by omega, by omega⟩
    · cases List.mem_singleton.mp hnew
      simp only at hlo hhi
      exact .inr ⟨y, hy, by omega, by omega⟩

/-- A segment of which nothing is accepted changes nothing, else its part in the window is delivered or stored. -/
theorem Covered.accept {header : TcpHeader} {lo hi : Nat} {env : Env} (h : Covered s.accepted r) (hat : At c s r)
    (hroom : NoEviction s (.segment header lo hi env)) (hover : NoPartialOverlap s (.segment header lo hi env)) :
    Covered (s.accepted ++ s.acceptedPart header lo hi)
      (if ackAllows c.sendUnacked header then r.accept (r.popped + c.size) lo hi else r) := by
  have hstored := hat.stored h.ahead
  simp only [NoEviction, NoPartialOverlap, hat.acceptedPart, hat.delivered_length, hstored] at hroom hover ⊢
  by_cases hallow : ackAllows c.sendUnacked header = true
  · by_cases hin : max lo r.next < min hi (r.popped + c.size)
    · rw [if_pos ⟨hallow, hin⟩] at hroom hover ⊢
      have hroom' := hroom _ List.mem_cons_self
      have hover' := hover _ List.mem_cons_self
      simp only at hroom' hover'
      rw [if_pos hallow, Reassembly.accept, if_neg (Nat.not_le.mpr hin)]
      by_cases hle : lo ≤ r.next
      · rw [if_pos hle]
        rw [Nat.max_eq_right hle] at hin hover' ⊢
        rw [if_pos rfl] at hover'
        exact h.in_order hover' hin
      · have hmax : max lo r.next = lo := Nat.max_eq_left (by omega)
        rw [if_neg hle]
        rw [hmax] at hin hover' hroom' ⊢
        rw [if_neg (by omega)] at hover'
        refine h.out_of_order hover' (hroom' (by omega)) ?_ (by omega) hin
        intro x hx
        obtain ⟨-, hx₁, hx₂⟩ := hat.refines.bounded x hx
        have hahead := h.ahead x hx
        have hbuf := hat.refines.buffer
        have hp := hat.refines.popped_le
        omega
    · rw [if_neg (fun hc => hin hc.2), List.append_nil, Reassembly.accept, if_pos (Nat.not_lt.mp hin), ite_self]
      exact h
  · rw [if_neg (fun hc => hallow hc.1), if_neg hallow, List.append_nil]
    exact h

def Gapless (c : Inbound) (s : ReceiverRun) : Prop := ∃ r, At c s r ∧ Covered s.accepted r

theorem step_gapless {e : ReceiverEvent} (h : Gapless c s) (hs : SlicesOf c.stream c.isn s e) (hroom : NoEviction s e)
    (hover : NoPartialOverlap s e) :
    (step c.stream s e = none ∧ ¬NoHalfTurnAck s e) ∨ ∃ s', step c.stream s e = some s' ∧ Gapless c s' := by
  obtain ⟨r, hat, hcov⟩ := h
  cases e with
  | pop =>
    obtain ⟨s', hstep, haccepted, popped, hat'⟩ := step_pop hat
    exact .inr ⟨s', hstep, _, hat', by rw [haccepted]; exact ⟨hcov.ordered, hcov.ahead, hcov.kept⟩⟩
  | segment header lo hi env =>
    have hp := hat.refines.popped_le
    have hbuf := hat.refines.buffer
    have hlen := hs.2.2.1
    have hclose : ∀ x ∈ r.store, min (r.popped + c.size) c.stream.length < x.1 + 2 ^ 32 := by
      intro x hx
      have hahead := hcov.ahead x hx
      omega
    rcases step_segment hat hs hat.refines.bounded (by omega) (Nat.min_le_right _ _) (Nat.min_le_left _ _) hclose with
      hnone | ⟨s', hstep, haccepted, hat'⟩
    · exact .inl hnone
    · exact .inr ⟨s', hstep, _, hat', by rw [haccepted]; exact hcov.accept hat hroom hover⟩

theorem start_gapless {stream : Buffer} {isn : SeqNumber} {cb : ControlBlock} (h : Fresh isn cb) :
    Gapless ⟨stream, isn, cb.sender.sendUnacked, cb.receiveBufferSize.toNat⟩ (start cb) :=
  ⟨⟨0, 0, []⟩, ⟨h.refines stream, rfl⟩, ⟨by simp, by simp⟩, by simp, by simp [start]⟩

/-- As long as nothing is evicted and no segment overlaps a stored one partly, data received out of order is delivered
as soon as the hole before it is filled. -/
theorem run_complete {stream : Buffer} {isn : SeqNumber} {cb : ControlBlock} {events : List ReceiverEvent}
    (hcb : Fresh isn cb) (hs : Admits (step stream) (SlicesOf stream isn) (start cb) events)
    (hroom : Admits (step stream) NoEviction (start cb) events)
    (hover : Admits (step stream) NoPartialOverlap (start cb) events) :
    (∀ s, run (step stream) (start cb) events = some s → Complete isn s) ∧
      (Admits (step stream) NoHalfTurnAck (start cb) events → (run (step stream) (start cb) events).isSome) := by
  have hstart := @start_gapless stream isn cb hcb
  obtain ⟨hkeep, hgo⟩ :=
    run_keeps (fun s e hi hadmit => step_gapless hi hadmit.1.1 hadmit.1.2 hadmit.2) hstart ((hs.and hroom).and hover)
  refine ⟨fun s hrun => ?_, hgo⟩
  obtain ⟨r, hat, hcov⟩ := hkeep s hrun
  exact hcov.complete hat

/-- The whole stream in two clean pieces, the second one first. -/
def pieceEvents : List ReceiverEvent :=
  [.segment { TcpHeader.new 50000 10000 with seqNum := ⟨0⟩, ack := true, ackNum := ⟨7⟩ } 2 4 ⟨0, none, 0, 0, 0⟩,
    .segment { TcpHeader.new 50000 10000 with seqNum := ⟨4294967294⟩, ack := true, ackNum := ⟨7⟩ } 0 2
      ⟨0, none, 0, 0, 0⟩, .pop]

theorem run_complete_pieces :
    (run (step [1, 2, 3, 4]) (start sampleReceiver) pieceEvents).isSome ∧
      ∀ s, run (step [1, 2, 3, 4]) (start sampleReceiver) pieceEvents = some s → Complete ⟨4294967294⟩ s := by
  obtain ⟨hcomplete, hruns⟩ := @run_complete [1, 2, 3, 4] ⟨4294967294⟩ sampleReceiver pieceEvents
    (fresh_new (by decide) (by decide) (by decide)) (by decide) (by decide) (by decide)
  exact ⟨hruns (by decide), hcomplete⟩

/-- Bytes 10 to 19 are stored, and the segment that fills the hole reaches into them. -/
def strandedEvents : List ReceiverEvent :=
  [.segment { TcpHeader.new 50000 10000 with seqNum := ⟨8⟩, ack := true, ackNum := ⟨7⟩ } 10 20 ⟨0, none, 0, 0, 0⟩,
    .segment { TcpHeader.new 50000 10000 with seqNum := ⟨4294967294⟩, ack := true, ackNum := ⟨7⟩ } 0 14
      ⟨0, none, 0, 0, 0⟩]

/-- All twenty bytes are accepted and only fourteen are delivered. -/
theorem run_complete_stranded :
    Fresh ⟨4294967294⟩ sampleReceiver ∧
      Admits (step (List.replicate 20 1)) (SlicesOf (List.replicate 20 1) ⟨4294967294⟩) (start sampleReceiver)
        strandedEvents ∧
      Admits (step (List.replicate 20 1)) NoEviction (start sampleReceiver) strandedEvents ∧
      ∃ s, run (step (List.replicate 20 1)) (start sampleReceiver) strandedEvents = some s ∧
        ¬Complete ⟨4294967294⟩ s := by
  refine ⟨fresh_new (by decide) (by decide) (by decide), by decide, by decide,
    (run (step (List.replicate 20 1)) (start sampleReceiver) strandedEvents).get (by decide),
    (Option.some_get _).symm, fun h => ?_⟩
  exact absurd (h.2 20 (by decide)) (by decide)

end ReceiverRun

end Capybara
