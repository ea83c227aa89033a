import Capybara.InFlight

namespace Capybara

open ControlBlock

/-- The sequence numbers that a buffer takes, each with its byte; the end-of-send marker takes one without a byte. -/
def sequenceUnits (buf : Buffer) : List (Option UInt8) := if buf.length = 0 then [none] else buf.map some

/-- What a retransmission queue holds, in order. -/
def queueUnits (queue : List UnackedSegment) : List (Option UInt8) :=
  queue.flatMap fun segment => sequenceUnits segment.bytes

/-- The first `n` units are gone: whole segments, and the front of the next one. -/
def RemovesFront (queue : List UnackedSegment) (n : Nat) (queue' : List UnackedSegment) : Prop :=
  ∃ front, (queue = front ++ queue' ∧ seqTotal (front.map UnackedSegment.bytes) = n) ∨
    ∃ k segment back, queue = front ++ segment :: back ∧ n = seqTotal (front.map UnackedSegment.bytes) + k ∧
      0 < k ∧ k < segment.bytes.length ∧ queue' = ⟨segment.bytes.drop k, none⟩ :: back

theorem length_sequenceUnits (buf : Buffer) : (sequenceUnits buf).length = sequenceLength buf := by
  unfold sequenceUnits sequenceLength
  split
  next => rfl
  next => exact List.length_map _

theorem queueUnits_cons (segment : UnackedSegment) (queue : List UnackedSegment) :
    queueUnits (segment :: queue) = sequenceUnits segment.bytes ++ queueUnits queue := List.flatMap_cons

theorem length_queueUnits (queue : List UnackedSegment) :
    (queueUnits queue).length = seqTotal (queue.map UnackedSegment.bytes) := by
  induction queue with
  | nil => rfl
  | cons segment queue ih =>
    rw [queueUnits_cons, List.length_append, length_sequenceUnits, ih]
    rfl

theorem queueUnits_append (front back : List UnackedSegment) :
    queueUnits (front ++ back) = queueUnits front ++ queueUnits back := List.flatMap_append

theorem sequenceUnits_drop {buf : Buffer} {k : Nat} (h : k < buf.length) :
    sequenceUnits (buf.drop k) = (sequenceUnits buf).drop k := by
  rw [sequenceUnits, sequenceUnits, List.length_drop, if_neg (by omega), if_neg (by omega), List.map_drop]

/-- The rest is unchanged and in order. -/
theorem RemovesFront.units {queue queue' : List UnackedSegment} {n : Nat} (h : RemovesFront queue n queue') :
    queueUnits queue' = (queueUnits queue).drop n := by
  obtain ⟨front, ⟨rfl, rfl⟩ | ⟨k, segment, back, rfl, rfl, -, hk, rfl⟩⟩ := h
  · rw [queueUnits_append, ← length_queueUnits, List.drop_left]
  · have hunits := @sequenceUnits_drop segment.bytes k hk
    have hle : k ≤ (sequenceUnits segment.bytes).length := by
      have hlen := length_le_sequenceLength segment.bytes
      rw [length_sequenceUnits]
      omega
    rw [queueUnits_append, ← length_queueUnits, List.drop_length_add_append, queueUnits_cons, queueUnits_cons,
      List.drop_append_of_le_length hle]
    exact congrArg (· ++ queueUnits back) hunits

/-- A segment in front of the queue that is acknowledged as a whole. -/
theorem RemovesFront.cons {queue queue' : List UnackedSegment} {n : Nat} (h : RemovesFront queue n queue')
    (segment : UnackedSegment) : RemovesFront (segment :: queue) (sequenceLength segment.bytes + n) queue' := by
  obtain ⟨front, ⟨rfl, rfl⟩ | ⟨k, last, back, rfl, rfl, hk⟩⟩ := h
  · exact ⟨segment :: front, .inl ⟨rfl, rfl⟩⟩
  · exact ⟨segment :: front, .inr ⟨k, last, back, rfl, (Nat.add_assoc ..).symm, hk⟩⟩

theorem removeAcknowledgedData_removesFront {queue queue' : List UnackedSegment} {n : Nat}
    (h : Sender.removeAcknowledgedData queue n = some queue') : RemovesFront queue n queue' := by
  fun_induction Sender.removeAcknowledgedData queue n with
  | case1 queue =>
    cases h
    exact ⟨[], .inl ⟨rfl, rfl⟩⟩
  | case2 => cases h
  | case3 segment queue n hlong =>
    have hkeep : adjust segment.bytes (n + 1) = some (segment.bytes.drop (n + 1)) := adjust_of_le (by omega)
    simp only [hkeep, Option.bind_eq_bind, Option.bind_some, Option.some.injEq] at h
    exact ⟨[], .inr ⟨n + 1, segment, queue, rfl, (Nat.zero_add _).symm, Nat.succ_pos _, hlong, h.symm⟩⟩
  | case4 segment queue n hlong hempty hlast =>
    cases h
    refine ⟨[segment], .inl ⟨rfl, ?_⟩⟩
    rw [List.map_singleton, seqTotal_cons, List.eq_nil_of_length_eq_zero hempty]
    exact hlast.symm
  | case5 => cases h
  | case6 segment queue n hlong hne ih =>
    have hrest := (ih h).cons segment
    rwa [sequenceLength, if_neg hne,
      show segment.bytes.length + (n + 1 - segment.bytes.length) = n + 1 by omega] at hrest

/-- With the marker at the end only, every count up to the total can be removed. -/
theorem removeAcknowledgedData_of_marker_last {queue : List UnackedSegment} {n : Nat}
    (hmarker : ∀ segment ∈ queue.dropLast, segment.bytes ≠ []) (hn : n ≤ seqTotal (queue.map UnackedSegment.bytes)) :
    ∃ queue', Sender.removeAcknowledgedData queue n = some queue' := by
  refine removeAcknowledgedData_isSome hn fun front back heq => ?_
  have hlast : back = [] := by
    by_contra hne
    have hmem : [] ∈ (queue.map UnackedSegment.bytes).dropLast := by
      rw [heq, List.dropLast_append_of_ne_nil (by simp), List.dropLast_cons_of_ne_nil hne]
      simp
    rw [List.map_dropLast.symm] at hmem
    obtain ⟨segment, hsegment, hnil⟩ := List.mem_map.mp hmem
    exact hmarker segment hsegment hnil
  rw [heq, hlast, seqTotal_append, seqTotal_cons, sequenceLength_nil, seqTotal_nil] at hn
  omega

/-- From a queue that holds what is outstanding, an acknowledged count is removed from the front, and nothing else. -/
theorem removeAcknowledgedData_exact (s : Sender) (n : Nat)
    (hcount : (s.sendNext - s.sendUnacked).toNat = seqTotal (s.unackedQueue.map UnackedSegment.bytes))
    (hmarker : ∀ segment ∈ s.unackedQueue.dropLast, segment.bytes ≠ [])
    (hn : n ≤ (s.sendNext - s.sendUnacked).toNat) :
    ∃ queue, Sender.removeAcknowledgedData s.unackedQueue n = some queue ∧ RemovesFront s.unackedQueue n queue ∧
      queueUnits queue = (queueUnits s.unackedQueue).drop n ∧
      seqTotal (queue.map UnackedSegment.bytes) = (s.sendNext - s.sendUnacked).toNat - n := by
  obtain ⟨queue, hqueue⟩ := removeAcknowledgedData_of_marker_last hmarker (hcount ▸ hn)
  have hfront := removeAcknowledgedData_removesFront hqueue
  have htotal := removeAcknowledgedData_total hqueue
  exact ⟨queue, hqueue, hfront, hfront.units, by omega⟩

/-- Two segments and the marker. -/
def closingSender : Sender :=
  { Sender.new ⟨100⟩ 65535 0 1460 with
    unackedQueue := [⟨[1, 2, 3], some 0⟩, ⟨[4, 5], some 1⟩, ⟨[], some 2⟩]
    sendNext := ⟨106⟩ }

theorem removeAcknowledgedData_exact_closing : ∃ queue,
    Sender.removeAcknowledgedData closingSender.unackedQueue 4 = some queue ∧
      RemovesFront closingSender.unackedQueue 4 queue ∧
      queueUnits queue = (queueUnits closingSender.unackedQueue).drop 4 ∧
      seqTotal (queue.map UnackedSegment.bytes) = (closingSender.sendNext - closingSender.sendUnacked).toNat - 4 :=
  removeAcknowledgedData_exact closingSender 4 rfl (by decide) (by decide)

example : Sender.removeAcknowledgedData closingSender.unackedQueue 4 = some [⟨[5], none⟩, ⟨[], some 2⟩] := rfl

end Capybara
