import Capybara.ReceiverRun

namespace Capybara

open Slice Reassembly Runs

namespace ReceiverRun

/-- What is delivered is a prefix of the stream, and RCV.NXT is just behind it. -/
def InOrder (stream : Buffer) (isn : SeqNumber) (s : ReceiverRun) : Prop :=
  s.delivered <+: stream ∧ s.cb.receiver.receiveNext = isn.atPos s.delivered.length

/-- No stored segment starts at or before RCV.NXT when a segment comes in. -/
def NoStale (s : ReceiverRun) : ReceiverEvent → Prop
  | .segment _ _ _ _ => ∀ entry ∈ s.cb.outOfOrder, s.cb.receiver.receiveNext.lt entry.1 = true
  | .pop => True

variable {c : Inbound} {s : ReceiverRun} {r : Reassembly}

theorem At.inOrder (h : At c s r) : InOrder c.stream c.isn s := by
  refine ⟨?_, ?_⟩
  · rw [h.delivered]
    exact List.take_prefix _ _
  · rw [h.delivered_length, h.refines.receiveNext]

/-- Positions that no stored range can be mistaken for another turn of the sequence space. -/
def Unambiguous (c : Inbound) (r : Reassembly) : Prop :=
  c.stream.length ≤ 2 ^ 32 ∨ ∀ x ∈ r.store, r.next < x.1 + 2 ^ 31

def Tracked (c : Inbound) (s : ReceiverRun) : Prop := ∃ r, At c s r ∧ Unambiguous c r

/-- Ranges ahead of RCV.NXT are at most a window behind it after the next segment. -/
theorem accept_behind {limit lo hi bound : Nat} (ha : ∀ x ∈ r.store, r.next < x.1) (hb : Bounded bound r.store)
    (hhi : min hi limit ≤ bound) (hbound : bound ≤ limit) (hlim : limit < r.next + 2 ^ 31) :
    ∀ x ∈ (r.accept limit lo hi).store, (r.accept limit lo hi).next < x.1 + 2 ^ 31 := by
  intro x hx
  unfold accept at hx ⊢
  by_cases hout : min hi limit ≤ max lo r.next
  · rw [if_pos hout] at hx ⊢
    have hx' := ha x hx
    omega
  · rw [if_neg hout] at hx ⊢
    by_cases hle : lo ≤ r.next
    · rw [if_pos hle] at hx ⊢
      have hx' := ha x ((drainRanges_suffix _ _).subset hx)
      obtain ⟨-, hmin, hend⟩ := @drainRanges_bounded bound (min hi limit) r.store hb
      simp only
      omega
    · rw [if_neg hle] at hx ⊢
      simp only at hx ⊢
      rcases placeRange_mem hb (by omega) (fun y hy => by have hy' := ha y hy; omega) (by omega) x hx with hm | hnew
      · have hx' := ha x hm
        omega
      · omega

theorem NoStale.ahead {header : TcpHeader} {lo hi : Nat} {env : Env} (h : At c s r)
    (hf : ∀ x ∈ r.store, r.next < x.1 + 2 ^ 31) (hn : NoStale s (.segment header lo hi env)) :
    ∀ x ∈ r.store, r.next < x.1 := by
  intro x hx
  have hlt := hn (entry c.stream c.isn x) (by rw [h.refines.store]; exact List.mem_map_of_mem hx)
  obtain ⟨-, hx₁, hx₂⟩ := h.refines.bounded x hx
  have hp := h.refines.popped_le
  have hbuf := h.refines.buffer
  rw [h.refines.receiveNext] at hlt
  exact (SeqNumber.lt_atPos (hf x hx) (by omega)).mp hlt

/-- One event from a tracked state. -/
theorem step_tracked {e : ReceiverEvent} (h : Tracked c s) (hs : SlicesOf c.stream c.isn s e)
    (hok : c.stream.length ≤ 2 ^ 32 ∨ NoStale s e) :
    (step c.stream s e = none ∧ ¬NoHalfTurnAck s e) ∨ ∃ s', step c.stream s e = some s' ∧ Tracked c s' := by
  obtain ⟨r, hat, hun⟩ := h
  cases e with
  | pop =>
    obtain ⟨s', hstep, -, popped, hat'⟩ := step_pop hat
    exact .inr ⟨s', hstep, _, hat', hun⟩
  | segment header lo hi env =>
    have hp := hat.refines.popped_le
    have hbuf := hat.refines.buffer
    have hb := hat.refines.bounded
    have hbound : min (r.popped + c.size) c.stream.length ≤ r.popped + c.size := Nat.min_le_left _ _
    have hhi : min hi (r.popped + c.size) ≤ min (r.popped + c.size) c.stream.length := by
      have hlen := hs.2.2.1
      omega
    -- Either positions do not wrap around at all, or every stored range is ahead.
    have hcase : c.stream.length ≤ 2 ^ 32 ∨ ∀ x ∈ r.store, r.next < x.1 := by
      rcases hok with hshort | hns
      · exact .inl hshort
      · exact hun.imp_right fun hf => hns.ahead hat hf
    have hclose : ∀ x ∈ r.store, min (r.popped + c.size) c.stream.length < x.1 + 2 ^ 32 := by
      intro x hx
      obtain ⟨hpos, -, -⟩ := hb x hx
      rcases hcase with hshort | hahead
      · omega
      · have hx' := hahead x hx
        omega
    rcases step_segment hat hs hb hhi (Nat.min_le_right _ _) hbound hclose with hnone | ⟨s', hstep, -, hat'⟩
    · exact .inl hnone
    · refine .inr ⟨s', hstep, _, hat', ?_⟩
      rcases hcase with hshort | hahead
      · exact .inl hshort
      · refine .inr ?_
        split
        · exact accept_behind hahead hb hhi hbound (by omega)
        · intro x hx
          have hx' := hahead x hx
          omega

theorem start_tracked {stream : Buffer} {isn : SeqNumber} {cb : ControlBlock} (h : Fresh isn cb) :
    Tracked ⟨stream, isn, cb.sender.sendUnacked, cb.receiveBufferSize.toNat⟩ (start cb) :=
  ⟨⟨0, 0, []⟩, ⟨h.refines stream, rfl⟩, .inr (by simp)⟩

/-- Whatever order the slices of a stream come in, the receiver delivers a prefix of the stream, unless the stream
takes the sequence numbers round and a segment that RCV.NXT has passed is still stored. Only an ACK number half a
turn ahead can stop it. -/
theorem run_delivers_stream {stream : Buffer} {isn : SeqNumber} {cb : ControlBlock} {events : List ReceiverEvent}
    (hcb : Fresh isn cb) (hs : Admits (step stream) (SlicesOf stream isn) (start cb) events)
    (hok : stream.length ≤ 2 ^ 32 ∨ Admits (step stream) NoStale (start cb) events) :
    (∀ s, run (step stream) (start cb) events = some s → InOrder stream isn s) ∧
      (Admits (step stream) NoHalfTurnAck (start cb) events → (run (step stream) (start cb) events).isSome) := by
  have hstart := @start_tracked stream isn cb hcb
  have hall : Admits (step stream) (fun s e => SlicesOf stream isn s e ∧ (stream.length ≤ 2 ^ 32 ∨ NoStale s e))
      (start cb) events := by
    rcases hok with hshort | hns
    · exact hs.mono fun s e h => ⟨h, .inl hshort⟩
    · exact (hs.and hns).mono fun s e h => ⟨h.1, .inr h.2⟩
  obtain ⟨hkeep, hgo⟩ := run_keeps (fun s e hi hadmit => step_tracked hi hadmit.1 hadmit.2) hstart hall
  refine ⟨fun s hrun => ?_, hgo⟩
  obtain ⟨r, hat, -⟩ := hkeep s hrun
  exact hat.inOrder

/-- Four bytes across the end of the sequence space: the last two first, then the first three. -/
def sampleEvents : List ReceiverEvent :=
  [.segment { TcpHeader.new 50000 10000 with seqNum := ⟨0⟩, ack := true, ackNum := ⟨7⟩ } 2 4 ⟨0, none, 0, 0, 0⟩,
    .segment { TcpHeader.new 50000 10000 with seqNum := ⟨4294967294⟩, ack := true, ackNum := ⟨7⟩ } 0 3
      ⟨0, none, 0, 0, 0⟩, .pop]

theorem run_delivers_stream_sample :
    (run (step [1, 2, 3, 4]) (start sampleReceiver) sampleEvents).isSome ∧
      ∀ s, run (step [1, 2, 3, 4]) (start sampleReceiver) sampleEvents = some s →
        InOrder [1, 2, 3, 4] ⟨4294967294⟩ s := by
  obtain ⟨horder, hruns⟩ := @run_delivers_stream [1, 2, 3, 4] ⟨4294967294⟩ sampleReceiver sampleEvents
    (fresh_new (by decide) (by decide) (by decide)) (by decide) (.inl (by decide))
  exact ⟨hruns (by decide), horder⟩

/-- Text that no stored segment follows is all that goes to the receive queue. -/
theorem step_text_receiver {header : TcpHeader} {hi : Nat} {env : Env} {s' : ReceiverRun} (h : At c s r)
    (hh : DataHeader c.isn header r.next) (hlt : r.next < hi) (hs : hi ≤ c.stream.length) (hin : hi ≤ r.popped + c.size)
    (hallow : ackAllows c.sendUnacked header = true) (hgap : ∀ x ∈ r.store, c.isn.atPos x.1 ≠ c.isn.atPos hi)
    (hstep : step c.stream s (.segment header r.next hi env) = some s') :
    s'.cb.receiver = s.cb.receiver.push (slice c.stream r.next hi) := by
  have hp := h.refines.popped_le
  have hbuf := h.refines.buffer
  have htext := receive_text h.refines hh hlt hs (by omega) (by omega) hallow (by omega) env
  have hdrain : drainOutOfOrder s.cb.outOfOrder (c.isn.atPos hi) (s.cb.receiver.push (slice c.stream r.next hi)) false =
      (s.cb.outOfOrder, c.isn.atPos hi, s.cb.receiver.push (slice c.stream r.next hi), false) := by
    rw [h.refines.store]
    rcases hst : r.store with - | ⟨⟨p, q⟩, rest⟩
    · rfl
    · rw [List.map_cons, entry, drainOutOfOrder, if_neg (hgap (p, q) (by rw [hst]; exact List.mem_cons_self))]
  obtain ⟨cb', hcb, rfl⟩ := Option.map_eq_some_iff.mp hstep
  rw [htext, if_pos (Nat.le_refl _), Nat.min_eq_left hin, receiveInOrder_text h.refines hh.noFin hlt hs hdrain] at hcb
  unfold ControlBlock.scheduleAck at hcb
  split at hcb
  next => exact Option.some.inj hcb ▸ rfl
  next => exact (sendAck_core hcb).receiver

def staleStream : Buffer := .replicate (2 ^ 32 + 2) 0

def staleReceiver : ControlBlock :=
  .new ⟨⟨10, 0, 1, 8⟩, 10000⟩ ⟨⟨10, 0, 1, 7⟩, 50000⟩ ⟨0⟩ 0 65535 0 ⟨0⟩ 65535 0 1460

def staleInbound : Inbound := ⟨staleStream, ⟨0⟩, ⟨0⟩, 65535⟩

def staleHeader (lo : Nat) : TcpHeader :=
  { TcpHeader.new 50000 10000 with seqNum := SeqNumber.atPos ⟨0⟩ lo, ack := true }

/-- The bytes `lo..hi` of the stream in one segment. -/
def staleSegment (lo hi : Nat) : ReceiverEvent := .segment (staleHeader lo) lo hi ⟨0, none, 0, 0, 0⟩

/-- Segments of 1285 bytes from the number `k` on, each read by the application. -/
def staleRounds (k count : Nat) : List ReceiverEvent :=
  (List.range' k count).flatMap fun k => [staleSegment (3 + 1285 * k) (3 + 1285 * (k + 1)), .pop]

/-- Bytes 2 and 3 come early and byte 2 comes again with the first two, so that the stored segment stays behind
RCV.NXT; the rest of the stream takes the sequence numbers round to it. -/
def staleEvents : List ReceiverEvent :=
  staleSegment 2 4 :: staleSegment 0 3 :: .pop ::
    (staleRounds 0 3342386 ++ [staleSegment (2 ^ 32 + 2 - 1285) (2 ^ 32 + 2)])

def Fails (s : ReceiverRun) (events : List ReceiverEvent) : Prop :=
  Admits (step staleStream) (SlicesOf staleStream ⟨0⟩) s events ∧
    ∃ s', run (step staleStream) s events = some s' ∧ ¬InOrder staleStream ⟨0⟩ s'

theorem Fails.cons {s s' : ReceiverRun} {e : ReceiverEvent} {events : List ReceiverEvent}
    (hs : SlicesOf staleStream ⟨0⟩ s e) (hstep : step staleStream s e = some s') (h : Fails s' events) :
    Fails s (e :: events) := by
  obtain ⟨ha, s'', hrun, hp⟩ := h
  refine ⟨⟨hs, fun s₁ h₁ => ?_⟩, s'', (run_cons hstep).trans hrun, hp⟩
  rw [hstep] at h₁
  exact Option.some.inj h₁ ▸ ha

/-- Everything up to `n` is read, and bytes 2 and 3 are still stored. -/
structure Stuck (s : ReceiverRun) (n : Nat) : Prop where
  at_ : At staleInbound s ⟨n, n, [(2, 4)]⟩
  queue : s.cb.receiver.recvQueue = []

theorem staleHeader_data (lo : Nat) : DataHeader ⟨0⟩ (staleHeader lo) lo := ⟨rfl, rfl, rfl, rfl⟩

theorem staleHeader_allows (lo : Nat) : ackAllows staleInbound.sendUnacked (staleHeader lo) = true :=
  show (true && !SeqNumber.lt ⟨0⟩ ⟨0⟩) = true by decide

theorem staleSegment_slices {lo hi : Nat} (h : At staleInbound s r) (hlt : lo < hi) (hs : hi ≤ 2 ^ 32 + 2)
    (hback : r.next < lo + 2 ^ 31) (hahead : hi ≤ r.next + 2 ^ 31) :
    SlicesOf staleStream ⟨0⟩ s (staleSegment lo hi) := by
  refine ⟨staleHeader_data lo, hlt, ?_, ?_, ?_⟩
  · rw [staleStream, List.length_replicate]
    exact hs
  · rw [h.delivered_length]
    exact hback
  · rw [h.delivered_length]
    exact hahead

theorem step_pop_single (h : At c s r) (hq : s.cb.receiver.recvQueue = [slice c.stream r.popped r.next]) :
    ∃ s', step c.stream s .pop = some s' ∧ At c s' { r with popped := r.next } ∧ s'.cb.receiver.recvQueue = [] := by
  have hp := h.refines.popped_le
  have hlen := length_slice_of_le h.refines.next_le r.popped
  obtain ⟨cb', hpoll, hempty⟩ : ∃ cb', s.cb.pollRecv = (some (slice c.stream r.popped r.next), cb') ∧
      cb'.receiver.recvQueue = [] := ⟨_, by simp only [ControlBlock.pollRecv, Receiver.pop, hq]; rfl, rfl⟩
  rcases pollRecv_refines h.refines with hnone | ⟨buf, cb'', hsome, -, hr⟩
  · rw [hpoll] at hnone
    cases hnone
  · rw [hpoll] at hsome
    obtain ⟨rfl, rfl⟩ : slice c.stream r.popped r.next = buf ∧ cb' = cb'' := by
      simpa only [Prod.mk.injEq, Option.some.injEq] using hsome
    rw [hlen, Nat.add_sub_cancel' hp] at hr
    refine ⟨{ s with cb := cb', popped := s.popped ++ slice c.stream r.popped r.next }, by rw [step, hpoll], ⟨hr, ?_⟩,
      hempty⟩
    rw [h.popped, ← slice_zero, ← slice_zero, slice_append c.stream (Nat.zero_le _) hp]

theorem staleSegment_step {lo hi bound : Nat} (h : At staleInbound s r)
    (hok : SlicesOf staleStream ⟨0⟩ s (staleSegment lo hi)) (hb : Bounded bound r.store)
    (hhi : min hi (r.popped + 65535) ≤ bound) (hbs : bound ≤ 2 ^ 32 + 2) (hlim : bound ≤ r.popped + 65535)
    (hclose : ∀ x ∈ r.store, bound < x.1 + 2 ^ 32) :
    ∃ s', step staleStream s (staleSegment lo hi) = some s' ∧
      At staleInbound s' (r.accept (r.popped + 65535) lo hi) := by
  rcases step_segment h hok hb hhi (by rwa [staleInbound, staleStream, List.length_replicate]) hlim hclose with
    ⟨-, hhalf⟩ | ⟨s', hstep, -, hat⟩
  · refine absurd ?_ hhalf
    rw [NoHalfTurnAck, h.refines.sendNext]
    exact show (SeqNumber.mk 0 - SeqNumber.mk 0).toNat ≠ 2 ^ 31 by decide
  · rw [if_pos (staleHeader_allows lo)] at hat
    exact ⟨s', hstep, hat⟩

/-- The next bytes of the stream, which do not end where the stored segment seems to start, and a pop. -/
theorem Stuck.round {n hi : Nat} {events : List ReceiverEvent} (h : Stuck s n) (hlt : n < hi)
    (hin : hi ≤ n + 65535) (hne : hi ≠ 2) (hhi : hi < 2 ^ 32 + 2) (hrest : ∀ s', Stuck s' hi → Fails s' events) :
    Fails s (staleSegment n hi :: .pop :: events) := by
  have hok := staleSegment_slices h.at_ hlt (by omega) (by simp only; omega) (by simp only; omega)
  obtain ⟨s₁, hstep, hat⟩ := @staleSegment_step s _ n hi (max hi 4) h.at_ hok (by simp [Bounded]) (by omega) (by omega)
    (by simp only; omega) (by simp; omega)
  have haccept : Reassembly.accept ⟨n, n, [(2, 4)]⟩ (n + 65535) n hi = ⟨hi, n, [(2, 4)]⟩ := by
    have hmin : min hi (n + 65535) = hi := Nat.min_eq_left hin
    simp only [accept, hmin, Nat.max_self, Nat.le_refl, if_true, drainRanges, if_neg (Ne.symm hne),
      if_neg (Nat.not_le.mpr hlt)]
  rw [haccept] at hat
  have hreceiver := @step_text_receiver staleInbound s ⟨n, n, [(2, 4)]⟩ _ hi _ s₁ h.at_ (staleHeader_data n) hlt
    (by rw [staleInbound, staleStream, List.length_replicate]; omega) hin
    (staleHeader_allows n) (by
      intro x hx
      rw [List.mem_singleton.mp hx]
      intro he
      exact hne ((@SeqNumber.atPos_inj ⟨0⟩ 2 hi (by omega) (by omega)).mp he).symm) hstep
  have hqueue : s₁.cb.receiver.recvQueue = [slice staleStream n hi] := by
    rw [hreceiver, Receiver.push, h.queue]
    rfl
  obtain ⟨s₂, hpop, hat₂, hempty⟩ := step_pop_single hat hqueue
  exact .cons hok hstep (.cons trivial hpop (hrest s₂ ⟨hat₂, hempty⟩))

theorem staleRound_le (k : Nat) : 3 + 1285 * (k + 1) ≤ 3 + 1285 * k + 65535 := by
  omega

theorem Stuck.rounds {k count : Nat} {events : List ReceiverEvent} (h : Stuck s (3 + 1285 * k))
    (hhi : 3 + 1285 * (k + count) < 2 ^ 32 + 2)
    (hrest : ∀ s', Stuck s' (3 + 1285 * (k + count)) → Fails s' events) : Fails s (staleRounds k count ++ events) := by
  induction count generalizing k s with
  | zero => exact hrest s h
  | succ count ih =>
    have hsplit : staleRounds k (count + 1) ++ events =
        staleSegment (3 + 1285 * k) (3 + 1285 * (k + 1)) :: .pop :: (staleRounds (k + 1) count ++ events) := by
      rw [staleRounds, List.range'_succ, List.flatMap_cons]
      rfl
    have hcount : k + 1 + count = k + (count + 1) := by omega
    have hnext : 3 + 1285 * (k + 1) ≤ 3 + 1285 * (k + (count + 1)) := by omega
    rw [hsplit]
    refine h.round (by omega) (staleRound_le k) (by omega) (Nat.lt_of_le_of_lt hnext hhi) fun s' h' => ?_
    exact ih h' (by rw [hcount]; exact hhi) (by rw [hcount]; exact hrest)

/-- At the end of the turn the stored segment is taken for what follows. -/
theorem Stuck.redelivers (h : Stuck s (2 ^ 32 + 2 - 1285)) :
    Fails s [staleSegment (2 ^ 32 + 2 - 1285) (2 ^ 32 + 2)] := by
  have hstream : staleStream.length = 2 ^ 32 + 2 := List.length_replicate
  obtain ⟨n, hn⟩ : ∃ n, n = 2 ^ 32 + 2 - 1285 := ⟨_, rfl⟩
  rw [← hn] at h ⊢
  have hok : SlicesOf staleStream ⟨0⟩ s (staleSegment n (2 ^ 32 + 2)) :=
    staleSegment_slices h.at_ (by omega) (Nat.le_refl _) (by simp only; omega) (by simp only; omega)
  have hturn : SeqNumber.atPos ⟨0⟩ 2 = SeqNumber.atPos ⟨0⟩ (2 ^ 32 + 2) := SeqNumber.atPos_eq_iff.mpr (by decide)
  have hlen : (slice staleStream 2 4).length = 2 := length_slice_of_le (by omega) 2
  have hlen' : (slice staleStream n (2 ^ 32 + 2)).length = 2 ^ 32 + 2 - n := length_slice_of_le (by omega) n
  have hdrain : drainOutOfOrder s.cb.outOfOrder (SeqNumber.atPos ⟨0⟩ (2 ^ 32 + 2))
      (s.cb.receiver.push (slice staleStream n (2 ^ 32 + 2))) false =
      ([], SeqNumber.atPos ⟨0⟩ (2 ^ 32 + 2) + SeqNumber.ofNat 2,
        (s.cb.receiver.push (slice staleStream n (2 ^ 32 + 2))).push (slice staleStream 2 4), true) := by
    rw [h.at_.refines.store, List.map_cons, List.map_nil, entry, staleInbound, drainOutOfOrder, if_pos hturn, hlen,
      drainOutOfOrder]
  have hlt : n < 2 ^ 32 + 2 := by omega
  have hback : n < n + 2 ^ 31 := by omega
  have hahead : 2 ^ 32 + 2 ≤ n + 2 ^ 31 := by omega
  have hin : 2 ^ 32 + 2 ≤ n + 65535 := by omega
  have hmin : max n n < min (2 ^ 32 + 2) (n + 65535) := by omega
  have hend : 2 ^ 32 + 2 ≤ staleInbound.stream.length := Nat.le_of_eq hstream.symm
  have htext := @receive_text staleInbound s.cb ⟨n, n, [(2, 4)]⟩ (staleHeader n) n (2 ^ 32 + 2) h.at_.refines
    (staleHeader_data n) hlt hend hback hahead (staleHeader_allows n) hmin ⟨0, none, 0, 0, 0⟩
  have hinorder := @receiveInOrder_text staleInbound s.cb ⟨n, n, [(2, 4)]⟩ (staleHeader n) (2 ^ 32 + 2)
    ⟨0, none, 0, 0, 0⟩ _ _ _ _ h.at_.refines rfl hlt hend hdrain
  have hcut : min (2 ^ 32 + 2) (n + 65535) = 2 ^ 32 + 2 := Nat.min_eq_left hin
  simp only [Nat.le_refl, if_true, show staleInbound.size = 65535 from rfl, hcut, hinorder] at htext
  have hwindow : ControlBlock.getReceiveWindowSize { s.cb with
      outOfOrder := []
      receiver := (s.cb.receiver.push (slice staleStream n (2 ^ 32 + 2))).push (slice staleStream 2 4) } =
      some (65535 - (2 ^ 32 + 4 - n)) := by
    have hnext : SeqNumber.atPos ⟨0⟩ n + SeqNumber.ofNat (2 ^ 32 + 2 - n) + SeqNumber.ofNat 2 =
        SeqNumber.atPos ⟨0⟩ (2 ^ 32 + 4) := by
      rw [← SeqNumber.atPos_add, ← SeqNumber.atPos_add, show n + (2 ^ 32 + 2 - n) + 2 = 2 ^ 32 + 4 by omega]
    have hunread := @SeqNumber.atPos_sub_toNat ⟨0⟩ (2 ^ 32 + 4) n (by omega) (by omega)
    have hreceived : s.cb.receiver.receiveNext = SeqNumber.atPos ⟨0⟩ n := h.at_.refines.receiveNext
    have hread : s.cb.receiver.readerNext = SeqNumber.atPos ⟨0⟩ n := h.at_.refines.readerNext
    have hbuffer : s.cb.receiveBufferSize.toNat = 65535 := h.at_.refines.size
    simp only [ControlBlock.getReceiveWindowSize, Receiver.push, hlen, hlen', hreceived, hread, hbuffer, hnext, hunread]
    exact checkedSub_of_le (by omega)
  have hshrunk : (65535 - (2 ^ 32 + 4 - n)) / 2 ^ s.cb.windowScale.toNat < 2 ^ 16 :=
    Nat.lt_of_le_of_lt (Nat.div_le_div_right (Nat.sub_le _ _)) h.at_.refines.window
  obtain ⟨header, hheader⟩ := tcpHeader_of_window hwindow h.at_.refines.scale hshrunk
  obtain ⟨cb', hack, hcore⟩ := scheduleAck_of_header hheader ⟨0, none, 0, 0, 0⟩
  rw [hack] at htext
  have hstep : step staleStream s (staleSegment n (2 ^ 32 + 2)) =
      some ⟨cb', s.popped, s.accepted ++ s.acceptedPart (staleHeader n) n (2 ^ 32 + 2)⟩ := by
    rw [staleSegment, step, show staleStream = staleInbound.stream from rfl, htext]
    rfl
  refine .cons hok hstep ⟨trivial, _, rfl, ?_⟩
  rintro ⟨horder, -⟩
  have hle := horder.length_le
  have hread := h.at_.popped_length
  simp only [delivered, hcore.receiver, Receiver.push, h.queue, List.nil_append, List.flatten_append, List.flatten_cons,
    List.flatten_nil, List.append_nil, List.length_append, hlen, hlen', hread, hstream] at hle
  omega

theorem storeOutOfOrderSegment_receiver {cb cb' : ControlBlock} {newStart newEnd : SeqNumber} {buf : Buffer}
    (h : cb.storeOutOfOrderSegment newStart newEnd buf = some cb') : cb'.receiver = cb.receiver := by
  obtain ⟨outOfOrder, -, hcb⟩ := Option.bind_eq_some_iff.mp h
  exact Option.some.inj hcb ▸ rfl

theorem receiveOutOfOrder_receiver {cb cb' : ControlBlock} {i : Incoming} {env : Env} (hf : i.header.fin = false)
    (h : cb.receiveOutOfOrder i env = some cb') : cb'.receiver = cb.receiver := by
  unfold ControlBlock.receiveOutOfOrder at h
  simp only [hf, Bool.false_eq_true, if_false] at h
  split at h
  next =>
    obtain ⟨-, -, h⟩ := Option.bind_eq_some_iff.mp h
    split at h
    next =>
      obtain ⟨cb₁, hstore, hsend⟩ := Option.bind_eq_some_iff.mp h
      rw [(sendAck_core hsend).receiver, storeOutOfOrderSegment_receiver hstore]
    next =>
      obtain ⟨cb₁, hsame, hsend⟩ := Option.bind_eq_some_iff.mp h
      rw [(sendAck_core hsend).receiver, Option.some.inj hsame]
  next => exact Option.some.inj h ▸ rfl

theorem stale_fresh : Fresh ⟨0⟩ staleReceiver := fresh_new (by decide) (by decide) (by decide)

theorem stale_start : At staleInbound (start staleReceiver) ⟨0, 0, []⟩ := ⟨stale_fresh.refines staleStream, rfl⟩

/-- Bytes 2 and 3 come first and are stored. -/
theorem stuck_first {events : List ReceiverEvent} (hrest : ∀ s', Stuck s' 0 → Fails s' events) :
    Fails (start staleReceiver) (staleSegment 2 4 :: events) := by
  have hok := staleSegment_slices stale_start (show 2 < 4 by decide) (by decide) (by decide) (by decide)
  obtain ⟨s₁, hstep, hat⟩ := @staleSegment_step _ _ 2 4 4 stale_start hok (by simp [Bounded]) (by decide) (by decide)
    (by decide) (by simp)
  refine .cons hok hstep (hrest s₁ ⟨hat, ?_⟩)
  rw [staleSegment, step] at hstep
  obtain ⟨cb', hcb, rfl⟩ := Option.map_eq_some_iff.mp hstep
  have htext := receive_text stale_start.refines (staleHeader_data 2) (show 2 < 4 by decide)
    (show 4 ≤ staleStream.length by rw [staleStream, List.length_replicate]; decide) (by decide) (by decide)
    (staleHeader_allows 2) (by decide) ⟨0, none, 0, 0, 0⟩
  rw [if_neg (by decide)] at htext
  rw [receiveOutOfOrder_receiver rfl (htext.symm.trans hcb)]
  rfl

/-- A stream of four GiB of which byte 2 comes twice is not delivered as it is. -/
theorem run_delivers_stream_fails : Fresh ⟨0⟩ staleReceiver ∧ Fails (start staleReceiver) staleEvents := by
  refine ⟨stale_fresh, ?_⟩
  refine stuck_first fun s h => ?_
  refine h.round (by decide) (by decide) (by decide) (by decide) fun s h => ?_
  exact Stuck.rounds h (by decide) fun s h => h.redelivers

end ReceiverRun

end Capybara
