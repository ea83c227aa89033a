import Capybara.PeerFin
import Capybara.SendStream

namespace Capybara

open ControlBlock FinRun

/-- The text stands in the stream where its number says, the first byte being numbered `isn`. -/
def PartOf (isn : SeqNumber) (stream : Buffer) (number : SeqNumber) (buf : Buffer) : Prop :=
  ∃ before after, stream = before ++ buf ++ after ∧ number = isn + SeqNumber.ofNat before.length

/-- What a pass over the store leaves of a segment is still a part of the stream. -/
def Placement.Parts (isn : SeqNumber) (stream : Buffer) : Placement → Prop
  | .duplicate => True
  | .insertAt _ newStart buf => PartOf isn stream newStart buf
  | .removeAt _ newStart _ buf => PartOf isn stream newStart buf

/-- A segment of which the front and the end may be cut off, the FIN with the end. -/
structure CutOf (header : TcpHeader) (data : Buffer) (s : Incoming) : Prop where
  ackNum : s.header.ackNum = header.ackNum
  fin : s.header.fin = true → header.fin = true
  cut : ∃ k m, k ≤ data.length ∧ s.segStart = header.seqNum + SeqNumber.ofNat k ∧ s.data = (data.drop k).take m

/-- A segment of a peer with this stream: its text is a part of it, and its FIN comes alone when the stream is
complete. -/
structure Genuine (isn : SeqNumber) (stream : Buffer) (complete : Prop) (header : TcpHeader) (data : Buffer) :
    Prop where
  noSyn : header.syn = false
  part : data ≠ [] → PartOf isn stream header.seqNum data
  fin : header.fin = true → complete ∧ data = [] ∧ header.seqNum = isn + SeqNumber.ofNat stream.length

/-- A segment with nothing but a SYN, perhaps with an ACK number. -/
structure BareSyn (header : TcpHeader) (data : Buffer) : Prop where
  syn : header.syn = true
  noFin : header.fin = false
  empty : data = []

/-- How far a side has read the stream of its peer: up to RCV.NXT, or all of it and the FIN. -/
inductive ReadTo (isn : SeqNumber) (stream : Buffer) (complete : Prop) (delivered : Buffer) (cb : ControlBlock) : Prop
  | reading (hread : delivered <+: stream)
      (hnext : cb.receiver.receiveNext = isn + SeqNumber.ofNat delivered.length)
      (hstate : canReceiveData cb.state = true ∨ cb.state = .closed)
  | finished (hall : delivered = stream) (hcomplete : complete)
      (hnext : cb.receiver.receiveNext = isn + SeqNumber.ofNat (stream.length + 1))
      (hstate : canReceiveData cb.state = false)

/-- A side that has read `delivered` of the stream of its peer. What it has stored for later is part of the stream, and
the FIN it remembers is behind it. -/
structure Reads (isn : SeqNumber) (stream : Buffer) (complete : Prop) (delivered : Buffer) (cb : ControlBlock) :
    Prop where
  stored : ∀ x ∈ cb.outOfOrder, PartOf isn stream x.1 x.2
  fin : ∀ number, cb.outOfOrderFin = some number → complete ∧ number = isn + SeqNumber.ofNat stream.length
  readTo : ReadTo isn stream complete delivered cb

/-- Counted from `isn`, a sequence number is not behind another. -/
def NotAfter (isn number number' : SeqNumber) : Prop := (number - isn).toNat ≤ (number' - isn).toNat

section

variable {isn number : SeqNumber} {stream delivered buf more : Buffer} {complete : Prop} {cb cb' cb₁ : ControlBlock}
  {header : TcpHeader} {data : Buffer} {s s' : Incoming} {env : Env}

theorem adjust_eq_some {n : Nat} (h : adjust buf n = some more) : n ≤ buf.length ∧ buf.drop n = more := by
  unfold adjust at h
  split at h
  next => cases h
  next hle => exact ⟨by omega, Option.some.inj h⟩

theorem trim_eq_some {n : Nat} (h : trim buf n = some more) : n ≤ buf.length ∧ buf.take (buf.length - n) = more := by
  unfold trim at h
  split at h
  next => cases h
  next hle => exact ⟨by omega, Option.some.inj h⟩

theorem SeqNumber.add_ofNat_inj {a : SeqNumber} {m n : Nat} (hm : m < 2 ^ 32) (hn : n < 2 ^ 32) :
    a + ofNat m = a + ofNat n ↔ m = n := by
  constructor
  · intro h
    have h := congrArg SeqNumber.toNat h
    simp only [SeqNumber.toNat_add_ofNat] at h
    have ha := a.toNat_lt
    omega
  · intro h
    rw [h]

theorem PartOf.drop {k : Nat} (h : PartOf isn stream number buf) (hk : k ≤ buf.length) :
    PartOf isn stream (number + SeqNumber.ofNat k) (buf.drop k) := by
  obtain ⟨before, after, hstream, rfl⟩ := h
  refine ⟨before ++ buf.take k, after, ?_, ?_⟩
  · rw [List.append_assoc before, List.take_append_drop, hstream]
  · rw [SeqNumber.add_ofNat_add, List.length_append, List.length_take, Nat.min_eq_left hk]

theorem PartOf.take (h : PartOf isn stream number buf) (m : Nat) : PartOf isn stream number (buf.take m) := by
  obtain ⟨before, after, hstream, hnumber⟩ := h
  refine ⟨before, buf.drop m ++ after, ?_, hnumber⟩
  rw [hstream, ← List.append_assoc, List.append_assoc before (buf.take m), List.take_append_drop]

theorem PartOf.append (h : PartOf isn stream number buf) (more : Buffer) : PartOf isn (stream ++ more) number buf := by
  obtain ⟨before, after, hstream, hnumber⟩ := h
  exact ⟨before, after ++ more, by rw [hstream, List.append_assoc], hnumber⟩

/-- Text at the number where a prefix of the stream ends continues the prefix. -/
theorem PartOf.continues (h : PartOf isn stream number buf) (hshort : stream.length < 2 ^ 32)
    (hread : delivered <+: stream) (hnumber : number = isn + SeqNumber.ofNat delivered.length) :
    delivered ++ buf <+: stream := by
  obtain ⟨before, after, hstream, hstart⟩ := h
  have hlen := congrArg List.length hstream
  simp only [List.length_append] at hlen
  have hle := hread.length_le
  have hsame : before.length = delivered.length :=
    (SeqNumber.add_ofNat_inj (by omega) (by omega)).mp (hstart.symm.trans hnumber)
  have hbefore : before <+: stream := ⟨buf ++ after, by rw [hstream, List.append_assoc]⟩
  rw [List.prefix_of_prefix_length_le hread hbefore (by omega) |>.eq_of_length hsame.symm]
  exact ⟨after, hstream.symm⟩

theorem findPlace_parts {store : List (SeqNumber × Buffer)} {len index : Nat} {newStart newEnd : SeqNumber}
    {place : Placement} (h : PartOf isn stream newStart buf)
    (hplace : findPlace len store index newStart newEnd buf = some place) : place.Parts isn stream := by
  induction store generalizing index newStart buf with
  | nil =>
    cases hplace
    exact h
  | cons stored rest ih =>
    obtain ⟨storedStart, stored⟩ := stored
    rw [findPlace] at hplace
    split at hplace
    next => cases hplace
    next =>
      dsimp only at hplace
      split at hplace
      next =>
        split at hplace
        next =>
          cases hplace
          exact h
        next =>
          split at hplace
          next =>
            cases hplace
            exact h
          next =>
            obtain ⟨cut, hcut, hplace⟩ := Option.bind_eq_some_iff.mp hplace
            obtain ⟨-, rfl⟩ := trim_eq_some hcut
            cases hplace
            exact h.take _
      next =>
        split at hplace
        next =>
          cases hplace
          trivial
        next =>
          split at hplace
          next => exact ih h hplace
          next =>
            obtain ⟨cut, hcut, hplace⟩ := Option.bind_eq_some_iff.mp hplace
            obtain ⟨hle, rfl⟩ := adjust_eq_some hcut
            exact ih (h.drop hle) hplace

theorem placeSegment_parts {passes : Nat} {store store' : List (SeqNumber × Buffer)} {newStart newEnd : SeqNumber}
    (hstore : ∀ x ∈ store, PartOf isn stream x.1 x.2) (h : PartOf isn stream newStart buf)
    (hplace : placeSegment passes store newStart newEnd buf = some store') :
    ∀ x ∈ store', PartOf isn stream x.1 x.2 := by
  induction passes generalizing store newStart newEnd buf with
  | zero => cases hplace
  | succ passes ih =>
    obtain ⟨place, hfind, hplace⟩ := Option.bind_eq_some_iff.mp hplace
    have hparts := findPlace_parts h hfind
    cases place with
    | duplicate =>
      cases hplace
      exact hstore
    | insertAt actionIndex newStart' buf' =>
      cases hplace
      intro x hx
      rcases List.eq_or_mem_of_mem_insertIdx (List.mem_of_mem_take hx) with rfl | hm
      · exact hparts
      · exact hstore x hm
    | removeAt actionIndex newStart' newEnd' buf' =>
      exact ih (fun x hx => hstore x (List.mem_of_mem_eraseIdx hx)) hparts hplace

theorem trimFront_cutOf {receiveNext after : SeqNumber} (hsyn : s.header.syn = false) (hs : CutOf header data s)
    (hall : s.segStart = header.seqNum ∧ s.data = data) (h : trimFront receiveNext after s = some (some s')) :
    CutOf header data s' := by
  unfold trimFront at h
  split at h
  next =>
    cases h
    exact hs
  next =>
    split at h
    next =>
      split at h
      next => cases h
      next =>
        obtain ⟨segLen, -, h⟩ := Option.bind_eq_some_iff.mp h
        rw [hsyn, if_neg Bool.false_ne_true] at h
        obtain ⟨cut, hcut, h⟩ := Option.bind_eq_some_iff.mp h
        obtain ⟨hle, rfl⟩ := adjust_eq_some hcut
        cases h
        rw [hall.2] at hle
        refine ⟨hs.ackNum, hs.fin, (receiveNext - s.segStart).toNat, data.length, hle, ?_, ?_⟩
        · rw [hall.1]
        · rw [hall.2, List.take_of_length_le (by simp)]
    next =>
      split at h
      next => cases h
      next =>
        cases h
        exact hs

theorem trimBack_cutOf {after : SeqNumber} (hs : CutOf header data s) (h : trimBack after s = some s') :
    CutOf header data s' := by
  obtain ⟨k, m, hk, hstart, hdata⟩ := hs.cut
  unfold trimBack at h
  split at h
  next =>
    obtain ⟨segLen, -, h⟩ := Option.bind_eq_some_iff.mp h
    split at h
    next =>
      obtain ⟨cut, hcut, h⟩ := Option.bind_eq_some_iff.mp h
      obtain ⟨-, rfl⟩ := trim_eq_some hcut
      cases h
      exact ⟨hs.ackNum, fun hf => (nomatch hf), k, _, hk, hstart, by rw [hdata, List.take_take]⟩
    next =>
      obtain ⟨cut, hcut, h⟩ := Option.bind_eq_some_iff.mp h
      obtain ⟨-, rfl⟩ := trim_eq_some hcut
      cases h
      exact ⟨hs.ackNum, hs.fin, k, _, hk, hstart, by rw [hdata, List.take_take]⟩
  next =>
    cases h
    exact hs

/-- The trimming to the window cuts text off at both ends and keeps the number of what is left right. -/
theorem trimToWindow_cutOf (hd : data.length < 2 ^ 16) (hsyn : header.syn = false)
    (h : cb.trimToWindow header data = some (some s)) : CutOf header data s := by
  obtain ⟨s₀, hs₀, -, hheader, hdata, hstart, -⟩ := incoming_parsed header hd
  simp only [trimToWindow, hs₀, Option.bind_eq_bind, Option.bind_some] at h
  obtain ⟨windowSize, -, h⟩ := Option.bind_eq_some_iff.mp h
  obtain ⟨front, hfront, h⟩ := Option.bind_eq_some_iff.mp h
  have hwhole : CutOf header data s₀ := by
    refine ⟨by rw [hheader], by rw [hheader]; exact id, 0, data.length, Nat.zero_le _, ?_, ?_⟩
    · rw [SeqNumber.add_ofNat_zero, hstart]
    · rw [hdata, List.drop_zero, List.take_length]
  cases front with
  | none => cases h
  | some s₁ =>
    obtain ⟨s₂, hback, h⟩ := Option.bind_eq_some_iff.mp h
    obtain ⟨_, -, h⟩ := Option.bind_eq_some_iff.mp h
    cases h
    exact trimBack_cutOf (trimFront_cutOf (by rw [hheader]; exact hsyn) hwhole ⟨hstart, hdata⟩ hfront) hback

theorem Genuine.extend {stream' : Buffer} {complete' : Prop} (h : Genuine isn stream complete header data)
    (hmore : stream <+: stream') (hsame : complete → complete' ∧ stream' = stream) :
    Genuine isn stream' complete' header data := by
  obtain ⟨more, rfl⟩ := hmore
  refine ⟨h.noSyn, fun hne => (h.part hne).append more, fun hf => ?_⟩
  obtain ⟨hc, hnil, hnumber⟩ := h.fin hf
  obtain ⟨hc', hstream⟩ := hsame hc
  exact ⟨hc', hnil, by rw [hstream]; exact hnumber⟩

/-- What is left of a genuine segment is a part of the stream; a FIN that is left is behind the stream. -/
theorem Genuine.part_cut (h : Genuine isn stream complete header data) (hc : CutOf header data s) (hne : s.data ≠ []) :
    PartOf isn stream s.segStart s.data := by
  obtain ⟨k, m, hk, hstart, hdata⟩ := hc.cut
  rw [hstart, hdata]
  refine ((h.part fun hnil => hne ?_).drop hk).take m
  rw [hdata, hnil]
  simp

theorem Genuine.fin_cut (h : Genuine isn stream complete header data) (hc : CutOf header data s)
    (hf : s.header.fin = true) : complete ∧ s.data = [] ∧ s.segStart = isn + SeqNumber.ofNat stream.length := by
  obtain ⟨k, m, hk, hstart, hdata⟩ := hc.cut
  obtain ⟨hcomplete, hnil, hnumber⟩ := h.fin (hc.fin hf)
  rw [hnil] at hk hdata
  have hzero : k = 0 := Nat.le_zero.mp hk
  exact ⟨hcomplete, by simpa using hdata, by rw [hstart, hzero, SeqNumber.add_ofNat_zero, hnumber]⟩

/-- The stored segments that continue a prefix of the stream bring the text that follows it. -/
theorem continuation_continues {store : List (SeqNumber × Buffer)} {recvNext : SeqNumber}
    (hstore : ∀ x ∈ store, PartOf isn stream x.1 x.2) (hshort : stream.length < 2 ^ 32) (hread : delivered <+: stream)
    (hnext : recvNext = isn + SeqNumber.ofNat delivered.length) :
    delivered ++ textOf (continuation store recvNext) <+: stream := by
  induction store generalizing delivered recvNext with
  | nil => simpa [continuation] using hread
  | cons stored rest ih =>
    obtain ⟨start, buf⟩ := stored
    by_cases heq : start = recvNext
    · have hpart := (hstore _ List.mem_cons_self).continues hshort hread (heq.trans hnext)
      have hrest := @ih (delivered ++ buf) (recvNext + SeqNumber.ofNat buf.length)
        (fun x hx => hstore x (List.mem_cons_of_mem _ hx)) hpart
        (by rw [hnext, SeqNumber.add_ofNat_add, List.length_append])
      rw [continuation, if_pos heq, textOf_cons, ← List.append_assoc]
      exact hrest
    · rw [continuation, if_neg heq]
      simpa using hread

theorem ReadTo.isPrefix (h : ReadTo isn stream complete delivered cb) : delivered <+: stream := by
  cases h with
  | reading hread => exact hread
  | finished hall =>
    rw [hall]

/-- Where RCV.NXT is. -/
theorem ReadTo.position (h : ReadTo isn stream complete delivered cb) (hshort : stream.length + 1 < 2 ^ 32) :
    (cb.receiver.receiveNext - isn).toNat = delivered.length ∨
      ((cb.receiver.receiveNext - isn).toNat = stream.length + 1 ∧ delivered = stream ∧ complete) := by
  cases h with
  | reading hread hnext =>
    have hle := hread.length_le
    rw [hnext]
    exact .inl (SeqNumber.add_ofNat_sub (by omega))
  | finished hall hcomplete hnext =>
    rw [hnext]
    exact .inr ⟨SeqNumber.add_ofNat_sub hshort, hall, hcomplete⟩

/-- The peer may add to its stream as long as it is not complete. -/
theorem Reads.extend {stream' : Buffer} {complete' : Prop} (h : Reads isn stream complete delivered cb)
    (hmore : stream <+: stream') (hsame : complete → complete' ∧ stream' = stream) :
    Reads isn stream' complete' delivered cb := by
  obtain ⟨more, rfl⟩ := hmore
  refine ⟨fun x hx => (h.stored x hx).append more, fun number hn => ?_, ?_⟩
  · obtain ⟨hc, hnumber⟩ := h.fin number hn
    obtain ⟨hc', hstream⟩ := hsame hc
    exact ⟨hc', by rw [hstream]; exact hnumber⟩
  · cases h.readTo with
    | reading hread hnext hstate => exact .reading (hread.trans (List.prefix_append stream more)) hnext hstate
    | finished hall hc hnext hstate =>
      obtain ⟨hc', hstream⟩ := hsame hc
      rw [hstream]
      exact .finished hall hc' hnext hstate

/-- Nothing of the peer is taken. -/
theorem Reads.unmoved (h : Reads isn stream complete delivered cb) (hu : Unmoved cb cb')
    (hstored : ∀ x ∈ cb'.outOfOrder, PartOf isn stream x.1 x.2) : Reads isn stream complete delivered cb' := by
  refine ⟨hstored, fun number hn => h.fin number (hu.outOfOrderFin.symm.trans hn), ?_⟩
  cases h.readTo with
  | reading hread hnext hstate => exact .reading hread (hu.receiveNext.trans hnext) (hu.state.opens hstate)
  | finished hall hc hnext hstate => exact .finished hall hc (hu.receiveNext.trans hnext) (hu.state.shuts hstate)

/-- A segment that is not in order is stored, and its FIN remembered. -/
theorem Reads.setAside (h : Reads isn stream complete delivered cb) (hg : Genuine isn stream complete header data)
    (hc : CutOf header data s) (hp : Parsed s) (hsyn : s.header.syn = false) (hs : SetAside cb s cb')
    (hfin : cb'.outOfOrderFin =
      if s.header.fin = true ∧ canReceiveData cb.state = true then some s.segEnd else cb.outOfOrderFin) :
    Reads isn stream complete delivered cb' := by
  refine ⟨?_, fun number hn => ?_, ?_⟩
  · rcases hs.outOfOrder with hsame | ⟨hpos, hplace⟩
    · rw [hsame]
      exact h.stored
    · exact placeSegment_parts h.stored (hg.part_cut hc (List.length_pos_iff.mp hpos)) hplace
  · rw [hfin] at hn
    split at hn
    next hf =>
      obtain ⟨hcomplete, hnil, hstart⟩ := hg.fin_cut hc hf.1
      have hlen := hp.segLen
      rw [hnil, hsyn, hf.1] at hlen
      have hone : s.segLen = 1 := hlen
      refine ⟨hcomplete, ?_⟩
      rw [← Option.some.inj hn, hp.segEnd (by omega), hone, Nat.sub_self, SeqNumber.add_ofNat_zero, hstart]
    next => exact h.fin number hn
  · cases h.readTo with
    | reading hread hnext hstate =>
      exact .reading hread (by rw [hs.receiver]; exact hnext) (by rw [hs.state]; exact hstate)
    | finished hall hcomplete hnext hstate =>
      exact .finished hall hcomplete (by rw [hs.receiver]; exact hnext) (by rw [hs.state]; exact hstate)

/-- The text that comes in order continues what was read. -/
theorem arrivals_continue (h : Reads isn stream complete delivered cb) (hshort : stream.length < 2 ^ 32)
    (hg : Genuine isn stream complete header data) (hc : CutOf header data s)
    (hstart : s.segStart = cb.receiver.receiveNext) (hread : delivered <+: stream)
    (hnext : cb.receiver.receiveNext = isn + SeqNumber.ofNat delivered.length) :
    delivered ++ textOf (cb.arrivals s) <+: stream := by
  unfold arrivals
  split
  next hcond =>
    have hpart := (hg.part_cut hc hcond.1).continues hshort hread (hstart.trans hnext)
    rw [textOf_cons, ← List.append_assoc]
    refine continuation_continues h.stored hshort hpart ?_
    rw [hnext, SeqNumber.add_ofNat_add, List.length_append]
  next => simpa using hread

/-- Text up to the FIN is the whole stream. -/
theorem finArrives_whole (h : Reads isn stream complete delivered cb) (hshort : stream.length + 1 < 2 ^ 32)
    (hg : Genuine isn stream complete header data) (hc : CutOf header data s)
    (hstart : s.segStart = cb.receiver.receiveNext) (hread : delivered ++ textOf (cb.arrivals s) <+: stream)
    (hnext : cb.receiver.receiveNext = isn + SeqNumber.ofNat delivered.length) (hfin : cb.finArrives s = true) :
    complete ∧ delivered ++ textOf (cb.arrivals s) = stream := by
  have hle := hread.length_le
  have hend : complete ∧ cb.receiver.receiveNext + SeqNumber.ofNat (textOf (cb.arrivals s)).length =
      isn + SeqNumber.ofNat stream.length := by
    rcases Bool.or_eq_true_iff.mp hfin with hf | hstored
    · obtain ⟨hcomplete, hnil, hnumber⟩ := hg.fin_cut hc hf
      have hnone : cb.arrivals s = [] := by
        rw [arrivals, if_neg fun hcond => hcond.1 hnil]
      exact ⟨hcomplete, by rw [hnone, textOf_nil, List.length_nil, SeqNumber.add_ofNat_zero, ← hstart, hnumber]⟩
    · exact h.fin _ (by simpa using (Bool.and_eq_true_iff.mp hstored).2)
  refine ⟨hend.1, hread.eq_of_length ?_⟩
  have hcount := hend.2
  rw [hnext, SeqNumber.add_ofNat_add, ← List.length_append] at hcount
  exact (SeqNumber.add_ofNat_inj (by omega) (by omega)).mp hcount

theorem Reads.inOrder (h : Reads isn stream complete delivered cb) (hshort : stream.length + 1 < 2 ^ 32)
    (hg : Genuine isn stream complete header data) (hc : CutOf header data s)
    (hstart : s.segStart = cb.receiver.receiveNext) (hi : InOrder cb s cb') :
    Reads isn stream complete (delivered ++ textOf (cb.arrivals s)) cb' ∧
      NotAfter isn cb.receiver.receiveNext cb'.receiver.receiveNext := by
  have hnext' := hi.receiveNext
  have hstate' := hi.state
  have hreads : ReadTo isn stream complete (delivered ++ textOf (cb.arrivals s)) cb' →
      Reads isn stream complete (delivered ++ textOf (cb.arrivals s)) cb' := by
    refine fun hread => ⟨fun x hx => ?_, fun number hn => h.fin number (hi.outOfOrderFin.symm.trans hn), hread⟩
    rw [hi.outOfOrder] at hx
    exact h.stored x (List.mem_of_mem_drop hx)
  cases h.readTo with
  | reading hread hnext hstate =>
    have hcontinues := arrivals_continue h (by omega) hg hc hstart hread hnext
    rw [hnext, SeqNumber.add_ofNat_add, ← Nat.add_assoc, ← List.length_append] at hnext'
    cases hfin : cb.finArrives s with
    | true =>
      obtain ⟨hcomplete, hall⟩ := finArrives_whole h hshort hg hc hstart hcontinues hnext hfin
      rw [hfin, if_pos rfl] at hstate'
      rw [hfin, hall] at hnext'
      refine ⟨hreads (.finished hall hcomplete hnext' (stateAfterPeerFin_shut hstate')), ?_⟩
      have hle := hread.length_le
      rw [NotAfter, hnext, hnext', SeqNumber.add_ofNat_sub (by omega), Bool.toNat_true, SeqNumber.add_ofNat_sub hshort]
      omega
    | false =>
      rw [hfin, if_neg Bool.false_ne_true] at hstate'
      rw [hfin, Bool.toNat_false, Nat.add_zero] at hnext'
      refine ⟨hreads (.reading hcontinues hnext' (by rw [hstate']; exact hstate)), ?_⟩
      have hle := hcontinues.length_le
      rw [List.length_append] at hle
      rw [NotAfter, hnext, hnext', SeqNumber.add_ofNat_sub (by omega), List.length_append,
        SeqNumber.add_ofNat_sub (by omega)]
      omega
  | finished hall hcomplete hnext hstate =>
    have hnone := arrivals_shut hstate s
    have hfin : cb.finArrives s = false := by
      rw [← Bool.not_eq_true]
      intro hfin
      rw [finArrives, hnone] at hfin
      have hf : s.header.fin = true := by simpa using hfin
      have hnumber := (hg.fin_cut hc hf).2.2
      rw [hstart, hnext] at hnumber
      have hsame := (SeqNumber.add_ofNat_inj hshort (by omega)).mp hnumber
      omega
    rw [hfin, if_neg Bool.false_ne_true] at hstate'
    have hsame : cb'.receiver.receiveNext = cb.receiver.receiveNext := by
      rw [hnext', hnone, hfin]
      exact SeqNumber.add_ofNat_zero _
    rw [hnone, textOf_nil, List.append_nil] at hreads ⊢
    refine ⟨hreads (.finished hall hcomplete (hsame.trans hnext) (by rw [hstate']; exact hstate)), ?_⟩
    rw [NotAfter, hsame]

/-- What a side does with a segment: it takes text that continues what it has read. -/
def Takes (isn : SeqNumber) (stream : Buffer) (complete : Prop) (delivered : Buffer) (cb cb' : ControlBlock) : Prop :=
  ∃ taken, cb'.receiver.recvQueue.flatten = cb.receiver.recvQueue.flatten ++ taken ∧
    Reads isn stream complete (delivered ++ taken) cb' ∧ NotAfter isn cb.receiver.receiveNext cb'.receiver.receiveNext

theorem Reads.takes_nothing (h : Reads isn stream complete delivered cb')
    (hqueue : cb'.receiver.recvQueue = cb.receiver.recvQueue)
    (hnext : cb'.receiver.receiveNext = cb.receiver.receiveNext) : Takes isn stream complete delivered cb cb' := by
  refine ⟨[], by rw [hqueue, List.append_nil], ?_, ?_⟩
  · rw [List.append_nil]
    exact h
  · rw [NotAfter, hnext]

theorem Reads.processed (h : Reads isn stream complete delivered cb) (hshort : stream.length + 1 < 2 ^ 32)
    (hd : data.length < 2 ^ 16) (hb : cb.receiveBufferSize.toNat < 2 ^ 31)
    (hg : Genuine isn stream complete header data) (hp : Processed cb header data s)
    (hr : cb.receive header data env = some cb') : Takes isn stream complete delivered cb cb' := by
  have hparsed := trimToWindow_parsed hd hb hp.kept
  have hc := trimToWindow_cutOf hd hg.noSyn hp.kept
  obtain ⟨cb₁, hack, hcases⟩ := hp.received hparsed hr
  have h₁ : Reads isn stream complete delivered cb₁ :=
    h.unmoved hack.unmoved (by rw [hack.inbound.outOfOrder]; exact h.stored)
  rcases hcases with ⟨-, hs, hfin⟩ | ⟨hstart, hi⟩
  · refine (h₁.setAside hg hc hparsed hp.noSyn hs hfin).takes_nothing ?_ ?_
    · rw [hs.receiver, hack.inbound.recvQueue]
    · rw [hs.receiver, hack.inbound.receiveNext]
  · obtain ⟨hreads, hadvances⟩ := h₁.inOrder hshort hg hc (hstart.trans hack.inbound.receiveNext.symm) hi
    refine ⟨textOf (cb₁.arrivals s), ?_, hreads, ?_⟩
    · rw [hi.recvQueue, hack.inbound.recvQueue, List.flatten_append]
      rfl
    · rw [← hack.inbound.receiveNext]
      exact hadvances

/-- What the receiver does with a genuine segment: it takes text that continues what it has read, and the FIN only
behind all of it. -/
theorem Reads.receive (h : Reads isn stream complete delivered cb) (hshort : stream.length + 1 < 2 ^ 32)
    (hd : data.length < 2 ^ 16) (hb : cb.receiveBufferSize.toNat < 2 ^ 31)
    (hg : Genuine isn stream complete header data) (hr : cb.receive header data env = some cb') :
    Takes isn stream complete delivered cb cb' := by
  cases receive_cases (fun s hs => trimToWindow_parsed hd hb hs) hr with
  | dropped hm =>
    exact (h.unmoved hm.unmoved (by rw [hm.inbound.outOfOrder]; exact h.stored)).takes_nothing hm.inbound.recvQueue
      hm.inbound.receiveNext
  | reset _ _ hstate _ _ hin =>
    exact (h.unmoved ⟨hin.receiveNext, hin.outOfOrderFin, .inl hstate⟩
      (by rw [hin.outOfOrder]; exact h.stored)).takes_nothing hin.recvQueue hin.receiveNext
  | setAside hp => exact h.processed hshort hd hb hg hp hr
  | inOrder hp => exact h.processed hshort hd hb hg hp hr

/-- A SYN that lies in the window is still a SYN after the trimming. -/
theorem trimToWindow_bareSyn (h : BareSyn header data) (hk : cb.trimToWindow header data = some (some s)) :
    s.header.syn = true := by
  obtain ⟨s₀, hs₀, hp, hheader, hdata, -⟩ := @incoming_parsed data header (by rw [h.empty]; decide)
  simp only [trimToWindow, hs₀, Option.bind_eq_bind, Option.bind_some] at hk
  obtain ⟨windowSize, -, hk⟩ := Option.bind_eq_some_iff.mp hk
  obtain ⟨front, hfront, hk⟩ := Option.bind_eq_some_iff.mp hk
  have hone : s₀.segLen = 1 := by
    rw [hp.segLen, hheader, hdata, h.syn, h.noFin, h.empty]
    rfl
  have hend : s₀.segEnd = s₀.segStart := by
    rw [hp.segEnd (by omega), hone, Nat.sub_self, SeqNumber.add_ofNat_zero]
  cases front with
  | none => cases hk
  | some s₁ =>
    have hsame : s₁ = s₀ := by
      unfold trimFront at hfront
      split at hfront
      next => exact (Option.some.inj (Option.some.inj hfront)).symm
      next =>
        split at hfront
        next hbefore =>
          rw [if_pos (by rw [hend]; exact hbefore)] at hfront
          cases hfront
        next =>
          split at hfront
          next => cases hfront
          next => exact (Option.some.inj (Option.some.inj hfront)).symm
    obtain ⟨s₂, hback, hk⟩ := Option.bind_eq_some_iff.mp hk
    obtain ⟨_, -, hk⟩ := Option.bind_eq_some_iff.mp hk
    cases hk
    have hsyn : s₁.header.syn = true := by rw [hsame, hheader, h.syn]
    unfold trimBack at hback
    split at hback
    next =>
      obtain ⟨segLen, -, hback⟩ := Option.bind_eq_some_iff.mp hback
      split at hback
      next =>
        obtain ⟨cut, -, hback⟩ := Option.bind_eq_some_iff.mp hback
        cases hback
        exact hsyn
      next =>
        obtain ⟨cut, -, hback⟩ := Option.bind_eq_some_iff.mp hback
        cases hback
        exact hsyn
    next =>
      cases hback
      exact hsyn

/-- A SYN that comes late takes nothing and acknowledges nothing; at most it resets the connection. -/
theorem Reads.bareSyn (h : Reads isn stream complete delivered cb) (hs : BareSyn header data)
    (hr : Received cb header data cb') :
    Takes isn stream complete delivered cb cb' ∧ cb'.sender = cb.sender := by
  have hnot : ∀ {s : Incoming}, ¬Processed cb header data s := by
    intro s hp
    have hsyn := hp.noSyn
    rw [trimToWindow_bareSyn hs hp.kept] at hsyn
    cases hsyn
  cases hr with
  | dropped hm hc =>
    exact ⟨(h.unmoved hm.unmoved (by rw [hm.inbound.outOfOrder]; exact h.stored)).takes_nothing hm.inbound.recvQueue
      hm.inbound.receiveNext, hc.sender⟩
  | reset _ _ hstate hsender _ hin =>
    exact ⟨(h.unmoved ⟨hin.receiveNext, hin.outOfOrderFin, .inl hstate⟩
      (by rw [hin.outOfOrder]; exact h.stored)).takes_nothing hin.recvQueue hin.receiveNext, hsender⟩
  | setAside hp => exact absurd hp hnot
  | inOrder hp => exact absurd hp hnot

end

end Capybara
