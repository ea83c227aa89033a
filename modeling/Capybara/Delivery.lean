import Capybara.DataSegments

namespace Capybara

open Slice Reassembly

/-- What stays the same while a receiver takes in a stream: the stream, the sequence number of its first byte, the
number up to which all that was sent is acknowledged, and the size of the receive buffer. -/
structure Inbound where
  stream : Buffer
  isn : SeqNumber
  sendUnacked : SeqNumber
  size : Nat

/-- The receiving side of an open connection that has nothing of its own in flight, seen over stream positions. -/
structure Refines (c : Inbound) (cb : ControlBlock) (r : Reassembly) : Prop where
  established : cb.state = .established
  noFin : cb.outOfOrderFin = none
  sendUnacked : cb.sender.sendUnacked = c.sendUnacked
  sendNext : cb.sender.sendNext = c.sendUnacked
  unacked : cb.sender.unackedQueue = []
  size : cb.receiveBufferSize.toNat = c.size
  buffer : c.size < 2 ^ 31
  scale : cb.windowScale.toNat < 32
  window : c.size / 2 ^ cb.windowScale.toNat < 2 ^ 16
  receiveNext : cb.receiver.receiveNext = c.isn.atPos r.next
  readerNext : cb.receiver.readerNext = c.isn.atPos r.popped
  popped_le : r.popped ≤ r.next
  space : r.next ≤ r.popped + c.size
  next_le : r.next ≤ c.stream.length
  queue : cb.receiver.recvQueue.flatten = slice c.stream r.popped r.next
  store : cb.outOfOrder = r.store.map (entry c.stream c.isn)
  bounded : Bounded (min (r.popped + c.size) c.stream.length) r.store

/-- What sending an ACK leaves alone. -/
structure SameCore (cb cb' : ControlBlock) : Prop where
  state : cb'.state = cb.state
  outOfOrderFin : cb'.outOfOrderFin = cb.outOfOrderFin
  sender : cb'.sender = cb.sender
  receiveBufferSize : cb'.receiveBufferSize = cb.receiveBufferSize
  windowScale : cb'.windowScale = cb.windowScale
  receiver : cb'.receiver = cb.receiver
  outOfOrder : cb'.outOfOrder = cb.outOfOrder

section

variable {c : Inbound} {cb cb' : ControlBlock} {r : Reassembly}

theorem Refines.of_core (h : Refines c cb r) (hc : SameCore cb cb') : Refines c cb' r where
  established := hc.state.trans h.established
  noFin := hc.outOfOrderFin.trans h.noFin
  sendUnacked := by rw [hc.sender, h.sendUnacked]
  sendNext := by rw [hc.sender, h.sendNext]
  unacked := by rw [hc.sender, h.unacked]
  size := by rw [hc.receiveBufferSize, h.size]
  buffer := h.buffer
  scale := by rw [hc.windowScale]; exact h.scale
  window := by rw [hc.windowScale]; exact h.window
  receiveNext := by rw [hc.receiver, h.receiveNext]
  readerNext := by rw [hc.receiver, h.readerNext]
  popped_le := h.popped_le
  space := h.space
  next_le := h.next_le
  queue := by rw [hc.receiver, h.queue]
  store := by rw [hc.outOfOrder, h.store]
  bounded := h.bounded

theorem Refines.getReceiveWindowSize (h : Refines c cb r) :
    cb.getReceiveWindowSize = some (r.popped + c.size - r.next) := by
  have hp := h.popped_le
  have hs := h.space
  have hb := h.buffer
  have hd : (cb.receiver.receiveNext - cb.receiver.readerNext).toNat = r.next - r.popped := by
    rw [h.receiveNext, h.readerNext]
    exact SeqNumber.atPos_sub_toNat hp (by omega)
  rw [ControlBlock.getReceiveWindowSize, hd, h.size, checkedSub_of_le (by omega)]
  congr 1
  omega

theorem tcpHeader_flags {header : TcpHeader} (h : cb.tcpHeader = some header) : header.ack = true ∧ header.fin = false := by
  obtain ⟨windowSize, _, he⟩ := Option.bind_eq_some_iff.mp h
  cases Option.some.inj he
  exact ⟨rfl, rfl⟩

theorem sendAck_of_header {header : TcpHeader} (h : cb.tcpHeader = some header) (delayed : Bool) (env : Env) :
    ∃ cb', cb.sendAck delayed env = some cb' := by
  obtain ⟨hack, hfin⟩ := tcpHeader_flags h
  cases ha : env.arp with
  | none => exact ⟨cb, by simp [ControlBlock.sendAck, h, ha]⟩
  | some mac => exact ⟨_, by simp [ControlBlock.sendAck, ControlBlock.emit, h, ha, hack, debugAssert]; rfl⟩

theorem sendAck_core {delayed : Bool} {env : Env} (h : cb.sendAck delayed env = some cb') : SameCore cb cb' := by
  obtain ⟨header, hh, h⟩ := Option.bind_eq_some_iff.mp h
  obtain ⟨hack, hfin⟩ := tcpHeader_flags hh
  cases ha : env.arp with
  | none =>
    simp only [ha, Option.some.injEq] at h
    subst cb'
    exact ⟨rfl, rfl, rfl, rfl, rfl, rfl, rfl⟩
  | some mac =>
    simp only [ha, ControlBlock.emit, hack, hfin, debugAssert, if_true, Bool.false_eq_true, if_false,
      Option.bind_eq_bind, Option.bind_some, Option.some.injEq] at h
    subst cb'
    exact ⟨rfl, rfl, rfl, rfl, rfl, rfl, rfl⟩

theorem tcpHeader_of_window {windowSize : Nat} (h : cb.getReceiveWindowSize = some windowSize)
    (hs : cb.windowScale.toNat < 32) (hw : windowSize / 2 ^ cb.windowScale.toNat < 2 ^ 16) :
    ∃ header, cb.tcpHeader = some header := by
  have hsize : cb.hdrWindowSize = some (UInt16.ofNat (windowSize / 2 ^ cb.windowScale.toNat)) := by
    simp only [ControlBlock.hdrWindowSize, h, Option.bind_eq_bind, Option.bind_some]
    exact if_pos ⟨hs, hw⟩
  exact ⟨_, Option.bind_eq_some_iff.mpr ⟨_, hsize, rfl⟩⟩

theorem Refines.tcpHeader (h : Refines c cb r) : ∃ header, cb.tcpHeader = some header := by
  have hdiv : (r.popped + c.size - r.next) / 2 ^ cb.windowScale.toNat < 2 ^ 16 := by
    have hp := h.popped_le
    have hw := h.window
    have hd := @Nat.div_le_div_right (r.popped + c.size - r.next) c.size
      (2 ^ cb.windowScale.toNat) (by omega)
    omega
  exact tcpHeader_of_window h.getReceiveWindowSize h.scale hdiv

theorem Refines.sendAck (h : Refines c cb r) (delayed : Bool) (env : Env) :
    ∃ cb', cb.sendAck delayed env = some cb' ∧ Refines c cb' r := by
  obtain ⟨header, hh⟩ := h.tcpHeader
  obtain ⟨cb', hs⟩ := sendAck_of_header hh delayed env
  exact ⟨cb', hs, h.of_core (sendAck_core hs)⟩

/-- With nothing in flight an ACK number is old, or it acknowledges what was never sent and the segment is dropped.
One half a turn ahead is taken for an ACK of data sent, and there is none to remove. -/
theorem processAck_idle {header : TcpHeader} (h : Refines c cb r) (env : Env) :
    cb.processAck header env =
      if c.sendUnacked.lt header.ackNum then
        if (c.sendUnacked - header.ackNum).toNat = 2 ^ 31 then none else some none
      else some (some cb) := by
  by_cases hlt : c.sendUnacked.lt header.ackNum = true
  · have hn := UInt32.toNat_sub c.sendUnacked.value header.ackNum.value
    have hm := UInt32.toNat_sub header.ackNum.value c.sendUnacked.value
    have hx : c.sendUnacked.value.toNat < 2 ^ 32 := UInt32.toNat_lt _
    have hy : header.ackNum.value.toNat < 2 ^ 32 := UInt32.toNat_lt _
    have hahead := hlt
    rw [SeqNumber.lt_iff] at hahead
    rw [if_pos hlt]
    split
    next hhalf =>
      have hle : header.ackNum.le c.sendUnacked = true := by
        rw [SeqNumber.le_iff]
        simp only [SeqNumber.toNat, SeqNumber.sub_value] at hhalf ⊢
        omega
      have hbytes : (header.ackNum - c.sendUnacked).toNat = 2 ^ 31 - 1 + 1 := by
        simp only [SeqNumber.toNat, SeqNumber.sub_value] at hhalf ⊢
        omega
      simp only [ControlBlock.processAck, hlt, hle, hbytes, h.sendUnacked, h.sendNext, h.unacked, Sender.removeAcknowledgedData, if_true,
        Option.bind_eq_bind, Option.bind_none]
    next hhalf =>
      have hle : ¬header.ackNum.le c.sendUnacked = true := by
        rw [SeqNumber.le_iff]
        simp only [SeqNumber.toNat, SeqNumber.sub_value] at hahead hhalf ⊢
        omega
      simp [ControlBlock.processAck, h.sendUnacked, h.sendNext, hlt, hle]
  · simp [ControlBlock.processAck, h.sendUnacked, hlt]

/-- The ACK fields of a segment allow its text to be processed. -/
def ackAllows (sendUnacked : SeqNumber) (header : TcpHeader) : Bool :=
  header.ack && !sendUnacked.lt header.ackNum

theorem receiveOutOfOrder_refines {header : TcpHeader} {lo hi bound : Nat} {env : Env} (h : Refines c cb r)
    (hf : header.fin = false) (hnext : r.next < lo) (hlt : lo < hi) (hb : Bounded bound r.store) (hhi : hi ≤ bound)
    (hs : bound ≤ c.stream.length) (hlim : bound ≤ r.popped + c.size)
    (hclose : ∀ x ∈ r.store, bound < x.1 + 2 ^ 32) :
    ∃ cb', cb.receiveOutOfOrder (ControlBlock.dataSegment c.stream c.isn header lo hi) env = some cb' ∧
      Refines c cb' { r with store := placeRange (r.store.length + 1) r.store lo hi } := by
  have hp := h.popped_le
  have hbuf := h.buffer
  have hlen : (slice c.stream lo hi).length = hi - lo := length_slice_of_le (by omega) lo
  have hm : (hi - lo) % 2 ^ 32 = hi - lo := Nat.mod_eq_of_lt (by omega)
  have hpos : hi - lo > 0 := by omega
  have hplace := @placeSegment_refines c.stream c.isn (r.store.length + 1) bound lo hi r.store hb hlt hs hhi
    (fun x hx => by have hx' := hclose x hx; omega) (by omega) (Nat.lt_succ_self _)
  have hbounded := @placeRange_bounded bound (r.store.length + 1) lo hi r.store hb (by omega) hlt hhi
    (fun x hx => by have hx' := hclose x hx; omega) (by omega)
  let cb₁ : ControlBlock :=
    { cb with outOfOrder := (placeRange (r.store.length + 1) r.store lo hi).map (entry c.stream c.isn) }
  have h₁ : Refines c cb₁ { r with store := placeRange (r.store.length + 1) r.store lo hi } :=
    { h with
      store := rfl
      bounded := fun x hx => by
        obtain ⟨hx₁, hx₂, hx₃⟩ := hbounded x hx
        exact ⟨hx₁, hx₂, Nat.le_min.mpr ⟨Nat.le_trans hx₃ hlim, Nat.le_trans hx₃ hs⟩⟩ }
  obtain ⟨cb₂, hsend, h₂⟩ := h₁.sendAck false env
  refine ⟨cb₂, ?_, h₂⟩
  have hstate : ControlBlock.canReceiveData cb.state = true := by rw [h.established]; rfl
  simp only [ControlBlock.receiveOutOfOrder, ControlBlock.dataSegment, hstate, hf,
    hlen, hm, hpos, ControlBlock.storeOutOfOrderSegment, h.store, List.length_map, hplace, and_self, if_true,
    Bool.false_eq_true, if_false, decide_true, debugAssert, Option.bind_eq_bind, Option.bind_some]
  exact hsend

theorem scheduleAck_of_header {header : TcpHeader} (h : cb.tcpHeader = some header) (env : Env) :
    ∃ cb', cb.scheduleAck env = some cb' ∧ SameCore cb cb' := by
  unfold ControlBlock.scheduleAck
  split
  next => exact ⟨_, rfl, rfl, rfl, rfl, rfl, rfl, rfl, rfl⟩
  next =>
    obtain ⟨cb', hs⟩ := @sendAck_of_header { cb with ackDeadline := none } header h true env
    obtain ⟨h₁, h₂, h₃, h₄, h₅, h₆, h₇⟩ := sendAck_core hs
    exact ⟨cb', hs, h₁, h₂, h₃, h₄, h₅, h₆, h₇⟩

/-- Text at RCV.NXT goes to the receive queue, and the stored segments that follow it go after it. -/
theorem receiveInOrder_text {header : TcpHeader} {hi : Nat} {env : Env} {outOfOrder : List (SeqNumber × Buffer)}
    {recvNext : SeqNumber} {receiver : Receiver} {added : Bool} (h : Refines c cb r) (hf : header.fin = false)
    (hlt : r.next < hi) (hs : hi ≤ c.stream.length)
    (hdrain : drainOutOfOrder cb.outOfOrder (c.isn.atPos hi) (cb.receiver.push (slice c.stream r.next hi)) false =
      (outOfOrder, recvNext, receiver, added)) :
    cb.receiveInOrder (ControlBlock.dataSegment c.stream c.isn header r.next hi) env =
      { cb with outOfOrder := outOfOrder, receiver := receiver }.scheduleAck env := by
  have hlen : (slice c.stream r.next hi).length = hi - r.next := length_slice_of_le hs r.next
  have hadv : c.isn.atPos r.next + SeqNumber.ofNat (hi - r.next) = c.isn.atPos hi := by
    rw [← SeqNumber.atPos_add, Nat.add_sub_cancel' (Nat.le_of_lt hlt)]
  have hdata : cb.receiveData (c.isn.atPos r.next) (slice c.stream r.next hi) =
      some (false, { cb with outOfOrder := outOfOrder, receiver := receiver }) := by
    simp only [ControlBlock.receiveData, h.receiveNext, hlen, hadv, hdrain, h.noFin, debugAssert, decide_true,
      if_true, Option.bind_eq_bind, Option.bind_some]
    simp
  have hstate : ControlBlock.canReceiveData cb.state = true := by rw [h.established]; rfl
  have hne : (slice c.stream r.next hi).isEmpty = false := by
    rw [List.isEmpty_eq_false_iff, ← List.length_pos_iff, hlen]
    omega
  simp only [ControlBlock.receiveInOrder, ControlBlock.dataSegment, hne, hstate, hdata, hf, Bool.not_false, and_self,
    if_true, Bool.or_self, Bool.false_eq_true, if_false, Option.bind_eq_bind, Option.bind_some]

theorem receiveInOrder_refines {header : TcpHeader} {hi bound : Nat} {env : Env} (h : Refines c cb r)
    (hf : header.fin = false) (hlt : r.next < hi) (hb : Bounded bound r.store) (hhi : hi ≤ bound)
    (hs : bound ≤ c.stream.length) (hlim : bound ≤ r.popped + c.size)
    (hclose : ∀ x ∈ r.store, bound < x.1 + 2 ^ 32) :
    ∃ cb', cb.receiveInOrder (ControlBlock.dataSegment c.stream c.isn header r.next hi) env = some cb' ∧
      Refines c cb'
        { r with next := (drainRanges r.store hi).2, store := (drainRanges r.store hi).1 } := by
  have hp := h.popped_le
  have hbuf := h.buffer
  have hlen : (slice c.stream r.next hi).length = hi - r.next := length_slice_of_le (by omega) r.next
  have hadv : c.isn.atPos r.next + SeqNumber.ofNat (hi - r.next) = c.isn.atPos hi := by
    rw [← SeqNumber.atPos_add, Nat.add_sub_cancel' (Nat.le_of_lt hlt)]
  have hpush : (cb.receiver.push (slice c.stream r.next hi)).receiveNext = c.isn.atPos hi := by
    simp only [Receiver.push, h.receiveNext, hlen, hadv]
  obtain ⟨receiver, added, hdrain, hnext, hreader, hqueue⟩ :=
    @drainOutOfOrder_refines c.stream c.isn bound hi r.store (cb.receiver.push (slice c.stream r.next hi)) false hb hs
      (by omega) (fun x hx => by have hx' := hclose x hx; omega) hpush
  obtain ⟨hbounded, hle, hend⟩ := @drainRanges_bounded bound hi r.store hb
  have hend' : (drainRanges r.store hi).2 ≤ bound := by omega
  let cb₁ : ControlBlock :=
    { cb with outOfOrder := (drainRanges r.store hi).1.map (entry c.stream c.isn), receiver := receiver }
  have h₁ : Refines c cb₁
      { r with next := (drainRanges r.store hi).2, store := (drainRanges r.store hi).1 } :=
    { h with
      receiveNext := hnext
      readerNext := by rw [show cb₁.receiver = receiver from rfl, hreader]; exact h.readerNext
      popped_le := by simp only; omega
      space := Nat.le_trans hend' hlim
      next_le := Nat.le_trans hend' hs
      queue := by
        have hq : (cb.receiver.push (slice c.stream r.next hi)).recvQueue.flatten =
            slice c.stream r.popped r.next ++ slice c.stream r.next hi := by simp [Receiver.push, h.queue]
        rw [show cb₁.receiver = receiver from rfl, hqueue, hq, slice_append c.stream hp (Nat.le_of_lt hlt),
          slice_append c.stream (by omega) hle]
      store := rfl
      bounded := fun x hx => by
        obtain ⟨hx₁, hx₂, hx₃⟩ := hbounded x hx
        exact ⟨hx₁, hx₂, Nat.le_min.mpr ⟨Nat.le_trans hx₃ hlim, Nat.le_trans hx₃ hs⟩⟩ }
  obtain ⟨header', hheader⟩ := h₁.tcpHeader
  obtain ⟨cb₂, hsend, hcore⟩ := scheduleAck_of_header hheader env
  rw [← h.store] at hdrain
  exact ⟨cb₂, (receiveInOrder_text h hf hlt (by omega) hdrain).trans hsend, h₁.of_core hcore⟩

/-- A data segment whose ACK number is old goes to the in-order or the out-of-order path. -/
theorem receiveTrimmed_text {header : TcpHeader} {lo lo' hi : Nat} {next : SeqNumber} {env : Env}
    (hh : DataHeader c.isn header lo) (hack : cb.processAck header env = some (some cb)) (hflag : header.ack = true) :
    cb.receiveTrimmed (ControlBlock.dataSegment c.stream c.isn header lo' hi) next env =
      if c.isn.atPos lo' = next then cb.receiveInOrder (ControlBlock.dataSegment c.stream c.isn header lo' hi) env
      else cb.receiveOutOfOrder (ControlBlock.dataSegment c.stream c.isn header lo' hi) env := by
  by_cases he : c.isn.atPos lo' = next <;>
    simp [ControlBlock.receiveTrimmed, ControlBlock.dataSegment, hh.noRst, hh.noSyn, hflag, hack, he]

/-- The part of a segment in the window, when the ACK number lets it through. -/
theorem receive_text {header : TcpHeader} {lo hi : Nat} (h : Refines c cb r) (hh : DataHeader c.isn header lo)
    (hlt : lo < hi) (hs : hi ≤ c.stream.length) (hback : r.next < lo + 2 ^ 31) (hahead : hi ≤ r.next + 2 ^ 31)
    (hallow : ackAllows c.sendUnacked header = true) (hin : max lo r.next < min hi (r.popped + c.size)) (env : Env) :
    cb.receive header (slice c.stream lo hi) env =
      if lo ≤ r.next then cb.receiveInOrder
        (ControlBlock.dataSegment c.stream c.isn header r.next (min hi (r.popped + c.size))) env
      else cb.receiveOutOfOrder
        (ControlBlock.dataSegment c.stream c.isn header lo (min hi (r.popped + c.size))) env := by
  have hp := h.popped_le
  have hbuf := h.buffer
  have hsome : cb.trimToWindow header (slice c.stream lo hi) = some (some
      (ControlBlock.dataSegment c.stream c.isn header (max lo r.next) (min hi (r.popped + c.size)))) := by
    rcases @ControlBlock.trimToWindow_data c.stream c.isn header lo hi r.next (r.popped + c.size) cb
      hh hlt hs hback hahead h.receiveNext h.getReceiveWindowSize h.space (by omega) with ⟨hout, -⟩ | ⟨-, hsome⟩
    · omega
    · exact hsome
  simp only [ackAllows, Bool.and_eq_true, Bool.not_eq_true'] at hallow
  have hack := @processAck_idle c cb r header h env
  rw [hallow.2, if_neg Bool.false_ne_true] at hack
  rw [ControlBlock.receive, hsome, Option.bind_eq_bind, Option.bind_some]
  simp only [receiveTrimmed_text hh hack hallow.1, h.receiveNext]
  by_cases hle : lo ≤ r.next
  · rw [Nat.max_eq_right hle, if_pos rfl, if_pos hle]
  · have hne : c.isn.atPos lo ≠ c.isn.atPos r.next := by
      intro he
      exact hle (Nat.le_of_eq ((@SeqNumber.atPos_inj c.isn lo r.next (by omega) (by omega)).mp he))
    rw [Nat.max_eq_left (by omega), if_neg hne, if_neg hle]

/-- One data segment does to the control block what `accept` does to the positions, when its ACK number lets its
text through; else it changes nothing, or its ACK number is half a turn ahead and stops the receiver. -/
theorem receive_refines {header : TcpHeader} {lo hi bound : Nat} {env : Env} (h : Refines c cb r)
    (hh : DataHeader c.isn header lo) (hlt : lo < hi) (hs : hi ≤ c.stream.length) (hback : r.next < lo + 2 ^ 31)
    (hahead : hi ≤ r.next + 2 ^ 31) (hb : Bounded bound r.store)
    (hhi : min hi (r.popped + c.size) ≤ bound) (hbs : bound ≤ c.stream.length)
    (hlim : bound ≤ r.popped + c.size) (hclose : ∀ x ∈ r.store, bound < x.1 + 2 ^ 32) :
    (cb.receive header (slice c.stream lo hi) env = none ∧ (c.sendUnacked - header.ackNum).toNat = 2 ^ 31) ∨
      ∃ cb', cb.receive header (slice c.stream lo hi) env = some cb' ∧ Refines c cb'
        (if ackAllows c.sendUnacked header then r.accept (r.popped + c.size) lo hi else r) := by
  have hp := h.popped_le
  have hsp := h.space
  have hbuf := h.buffer
  have hack := @processAck_idle c cb r header h env
  obtain ⟨cb₀, hsend, h₀⟩ := h.sendAck false env
  have htrim := @ControlBlock.trimToWindow_data c.stream c.isn header lo hi r.next (r.popped + c.size) cb
    hh hlt hs hback hahead h.receiveNext h.getReceiveWindowSize hsp (by omega)
  rcases htrim with ⟨hout, hnone | ⟨s, hsome, hheader, hstart, hdata⟩⟩ | ⟨hin, hsome⟩
  · refine .inr ⟨cb₀, by simpa [ControlBlock.receive, hnone, hh.noRst] using hsend, ?_⟩
    simpa [Reassembly.accept, hout] using h₀
  · have hsame : (if ackAllows c.sendUnacked header then r.accept (r.popped + c.size) lo hi else r) = r := by
      rw [Reassembly.accept, if_pos hout, ite_self]
    rw [hsame]
    by_cases hflag : header.ack = true
    · by_cases hlt' : c.sendUnacked.lt header.ackNum = true
      · by_cases hhalf : (c.sendUnacked - header.ackNum).toNat = 2 ^ 31
        · exact .inl ⟨by simp [ControlBlock.receive, hsome, ControlBlock.receiveTrimmed, hheader, hh.noRst, hh.noSyn,
            hflag, hack, hlt', hhalf], hhalf⟩
        · rw [if_pos hlt', if_neg hhalf] at hack
          exact .inr ⟨cb₀, by simpa [ControlBlock.receive, hsome, ControlBlock.receiveTrimmed, hheader, hh.noRst,
            hh.noSyn, hflag, hack] using hsend, h₀⟩
      · exact .inr ⟨cb, by simp [ControlBlock.receive, hsome, ControlBlock.receiveTrimmed, hheader, hh.noRst, hh.noSyn,
          hflag, hack, hlt', hstart, h.receiveNext, ControlBlock.receiveInOrder, hdata, hh.noFin], h⟩
    · exact .inr ⟨cb, by simp [ControlBlock.receive, hsome, ControlBlock.receiveTrimmed, hheader, hh.noRst, hh.noSyn,
        hflag], h⟩
  · have hpath : cb.receive header (slice c.stream lo hi) env = cb.receiveTrimmed
        (ControlBlock.dataSegment c.stream c.isn header (max lo r.next) (min hi (r.popped + c.size)))
        cb.receiver.receiveNext env := by simp [ControlBlock.receive, hsome]
    by_cases hflag : header.ack = true
    · by_cases hlt' : c.sendUnacked.lt header.ackNum = true
      · have hdeny : ackAllows c.sendUnacked header = false := by simp [ackAllows, hflag, hlt']
        rw [hpath, hdeny, if_neg Bool.false_ne_true]
        by_cases hhalf : (c.sendUnacked - header.ackNum).toNat = 2 ^ 31
        · exact .inl ⟨by simp [ControlBlock.receiveTrimmed, ControlBlock.dataSegment, hh.noRst, hh.noSyn, hflag, hack,
            hlt', hhalf], hhalf⟩
        · rw [if_pos hlt', if_neg hhalf] at hack
          exact .inr ⟨cb₀, by simpa [ControlBlock.receiveTrimmed, ControlBlock.dataSegment, hh.noRst, hh.noSyn, hflag,
            hack] using hsend, h₀⟩
      · have hallow : ackAllows c.sendUnacked header = true := by simp [ackAllows, hflag, hlt']
        have hnout : ¬min hi (r.popped + c.size) ≤ max lo r.next := by omega
        rw [receive_text h hh hlt hs hback hahead hallow hin, if_pos hallow, Reassembly.accept, if_neg hnout]
        refine .inr ?_
        by_cases hle : lo ≤ r.next
        · rw [if_pos hle, if_pos hle]
          exact receiveInOrder_refines h hh.noFin (by omega) hb hhi hbs hlim hclose
        · rw [if_neg hle, if_neg hle]
          exact receiveOutOfOrder_refines h hh.noFin (by omega) (by omega) hb hhi hbs hlim hclose
    · refine .inr ⟨cb, ?_, by simpa [ackAllows, hflag] using h⟩
      rw [hpath]
      simp [ControlBlock.receiveTrimmed, ControlBlock.dataSegment, hh.noRst, hh.noSyn, hflag]

end

end Capybara
