import Capybara.SegmentStore

namespace Capybara

open ControlBlock

/-- The receiving side with so many sequence numbers received and not read, which fit the receive buffer. The size of
the buffer is a window field shifted by the window scale, below half the sequence space. -/
structure Accounts (cb : ControlBlock) (unread : Nat) : Prop where
  buffer : cb.receiveBufferSize.toNat < 2 ^ 31
  scale : cb.windowScale.toNat < 32
  field : cb.receiveBufferSize.toNat / 2 ^ cb.windowScale.toNat < 2 ^ 16
  receiveNext : cb.receiver.receiveNext = cb.receiver.readerNext + SeqNumber.ofNat unread
  unread_le : unread ≤ cb.receiveBufferSize.toNat
  queued : cb.receiver.recvQueue.flatten.length ≤ unread
  stored : ∀ x ∈ cb.outOfOrder, SegmentText x.2

/-- The part of a segment whose ACK number, text and FIN `receive` processes. -/
def ControlBlock.processed (cb : ControlBlock) (header : TcpHeader) (data : Buffer) : Option Incoming :=
  (cb.trimToWindow header data).join.filter fun s =>
    !s.header.rst && !s.header.syn && s.header.ack && decide (AckAllows cb s.header)

/-- Stored segments that continue text taken in order lie below the right edge of the receive window, and a FIN that is
consumed with text is not the first sequence number beyond it. -/
def RoomFor (cb : ControlBlock) (header : TcpHeader) (data : Buffer) : Prop :=
  ∀ s, cb.processed header data = some s → s.segStart = cb.receiver.receiveNext →
    (∀ x ∈ cb.arrivals s, (x.1 - cb.receiver.readerNext).toNat + x.2.length ≤ cb.receiveBufferSize.toNat) ∧
      (cb.finArrives s = true → cb.receiver.receiveNext + SeqNumber.ofNat (textOf (cb.arrivals s)).length ≠
        cb.receiver.readerNext + SeqNumber.ofNat cb.receiveBufferSize.toNat)

instance (cb : ControlBlock) (header : TcpHeader) (data : Buffer) : Decidable (RoomFor cb header data) :=
  inferInstanceAs (Decidable (∀ s, cb.processed header data = some s → _))

section

variable {cb cb' cb₁ : ControlBlock} {unread : Nat} {header : TcpHeader} {data : Buffer} {s : Incoming}

theorem processed_eq_some : cb.processed header data = some s ↔ Processed cb header data s := by
  simp only [processed, Option.filter_eq_some_iff, Option.join_eq_some_iff, Bool.and_eq_true, Bool.not_eq_true',
    decide_eq_true_eq]
  constructor
  · rintro ⟨hkept, ⟨⟨hrst, hsyn⟩, hack⟩, hallows⟩
    exact ⟨hkept, hrst, hsyn, hack, hallows⟩
  · intro hp
    exact ⟨hp.kept, ⟨⟨hp.noRst, hp.noSyn⟩, hp.ack⟩, hp.allows⟩

theorem Accounts.distance (h : Accounts cb unread) :
    (cb.receiver.receiveNext - cb.receiver.readerNext).toNat = unread := by
  have hb := h.buffer
  have hu := h.unread_le
  have hr := cb.receiver.readerNext.toNat_lt
  rw [h.receiveNext]
  simp only [SeqNumber.toNat_sub, SeqNumber.toNat_add_ofNat]
  omega

theorem Accounts.getReceiveWindowSize (h : Accounts cb unread) :
    cb.getReceiveWindowSize = some (cb.receiveBufferSize.toNat - unread) := by
  rw [ControlBlock.getReceiveWindowSize, h.distance, checkedSub_of_le h.unread_le]

theorem Accounts.tcpHeader (h : Accounts cb unread) : ∃ header, cb.tcpHeader = some header := by
  have hfield := h.field
  have hdiv := @Nat.div_le_div_right (cb.receiveBufferSize.toNat - unread) cb.receiveBufferSize.toNat
    (2 ^ cb.windowScale.toNat) (Nat.sub_le _ _)
  exact tcpHeader_of_window h.getReceiveWindowSize h.scale (by omega)

theorem Accounts.kept (h : Accounts cb unread) (hd : data.length < 2 ^ 16)
    (hk : cb.trimToWindow header data = some (some s)) :
    Kept cb.receiver.receiveNext (cb.receiveBufferSize.toNat - unread) s := by
  have hb := h.buffer
  by_cases hm : ZeroWindowMisfit cb.receiver.receiveNext (cb.receiveBufferSize.toNat - unread) header data
  · rw [trimToWindow_of_misfit hd h.getReceiveWindowSize hm] at hk
    cases hk
  · obtain ⟨t, ht, hkept⟩ := trimToWindow_kept hd h.getReceiveWindowSize (by omega) hm
    rw [ht] at hk
    exact hkept s (Option.some.inj hk)

theorem Accounts.sameInbound (h : Accounts cb unread) (hs : SameInbound cb cb') : Accounts cb' unread where
  buffer := by rw [hs.receiveBufferSize]; exact h.buffer
  scale := by rw [hs.windowScale]; exact h.scale
  field := by rw [hs.receiveBufferSize, hs.windowScale]; exact h.field
  receiveNext := by rw [hs.receiveNext, hs.readerNext]; exact h.receiveNext
  unread_le := by rw [hs.receiveBufferSize]; exact h.unread_le
  queued := by rw [hs.recvQueue]; exact h.queued
  stored := by rw [hs.outOfOrder]; exact h.stored

/-- The stored segments that continue the text are read off one after the other below the right edge. -/
theorem continuation_fits {size pos : Nat} {reader : SeqNumber} {store : List (SeqNumber × Buffer)} (hsize : size < 2 ^ 31)
    (hpos : pos ≤ size)
    (hfits : ∀ x ∈ continuation store (reader + SeqNumber.ofNat pos), (x.1 - reader).toNat + x.2.length ≤ size) :
    pos + (textOf (continuation store (reader + SeqNumber.ofNat pos))).length ≤ size := by
  induction store generalizing pos with
  | nil => exact hpos
  | cons segment rest ih =>
    obtain ⟨start, buf⟩ := segment
    by_cases heq : start = reader + SeqNumber.ofNat pos
    · rw [continuation, if_pos heq, SeqNumber.add_ofNat_add] at hfits ⊢
      have hfirst := hfits _ List.mem_cons_self
      have hr := reader.toNat_lt
      simp only [heq, SeqNumber.toNat_sub, SeqNumber.toNat_add_ofNat] at hfirst
      have hrest := @ih (pos + buf.length) (by omega) fun x hx => hfits x (List.mem_cons_of_mem _ hx)
      simp only [textOf_cons, List.length_append]
      omega
    · rw [continuation, if_neg heq]
      exact hpos

theorem ControlBlock.Kept.length_le {receiveNext : SeqNumber} {windowSize : Nat} (hk : Kept receiveNext windowSize s)
    (hw : windowSize < 2 ^ 31) (hstart : s.segStart = receiveNext) (hpos : 0 < s.segLen) : s.segLen ≤ windowSize := by
  have hlen := hk.parsed.segLen
  have hshort := hk.parsed.short
  have hend := hk.parsed.segEnd hpos
  have hin := hk.inWindow
  have hsyn := Bool.toNat_le s.header.syn
  have hfin := Bool.toNat_le s.header.fin
  have hn := receiveNext.toNat_lt
  rw [hend, hstart, SeqNumber.lt_iff] at hin
  simp only [SeqNumber.toNat_sub, SeqNumber.toNat_add_ofNat] at hin
  omega

/-- What a segment at RCV.NXT adds to the sequence numbers received fits the receive window. -/
theorem Accounts.arrivals_le (h : Accounts cb unread) (hroom : RoomFor cb header data) (hd : data.length < 2 ^ 16)
    (hp : Processed cb header data s) (hstart : s.segStart = cb.receiver.receiveNext) :
    unread + (textOf (cb.arrivals s)).length + (cb.finArrives s).toNat ≤ cb.receiveBufferSize.toNat := by
  have hb := h.buffer
  have hu := h.unread_le
  have hr := cb.receiver.readerNext.toNat_lt
  obtain ⟨hfits, hfin⟩ := hroom s (processed_eq_some.mpr hp) hstart
  have hkept := h.kept hd hp.kept
  have hlen := hkept.parsed.segLen
  rw [hp.noSyn, Bool.toNat_false] at hlen
  have hle := fun hpos => hkept.length_le (by omega) hstart hpos
  by_cases htext : s.data ≠ [] ∧ canReceiveData cb.state = true
  · have hpos := List.length_pos_iff.mpr htext.1
    have hown := hle (by omega)
    have harrive : cb.arrivals s = (cb.receiver.receiveNext, s.data) ::
        continuation cb.outOfOrder (cb.receiver.receiveNext + SeqNumber.ofNat s.data.length) := if_pos htext
    have hcont := @continuation_fits cb.receiveBufferSize.toNat (unread + s.data.length) cb.receiver.readerNext
      cb.outOfOrder hb (by omega) (by
        intro x hx
        rw [← SeqNumber.add_ofNat_add, ← h.receiveNext] at hx
        exact hfits x (by rw [harrive]; exact List.mem_cons_of_mem _ hx))
    rw [← SeqNumber.add_ofNat_add, ← h.receiveNext] at hcont
    have htotal : (textOf (cb.arrivals s)).length = s.data.length +
        (textOf (continuation cb.outOfOrder (cb.receiver.receiveNext + SeqNumber.ofNat s.data.length))).length := by
      rw [harrive, textOf_cons, List.length_append]
    cases hf : cb.finArrives s with
    | false =>
      rw [htotal, Bool.toNat_false]
      omega
    | true =>
      have hne := hfin hf
      rw [h.receiveNext, SeqNumber.add_ofNat_add] at hne
      have hedge : unread + (textOf (cb.arrivals s)).length ≠ cb.receiveBufferSize.toNat :=
        fun he => hne (by rw [he])
      rw [Bool.toNat_true]
      omega
  · have harrive : cb.arrivals s = [] := if_neg htext
    rw [finArrives, harrive]
    cases hf : s.header.fin with
    | false =>
      simpa using hu
    | true =>
      rw [hf, Bool.toNat_true] at hlen
      have hown := hle (by omega)
      simp only [textOf_nil, List.length_nil, Bool.true_or, Bool.toNat_true]
      omega

theorem canReceiveData_stateAfterAck (state : State) : canReceiveData (stateAfterAck state) = canReceiveData state := by
  cases state <;> rfl

theorem ControlBlock.AckTakes.canReceiveData (ha : AckTakes cb header cb₁) :
    ControlBlock.canReceiveData cb₁.state = ControlBlock.canReceiveData cb.state := by
  rcases ha.acked with ⟨-, rfl⟩ | ⟨-, -, -, -, hstate⟩
  · rfl
  · rw [hstate]
    split
    · exact canReceiveData_stateAfterAck cb.state
    · rfl

/-- The ACK does not change what arrives with the segment. -/
theorem ControlBlock.AckTakes.arrivals (ha : AckTakes cb header cb₁) (s : Incoming) : cb₁.arrivals s = cb.arrivals s := by
  rw [ControlBlock.arrivals, ha.canReceiveData, ha.inbound.receiveNext, ha.inbound.outOfOrder]
  rfl

theorem ControlBlock.AckTakes.finArrives (ha : AckTakes cb header cb₁) (s : Incoming) : cb₁.finArrives s = cb.finArrives s := by
  rw [ControlBlock.finArrives, ha.arrivals, ha.inbound.outOfOrderFin, ha.inbound.receiveNext]
  rfl

theorem ControlBlock.InOrder.accounts (h : Accounts cb unread) (hi : InOrder cb s cb')
    (hle : unread + (textOf (cb.arrivals s)).length + (cb.finArrives s).toNat ≤ cb.receiveBufferSize.toNat) :
    Accounts cb' (unread + (textOf (cb.arrivals s)).length + (cb.finArrives s).toNat) where
  buffer := by rw [hi.receiveBufferSize]; exact h.buffer
  scale := by rw [hi.windowScale]; exact h.scale
  field := by rw [hi.receiveBufferSize, hi.windowScale]; exact h.field
  receiveNext := by rw [hi.receiveNext, hi.readerNext, h.receiveNext, SeqNumber.add_ofNat_add, Nat.add_assoc]
  unread_le := by rw [hi.receiveBufferSize]; exact hle
  queued := by
    have hq := h.queued
    rw [hi.recvQueue, List.flatten_append, List.length_append]
    change _ + (textOf (cb.arrivals s)).length ≤ _
    omega
  stored := by
    rw [hi.outOfOrder]
    exact fun x hx => h.stored x (List.mem_of_mem_drop hx)

theorem ControlBlock.SetAside.accounts (h : Accounts cb unread) (hs : SetAside cb s cb') (hshort : s.data.length < 2 ^ 16) :
    Accounts cb' unread where
  buffer := by rw [hs.receiveBufferSize]; exact h.buffer
  scale := by rw [hs.windowScale]; exact h.scale
  field := by rw [hs.receiveBufferSize, hs.windowScale]; exact h.field
  receiveNext := by rw [hs.receiver]; exact h.receiveNext
  unread_le := by rw [hs.receiveBufferSize]; exact h.unread_le
  queued := by rw [hs.receiver]; exact h.queued
  stored := by
    rcases hs.outOfOrder with hsame | ⟨hpos, hplace⟩
    · rw [hsame]
      exact h.stored
    · obtain ⟨store, hstore, hshaped⟩ := placeSegment_shaped h.stored ⟨hpos, hshort⟩ rfl (Nat.lt_succ_self _)
      rw [hstore] at hplace
      exact Option.some.inj hplace ▸ hshaped

/-- A segment may add to what is unread, but no more than the buffer has room for. -/
theorem ControlBlock.Received.accounts (h : Accounts cb unread) (hroom : RoomFor cb header data) (hd : data.length < 2 ^ 16)
    (hr : Received cb header data cb') : (∃ unread', Accounts cb' unread') ∧
      cb'.receiver.readerNext = cb.receiver.readerNext := by
  cases hr with
  | dropped hm => exact ⟨⟨_, h.sameInbound hm.inbound⟩, hm.inbound.readerNext⟩
  | reset _ _ _ _ _ hin => exact ⟨⟨_, h.sameInbound hin⟩, hin.readerNext⟩
  | setAside hp hack _ hs =>
    refine ⟨⟨_, hs.accounts (h.sameInbound hack.inbound) (h.kept hd hp.kept).parsed.short⟩, ?_⟩
    rw [hs.receiver, hack.inbound.readerNext]
  | inOrder hp hack hstart hi =>
    have hle := h.arrivals_le hroom hd hp hstart
    rw [← hack.arrivals, ← hack.finArrives, ← hack.inbound.receiveBufferSize] at hle
    refine ⟨⟨_, hi.accounts (h.sameInbound hack.inbound) hle⟩, ?_⟩
    rw [hi.readerNext, hack.inbound.readerNext]

/-- A pop moves the right edge of the window by what it takes. -/
theorem pollRecv_accounts (h : Accounts cb unread) : (∃ unread', Accounts cb.pollRecv.2 unread') ∧
    cb.pollRecv.2.receiver.readerNext =
      cb.receiver.readerNext + SeqNumber.ofNat cb.pollRecv.1.toList.flatten.length := by
  unfold pollRecv Receiver.pop
  cases hq : cb.receiver.recvQueue with
  | nil => exact ⟨⟨unread, h⟩, (SeqNumber.add_ofNat_zero _).symm⟩
  | cons buf rest =>
    have hqueued := h.queued
    have hle := h.unread_le
    rw [hq, List.flatten_cons, List.length_append] at hqueued
    refine ⟨⟨unread - buf.length, { h with
      receiveNext := ?_, unread_le := by simp only; omega, queued := by simp only; omega }⟩, ?_⟩
    · simp only [SeqNumber.add_ofNat_add, Nat.add_sub_cancel' (show buf.length ≤ unread by omega)]
      exact h.receiveNext
    · simp

end

end Capybara
