import Capybara.Outbox
import Capybara.SegmentTrim

namespace Capybara

/-- The stored segments that continue text ending before `recvNext` without a gap. -/
def continuation : List (SeqNumber × Buffer) → SeqNumber → List (SeqNumber × Buffer)
  | [], _ => []
  | (start, buf) :: rest, recvNext =>
    if start = recvNext then (start, buf) :: continuation rest (recvNext + SeqNumber.ofNat buf.length) else []

/-- The bytes of a list of segments. -/
def textOf (segments : List (SeqNumber × Buffer)) : Buffer := (segments.map Prod.snd).flatten

@[simp] theorem textOf_nil : textOf [] = [] := rfl

@[simp] theorem textOf_cons (segment : SeqNumber × Buffer) (segments : List (SeqNumber × Buffer)) :
    textOf (segment :: segments) = segment.2 ++ textOf segments := rfl

theorem SeqNumber.add_ofNat_add (a : SeqNumber) (m n : Nat) : a + ofNat m + ofNat n = a + ofNat (m + n) := by
  apply toNat_inj.mp
  simp only [toNat_add_ofNat]
  omega

theorem SeqNumber.add_ofNat_zero (a : SeqNumber) : a + ofNat 0 = a := by
  apply toNat_inj.mp
  have h := a.toNat_lt
  rw [toNat_add_ofNat]
  omega

theorem SeqNumber.sub_self_toNat (a : SeqNumber) : (a - a).toNat = 0 := by
  have ha := a.toNat_lt
  rw [SeqNumber.toNat_sub]
  omega

theorem SeqNumber.add_ofNat_sub {a : SeqNumber} {n : Nat} (h : n < 2 ^ 32) : (a + SeqNumber.ofNat n - a).toNat = n := by
  have ha := a.toNat_lt
  rw [SeqNumber.toNat_sub, SeqNumber.toNat_add_ofNat]
  omega

theorem SeqNumber.add_ofNat_sub_toNat (a b : SeqNumber) : a + SeqNumber.ofNat (b - a).toNat = b := by
  have ha := a.toNat_lt
  have hb := b.toNat_lt
  apply SeqNumber.toNat_inj.mp
  rw [SeqNumber.toNat_add_ofNat, SeqNumber.toNat_sub]
  omega

theorem drainOutOfOrder_eq (store : List (SeqNumber × Buffer)) (recvNext : SeqNumber) (receiver : Receiver)
    (added : Bool) (hr : receiver.receiveNext = recvNext) :
    ∃ receiver', drainOutOfOrder store recvNext receiver added =
        (store.drop (continuation store recvNext).length,
          recvNext + SeqNumber.ofNat (textOf (continuation store recvNext)).length, receiver',
          added || !(continuation store recvNext).isEmpty) ∧
      receiver'.recvQueue = receiver.recvQueue ++ (continuation store recvNext).map Prod.snd ∧
      receiver'.receiveNext = recvNext + SeqNumber.ofNat (textOf (continuation store recvNext)).length ∧
      receiver'.readerNext = receiver.readerNext := by
  induction store generalizing recvNext receiver added with
  | nil =>
    refine ⟨receiver, ?_, by simp [continuation], ?_, rfl⟩
    · simp [drainOutOfOrder, continuation, SeqNumber.add_ofNat_zero]
    · simp [continuation, SeqNumber.add_ofNat_zero, hr]
  | cons segment rest ih =>
    obtain ⟨start, buf⟩ := segment
    by_cases heq : start = recvNext
    · have hpush : (receiver.push buf).receiveNext = recvNext + SeqNumber.ofNat buf.length := by
        rw [← hr]
        rfl
      obtain ⟨receiver', hdrain, hqueue, hnext, hreader⟩ :=
        ih (recvNext + SeqNumber.ofNat buf.length) (receiver.push buf) true hpush
      rw [SeqNumber.add_ofNat_add, ← List.length_append] at hdrain hnext
      refine ⟨receiver', ?_, ?_, ?_, hreader⟩
      · rw [drainOutOfOrder, if_pos heq, hdrain, continuation, if_pos heq]
        simp
      · rw [hqueue, continuation, if_pos heq]
        simp [Receiver.push]
      · rw [hnext, continuation, if_pos heq]
        rfl
    · refine ⟨receiver, ?_, ?_, ?_, rfl⟩
      · rw [drainOutOfOrder, if_neg heq, continuation, if_neg heq]
        simp [SeqNumber.add_ofNat_zero]
      · simp [continuation, heq]
      · simp [continuation, heq, SeqNumber.add_ofNat_zero, hr]

namespace ControlBlock

/-- The text that a segment at RCV.NXT brings in order: its own and that of the stored segments that continue it. -/
def arrivals (cb : ControlBlock) (s : Incoming) : List (SeqNumber × Buffer) :=
  if s.data ≠ [] ∧ canReceiveData cb.state = true then
    (cb.receiver.receiveNext, s.data) ::
      continuation cb.outOfOrder (cb.receiver.receiveNext + SeqNumber.ofNat s.data.length)
  else []

/-- Whether a FIN is consumed with that text. -/
def finArrives (cb : ControlBlock) (s : Incoming) : Bool :=
  s.header.fin || (decide (1 < (cb.arrivals s).length) &&
    cb.outOfOrderFin == some (cb.receiver.receiveNext + SeqNumber.ofNat (textOf (cb.arrivals s)).length))

/-- What a segment at RCV.NXT does to the receiving side. -/
structure InOrder (cb : ControlBlock) (s : Incoming) (cb' : ControlBlock) : Prop where
  emitted : Emits cb cb' none
  sender : cb'.sender = cb.sender
  recvQueue : cb'.receiver.recvQueue = cb.receiver.recvQueue ++ (cb.arrivals s).map Prod.snd
  receiveNext : cb'.receiver.receiveNext = cb.receiver.receiveNext +
    SeqNumber.ofNat ((textOf (cb.arrivals s)).length + (cb.finArrives s).toNat)
  readerNext : cb'.receiver.readerNext = cb.receiver.readerNext
  outOfOrder : cb'.outOfOrder = cb.outOfOrder.drop ((cb.arrivals s).length - 1)
  outOfOrderFin : cb'.outOfOrderFin = cb.outOfOrderFin
  receiveBufferSize : cb'.receiveBufferSize = cb.receiveBufferSize
  windowScale : cb'.windowScale = cb.windowScale
  done : cb'.userIsDoneSending = cb.userIsDoneSending
  state : if cb.finArrives s = true then stateAfterPeerFin cb.state = some cb'.state else cb'.state = cb.state

/-- The text part of `receiveInOrder`. -/
def takeText (cb : ControlBlock) (s : Incoming) : Option (Bool × Bool × ControlBlock) :=
  if !s.data.isEmpty ∧ canReceiveData cb.state then do
    let (fin, cb) ← cb.receiveData s.segStart s.data
    some (true, s.header.fin || fin, cb)
  else some (false, s.header.fin, cb)

/-- The text part never fails for a segment at RCV.NXT. -/
theorem takeText_eq {cb : ControlBlock} {s : Incoming} (hs : s.segStart = cb.receiver.receiveNext) :
    ∃ receiver, cb.takeText s = some (!(cb.arrivals s).isEmpty, cb.finArrives s,
        { cb with outOfOrder := cb.outOfOrder.drop ((cb.arrivals s).length - 1), receiver := receiver }) ∧
      receiver.recvQueue = cb.receiver.recvQueue ++ (cb.arrivals s).map Prod.snd ∧
      receiver.receiveNext = cb.receiver.receiveNext + SeqNumber.ofNat (textOf (cb.arrivals s)).length ∧
      receiver.readerNext = cb.receiver.readerNext := by
  by_cases htext : s.data ≠ [] ∧ canReceiveData cb.state = true
  · have hcond : (!s.data.isEmpty) = true ∧ canReceiveData cb.state = true := by simpa using htext
    have hpush : (cb.receiver.push s.data).receiveNext =
        cb.receiver.receiveNext + SeqNumber.ofNat s.data.length := rfl
    obtain ⟨receiver, hdrain, hqueue, hnext, hreader⟩ := drainOutOfOrder_eq cb.outOfOrder _ _ false hpush
    rw [SeqNumber.add_ofNat_add, ← List.length_append] at hdrain hnext
    refine ⟨receiver, ?_, ?_, ?_, hreader⟩
    · rw [takeText, if_pos hcond]
      simp only [receiveData, hs, debugAssert, decide_true, if_true, Option.bind_eq_bind, Option.bind_some, hdrain,
        arrivals, if_pos htext, finArrives]
      cases continuation cb.outOfOrder (cb.receiver.receiveNext + SeqNumber.ofNat s.data.length) <;> simp
    · rw [hqueue, arrivals, if_pos htext]
      simp [Receiver.push]
    · rw [hnext, arrivals, if_pos htext]
      rfl
  · have hcond : ¬((!s.data.isEmpty) = true ∧ canReceiveData cb.state = true) := by simpa using htext
    refine ⟨cb.receiver, ?_, ?_, ?_, rfl⟩
    · rw [takeText, if_neg hcond]
      simp [arrivals, if_neg htext, finArrives]
    · simp [arrivals, if_neg htext]
    · simp [arrivals, if_neg htext, SeqNumber.add_ofNat_zero]

theorem receiveInOrder_eq (cb : ControlBlock) (s : Incoming) (env : Env) :
    cb.receiveInOrder s env = (cb.takeText s).bind fun (shouldScheduleAck, fin, cb) =>
      if fin then cb.processFin env else if shouldScheduleAck then cb.scheduleAck env else some cb := by
  unfold receiveInOrder takeText
  split
  · simp only [Option.bind_eq_bind, Option.bind_assoc, Option.bind_some]
  · rfl

section

variable {cb cb' cb₁ : ControlBlock} {s : Incoming} {env : Env}

theorem scheduleAck_core (h : cb.scheduleAck env = some cb') : SameCore cb cb' ∧ Moves cb cb' none cb.sender.outbox := by
  unfold scheduleAck at h
  split at h
  next =>
    cases h
    exact ⟨⟨rfl, rfl, rfl, rfl, rfl, rfl, rfl⟩, (Moves.refl cb).finish (.timers cb _ cb.retransmitDeadline) rfl⟩
  next =>
    obtain ⟨h₁, h₂, h₃, h₄, h₅, h₆, h₇⟩ := sendAck_core h
    refine ⟨⟨h₁, h₂, h₃, h₄, h₅, h₆, h₇⟩, ?_⟩
    exact (sendAck_moves h).precede (.timers cb none cb.retransmitDeadline)

/-- The receiving side after the text, and after the FIN if there is one, before anything is sent. -/
def afterFin (cb : ControlBlock) (state : State) : ControlBlock :=
  { cb.disableStats with
    state := state
    receiver := { cb.disableStats.receiver with
      receiveNext := cb.receiver.receiveNext + SeqNumber.ofNat 1 } }

theorem processFin_cases (h : cb.processFin env = some cb') :
    ∃ state, stateAfterPeerFin cb.state = some state ∧ (cb.afterFin state).sendAck false env = some cb' :=
  Option.bind_eq_some_iff.mp h

theorem receiveInOrder_cases (hs : s.segStart = cb.receiver.receiveNext) (h : cb.receiveInOrder s env = some cb') :
    InOrder cb s cb' := by
  obtain ⟨receiver, htext, hqueue, hnext, hreader⟩ := takeText_eq hs
  rw [receiveInOrder_eq, htext, Option.bind_some] at h
  dsimp only at h
  cases hfin : cb.finArrives s with
  | true =>
    rw [if_pos hfin] at h
    obtain ⟨state, hstate, h⟩ := processFin_cases h
    have hc := sendAck_core h
    have hm := sendAck_moves h
    refine ⟨hm.emitted, hc.sender, ?_, ?_, ?_, hc.outOfOrder, hc.outOfOrderFin, hc.receiveBufferSize, hc.windowScale,
      hm.done, ?_⟩
    · rw [hc.receiver]
      exact hqueue
    · rw [hc.receiver, hfin, Bool.toNat_true, ← SeqNumber.add_ofNat_add, ← hnext]
      rfl
    · rw [hc.receiver]
      exact hreader
    · rw [hfin, if_pos rfl, hc.state]
      exact hstate
  | false =>
    rw [if_neg (by simp [hfin])] at h
    obtain ⟨hc, hm⟩ : SameCore { cb with
        outOfOrder := cb.outOfOrder.drop ((cb.arrivals s).length - 1), receiver := receiver } cb' ∧
        Moves { cb with outOfOrder := cb.outOfOrder.drop ((cb.arrivals s).length - 1), receiver := receiver } cb' none
          cb.sender.outbox := by
      split at h
      · exact scheduleAck_core h
      · cases h
        exact ⟨⟨rfl, rfl, rfl, rfl, rfl, rfl, rfl⟩, .refl _⟩
    refine ⟨hm.emitted, hc.sender, ?_, ?_, ?_, hc.outOfOrder, hc.outOfOrderFin, hc.receiveBufferSize, hc.windowScale,
      hm.done, ?_⟩
    · rw [hc.receiver]
      exact hqueue
    · rw [hc.receiver, hfin, Bool.toNat_false, Nat.add_zero]
      exact hnext
    · rw [hc.receiver]
      exact hreader
    · rw [hfin, if_neg (by simp), hc.state]

/-- What a segment after RCV.NXT does to the receiving side. -/
structure SetAside (cb : ControlBlock) (s : Incoming) (cb' : ControlBlock) : Prop where
  emitted : Emits cb cb' none
  sender : cb'.sender = cb.sender
  state : cb'.state = cb.state
  receiver : cb'.receiver = cb.receiver
  receiveBufferSize : cb'.receiveBufferSize = cb.receiveBufferSize
  windowScale : cb'.windowScale = cb.windowScale
  done : cb'.userIsDoneSending = cb.userIsDoneSending
  outOfOrder : cb'.outOfOrder = cb.outOfOrder ∨ (0 < s.data.length ∧
    placeSegment (cb.outOfOrder.length + 1) cb.outOfOrder s.segStart
      (s.segStart + SeqNumber.ofNat (s.data.length - 1)) s.data = some cb'.outOfOrder)

theorem SetAside.refl (cb : ControlBlock) (s : Incoming) : SetAside cb s cb :=
  ⟨.nothing rfl, rfl, rfl, rfl, rfl, rfl, rfl, .inl rfl⟩

/-- The last byte of a segment, with its FIN cut off. -/
theorem Parsed.lastByte (hp : Parsed s) (hsyn : s.header.syn = false) (hpos : 0 < s.data.length) :
    (if s.header.fin = true then s.segEnd - SeqNumber.ofNat 1 else s.segEnd) =
      s.segStart + SeqNumber.ofNat (s.data.length - 1) := by
  have hlen := hp.segLen
  have hshort := hp.short
  have hend := hp.segEnd (by omega)
  rw [hsyn, Bool.toNat_false] at hlen
  cases hf : s.header.fin with
  | true =>
    rw [hf, Bool.toNat_true] at hlen
    rw [if_pos rfl, hend]
    apply SeqNumber.toNat_inj.mp
    simp only [SeqNumber.toNat_sub, SeqNumber.toNat_add_ofNat, SeqNumber.toNat_ofNat]
    omega
  | false =>
    rw [hf, Bool.toNat_false] at hlen
    rw [if_neg (by simp), hend, hlen]
    rfl

/-- The storing part of `receiveOutOfOrder`, for a segment whose length was computed right. -/
theorem receiveOutOfOrder_eq (hp : Parsed s) (hsyn : s.header.syn = false) :
    cb.receiveOutOfOrder s env =
      if 0 < s.segLen ∧ canReceiveData cb.state = true then
        let cb := if s.header.fin then cb.storeOutOfOrderFin s.segEnd else cb
        (if 0 < s.data.length then
          cb.storeOutOfOrderSegment s.segStart (s.segStart + SeqNumber.ofNat (s.data.length - 1)) s.data
        else some cb).bind fun cb => cb.sendAck false env
      else some cb := by
  have hlen := hp.segLen
  have hshort := hp.short
  have hmod : s.data.length % 2 ^ 32 = s.data.length := Nat.mod_eq_of_lt (by omega)
  have hlast := hp.lastByte hsyn
  rw [hsyn, Bool.toNat_false] at hlen
  unfold receiveOutOfOrder
  split
  next =>
    cases hf : s.header.fin with
    | true =>
      rw [hf, Bool.toNat_true] at hlen
      have hdata : s.segLen - 1 = s.data.length := by omega
      rw [hf, if_pos rfl] at hlast
      simp only [if_true, hdata, debugAssert, hmod, decide_true, Option.bind_eq_bind, Option.bind_some, gt_iff_lt]
      by_cases hpos : 0 < s.data.length
      · simp only [hpos, if_true, hlast hpos]
      · simp only [hpos, if_false, Option.bind_some]
    | false =>
      rw [hf, Bool.toNat_false] at hlen
      have hdata : s.segLen = s.data.length := by omega
      rw [hf, if_neg (by simp)] at hlast
      simp only [Bool.false_eq_true, if_false, hdata, debugAssert, hmod, decide_true, if_true, Option.bind_eq_bind,
        Option.bind_some, gt_iff_lt]
      by_cases hpos : 0 < s.data.length
      · simp only [hpos, if_true, hlast hpos]
      · simp only [hpos, if_false, Option.bind_some]
  next hno => rfl

theorem receiveOutOfOrder_cases (hp : Parsed s) (hsyn : s.header.syn = false)
    (h : cb.receiveOutOfOrder s env = some cb') : SetAside cb s cb' := by
  rw [receiveOutOfOrder_eq hp hsyn] at h
  split at h
  next =>
    obtain ⟨cb₁, hstore, h⟩ := Option.bind_eq_some_iff.mp h
    have hc := sendAck_core h
    have hm := sendAck_moves h
    have hstored : ∃ fin store, cb₁ = { cb with outOfOrderFin := fin, outOfOrder := store } ∧
        (store = cb.outOfOrder ∨ (0 < s.data.length ∧ placeSegment (cb.outOfOrder.length + 1) cb.outOfOrder s.segStart
          (s.segStart + SeqNumber.ofNat (s.data.length - 1)) s.data = some store)) := by
      split at hstore
      next hpos =>
        obtain ⟨store, hplace, hstore⟩ := Option.bind_eq_some_iff.mp hstore
        refine ⟨if s.header.fin then some s.segEnd else cb.outOfOrderFin, store, ?_, .inr ⟨hpos, ?_⟩⟩
        · rw [← Option.some.inj hstore]
          split <;> rfl
        · split at hplace <;> exact hplace
      next =>
        refine ⟨if s.header.fin then some s.segEnd else cb.outOfOrderFin, cb.outOfOrder, ?_, .inl rfl⟩
        rw [← Option.some.inj hstore]
        split <;> rfl
    obtain ⟨fin, store, rfl, hplace⟩ := hstored
    refine ⟨hm.emitted, hc.sender, hc.state, hc.receiver, hc.receiveBufferSize, hc.windowScale, hm.done, ?_⟩
    rw [hc.outOfOrder]
    exact hplace
  next =>
    cases h
    exact .refl cb s

/-- Whether the ACK number of a segment lets its text through. -/
def AckAllows (cb : ControlBlock) (header : TcpHeader) : Prop :=
  cb.sender.sendUnacked.lt header.ackNum = true → header.ackNum.le cb.sender.sendNext = true

instance (cb : ControlBlock) (header : TcpHeader) : Decidable (AckAllows cb header) :=
  inferInstanceAs (Decidable (_ → _))

/-- What an ACK number that lets the text through does to the sending side. -/
structure AckTakes (cb : ControlBlock) (header : TcpHeader) (cb₁ : ControlBlock) : Prop where
  rt : cb₁.rt = cb.rt
  inbound : SameInbound cb cb₁
  done : cb₁.userIsDoneSending = cb.userIsDoneSending
  windowScale : cb₁.sender.windowScale = cb.sender.windowScale
  mss : cb₁.sender.mss = cb.sender.mss
  sendNext : cb₁.sender.sendNext = cb.sender.sendNext
  unsentQueue : cb₁.sender.unsentQueue = cb.sender.unsentQueue
  unsentSeqNo : cb₁.sender.unsentSeqNo = cb.sender.unsentSeqNo
  sendWindow : cb.sender.windowScale.toNat < 16 → cb.sender.sendWindow.toNat < 2 ^ 31 →
    cb₁.sender.sendWindow.toNat < 2 ^ 31
  quiet : cb₁.sender.sendWindowChanged = true ∨ cb₁.sender.sendWindow = cb.sender.sendWindow
  acked : (cb.sender.sendUnacked.lt header.ackNum = false ∧ cb₁ = cb) ∨
    (cb.sender.sendUnacked.lt header.ackNum = true ∧ header.ackNum.le cb.sender.sendNext = true ∧
      cb₁.sender.sendUnacked = header.ackNum ∧
      Sender.removeAcknowledgedData cb.sender.unackedQueue (header.ackNum - cb.sender.sendUnacked).toNat =
        some cb₁.sender.unackedQueue ∧
      cb₁.state = if header.ackNum = cb.sender.sendNext then stateAfterAck cb.state else cb.state)

theorem updateSendWindow_cases {s s' : Sender} {header : TcpHeader} (h : s.updateSendWindow header = some s') :
    s'.outbox = s.outbox ∧ s'.unackedQueue = s.unackedQueue ∧ s'.windowScale = s.windowScale ∧ s'.mss = s.mss ∧
      (s.windowScale.toNat < 16 → s.sendWindow.toNat < 2 ^ 31 → s'.sendWindow.toNat < 2 ^ 31) ∧
      (s'.sendWindowChanged = true ∨ s'.sendWindow = s.sendWindow) := by
  unfold Sender.updateSendWindow at h
  split at h
  next =>
    split at h
    next =>
      cases h
      refine ⟨rfl, rfl, rfl, rfl, fun hscale _ => ?_, .inl rfl⟩
      have hpow : 2 ^ s.windowScale.toNat ≤ 2 ^ 15 := Nat.pow_le_pow_right (by omega) (by omega)
      have hsize := header.windowSize.toNat_lt
      have hprod : header.windowSize.toNat * 2 ^ s.windowScale.toNat ≤ (2 ^ 16 - 1) * 2 ^ 15 :=
        Nat.mul_le_mul (by omega) hpow
      rw [UInt32.toNat_ofNat', Nat.mod_eq_of_lt (by omega)]
      omega
    next => cases h
  next =>
    cases h
    exact ⟨rfl, rfl, rfl, rfl, fun _ hw => hw, .inr rfl⟩

theorem processAck_cases {header : TcpHeader} {result : Option ControlBlock} (h : cb.processAck header env = some result) :
    (result = none ∧ ¬AckAllows cb header) ∨
      ∃ cb₁, result = some cb₁ ∧ AckAllows cb header ∧ AckTakes cb header cb₁ := by
  unfold processAck at h
  dsimp only at h
  split at h
  next hnew =>
    split at h
    next hsent =>
      obtain ⟨queue, hqueue, h⟩ := Option.bind_eq_some_iff.mp h
      obtain ⟨sender, hwin, h⟩ := Option.bind_eq_some_iff.mp h
      obtain ⟨hout, hunacked, hscale, hmss, hwindow, hquiet⟩ := updateSendWindow_cases hwin
      have hstate : ∃ cb₁, result = some cb₁ ∧ cb₁.sender = sender ∧ cb₁.rt = cb.rt ∧ SameInbound cb cb₁ ∧
          cb₁.userIsDoneSending = cb.userIsDoneSending ∧
          cb₁.state = if header.ackNum = cb.sender.sendNext then stateAfterAck cb.state else cb.state := by
        split at h
        next hall =>
          cases h
          exact ⟨_, rfl, rfl, rfl, ⟨rfl, rfl, rfl, rfl, rfl, rfl, rfl⟩, rfl, by rw [if_pos hall]⟩
        next hpart =>
          cases h
          exact ⟨_, rfl, rfl, rfl, ⟨rfl, rfl, rfl, rfl, rfl, rfl, rfl⟩, rfl, by rw [if_neg hpart]⟩
      obtain ⟨cb₁, rfl, rfl, hrt, hin, hdone, hstate⟩ := hstate
      simp only [Sender.outbox, Outbox.mk.injEq] at hout
      obtain ⟨hack, -, hnext, hunsent, hno⟩ := hout
      refine .inr ⟨cb₁, rfl, fun _ => hsent, hrt, hin, hdone, hscale, hmss, hnext, hunsent, hno, hwindow, hquiet, .inr ?_⟩
      exact ⟨hnew, hsent, hack, by rw [hunacked]; exact hqueue, hstate⟩
    next hbeyond =>
      cases h
      exact .inl ⟨rfl, fun ha => hbeyond (ha hnew)⟩
  next hold =>
    cases h
    refine .inr ⟨cb, rfl, fun ha => absurd ha hold, rfl, .refl cb, rfl, rfl, rfl, rfl, rfl, rfl, fun _ hw => hw,
      .inr rfl, .inl ?_⟩
    exact ⟨by simpa using hold, rfl⟩

/-- A segment inside the window whose ACK number lets its text through. -/
structure Processed (cb : ControlBlock) (header : TcpHeader) (data : Buffer) (s : Incoming) : Prop where
  kept : cb.trimToWindow header data = some (some s)
  noRst : s.header.rst = false
  noSyn : s.header.syn = false
  ack : s.header.ack = true
  allows : AckAllows cb s.header

/-- What `receive` does: the segment is dropped, perhaps with an ACK, or it resets the connection, or its ACK number
is processed and then its text and FIN. -/
inductive Received (cb : ControlBlock) (header : TcpHeader) (data : Buffer) (cb' : ControlBlock) : Prop
  | dropped (hm : Moves cb cb' none cb.sender.outbox) (hc : SameCore cb cb')
  | reset {s : Incoming} (hkept : cb.trimToWindow header data = some (some s))
      (hflag : s.header.rst = true ∨ s.header.syn = true) (hstate : cb'.state = .closed) (hsender : cb'.sender = cb.sender)
      (hrt : cb'.rt = cb.rt) (hin : SameInbound cb cb') (hdone : cb'.userIsDoneSending = cb.userIsDoneSending)
  | setAside {s : Incoming} {cb₁ : ControlBlock} (hp : Processed cb header data s) (hack : AckTakes cb s.header cb₁)
      (hstart : s.segStart ≠ cb.receiver.receiveNext) (h : SetAside cb₁ s cb')
  | inOrder {s : Incoming} {cb₁ : ControlBlock} (hp : Processed cb header data s) (hack : AckTakes cb s.header cb₁)
      (hstart : s.segStart = cb.receiver.receiveNext) (h : InOrder cb₁ s cb')

/-- Receiving sends nothing but ACKs. -/
theorem Received.emits {header : TcpHeader} {data : Buffer} (h : Received cb header data cb') : Emits cb cb' none := by
  cases h with
  | dropped hm => exact hm.emitted
  | reset _ _ _ _ hrt => exact .nothing hrt
  | setAside _ hack _ hs => exact hs.emitted.congr hack.rt
  | inOrder _ hack _ hi => exact hi.emitted.congr hack.rt

theorem sendAck_dropped {header : TcpHeader} {data : Buffer} {delayed : Bool} (h : cb.sendAck delayed env = some cb') :
    Received cb header data cb' :=
  .dropped (sendAck_moves h) (sendAck_core h)

theorem receive_cases {header : TcpHeader} {data : Buffer} (hparsed : ∀ s, cb.trimToWindow header data = some (some s) → Parsed s)
    (h : cb.receive header data env = some cb') : Received cb header data cb' := by
  obtain ⟨t, ht, h⟩ := Option.bind_eq_some_iff.mp h
  have hsame : Received cb header data cb := .dropped (.refl cb) ⟨rfl, rfl, rfl, rfl, rfl, rfl, rfl⟩
  cases t with
  | none =>
    dsimp only at h
    split at h
    · cases h
      exact hsame
    · exact sendAck_dropped h
  | some s =>
    simp only [receiveTrimmed] at h
    split at h
    next hrst =>
      cases h
      exact .reset ht (.inl hrst) rfl rfl rfl ⟨rfl, rfl, rfl, rfl, rfl, rfl, rfl⟩ rfl
    next hrst =>
      split at h
      next hsyn =>
        cases h
        exact .reset ht (.inr hsyn) rfl rfl rfl ⟨rfl, rfl, rfl, rfl, rfl, rfl, rfl⟩ rfl
      next hsyn =>
        split at h
        next =>
          cases h
          exact hsame
        next hack =>
          obtain ⟨taken, htaken, h⟩ := Option.bind_eq_some_iff.mp h
          rcases processAck_cases htaken with ⟨rfl, -⟩ | ⟨cb₁, rfl, hallows, hacked⟩
          · exact sendAck_dropped h
          · have hp : Processed cb header data s :=
              ⟨ht, by simpa using hrst, by simpa using hsyn, by simpa using hack, hallows⟩
            dsimp only at h
            split at h
            next hne => exact .setAside hp hacked hne (receiveOutOfOrder_cases (hparsed s ht) hp.noSyn h)
            next heq =>
              have hstart : s.segStart = cb.receiver.receiveNext := by simpa using heq
              refine .inOrder hp hacked hstart (receiveInOrder_cases ?_ h)
              rw [hstart, hacked.inbound.receiveNext]

end

end ControlBlock

end Capybara
