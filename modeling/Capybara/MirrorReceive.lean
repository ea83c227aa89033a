import Capybara.Mirror

namespace Capybara

open Matching

section

variable {base : List TcpSegment} {watching : Prop} {cb cb' : ControlBlock} {env env' : Env}

theorem removeAcknowledgedData_mirrors {queue queue' : List UnackedSegment} (n : Nat)
    (h : queue'.map UnackedSegment.bytes = queue.map UnackedSegment.bytes) :
    Matches (fun _ => True) (fun q q' => q'.map UnackedSegment.bytes = q.map UnackedSegment.bytes)
      (Sender.removeAcknowledgedData queue n) (Sender.removeAcknowledgedData queue' n) := by
  induction queue generalizing queue' n with
  | nil =>
    cases List.map_eq_nil_iff.mp h
    cases n with
    | zero => exact .ret rfl
    | succ n => exact .fail
  | cons segment rest ih =>
    obtain ⟨segment', rest', rfl, hs, hr⟩ := List.map_eq_cons_iff.mp h
    cases n with
    | zero => exact .ret h
    | succ n =>
      simp only [Sender.removeAcknowledgedData, hs]
      refine .ite (fun _ => ?_) fun _ => .ite (fun _ => .ite (fun _ => .ret hr) fun _ => .fail) fun _ => ih _ hr
      refine .bind (.same _) fun bytes _ hb => .ret ?_
      cases hb
      simp [hr]

theorem updateSendWindow_mirrors {s s' : Sender} (h : SenderMirrors watching s s') (header : TcpHeader) :
    Matches (fun _ => True) (SenderMirrors watching) (s.updateSendWindow header) (s'.updateSendWindow header) := by
  simp only [Sender.updateSendWindow, h.sendWindowLastUpdateSeq, h.sendWindowLastUpdateAck, h.windowScale]
  refine .ite (fun _ => .ite (fun _ => .ret ?_) fun _ => .fail) fun _ => .ret h
  exact { h with
    sendWindow := rfl
    sendWindowChanged := fun _ => rfl
    sendWindowLastUpdateSeq := rfl
    sendWindowLastUpdateAck := rfl
    windowScale := rfl }

theorem Mirrors.disableStats (h : Mirrors base watching cb cb') :
    Mirrors base watching cb.disableStats cb'.disableStats :=
  { h with receiver := ⟨h.receiver.readerNext, h.receiver.receiveNext, h.receiver.recvQueue⟩ }

theorem Mirrors.processRst (h : Mirrors base watching cb cb') :
    Mirrors base watching cb.processRst cb'.processRst :=
  { h.disableStats with state := rfl }

theorem processAck_mirrors (h : Mirrors base watching cb cb') (header : TcpHeader) :
    Matches (fun _ => True) (Both (Mirrors base watching)) (cb.processAck header env) (cb'.processAck header env') := by
  simp only [ControlBlock.processAck, h.sender.sendUnacked, h.sender.sendNext]
  refine .ite (fun _ => .ite (fun _ => ?_) fun _ => .ret trivial) fun _ => .ret h
  refine .bind (removeAcknowledgedData_mirrors _ h.sender.unackedQueue) fun queue queue' hq => ?_
  refine .bind (@updateSendWindow_mirrors watching _ _ ?_ header) fun sender sender' hsender => ?_
  · exact { h.sender with unackedQueue := hq, sendUnacked := rfl, sendNext := rfl }
  refine .ite (fun _ => .ret ?_) fun _ => .ret ?_
  · exact { h with sender := hsender, retransmitDeadline := rfl, state := by rw [h.state] }
  · exact { h with sender := hsender, retransmitDeadline := rfl }

theorem storeOutOfOrderSegment_mirrors (h : Mirrors base watching cb cb') (newStart newEnd : SeqNumber)
    (buf : Buffer) :
    MirrorMatches base watching (cb.storeOutOfOrderSegment newStart newEnd buf)
      (cb'.storeOutOfOrderSegment newStart newEnd buf) := by
  simp only [ControlBlock.storeOutOfOrderSegment, h.outOfOrder]
  refine .bind (.same _) fun outOfOrder _ ho => .ret ?_
  cases ho
  exact { h with outOfOrder := rfl }

theorem storeAndAck_mirrors (h : Mirrors base watching cb cb') (he : env.Alike env') (newStart newEnd : SeqNumber)
    (buf : Buffer) (segLen : Nat) :
    MirrorMatches base watching
      (do
        debugAssert (segLen = buf.length % 2 ^ 32)
        let cb ← if segLen > 0 then cb.storeOutOfOrderSegment newStart newEnd buf else some cb
        cb.sendAck false env)
      (do
        debugAssert (segLen = buf.length % 2 ^ 32)
        let cb ← if segLen > 0 then cb'.storeOutOfOrderSegment newStart newEnd buf else some cb'
        cb.sendAck false env') := by
  refine .bind (.same _) fun _ _ _ => ?_
  refine .ite (fun _ => ?_) fun _ => ?_
  · exact .bind (storeOutOfOrderSegment_mirrors h newStart newEnd buf) fun _ _ hs => sendAck_mirrors hs he false
  · exact .bind (.ret h) fun _ _ hs => sendAck_mirrors hs he false

theorem receiveOutOfOrder_mirrors (h : Mirrors base watching cb cb') (he : env.Alike env') (s : Incoming) :
    MirrorMatches base watching (cb.receiveOutOfOrder s env) (cb'.receiveOutOfOrder s env') := by
  simp only [ControlBlock.receiveOutOfOrder, h.state]
  refine .ite (fun _ => ?_) fun _ => .ret h
  by_cases hf : s.header.fin = true
  · have hs : Mirrors base watching (cb.storeOutOfOrderFin s.segEnd) (cb'.storeOutOfOrderFin s.segEnd) :=
      { h with outOfOrderFin := rfl }
    simp only [hf, if_true]
    exact storeAndAck_mirrors hs he _ _ _ _
  · simp only [hf, Bool.false_eq_true, if_false]
    exact storeAndAck_mirrors h he _ _ _ _

theorem ReceiverMirrors.push {r r' : Receiver} (h : ReceiverMirrors r r') (buf : Buffer) :
    ReceiverMirrors (r.push buf) (r'.push buf) := by
  refine ⟨h.readerNext, ?_, ?_⟩
  · simp only [Receiver.push, h.receiveNext]
  · simp only [Receiver.push, h.recvQueue]

theorem drainOutOfOrder_mirrors {store : List (SeqNumber × Buffer)} {recvNext : SeqNumber} {r r' : Receiver}
    {added : Bool} (h : ReceiverMirrors r r') :
    ∃ receiver receiver', ReceiverMirrors receiver receiver' ∧ ∃ store' recvNext' added',
      drainOutOfOrder store recvNext r added = (store', recvNext', receiver, added') ∧
      drainOutOfOrder store recvNext r' added = (store', recvNext', receiver', added') := by
  induction store generalizing recvNext r r' added with
  | nil => exact ⟨r, r', h, [], recvNext, added, rfl, rfl⟩
  | cons entry rest ih =>
    obtain ⟨storedStart, stored⟩ := entry
    simp only [drainOutOfOrder]
    split
    next => exact ih (h.push stored)
    next => exact ⟨r, r', h, _, _, _, rfl, rfl⟩

theorem receiveData_mirrors (h : Mirrors base watching cb cb') (segStart : SeqNumber) (buf : Buffer) :
    Matches (fun _ => True) (fun x x' => x'.1 = x.1 ∧ Mirrors base watching x.2 x'.2)
      (cb.receiveData segStart buf) (cb'.receiveData segStart buf) := by
  simp only [ControlBlock.receiveData, h.receiver.receiveNext, h.outOfOrder, h.outOfOrderFin]
  refine .bind (.same _) fun _ _ _ => ?_
  obtain ⟨receiver, receiver', hr, store, recvNext, added, hd, hd'⟩ :=
    @drainOutOfOrder_mirrors cb.outOfOrder (cb.receiver.receiveNext + SeqNumber.ofNat buf.length)
      (cb.receiver.push buf) (cb'.receiver.push buf) false (h.receiver.push buf)
  rw [hd, hd']
  exact .ret ⟨rfl, { h with outOfOrder := rfl, receiver := hr, outOfOrderFin := rfl }⟩

theorem processFin_mirrors (h : Mirrors base watching cb cb') (he : env.Alike env') :
    MirrorMatches base watching (cb.processFin env) (cb'.processFin env') := by
  have hs : cb'.disableStats.state = cb.disableStats.state := h.state
  simp only [ControlBlock.processFin, hs]
  refine .bind (.same _) fun state _ hstate => ?_
  cases hstate
  refine sendAck_mirrors ?_ he false
  refine { h.disableStats with state := rfl, receiver := ?_ }
  exact ⟨h.receiver.readerNext, by simp only [ControlBlock.disableStats, h.receiver.receiveNext], h.receiver.recvQueue⟩

theorem afterText_mirrors (h : Mirrors base watching cb cb') (he : env.Alike env') (fin shouldScheduleAck : Bool) :
    Matches WindowFits (Mirrors base watching)
      (if fin then cb.processFin env else if shouldScheduleAck then cb.scheduleAck env else some cb)
      (if fin then cb'.processFin env' else if shouldScheduleAck then cb'.scheduleAck env' else some cb') :=
  .ite (fun _ => (processFin_mirrors h he).any) fun _ => .ite (fun _ => scheduleAck_mirrors h) fun _ => .ret h

theorem receiveInOrder_mirrors (h : Mirrors base watching cb cb') (he : env.Alike env') (s : Incoming) :
    Matches WindowFits (Mirrors base watching) (cb.receiveInOrder s env) (cb'.receiveInOrder s env') := by
  simp only [ControlBlock.receiveInOrder, h.state]
  refine .ite (fun _ => ?_) fun _ => afterText_mirrors h he _ _
  refine .bind (receiveData_mirrors h s.segStart s.data) fun x x' hx => ?_
  obtain ⟨hfin, hx⟩ := hx
  rw [hfin]
  exact afterText_mirrors hx he (s.header.fin || x.1) true

theorem trimToWindow_mirrors (h : Mirrors base watching cb cb') (header : TcpHeader) (data : Buffer) :
    cb'.trimToWindow header data = cb.trimToWindow header data := by
  simp only [ControlBlock.trimToWindow, ControlBlock.getReceiveWindowSize, h.receiver.receiveNext,
    h.receiver.readerNext, h.receiveBufferSize]

theorem receiveTrimmed_mirrors (h : Mirrors base watching cb cb') (he : env.Alike env') (s : Incoming)
    (receiveNext : SeqNumber) :
    Matches WindowFits (Mirrors base watching) (cb.receiveTrimmed s receiveNext env)
      (cb'.receiveTrimmed s receiveNext env') := by
  unfold ControlBlock.receiveTrimmed
  refine .ite (fun _ => .ret h.processRst) fun _ => .ite (fun _ => .ret { h with state := rfl }) fun _ =>
    .ite (fun _ => .ret h) fun _ => .bind (processAck_mirrors h s.header) fun x x' hx => ?_
  cases x with
  | none =>
    cases x' with
    | none => exact (sendAck_mirrors h he false).any
    | some cb₁' => exact absurd hx id
  | some cb₁ =>
    cases x' with
    | none => exact absurd hx id
    | some cb₁' =>
      exact .ite (fun _ => (receiveOutOfOrder_mirrors hx he s).any) fun _ => receiveInOrder_mirrors hx he s

theorem receive_mirrors (h : Mirrors base watching cb cb') (he : env.Alike env') (header : TcpHeader) (data : Buffer) :
    Matches WindowFits (Mirrors base watching) (cb.receive header data env) (cb'.receive header data env') := by
  simp only [ControlBlock.receive, trimToWindow_mirrors h, h.receiver.receiveNext]
  refine .bind (.same _) fun trimmed _ ht => ?_
  cases ht
  cases trimmed with
  | none => exact .ite (fun _ => .ret h) fun _ => (sendAck_mirrors h he false).any
  | some s => exact receiveTrimmed_mirrors h he s _

end

end Capybara
