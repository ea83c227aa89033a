import Capybara.SocketSteps

namespace Capybara

open ControlBlock

theorem sequenceLength_pos (buf : Buffer) : 0 < sequenceLength buf := by
  unfold sequenceLength
  split <;> omega

theorem length_le_sequenceLength (buf : Buffer) : buf.length ≤ sequenceLength buf := by
  unfold sequenceLength
  split <;> omega

@[simp] theorem sequenceLength_nil : sequenceLength [] = 1 := rfl

theorem sequenceLength_of_ne {buf : Buffer} (h : buf ≠ []) : sequenceLength buf = buf.length := by
  rw [sequenceLength, if_neg (by simpa using h)]

@[simp] theorem seqTotal_nil : seqTotal [] = 0 := rfl

@[simp] theorem seqTotal_cons (buf : Buffer) (bufs : List Buffer) :
    seqTotal (buf :: bufs) = sequenceLength buf + seqTotal bufs := rfl

@[simp] theorem seqTotal_append (bufs bufs' : List Buffer) :
    seqTotal (bufs ++ bufs') = seqTotal bufs + seqTotal bufs' := by
  simp [seqTotal]

theorem seqTotal_pos {bufs : List Buffer} (h : bufs ≠ []) : 0 < seqTotal bufs := by
  cases bufs with
  | nil => exact absurd rfl h
  | cons buf bufs =>
    have hpos := sequenceLength_pos buf
    rw [seqTotal_cons]
    omega

/-- Removing acknowledged data shortens the queue by the sequence numbers acknowledged. -/
theorem removeAcknowledgedData_total {queue queue' : List UnackedSegment} {n : Nat}
    (h : Sender.removeAcknowledgedData queue n = some queue') :
    n + seqTotal (queue'.map UnackedSegment.bytes) = seqTotal (queue.map UnackedSegment.bytes) := by
  fun_induction Sender.removeAcknowledgedData queue n with
  | case1 queue =>
    cases h
    exact Nat.zero_add _
  | case2 => cases h
  | case3 segment queue n hlong =>
    have hkeep : adjust segment.bytes (n + 1) = some (segment.bytes.drop (n + 1)) := adjust_of_le (by omega)
    simp only [hkeep, Option.bind_eq_bind, Option.bind_some, Option.some.injEq] at h
    subst h
    have hlen : (segment.bytes.drop (n + 1)).length = segment.bytes.length - (n + 1) := List.length_drop
    simp only [List.map_cons, seqTotal_cons, sequenceLength, hlen]
    split <;> split <;> omega
  | case4 segment queue n hlong hempty hlast =>
    cases h
    rw [List.map_cons, seqTotal_cons, List.eq_nil_of_length_eq_zero hempty, sequenceLength_nil]
    omega
  | case5 => cases h
  | case6 segment queue n hlong hne ih =>
    have hrest := ih h
    rw [List.map_cons, seqTotal_cons, sequenceLength, if_neg hne]
    omega

/-- It fails only where an end-of-send marker is not the last thing acknowledged, or nothing is left. -/
theorem removeAcknowledgedData_isSome {queue : List UnackedSegment} {n : Nat}
    (hn : n ≤ seqTotal (queue.map UnackedSegment.bytes))
    (hm : ∀ front back, queue.map UnackedSegment.bytes = front ++ [] :: back → n ≤ seqTotal front + 1) :
    ∃ queue', Sender.removeAcknowledgedData queue n = some queue' := by
  fun_induction Sender.removeAcknowledgedData queue n with
  | case1 queue => exact ⟨_, rfl⟩
  | case2 n => simp at hn
  | case3 segment queue n hlong =>
    have hkeep : adjust segment.bytes (n + 1) = some (segment.bytes.drop (n + 1)) := adjust_of_le (by omega)
    exact ⟨_, by rw [hkeep]; rfl⟩
  | case4 => exact ⟨_, rfl⟩
  | case5 segment queue n hlong hempty hlast =>
    have hone := hm [] (queue.map UnackedSegment.bytes) (by simp [List.eq_nil_of_length_eq_zero hempty])
    simp only [seqTotal_nil] at hone
    omega
  | case6 segment queue n hlong hne ih =>
    rw [List.map_cons, seqTotal_cons, sequenceLength, if_neg hne] at hn
    refine ih (by omega) fun front back heq => ?_
    have hbeyond := hm (segment.bytes :: front) back (by rw [List.map_cons, heq]; rfl)
    rw [seqTotal_cons, sequenceLength, if_neg hne] at hbeyond
    omega

/-- SND.NXT counts what is on its way. -/
def Outbox.Counts (o : Outbox) : Prop := o.sendNext = o.sendUnacked + SeqNumber.ofNat (seqTotal o.inFlight)

def Awaiting.sendNext : Awaiting → SeqNumber
  | .probe sendNext => sendNext
  | .segment sendNext _ _ _ => sendNext

/-- How many window probes can go out before something new is acknowledged: the sender leaves its probing only when
the window is set, and only an ACK of something new sets it. -/
def EstablishedSocket.credit (s : EstablishedSocket) : Nat :=
  match s.sender with
  | .top | .awaiting (.probe _) => 1
  | .awaiting (.segment _ _ _ _) | .probing _ _ _ => 0

/-- SND.NXT counts what is on its way, the window of the peer is a window field shifted by its scale, and a sender that
probes waits for that window to be set. -/
structure Coherent (s : EstablishedSocket) : Prop where
  counts : s.cb.sender.outbox.Counts
  window : s.cb.sender.sendWindow.toNat < 2 ^ 31
  scale : s.cb.sender.windowScale.toNat < 16
  oneByte : ProbesOneByte s
  watched : ∀ buf sendNext mac, s.sender = .probing buf sendNext mac → s.cb.sender.sendWindowChanged = false

/-- What is on its way fits half the sequence space, also with a segment whose room was computed before the sender had
to wait for the link address. -/
structure WithinHalf (s : EstablishedSocket) : Prop where
  bounded : seqTotal s.cb.sender.outbox.inFlight + s.credit ≤ 2 ^ 31 + 1
  room : ∀ sendNext winSz sentData effectiveCwnd, s.sender = .awaiting (.segment sendNext winSz sentData effectiveCwnd) →
    s.cb.sender.unsentQueue ≠ [] ∧ seqTotal s.cb.sender.outbox.inFlight ≤ sentData ∧ sentData < winSz ∧
      sentData < effectiveCwnd ∧ winSz < 2 ^ 31

/-- The unsent sequence number counts the text that waits until the user is done, and SND.NXT stays what a waiting
sender has read. -/
structure Numbered (s : EstablishedSocket) : Prop where
  unsent : s.cb.userIsDoneSending = false →
    s.cb.sender.unsentSeqNo = s.cb.sender.sendNext + SeqNumber.ofNat s.cb.sender.unsentQueue.flatten.length
  awaits : ∀ awaiting, s.sender = .awaiting awaiting → awaiting.sendNext = s.cb.sender.sendNext ∧
    (s.cb.userIsDoneSending = false → s.cb.sender.unsentQueue ≠ [])

structure InFlight (s : EstablishedSocket) : Prop extends Coherent s, WithinHalf s, Numbered s

section

variable {s s' : EstablishedSocket} {cb cb' cb₁ : ControlBlock} {header : TcpHeader} {data buf : Buffer} {env : Env}
  {sent : Option (SeqNumber × Buffer)} {o : Outbox} {awaiting : Awaiting} {r r' : SocketRun} {e : SocketEvent}

theorem Outbox.Counts.send (h : o.Counts) (buf : Buffer) : (o.send buf).Counts := by
  rw [Outbox.Counts] at h
  simp only [Outbox.Counts, Outbox.send, h, seqTotal_append, seqTotal_cons, seqTotal_nil, Nat.add_zero,
    SeqNumber.add_ofNat_add]

theorem Outbox.Counts.outstanding (h : o.Counts) (hb : seqTotal o.inFlight < 2 ^ 32) :
    (o.sendNext - o.sendUnacked).toNat = seqTotal o.inFlight := by
  have hu := o.sendUnacked.toNat_lt
  rw [h]
  simp only [SeqNumber.toNat_sub, SeqNumber.toNat_add_ofNat]
  omega

theorem WithinHalf.lt (h : WithinHalf s) : seqTotal s.cb.sender.outbox.inFlight < 2 ^ 32 := by
  have hb := h.bounded
  omega

theorem InFlight.outstanding (h : InFlight s) :
    (s.cb.sender.sendNext - s.cb.sender.sendUnacked).toNat = seqTotal s.cb.sender.outbox.inFlight :=
  h.counts.outstanding h.toWithinHalf.lt

theorem credit_le (s : EstablishedSocket) : s.credit ≤ 1 := by
  unfold EstablishedSocket.credit
  split <;> omega

theorem taskAfter_top (h : s.sender = .top) (cb : ControlBlock) : s.taskAfter cb = .top := by
  rw [EstablishedSocket.taskAfter, h]

theorem taskAfter_awaiting (h : s.sender = .awaiting awaiting) (cb : ControlBlock) :
    s.taskAfter cb = .awaiting awaiting := by
  rw [EstablishedSocket.taskAfter, h]

/-- A segment leaves the sender where it is, unless the sender probes and the window is set. -/
theorem taskAfter_cases (s : EstablishedSocket) (cb : ControlBlock) :
    s.taskAfter cb = s.sender ∧
        (∀ buf sendNext mac, s.sender = .probing buf sendNext mac → cb.sender.sendWindowChanged = false) ∨
      s.taskAfter cb = .top ∧ (∃ buf sendNext mac, s.sender = .probing buf sendNext mac) ∧
        cb.sender.sendWindowChanged = true := by
  cases hs : s.sender with
  | top => exact .inl ⟨taskAfter_top hs cb, fun _ _ _ hp => by cases hp⟩
  | awaiting awaiting => exact .inl ⟨taskAfter_awaiting hs cb, fun _ _ _ hp => by cases hp⟩
  | probing buf sendNext mac =>
    cases hset : cb.sender.sendWindowChanged with
    | false => exact .inl ⟨by simp [EstablishedSocket.taskAfter, hs, hset], fun _ _ _ _ => rfl⟩
    | true => exact .inr ⟨by simp [EstablishedSocket.taskAfter, hs, hset], ⟨buf, sendNext, mac, rfl⟩, rfl⟩

/-- The block after a push or a close is the block after `send`, but for the note that the user is done. -/
structure SameButDone (cb cb' : ControlBlock) : Prop where
  rt : cb'.rt = cb.rt
  sender : cb'.sender = cb.sender
  state : cb'.state = cb.state
  inbound : SameInbound cb cb'

theorem Handed.same (h : Handed cb e buf cb') : SameButDone cb cb' := by
  cases h with
  | push => exact ⟨rfl, rfl, rfl, .refl _⟩
  | close => exact ⟨rfl, rfl, rfl, ⟨rfl, rfl, rfl, rfl, rfl, rfl, rfl⟩⟩

theorem Handed.event (h : Handed cb e buf cb') :
    (e = .push buf ∧ cb' = cb) ∨ (e = .close ∧ buf = [] ∧ cb'.userIsDoneSending = true) := by
  cases h with
  | push => exact .inl ⟨rfl, rfl⟩
  | close => exact .inr ⟨rfl, rfl, rfl⟩

theorem SameWindow.of_sender (h : cb'.sender = cb.sender) : SameWindow cb cb' :=
  ⟨by rw [h], fun hq => by rw [h, hq], by rw [h], by rw [h]⟩

theorem pollRecv_sender (cb : ControlBlock) : cb.pollRecv.2.sender = cb.sender := by
  rw [pollRecv]
  split <;> rfl

/-- A pop changes nothing but the receiver. -/
theorem pollRecv_outbound (cb : ControlBlock) : cb.pollRecv.2.rt = cb.rt ∧ cb.pollRecv.2.state = cb.state ∧
    cb.pollRecv.2.userIsDoneSending = cb.userIsDoneSending := by
  rw [pollRecv]
  split <;> exact ⟨rfl, rfl, rfl⟩

/-- A segment takes off the queue what it acknowledges, and only an ACK of something new sets the window. -/
structure AckStep (s s' : Sender) : Prop where
  sendNext : s'.sendNext = s.sendNext
  unsentQueue : s'.unsentQueue = s.unsentQueue
  unsentSeqNo : s'.unsentSeqNo = s.unsentSeqNo
  windowScale : s'.windowScale = s.windowScale
  counts : s.outbox.Counts → s'.outbox.Counts
  window : s.windowScale.toNat < 16 → s.sendWindow.toNat < 2 ^ 31 → s'.sendWindow.toNat < 2 ^ 31
  le : seqTotal s'.outbox.inFlight ≤ seqTotal s.outbox.inFlight
  set : s.sendWindowChanged = false → s'.sendWindowChanged = true →
    seqTotal s'.outbox.inFlight < seqTotal s.outbox.inFlight

theorem AckStep.of_eq {t t' : Sender} (h : t' = t) : AckStep t t' := by
  subst h
  exact ⟨rfl, rfl, rfl, rfl, id, fun _ hw => hw, Nat.le_refl _, fun hno hset => by rw [hno] at hset; cases hset⟩

theorem ControlBlock.AckTakes.ackStep (h : AckTakes cb header cb₁) : AckStep cb.sender cb₁.sender := by
  rcases h.acked with ⟨-, rfl⟩ | ⟨hnew, hsent, hunacked, hremove, -⟩
  · exact .of_eq rfl
  · have hu := cb.sender.sendUnacked.toNat_lt
    have hn := header.ackNum.toNat_lt
    have htotal := removeAcknowledgedData_total hremove
    change _ + seqTotal cb₁.sender.outbox.inFlight = seqTotal cb.sender.outbox.inFlight at htotal
    rw [SeqNumber.lt_iff, SeqNumber.toNat_sub] at hnew
    rw [SeqNumber.toNat_sub] at htotal
    have hless : seqTotal cb₁.sender.outbox.inFlight < seqTotal cb.sender.outbox.inFlight := by omega
    refine ⟨h.sendNext, h.unsentQueue, h.unsentSeqNo, h.windowScale, fun hcounts => ?_, h.sendWindow,
      Nat.le_of_lt hless, fun _ _ => hless⟩
    have hall := congrArg SeqNumber.toNat hcounts
    apply SeqNumber.toNat_inj.mp
    simp only [SeqNumber.toNat_add_ofNat, Sender.outbox, h.sendNext, hunacked] at hall htotal ⊢
    omega

theorem ControlBlock.Received.ackStep (h : Received cb header data cb') : AckStep cb.sender cb'.sender := by
  cases h with
  | dropped _ hc => exact .of_eq hc.sender
  | reset _ _ _ hsender => exact .of_eq hsender
  | setAside _ hack _ hs => rw [hs.sender]; exact hack.ackStep
  | inOrder _ hack _ hi => rw [hi.sender]; exact hack.ackStep

theorem ControlBlock.Received.done (h : Received cb header data cb') :
    cb'.userIsDoneSending = cb.userIsDoneSending := by
  cases h with
  | dropped hm => exact hm.done
  | reset _ _ _ _ _ _ hdone => exact hdone
  | setAside _ hack _ hs => exact hs.done.trans hack.done
  | inOrder _ hack _ hi => exact hi.done.trans hack.done

theorem Coherent.keep (h : Coherent s) (hcounts : s'.cb.sender.outbox.Counts) (hwindow : SameWindow s.cb s'.cb)
    (htask : s'.sender = s.sender) : Coherent s' where
  counts := hcounts
  window := by rw [hwindow.sendWindow]; exact h.window
  scale := by rw [hwindow.windowScale]; exact h.scale
  oneByte := by rw [ProbesOneByte, htask]; exact h.oneByte
  watched := by
    rw [htask]
    exact fun buf sendNext mac hp => hwindow.sendWindowChanged (h.watched buf sendNext mac hp)

theorem Coherent.received (h : Coherent s) (hack : AckStep s.cb.sender cb'.sender) :
    Coherent ⟨cb', s.taskAfter cb'⟩ := by
  refine ⟨hack.counts h.counts, hack.window h.scale h.window, by rw [hack.windowScale]; exact h.scale, ?_, ?_⟩
  · intro buf sendNext mac hp
    rcases taskAfter_cases s cb' with ⟨hsame, -⟩ | ⟨htop, -⟩
    · exact h.oneByte buf sendNext mac (hsame.symm.trans hp)
    · cases htop.symm.trans hp
  · intro buf sendNext mac hp
    rcases taskAfter_cases s cb' with ⟨hsame, hquiet⟩ | ⟨htop, -⟩
    · exact hquiet buf sendNext mac (hsame.symm.trans hp)
    · cases htop.symm.trans hp

theorem Coherent.turn (h : Coherent s) (ht : SenderTurn s env s') : Coherent s' := by
  cases ht with
  | idle _ hsame => rwa [hsame]
  | awaits _ _ hsame =>
    rw [hsame]
    exact ⟨h.counts, h.window, h.scale, fun _ _ _ hp => (by cases hp), fun _ _ _ hp => by cases hp⟩
  | @probe sendNext byte rest queue mac hread harp hq htask hchanged hm =>
    have hcounts := @Outbox.Counts.send { s.cb.sender.outbox with waiting := rest :: queue } h.counts [byte]
    refine ⟨by rw [hm.outbox]; exact hcounts, by rw [hm.window.sendWindow]; exact h.window,
      by rw [hm.window.windowScale]; exact h.scale, fun buf seqNum mac' hp => ?_, fun _ _ _ _ => hchanged⟩
    cases htask.symm.trans hp
    exact ⟨byte, rfl⟩
  | @segment sendNext winSz sentData effectiveCwnd maxSize buf queue mac hread harp hsize hq htask hdone hm =>
    have hcounts := @Outbox.Counts.send { s.cb.sender.outbox with
      waiting := if buf.length ≤ maxSize then queue else buf.drop maxSize :: queue } h.counts (buf.take maxSize)
    refine ⟨by rw [hm.outbox]; exact hcounts, by rw [hm.window.sendWindow]; exact h.window,
      by rw [hm.window.windowScale]; exact h.scale, fun _ _ _ hp => ?_, fun _ _ _ hp => ?_⟩
    · cases htask.symm.trans hp
    · cases htask.symm.trans hp

theorem coherent_step (h : Coherent r.socket) (hs : SocketStep r e env r') : Coherent r'.socket := by
  cases hs with
  | received _ hr htask =>
    have hc := h.received hr.ackStep
    rwa [← htask] at hc
  | popped _ hcb htask =>
    have hsender : r'.socket.cb.sender = r.socket.cb.sender := by rw [hcb, pollRecv_sender]
    exact h.keep (by rw [hsender]; exact h.counts) (.of_sender hsender) htask
  | refused hsocket => rwa [hsocket]
  | @sentNow buf cb₁ hh _ _ _ hm htask =>
    refine h.keep ?_ (hm.window.trans (.of_sender hh.same.sender)) htask
    rw [hh.same.sender, hm.outbox]
    exact h.counts.send buf
  | queued hh _ _ _ hm htask =>
    refine h.keep ?_ (hm.window.trans (.of_sender hh.same.sender)) htask
    rw [hh.same.sender, hm.outbox]
    exact h.counts
  | turn _ ht => exact h.turn ht
  | resent _ _ hm htask => exact h.keep (by rw [hm.outbox]; exact h.counts) hm.window htask

/-- What the sender has read leaves room for the segment that it sends. -/
theorem WithinHalf.hasRead (hb : WithinHalf s) (hc : Coherent s) {sendNext : SeqNumber} {winSz sentData effectiveCwnd : Nat}
    (hr : HasRead s env (.segment sendNext winSz sentData effectiveCwnd)) :
    s.cb.sender.unsentQueue ≠ [] ∧ seqTotal s.cb.sender.outbox.inFlight ≤ sentData ∧ sentData < winSz ∧
      sentData < effectiveCwnd ∧ winSz < 2 ^ 31 := by
  cases hr with
  | before htask => exact hb.room _ _ _ _ htask
  | opened _ _ _ _ hq hroom hcwnd =>
    have hout := hc.counts.outstanding hb.lt
    exact ⟨by rw [hq]; exact List.cons_ne_nil _ _, Nat.le_of_eq hout.symm, by omega, by omega, hc.window⟩

theorem WithinHalf.keep (h : WithinHalf s) (hle : seqTotal s'.cb.sender.outbox.inFlight ≤ seqTotal s.cb.sender.outbox.inFlight)
    (hqueue : s.cb.sender.unsentQueue ≠ [] → s'.cb.sender.unsentQueue ≠ []) (htask : s'.sender = s.sender) :
    WithinHalf s' where
  bounded := by
    have hb := h.bounded
    rw [EstablishedSocket.credit, htask]
    exact Nat.le_trans (Nat.add_le_add_right hle _) hb
  room := by
    rw [htask]
    intro sendNext winSz sentData effectiveCwnd ha
    obtain ⟨hne, hsent, hroom⟩ := h.room sendNext winSz sentData effectiveCwnd ha
    exact ⟨hqueue hne, Nat.le_trans hle hsent, hroom⟩

theorem WithinHalf.received (h : WithinHalf s) (hc : Coherent s) (hack : AckStep s.cb.sender cb'.sender) :
    WithinHalf ⟨cb', s.taskAfter cb'⟩ := by
  rcases taskAfter_cases s cb' with ⟨hsame, -⟩ | ⟨htop, ⟨buf, sendNext, mac, hp⟩, hset⟩
  · exact @WithinHalf.keep s ⟨cb', s.taskAfter cb'⟩ h hack.le (by rw [hack.unsentQueue]; exact id) hsame
  · have hb := h.bounded
    have hless := hack.set (hc.watched buf sendNext mac hp) hset
    rw [htop]
    refine ⟨?_, fun _ _ _ _ ha => by cases ha⟩
    change seqTotal cb'.sender.outbox.inFlight + 1 ≤ _
    omega

/-- The window lets no more than itself out, and one end-of-send marker. -/
theorem WithinHalf.sentNow (hb : WithinHalf s) (hc : Coherent s) (hnow : SendsNow s.cb buf env) :
    seqTotal s.cb.sender.outbox.inFlight + sequenceLength buf ≤ 2 ^ 31 := by
  obtain ⟨-, -, -, hle⟩ := hnow
  have hwindow := hc.window
  have hout := hc.counts.outstanding hb.lt
  change (s.cb.sender.sendNext - s.cb.sender.sendUnacked).toNat = _ at hout
  rw [hout] at hle
  unfold sequenceLength
  split <;> omega

theorem WithinHalf.turn (h : WithinHalf s) (hc : Coherent s) (ht : SenderTurn s env s') : WithinHalf s' := by
  have hb := h.bounded
  cases ht with
  | idle _ hsame => rwa [hsame]
  | @awaits awaiting hread harp hsame =>
    subst hsame
    cases awaiting with
    | probe sendNext =>
      have hcredit : s.credit = 1 := by
        cases hread with
        | before htask => simp [EstablishedSocket.credit, htask]
        | closed htop => simp [EstablishedSocket.credit, htop]
      exact ⟨by rw [hcredit] at hb; exact hb, fun _ _ _ _ ha => by cases ha⟩
    | segment sendNext winSz sentData effectiveCwnd =>
      refine ⟨Nat.le_trans (Nat.add_le_add_left (Nat.zero_le s.credit) _) hb, fun _ _ _ _ ha => ?_⟩
      cases ha
      exact h.hasRead hc hread
  | @probe sendNext byte rest queue mac hread harp hq htask hchanged hm =>
    have hcredit : s.credit = 1 := by
      cases hread with
      | before htask => simp [EstablishedSocket.credit, htask]
      | closed htop => simp [EstablishedSocket.credit, htop]
    have htotal : seqTotal s'.cb.sender.outbox.inFlight = seqTotal s.cb.sender.outbox.inFlight + 1 := by
      rw [hm.outbox]
      simp [Outbox.send, sequenceLength]
    refine ⟨?_, fun _ _ _ _ ha => by cases htask.symm.trans ha⟩
    rw [EstablishedSocket.credit, htask]
    dsimp only
    omega
  | @segment sendNext winSz sentData effectiveCwnd maxSize buf queue mac hread harp hsize hq htask hdone hm =>
    obtain ⟨-, hsent, hwin, -, hbound⟩ := h.hasRead hc hread
    have htotal : seqTotal s'.cb.sender.outbox.inFlight =
        seqTotal s.cb.sender.outbox.inFlight + sequenceLength (buf.take maxSize) := by
      rw [hm.outbox]
      simp [Outbox.send]
    have hlen := List.length_take_le maxSize buf
    have hpiece : sequenceLength (buf.take maxSize) ≤ winSz - sentData := by
      unfold sequenceLength
      split <;> omega
    refine ⟨?_, fun _ _ _ _ ha => by cases htask.symm.trans ha⟩
    rw [EstablishedSocket.credit, htask]
    dsimp only
    omega

theorem withinHalf_step (h : WithinHalf r.socket) (hc : Coherent r.socket) (hs : SocketStep r e env r') :
    WithinHalf r'.socket := by
  cases hs with
  | received _ hr htask =>
    have hb := h.received hc hr.ackStep
    rwa [← htask] at hb
  | popped _ hcb htask =>
    have hsender : r'.socket.cb.sender = r.socket.cb.sender := by rw [hcb, pollRecv_sender]
    exact h.keep (by rw [hsender]) (by rw [hsender]; exact id) htask
  | refused hsocket => rwa [hsocket]
  | @sentNow buf cb₁ hh _ _ hnow hm htask =>
    have hroom := h.sentNow hc hnow
    have hcredit := credit_le r'.socket
    have htotal : seqTotal r'.socket.cb.sender.outbox.inFlight =
        seqTotal r.socket.cb.sender.outbox.inFlight + sequenceLength buf := by
      rw [hh.same.sender, hm.outbox]
      simp [Outbox.sendNow, Outbox.send]
    refine ⟨by omega, fun sendNext winSz sentData effectiveCwnd ha => ?_⟩
    exact absurd hnow.1 (h.room sendNext winSz sentData effectiveCwnd (htask.symm.trans ha)).1
  | @queued buf cb₁ hh _ _ _ hm htask =>
    have hout : r'.socket.cb.sender.outbox = r.socket.cb.sender.outbox.queue buf := by rw [hh.same.sender, hm.outbox]
    refine h.keep (by rw [hout]; exact Nat.le_refl _) (fun _ => ?_) htask
    rw [show r'.socket.cb.sender.unsentQueue = _ from congrArg Outbox.waiting hout]
    simp [Outbox.queue]
  | turn _ ht => exact h.turn hc ht
  | resent _ _ hm htask =>
    refine h.keep (by rw [hm.outbox]) ?_ htask
    rw [show r'.socket.cb.sender.unsentQueue = _ from congrArg Outbox.waiting hm.outbox]
    exact id

/-- The sender sends at the number that SND.NXT still has, from a queue that is not empty unless the user is done. -/
theorem Numbered.hasRead (h : Numbered s) (hr : HasRead s env awaiting) : awaiting.sendNext = s.cb.sender.sendNext ∧
    (s.cb.userIsDoneSending = false → s.cb.sender.unsentQueue ≠ []) := by
  cases hr with
  | before htask => exact h.awaits awaiting htask
  | closed _ hsent =>
    refine ⟨rfl, fun hopen hempty => hsent ?_⟩
    rw [h.unsent hopen, hempty]
    exact (SeqNumber.add_ofNat_zero _).symm
  | opened _ _ _ _ hq => exact ⟨rfl, fun _ => by rw [hq]; exact List.cons_ne_nil _ _⟩

theorem Numbered.keep (h : Numbered s) (hnext : s'.cb.sender.sendNext = s.cb.sender.sendNext)
    (hqueue : s'.cb.sender.unsentQueue = s.cb.sender.unsentQueue)
    (hunsent : s'.cb.sender.unsentSeqNo = s.cb.sender.unsentSeqNo)
    (hdone : s'.cb.userIsDoneSending = s.cb.userIsDoneSending)
    (htask : ∀ awaiting, s'.sender = .awaiting awaiting → s.sender = .awaiting awaiting) : Numbered s' := by
  refine ⟨?_, fun awaiting ha => ?_⟩
  · rw [hnext, hqueue, hunsent, hdone]
    exact h.unsent
  · rw [hnext, hqueue, hdone]
    exact h.awaits awaiting (htask awaiting ha)

theorem Numbered.turn (h : Numbered s) (ht : SenderTurn s env s') : Numbered s' := by
  cases ht with
  | idle _ hsame => rwa [hsame]
  | awaits hread _ hsame =>
    subst hsame
    refine ⟨h.unsent, fun awaiting ha => ?_⟩
    cases ha
    exact h.hasRead hread
  | @probe sendNext byte rest queue mac hread harp hq htask hchanged hm =>
    have hout := hm.outbox
    refine ⟨fun hopen => ?_, fun _ ha => by cases htask.symm.trans ha⟩
    have hcount := h.unsent (hm.done.symm.trans hopen)
    rw [hq] at hcount
    rw [show s'.cb.sender.unsentSeqNo = _ from congrArg Outbox.unsentSeqNo hout,
      show s'.cb.sender.sendNext = _ from congrArg Outbox.sendNext hout,
      show s'.cb.sender.unsentQueue = _ from congrArg Outbox.waiting hout]
    simp only [Outbox.send, Sender.outbox, hcount, SeqNumber.add_ofNat_add]
    simp [sequenceLength, Nat.add_comm]
  | @segment sendNext winSz sentData effectiveCwnd maxSize buf queue mac hread harp hsize hq htask hdone hm =>
    have hout := hm.outbox
    refine ⟨fun hopen => ?_, fun _ ha => by cases htask.symm.trans ha⟩
    have hopen' : s.cb.userIsDoneSending = false := hm.done.symm.trans hopen
    have hpiece : buf.take maxSize ≠ [] := fun hnil => by
      rw [hdone hnil] at hopen'
      cases hopen'
    have hcount := h.unsent hopen'
    rw [hq] at hcount
    rw [show s'.cb.sender.unsentSeqNo = _ from congrArg Outbox.unsentSeqNo hout,
      show s'.cb.sender.sendNext = _ from congrArg Outbox.sendNext hout,
      show s'.cb.sender.unsentQueue = _ from congrArg Outbox.waiting hout]
    simp only [Outbox.send, Sender.outbox, hcount, SeqNumber.add_ofNat_add, sequenceLength_of_ne hpiece]
    congr 2
    simp only [List.flatten_cons, List.length_append, List.length_take]
    split
    · omega
    · simp only [List.flatten_cons, List.length_append, List.length_drop]
      omega

theorem numbered_step (h : Numbered r.socket) (hs : SocketStep r e env r') : Numbered r'.socket := by
  cases hs with
  | @received header data _ hr htask =>
    have hack := hr.ackStep
    refine h.keep hack.sendNext hack.unsentQueue hack.unsentSeqNo hr.done fun awaiting ha => ?_
    rcases taskAfter_cases r.socket r'.socket.cb with ⟨hsame, -⟩ | ⟨htop, -⟩
    · exact hsame.symm.trans (htask.symm.trans ha)
    · cases htop.symm.trans (htask.symm.trans ha)
  | popped _ hcb htask =>
    have hsender : r'.socket.cb.sender = r.socket.cb.sender := by rw [hcb, pollRecv_sender]
    have hdone : r'.socket.cb.userIsDoneSending = r.socket.cb.userIsDoneSending := by
      rw [hcb]
      exact (pollRecv_outbound _).2.2
    exact h.keep (by rw [hsender]) (by rw [hsender]) (by rw [hsender]) hdone fun _ ha => htask.symm.trans ha
  | refused hsocket => rwa [hsocket]
  | @sentNow buf cb₁ hh hopen _ hnow hm htask =>
    have hout : r'.socket.cb.sender.outbox = r.socket.cb.sender.outbox.sendNow buf := by rw [hh.same.sender, hm.outbox]
    have hcount := h.unsent hopen
    rw [hnow.1] at hcount
    refine ⟨fun _ => ?_, fun awaiting ha => ?_⟩
    · rw [show r'.socket.cb.sender.unsentSeqNo = _ from congrArg Outbox.unsentSeqNo hout,
        show r'.socket.cb.sender.sendNext = _ from congrArg Outbox.sendNext hout,
        show r'.socket.cb.sender.unsentQueue = _ from congrArg Outbox.waiting hout]
      simp only [Outbox.sendNow, Outbox.send, Sender.outbox, hcount, hnow.1, List.flatten_nil, List.length_nil,
        SeqNumber.add_ofNat_zero]
    · exact absurd hnow.1 ((h.awaits awaiting (htask.symm.trans ha)).2 hopen)
  | @queued buf cb₁ hh hopen _ _ hm htask =>
    have hout : r'.socket.cb.sender.outbox = r.socket.cb.sender.outbox.queue buf := by rw [hh.same.sender, hm.outbox]
    have hnext : r'.socket.cb.sender.sendNext = r.socket.cb.sender.sendNext := congrArg Outbox.sendNext hout
    have hqueue : r'.socket.cb.sender.unsentQueue = r.socket.cb.sender.unsentQueue ++ [buf] :=
      congrArg Outbox.waiting hout
    refine ⟨fun _ => ?_, fun awaiting ha => ⟨?_, fun _ => by rw [hqueue]; simp⟩⟩
    · rw [show r'.socket.cb.sender.unsentSeqNo = _ from congrArg Outbox.unsentSeqNo hout, hnext, hqueue]
      simp only [Outbox.queue, Sender.outbox, h.unsent hopen, SeqNumber.add_ofNat_add]
      simp
    · rw [hnext]
      exact (h.awaits awaiting (htask.symm.trans ha)).1
  | turn _ ht => exact h.turn ht
  | resent _ _ hm htask =>
    have hout := hm.outbox
    exact h.keep (congrArg Outbox.sendNext hout) (congrArg Outbox.waiting hout) (congrArg Outbox.unsentSeqNo hout) hm.done
      fun _ ha => htask.symm.trans ha

theorem inFlight_step (h : InFlight r.socket) (hs : SocketStep r e env r') : InFlight r'.socket :=
  ⟨coherent_step h.toCoherent hs, withinHalf_step h.toWithinHalf h.toCoherent hs, numbered_step h.toNumbered hs⟩

/-- What no event changes about the receive window. -/
structure SameBuffer (cb cb' : ControlBlock) : Prop where
  receiveBufferSize : cb'.receiveBufferSize = cb.receiveBufferSize
  windowScale : cb'.windowScale = cb.windowScale

theorem SameInbound.buffer (h : SameInbound cb cb') : SameBuffer cb cb' := ⟨h.receiveBufferSize, h.windowScale⟩

theorem SameBuffer.trans (h : SameBuffer cb cb₁) (h' : SameBuffer cb₁ cb') : SameBuffer cb cb' :=
  ⟨h'.receiveBufferSize.trans h.receiveBufferSize, h'.windowScale.trans h.windowScale⟩

theorem ControlBlock.Received.sameBuffer (h : Received cb header data cb') : SameBuffer cb cb' := by
  cases h with
  | dropped hm => exact hm.inbound.buffer
  | reset _ _ _ _ _ hin => exact hin.buffer
  | setAside _ hack _ hs => exact hack.inbound.buffer.trans ⟨hs.receiveBufferSize, hs.windowScale⟩
  | inOrder _ hack _ hi => exact hack.inbound.buffer.trans ⟨hi.receiveBufferSize, hi.windowScale⟩

theorem ControlBlock.Received.ahead (h : Received cb header data cb') :
    cb'.sender.outbox.sendNext = cb.sender.outbox.sendNext ∧ cb'.sender.outbox.waiting = cb.sender.outbox.waiting ∧
      cb'.sender.outbox.unsentSeqNo = cb.sender.outbox.unsentSeqNo := by
  cases h with
  | dropped hm hc => rw [hc.sender]; exact ⟨rfl, rfl, rfl⟩
  | reset _ _ _ hsender => rw [hsender]; exact ⟨rfl, rfl, rfl⟩
  | setAside _ hack _ hs => rw [hs.sender]; exact ⟨hack.sendNext, hack.unsentQueue, hack.unsentSeqNo⟩
  | inOrder _ hack _ hi => rw [hi.sender]; exact ⟨hack.sendNext, hack.unsentQueue, hack.unsentSeqNo⟩

/-- A segment takes data off the retransmission queue at most. -/
theorem ControlBlock.Received.acknowledges (h : Received cb header data cb') :
    cb'.sender.unackedQueue = cb.sender.unackedQueue ∨
      ∃ n, Sender.removeAcknowledgedData cb.sender.unackedQueue n = some cb'.sender.unackedQueue := by
  have htakes : ∀ {header : TcpHeader} {cb₁ : ControlBlock}, AckTakes cb header cb₁ → cb'.sender = cb₁.sender →
      cb'.sender.unackedQueue = cb.sender.unackedQueue ∨
        ∃ n, Sender.removeAcknowledgedData cb.sender.unackedQueue n = some cb'.sender.unackedQueue := by
    intro header cb₁ hack hsender
    rw [hsender]
    rcases hack.acked with ⟨-, rfl⟩ | ⟨-, -, -, hremove, -⟩
    · exact .inl rfl
    · exact .inr ⟨_, hremove⟩
  cases h with
  | dropped hm hc => exact .inl (by rw [hc.sender])
  | reset _ _ _ hsender => exact .inl (by rw [hsender])
  | setAside _ hack _ hs => exact htakes hack hs.sender
  | inOrder _ hack _ hi => exact htakes hack hi.sender

theorem SenderTurn.inbound (h : SenderTurn s env s') : SameInbound s.cb s'.cb := by
  obtain ⟨sent, o, hm, -⟩ := h.moves
  exact hm.inbound

theorem SocketStep.sameBuffer {r r' : SocketRun} {e : SocketEvent} {env : Env} (h : SocketStep r e env r') :
    SameBuffer r.socket.cb r'.socket.cb := by
  cases h with
  | received _ hr => exact hr.sameBuffer
  | popped _ hcb =>
    rw [hcb, pollRecv]
    split <;> exact ⟨rfl, rfl⟩
  | refused hsocket => rw [hsocket]; exact ⟨rfl, rfl⟩
  | sentNow hh _ _ _ hm => exact (hm.inbound.trans hh.same.inbound).buffer
  | queued hh _ _ _ hm => exact (hm.inbound.trans hh.same.inbound).buffer
  | turn _ ht => exact ht.inbound.buffer
  | resent _ _ hm => exact hm.inbound.buffer

/-- What every run keeps, whatever comes in. -/
structure Running (r : SocketRun) : Prop where
  inFlight : InFlight r.socket
  buffer : r.socket.cb.receiveBufferSize.toNat < 2 ^ 31

/-- Each step of a run is one of the moves. -/
theorem Running.step {r r' : SocketRun} {e : SocketEvent × Env} (h : Running r) (hd : r.FitsPacket e)
    (hs : r.step e = some r') : SocketStep r e.1 e.2 r' ∧ Running r' := by
  have hstep := step_cases h.inFlight.oneByte h.buffer hd hs
  exact ⟨hstep, inFlight_step h.inFlight hstep, by rw [hstep.sameBuffer.receiveBufferSize]; exact h.buffer⟩

end

/-- A control block as the handshake leaves it. Both windows are window fields shifted by their scales; those scales
are at most 14, or 15 where the passive side takes the peer's. -/
structure Opened (cb : ControlBlock) : Prop where
  rt : cb.rt = []
  state : cb.state = .established
  userIsDoneSending : cb.userIsDoneSending = false
  sendNext : cb.sender.sendNext = cb.sender.sendUnacked
  unsentSeqNo : cb.sender.unsentSeqNo = cb.sender.sendUnacked
  unackedQueue : cb.sender.unackedQueue = []
  unsentQueue : cb.sender.unsentQueue = []
  sendWindow : cb.sender.sendWindow.toNat < 2 ^ 31
  sendScale : cb.sender.windowScale.toNat < 16
  receiveNext : cb.receiver.receiveNext = cb.receiver.readerNext
  recvQueue : cb.receiver.recvQueue = []
  outOfOrder : cb.outOfOrder = []
  outOfOrderFin : cb.outOfOrderFin = none
  buffer : cb.receiveBufferSize.toNat < 2 ^ 31
  scale : cb.windowScale.toNat < 32
  field : cb.receiveBufferSize.toNat / 2 ^ cb.windowScale.toNat < 2 ^ 16

theorem opened_new {local_ remote : SocketAddrV4} {receiverSeqNo senderSeqNo : SeqNumber} {ackDelayTimeout : Duration}
    {receiverWindowSize receiverWindowScale senderWindowSize : UInt32} {senderWindowScale : UInt8} {senderMss : Nat}
    (hb : receiverWindowSize.toNat < 2 ^ 31) (hs : receiverWindowScale.toNat < 32)
    (hf : receiverWindowSize.toNat / 2 ^ receiverWindowScale.toNat < 2 ^ 16) (hw : senderWindowSize.toNat < 2 ^ 31)
    (hss : senderWindowScale.toNat < 16) :
    Opened (.new local_ remote receiverSeqNo ackDelayTimeout receiverWindowSize receiverWindowScale senderSeqNo
      senderWindowSize senderWindowScale senderMss) :=
  ⟨rfl, rfl, rfl, rfl, rfl, rfl, rfl, hw, hss, rfl, rfl, rfl, rfl, hb, hs, hf⟩

theorem Opened.inFlight {cb : ControlBlock} (h : Opened cb) : InFlight ⟨cb, .top⟩ where
  counts := by simp [Outbox.Counts, Sender.outbox, h.unackedQueue, h.sendNext, SeqNumber.add_ofNat_zero]
  window := h.sendWindow
  scale := h.sendScale
  oneByte := fun _ _ _ hp => by cases hp
  watched := fun _ _ _ hp => by cases hp
  bounded := by simp [Sender.outbox, h.unackedQueue, EstablishedSocket.credit]
  room := fun _ _ _ _ ha => by cases ha
  unsent := fun _ => by simp [h.unsentQueue, h.unsentSeqNo, h.sendNext, SeqNumber.add_ofNat_zero]
  awaits := fun _ ha => by cases ha

theorem Opened.running {cb : ControlBlock} (h : Opened cb) : Running (.start ⟨cb, .top⟩) := ⟨h.inFlight, h.buffer⟩

/-- The link and the headers of sample runs. -/
def linkEnv : Env := ⟨0, some ⟨2, 0, 0, 0, 0, 7⟩, 200, 65535, 0⟩

def peerHeader (seqNum : SeqNumber) (fin : Bool) : TcpHeader :=
  { TcpHeader.new 50000 10000 with seqNum := seqNum, ackNum := ⟨7⟩, ack := true, fin := fin, windowSize := 65535 }

/-- A block with a receive buffer of eight bytes, at sequence number 40. -/
def smallWindow : ControlBlock :=
  .new ⟨⟨10, 0, 1, 8⟩, 10000⟩ ⟨⟨10, 0, 1, 7⟩, 50000⟩ ⟨40⟩ 0 8 0 ⟨7⟩ 65535 0 1460

theorem smallWindow_opened : Opened smallWindow :=
  opened_new (by decide) (by decide) (by decide) (by decide) (by decide)

/-- A block whose peer offers no window. -/
def closedWindow : ControlBlock :=
  .new ⟨⟨10, 0, 1, 8⟩, 10000⟩ ⟨⟨10, 0, 1, 7⟩, 50000⟩ ⟨40⟩ 0 65535 0 ⟨7⟩ 0 0 1460

theorem closedWindow_opened : Opened closedWindow :=
  opened_new (by decide) (by decide) (by decide) (by decide) (by decide)

end Capybara
