import Capybara.EstablishedSocket
import Capybara.MirrorReceive

namespace Capybara

open Matching

section

variable {base : List TcpSegment} {watching : Prop} {cb cb' : ControlBlock} {env env' : Env}

/-- Results that agree, with control blocks that mirror each other. -/
def Answers {α : Type} (base : List TcpSegment) (watching : Prop) (x x' : α × ControlBlock) : Prop :=
  x'.1 = x.1 ∧ Mirrors base watching x.2 x'.2

theorem pollRecv_mirrors (h : Mirrors base watching cb cb') : Answers base watching cb.pollRecv cb'.pollRecv := by
  simp only [ControlBlock.pollRecv, Receiver.pop, h.receiver.recvQueue]
  cases cb.receiver.recvQueue with
  | nil => exact ⟨rfl, h⟩
  | cons buf queue =>
    exact ⟨rfl, { h with receiver := ⟨by simp only [h.receiver.readerNext], h.receiver.receiveNext, rfl⟩ }⟩

theorem markHeader_hidePort {header header' : TcpHeader} (h : header'.hidePort = header.hidePort) (buf : Buffer)
    (doPush : Bool) :
    (ControlBlock.markHeader header' buf doPush).hidePort = (ControlBlock.markHeader header buf doPush).hidePort := by
  have hmark : ∀ header, (ControlBlock.markHeader header buf doPush).hidePort =
      ControlBlock.markHeader header.hidePort buf doPush := by
    intro header
    unfold ControlBlock.markHeader
    split
    · rfl
    · split <;> rfl
  rw [hmark, hmark, h]

theorem tcpHeader_mirrors (h : Mirrors base watching cb cb') :
    Matches (fun _ => True) (fun header header' => header'.hidePort = header.hidePort) cb.tcpHeader cb'.tcpHeader := by
  rw [h.tcpHeader]
  cases cb.tcpHeader with
  | none => exact .fail
  | some header => exact .ret rfl

theorem seqNum_hidePort {header header' : TcpHeader} {seqNum seqNum' : SeqNumber}
    (h : header'.hidePort = header.hidePort) (hs : seqNum' = seqNum) :
    TcpHeader.hidePort { header' with seqNum := seqNum' } = TcpHeader.hidePort { header with seqNum := seqNum } := by
  have hset : ∀ header : TcpHeader, TcpHeader.hidePort { header with seqNum := seqNum } =
      { header.hidePort with seqNum := seqNum } := fun _ => rfl
  rw [hs, hset, hset, h]

/-- A segment with the header of the control block, marked for its text. -/
theorem emitMarked_mirrors (h : Mirrors base watching cb cb') {seqNum seqNum' : SeqNumber} (hs : seqNum' = seqNum)
    (buf : Buffer) (doPush : Bool) (mac : MacAddress) :
    MirrorMatches base watching
      (do
        let header ← cb.tcpHeader
        cb.emit false (ControlBlock.markHeader { header with seqNum := seqNum } buf doPush) (some buf) mac)
      (do
        let header ← cb'.tcpHeader
        cb'.emit false (ControlBlock.markHeader { header with seqNum := seqNum' } buf doPush) (some buf) mac) := by
  exact .bind (tcpHeader_mirrors h) fun header header' hh =>
    emit_mirrors h (markHeader_hidePort (seqNum_hidePort hh hs) buf doPush) false (some buf) mac

theorem Mirrors.noteSent (h : Mirrors base watching cb cb') (bytes : Buffer) (now now' : Instant) :
    Mirrors base watching (cb.noteSent bytes now) (cb'.noteSent bytes now') := by
  refine { h with sender := { h.sender with sendNext := ?_, unackedQueue := ?_ } }
  · simp [ControlBlock.noteSent, h.sender.unackedQueue]
  · simp only [ControlBlock.noteSent, h.sender.sendNext]

theorem Mirrors.startRetransmitTimer (h : Mirrors base watching cb cb') :
    Mirrors base watching (cb.startRetransmitTimer env) (cb'.startRetransmitTimer env') := by
  have ht := h.retransmitDeadline
  unfold ControlBlock.startRetransmitTimer
  cases hd : cb.retransmitDeadline <;> cases hd' : cb'.retransmitDeadline <;> simp only [hd, hd'] at ht
  · exact { h with retransmitDeadline := rfl }
  · cases ht
  · cases ht
  · exact h

theorem sendImmediate_mirrors (h : Mirrors base watching cb cb') (he : env.Alike env') (buf : Buffer) :
    Matches (fun _ => True) (Both (Mirrors base watching)) (cb.sendImmediate buf env) (cb'.sendImmediate buf env') := by
  simp only [ControlBlock.sendImmediate, h.sender.unsentQueue, h.sender.sendNext, h.sender.sendUnacked, he.cwnd,
    he.limitedTransmitCwndIncrease, h.sender.sendWindow, he.arp]
  refine .ite (fun _ => ?_) fun _ => .ret trivial
  refine .bind (.same _) fun inFlight _ hin => .bind (.same _) fun effective _ heff => ?_
  cases hin
  cases heff
  refine .ite (fun _ => ?_) fun _ => .ret trivial
  cases env.arp with
  | none => exact .ret trivial
  | some mac =>
    have hemit := @emitMarked_mirrors _ _ _ _ h cb.sender.sendNext _ rfl buf true mac
    simp only [Option.bind_eq_bind] at hemit ⊢
    rw [← Option.bind_assoc, ← Option.bind_assoc]
    refine .bind hemit fun cb₁ cb₁' h₁ => .ret (Mirrors.startRetransmitTimer ?_)
    have hn := h₁.noteSent buf env.now env'.now
    exact { hn with sender := { hn.sender with unsentSeqNo := by simp only [hn.sender.unsentSeqNo] } }

theorem send_mirrors (h : Mirrors base watching cb cb') (he : env.Alike env') (buf : Buffer) :
    Matches (fun _ => True) (Answers base watching) (cb.send buf env) (cb'.send buf env') := by
  simp only [ControlBlock.send, h.userIsDoneSending, h.sender.unsentQueue]
  refine .ite (fun _ => .ret ⟨rfl, h⟩) fun _ => .ite (fun _ => .ret ⟨rfl, h⟩) fun _ =>
    .bind (sendImmediate_mirrors h he buf) fun x x' hx => ?_
  cases x with
  | none =>
    cases x' with
    | none =>
      refine .ite (fun _ => .ret ⟨rfl, h⟩) fun _ => .ret ⟨rfl, ?_⟩
      exact { h with
        sender := { h.sender with unsentQueue := rfl, unsentSeqNo := by simp only [h.sender.unsentSeqNo] }
        userIsDoneSending := rfl }
    | some cb₁' => exact absurd hx id
  | some cb₁ =>
    cases x' with
    | none => exact absurd hx id
    | some cb₁' => exact .ret ⟨rfl, hx⟩

theorem retransmit_mirrors (h : Mirrors base watching cb cb') (he : env.Alike env') :
    MirrorMatches base watching (cb.retransmit env) (cb'.retransmit env') := by
  have hq := h.sender.unackedQueue
  simp only [ControlBlock.retransmit, he.arp]
  cases hc : cb.sender.unackedQueue with
  | nil =>
    rw [hc] at hq
    rw [List.map_eq_nil_iff.mp hq]
    exact .ret h
  | cons segment rest =>
    rw [hc] at hq
    obtain ⟨segment', rest', hc', hs, hr⟩ := List.map_eq_cons_iff.mp hq
    rw [hc']
    have h₁ : Mirrors base watching
        { cb with sender := { cb.sender with unackedQueue := { segment with initialTx := none } :: rest } }
        { cb' with sender := { cb'.sender with unackedQueue := { segment' with initialTx := none } :: rest' } } :=
      { h with sender := { h.sender with unackedQueue := by simp [hs, hr] } }
    cases env.arp with
    | none => exact .ret h₁
    | some mac =>
      have hemit := emitMarked_mirrors h₁ h.sender.sendUnacked segment.bytes true mac
      simp only [hs] at hemit ⊢
      exact hemit

theorem close_mirrors (h : Mirrors base watching cb cb') (he : env.Alike env') :
    Matches (fun _ => True) (Answers base watching) (cb.close env) (cb'.close env') := by
  have hs : cb'.disableStats.state = cb.disableStats.state := h.state
  simp only [ControlBlock.close, h.userIsDoneSending, hs]
  refine .ite (fun _ => .ret ⟨rfl, h⟩) fun _ => .bind (.same _) fun _ _ _ =>
    .bind (send_mirrors h.disableStats he []) fun x x' hx => ?_
  obtain ⟨result, cb₁⟩ := x
  obtain ⟨result', cb₁'⟩ := x'
  obtain ⟨hres, hcb⟩ := hx
  cases hres
  cases result with
  | ok => exact .ret ⟨rfl, { hcb with userIsDoneSending := rfl }⟩
  | error => exact .fail

/-- The sender notices when the send window is set. -/
def EstablishedSocket.Watching (s : EstablishedSocket) : Prop := ∃ buf sendNext mac, s.sender = .probing buf sendNext mac

/-- Two sockets whose background senders wait at the same place. -/
structure SocketMirrors (base : List TcpSegment) (s s' : EstablishedSocket) : Prop where
  sender : s'.sender = s.sender
  cb : Mirrors base s.Watching s.cb s'.cb

abbrev SocketMatches (base : List TcpSegment) (o o' : Option EstablishedSocket) : Prop :=
  Matches (fun _ => True) (SocketMirrors base) o o'

theorem Mirrors.unwatched (h : Mirrors base watching cb cb') {p : Prop} (hp : ¬p) : Mirrors base p cb cb' :=
  { h with sender := { h.sender with sendWindowChanged := fun ht => absurd ht hp } }

theorem Mirrors.atTop (h : Mirrors base watching cb cb') : SocketMirrors base ⟨cb, .top⟩ ⟨cb', .top⟩ :=
  ⟨rfl, h.unwatched fun ⟨_, _, _, hp⟩ => by cases hp⟩

theorem Mirrors.awaiting (h : Mirrors base watching cb cb') (awaiting : Awaiting) :
    SocketMirrors base ⟨cb, .awaiting awaiting⟩ ⟨cb', .awaiting awaiting⟩ :=
  ⟨rfl, h.unwatched fun ⟨_, _, _, hp⟩ => by cases hp⟩

theorem emitProbe_mirrors (h : Mirrors base watching cb cb') (buf : Buffer) (sendNext : SeqNumber) (mac : MacAddress) :
    MirrorMatches base watching (cb.emitProbe buf sendNext mac) (cb'.emitProbe buf sendNext mac) := by
  exact .bind (tcpHeader_mirrors h) fun header header' hh =>
    emit_mirrors h (seqNum_hidePort hh rfl) false (some buf) mac

theorem popUnsent_mirrors {s s' : Sender} (h : SenderMirrors watching s s') (maxBytes : Nat) :
    Matches (fun _ => True) (Both fun x x' => x'.1 = x.1 ∧ SenderMirrors watching x.2 x'.2) (s.popUnsent maxBytes)
      (s'.popUnsent maxBytes) := by
  simp only [Sender.popUnsent, h.unsentQueue]
  cases s.unsentQueue with
  | nil => exact .ret trivial
  | cons buf queue =>
    refine .ite (fun _ => ?_) fun _ => .ret ⟨rfl, { h with unsentQueue := rfl }⟩
    refine .bind (.same _) fun rest _ hr => .bind (.same _) fun first _ hf => .ret ?_
    cases hr
    cases hf
    exact ⟨rfl, { h with unsentQueue := rfl }⟩

theorem popOneUnsentByte_mirrors {s s' : Sender} (h : SenderMirrors watching s s') :
    Matches (fun _ => True) (Both fun x x' => x'.1 = x.1 ∧ SenderMirrors watching x.2 x'.2) s.popOneUnsentByte
      s'.popOneUnsentByte := by
  simp only [Sender.popOneUnsentByte, h.unsentQueue]
  cases s.unsentQueue with
  | nil => exact .ret trivial
  | cons buf queue =>
    refine .bind (.same _) fun rest _ hr => .bind (.same _) fun byte _ hb => .ret ?_
    cases hr
    cases hb
    exact ⟨rfl, { h with unsentQueue := rfl }⟩

theorem sendProbe_mirrors (h : Mirrors base watching cb cb') (sendNext : SeqNumber) (mac : MacAddress) (now now' : Instant) :
    SocketMatches base (cb.sendProbe sendNext mac now) (cb'.sendProbe sendNext mac now') := by
  unfold ControlBlock.sendProbe
  refine .bind (popOneUnsentByte_mirrors h.sender) fun x x' hx => ?_
  cases x with
  | none =>
    cases x' with
    | none => exact .fail
    | some y' => exact absurd hx id
  | some y =>
    cases x' with
    | none => exact absurd hx id
    | some y' =>
      obtain ⟨buf, sender⟩ := y
      obtain ⟨buf', sender'⟩ := y'
      obtain ⟨hbuf, hsender⟩ : buf' = buf ∧ SenderMirrors watching sender sender' := hx
      cases hbuf
      refine .bind (@emitProbe_mirrors base watching _ _ ?_ buf sendNext mac) fun cb₁ cb₁' h₁ => .ret ⟨rfl, ?_⟩
      · refine { h with sender := { hsender with sendNext := ?_, unackedQueue := ?_ } }
        · simp [hsender.unackedQueue]
        · simp only [hsender.sendNext]
      · exact { h₁ with sender := { h₁.sender with sendWindowChanged := fun _ => rfl } }

theorem sendUnsent_mirrors (h : Mirrors base watching cb cb') (sendNext : SeqNumber) (maxSize : Nat) (mac : MacAddress) :
    SocketMatches base (cb.sendUnsent sendNext maxSize mac env) (cb'.sendUnsent sendNext maxSize mac env') := by
  unfold ControlBlock.sendUnsent
  refine .bind (popUnsent_mirrors h.sender maxSize) fun x x' hx => ?_
  cases x with
  | none =>
    cases x' with
    | none => exact .fail
    | some y' => exact absurd hx id
  | some y =>
    cases x' with
    | none => exact absurd hx id
    | some y' =>
      obtain ⟨⟨segmentData, doPush⟩, sender⟩ := y
      obtain ⟨data', sender'⟩ := y'
      obtain ⟨hdata, hsender⟩ := hx
      cases hdata
      have h₁ : Mirrors base watching { cb with sender := sender } { cb' with sender := sender' } :=
        { h with sender := hsender }
      refine .bind (tcpHeader_mirrors h₁) fun header header' hh =>
        .bind (.of_eq (by rw [show ControlBlock.userIsDoneSending _ = cb.userIsDoneSending from h.userIsDoneSending]))
          fun _ _ _ => ?_
      refine .bind (emit_mirrors h₁ (markHeader_hidePort (seqNum_hidePort hh rfl) segmentData doPush) false
        (some segmentData) mac) fun cb₁ cb₁' h₂ => .ret ?_
      exact ((h₂.noteSent segmentData env.now env'.now).startRetransmitTimer).atTop

theorem senderReads_mirrors (h : Mirrors base watching cb cb') (he : env.Alike env') :
    cb'.senderReads env' = cb.senderReads env := by
  simp only [ControlBlock.senderReads, Sender.topSizeUnsent, he.cwnd, he.limitedTransmitCwndIncrease,
    h.sender.unsentQueue, h.sender.sendNext, h.sender.sendUnacked, h.sender.unsentSeqNo, h.sender.sendWindow, h.sender.mss]

theorem senderQueries_mirrors (h : Mirrors base watching cb cb') (he : env.Alike env') (awaiting : Awaiting) :
    SocketMatches base (cb.senderQueries env awaiting) (cb'.senderQueries env' awaiting) := by
  unfold ControlBlock.senderQueries
  rw [he.arp]
  cases env.arp with
  | none => exact .ret (h.awaiting awaiting)
  | some mac =>
    cases awaiting with
    | probe sendNext => exact sendProbe_mirrors h sendNext mac env.now env'.now
    | segment sendNext winSz sentData effectiveCwnd =>
      simp only [ControlBlock.senderSends, h.sender.mss]
      exact sendUnsent_mirrors h sendNext _ mac

theorem background_mirrors {s s' : EstablishedSocket} (h : SocketMirrors base s s') (he : env.Alike env') :
    SocketMatches base (s.background env) (s'.background env') := by
  unfold EstablishedSocket.background
  rw [h.sender]
  cases hs : s.sender with
  | top =>
    rw [senderReads_mirrors h.cb he]
    refine .bind (.same _) fun awaiting _ hawaiting => ?_
    cases hawaiting
    cases awaiting with
    | none => exact .ret h
    | some awaiting => exact senderQueries_mirrors h.cb he awaiting
  | awaiting awaiting => exact senderQueries_mirrors h.cb he awaiting
  | probing buf sendNext mac => exact .ret h

end

end Capybara
