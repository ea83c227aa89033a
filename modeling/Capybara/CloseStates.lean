import Capybara.SendPhase
import Capybara.WindowAccounting

namespace Capybara

open ControlBlock Runs

/-- The state that goes with a FIN sent, that FIN acknowledged, the peer's FIN consumed, and that FIN consumed before
ours was sent. -/
def closeState (finSent finAcked peerFin peerFirst : Bool) : State :=
  match finSent, finAcked, peerFin, peerFirst with
  | false, _, false, _ => .established
  | false, _, true, _ => .closeWait
  | true, false, false, _ => .finWait1
  | true, true, false, _ => .finWait2
  | true, false, true, false => .closing
  | true, false, true, true => .lastAck
  | true, true, true, false => .timeWait
  | true, true, true, true => .closed

/-- Whether the FIN was sent and is no longer in the retransmission queue. -/
def ControlBlock.finAcked (cb : ControlBlock) : Bool :=
  cb.finSent && !cb.sender.outbox.inFlight.any List.isEmpty

/-- A connection, how often RCV.NXT moved over a FIN, and whether it had when our FIN was sent. -/
structure CloseRun where
  conn : SocketRun
  peerFins : Nat
  peerFirst : Bool

namespace CloseRun

def start (s : EstablishedSocket) : CloseRun := ⟨.start s, 0, false⟩

def cb (c : CloseRun) : ControlBlock := c.conn.socket.cb

/-- The bytes that were put into the receive queue, popped or not. -/
def bytesTaken (r : SocketRun) : Nat := r.popped.flatten.length + r.socket.cb.receiver.recvQueue.flatten.length

/-- The sequence numbers that RCV.NXT moved over and that are not those of text. -/
def finsTaken (r r' : SocketRun) : Nat :=
  (r'.socket.cb.receiver.receiveNext - r.socket.cb.receiver.receiveNext -
    SeqNumber.ofNat (bytesTaken r' - bytesTaken r)).toNat

def follow (c : CloseRun) (conn : SocketRun) : CloseRun where
  conn := conn
  peerFins := c.peerFins + finsTaken c.conn conn
  peerFirst := if c.cb.finSent then c.peerFirst else conn.socket.cb.finSent && decide (c.peerFins ≠ 0)

def step (c : CloseRun) (e : SocketEvent × Env) : Option CloseRun := (c.conn.step e).map c.follow

/-- No segment in the window carries RST or SYN. -/
def NoReset (c : CloseRun) (e : SocketEvent × Env) : Prop :=
  match e.1 with
  | .segment header data => ∀ s, (c.cb.trimToWindow header data).join = some s →
      s.header.rst = false ∧ s.header.syn = false
  | _ => True

/-- After the FIN of the peer no segment at RCV.NXT brings another one. -/
def OneFin (c : CloseRun) (e : SocketEvent × Env) : Prop :=
  match e.1 with
  | .segment header data => c.peerFins ≠ 0 → ∀ s, c.cb.processed header data = some s →
      s.segStart = c.cb.receiver.receiveNext → c.cb.finArrives s = false
  | _ => True

instance : (c : CloseRun) → (e : SocketEvent × Env) → Decidable (NoReset c e)
  | c, (.segment header data, _) =>
    inferInstanceAs (Decidable (∀ s, (c.cb.trimToWindow header data).join = some s → _))
  | _, (.pop, _) | _, (.push _, _) | _, (.close, _) | _, (.background, _) | _, (.retransmitTimer, _)
  | _, (.fastRetransmit, _) | _, (.ackTimer, _) | _, (.persistTimer, _) => inferInstanceAs (Decidable True)

instance : (c : CloseRun) → (e : SocketEvent × Env) → Decidable (OneFin c e)
  | c, (.segment header data, _) =>
    inferInstanceAs (Decidable (c.peerFins ≠ 0 → ∀ s, c.cb.processed header data = some s → _))
  | _, (.pop, _) | _, (.push _, _) | _, (.close, _) | _, (.background, _) | _, (.retransmitTimer, _)
  | _, (.fastRetransmit, _) | _, (.ackTimer, _) | _, (.persistTimer, _) => inferInstanceAs (Decidable True)

end CloseRun

/-- The state is the one that goes with what was sent, acknowledged and consumed. -/
def ClosesAs (cb : ControlBlock) (peerFin peerFirst : Bool) : Prop :=
  cb.state = closeState cb.finSent cb.finAcked peerFin peerFirst

/-- What a run keeps in which no segment resets the connection and the FINs come in turn. -/
structure Closes (c : CloseRun) : Prop where
  running : Running c.conn
  phase : SendPhase c.cb
  once : c.peerFins ≤ 1
  first : c.peerFirst = true → c.peerFins ≠ 0
  ours : c.cb.finSent = false → c.peerFirst = false
  state : ClosesAs c.cb (decide (c.peerFins ≠ 0)) c.peerFirst

section

variable {cb cb' cb₁ : ControlBlock} {sent : Option (SeqNumber × Buffer)} {o : Outbox} {peerFin peerFirst : Bool}
  {s : EstablishedSocket} {header : TcpHeader}

theorem stateAfterSending_eq (sent : Option (SeqNumber × Buffer)) (state : State) :
    stateAfterSending sent state = if IsMarker sent = true then stateAfterFin state else state := by
  rcases sent with - | ⟨seqNum, - | ⟨byte, buf⟩⟩ <;> rfl

theorem ClosesAs.congr (h : ClosesAs cb peerFin peerFirst) (hstate : cb'.state = cb.state) (hrt : cb'.rt = cb.rt)
    (hsender : cb'.sender = cb.sender) : ClosesAs cb' peerFin peerFirst := by
  rw [ClosesAs, finAcked, finSent, hstate, hrt, hsender]
  exact h

/-- Nothing goes out that ends the stream. -/
theorem ClosesAs.text (h : ClosesAs cb peerFin peerFirst) (hm : Moves cb cb' sent o) (hmark : IsMarker sent = false)
    (ho : o.inFlight.any List.isEmpty = cb.sender.outbox.inFlight.any List.isEmpty) : ClosesAs cb' peerFin peerFirst := by
  rw [ClosesAs, finAcked, hm.emitted.finSent, hm.state, hm.outbox, stateAfterSending_eq, hmark, ho, Bool.or_false]
  exact h

/-- The FIN goes out. -/
theorem ClosesAs.fin (h : ClosesAs cb peerFin peerFirst) (hm : Moves cb cb' sent o) (hmark : IsMarker sent = true)
    (hopen : cb.finSent = false) (ho : o.inFlight.any List.isEmpty = true) : ClosesAs cb' peerFin peerFin := by
  rw [ClosesAs, hopen] at h
  rw [ClosesAs, finAcked, hm.emitted.finSent, hm.state, hm.outbox, stateAfterSending_eq, hmark, ho, Bool.or_true, h]
  cases peerFin <;> rfl

/-- The FIN goes out again. -/
theorem ClosesAs.finAgain (h : ClosesAs cb peerFin peerFirst) (hm : Moves cb cb' sent cb.sender.outbox)
    (hmark : IsMarker sent = true) (hfin : cb.finSent = true)
    (ho : cb.sender.outbox.inFlight.any List.isEmpty = true) : ClosesAs cb' peerFin peerFirst := by
  rw [ClosesAs, finAcked, hfin, ho] at h
  rw [ClosesAs, finAcked, hm.emitted.finSent, hm.state, hm.outbox, stateAfterSending_eq, hmark, ho, Bool.or_true, h]
  cases peerFin <;> cases peerFirst <;> rfl

theorem EndsWithMarker.any {bufs : List Buffer} (h : EndsWithMarker bufs) : bufs.any List.isEmpty = true := by
  obtain ⟨front, rfl, -⟩ := h
  simp

/-- The ACK of everything acknowledges the FIN, and no other does. -/
theorem ClosesAs.ack (h : ClosesAs s.cb peerFin peerFirst) (hi : InFlight s) (hp : SendPhase s.cb)
    (ha : AckTakes s.cb header cb₁) : ClosesAs cb₁ peerFin peerFirst := by
  have hfin : cb₁.finSent = s.cb.finSent := by rw [finSent, ha.rt]; rfl
  rcases ha.acked with ⟨-, rfl⟩ | ⟨hnew, hsent, hunacked, hremove, hstate⟩
  · exact h
  · have htotal := removeAcknowledgedData_total hremove
    have hout := hi.outstanding
    change _ + seqTotal cb₁.sender.outbox.inFlight = seqTotal s.cb.sender.outbox.inFlight at htotal
    have hall : header.ackNum = s.cb.sender.sendNext ↔ cb₁.sender.outbox.inFlight = [] := by
      have hn := header.ackNum.toNat_lt
      have hs := s.cb.sender.sendNext.toNat_lt
      have hu := s.cb.sender.sendUnacked.toNat_lt
      rw [← SeqNumber.toNat_inj]
      constructor
      · intro heq
        by_contra hne
        have hpos := seqTotal_pos hne
        simp only [SeqNumber.toNat_sub] at htotal hout
        omega
      · intro hnil
        rw [hnil, seqTotal_nil] at htotal
        simp only [SeqNumber.toNat_sub] at htotal hout
        omega
    cases hp with
    | sending hopen htext =>
      rw [ClosesAs, finAcked, hfin, hopen, hstate]
      rw [ClosesAs, finAcked, hopen] at h
      rw [h]
      cases peerFin <;> simp [closeState, stateAfterAck]
    | finished hclosed _ _ hlast =>
      rcases hlast with hnil | hmarker
      · rw [hnil, seqTotal_nil] at htotal
        rw [SeqNumber.lt_iff] at hnew
        have hn := header.ackNum.toNat_lt
        have hu := s.cb.sender.sendUnacked.toNat_lt
        simp only [SeqNumber.toNat_sub] at hnew htotal
        omega
      · rw [ClosesAs, finAcked, hclosed, hmarker.any] at h
        rcases removeAcknowledgedData_marker hremove hmarker with hnone | hstill
        · have hnone : cb₁.sender.outbox.inFlight = [] := hnone
          rw [ClosesAs, finAcked, hfin, hclosed, hstate, if_pos (hall.mpr hnone), hnone, h]
          cases peerFin <;> cases peerFirst <;> rfl
        · have hstill : EndsWithMarker cb₁.sender.outbox.inFlight := hstill
          have hne : cb₁.sender.outbox.inFlight ≠ [] := by
            obtain ⟨front, hfront, -⟩ := hstill
            rw [hfront]
            simp
          rw [ClosesAs, finAcked, hfin, hclosed, hstate, if_neg (mt hall.mp hne), hstill.any, h]

/-- The peer's FIN moves the state on. -/
theorem ClosesAs.consume {state : State} (h : ClosesAs cb false false) (hs : stateAfterPeerFin cb.state = some state) :
    state = closeState cb.finSent cb.finAcked true false := by
  rw [h] at hs
  have hacked : cb.finAcked = true → cb.finSent = true := fun ha => (Bool.and_eq_true _ _ ▸ ha).1
  cases hf : cb.finSent <;> cases ha : cb.finAcked <;> rw [hf, ha] at hs <;> exact (Option.some.inj hs).symm

end

open CloseRun

section

variable {c : CloseRun} {conn : SocketRun} {e : SocketEvent} {env : Env} {sent : Option (SeqNumber × Buffer)} {o : Outbox}
  {cb₁ : ControlBlock}

theorem finsTaken_eq {r r' : SocketRun} {text fin : Nat} (hfin : fin < 2 ^ 32)
    (hnext : r'.socket.cb.receiver.receiveNext = r.socket.cb.receiver.receiveNext + SeqNumber.ofNat (text + fin))
    (htext : bytesTaken r' = bytesTaken r + text) : finsTaken r r' = fin := by
  have hr := r.socket.cb.receiver.receiveNext.toNat_lt
  rw [finsTaken, hnext, htext, Nat.add_sub_cancel_left]
  simp only [SeqNumber.toNat_sub, SeqNumber.toNat_add_ofNat, SeqNumber.toNat_ofNat]
  omega

theorem finsTaken_same {r r' : SocketRun} (hnext : r'.socket.cb.receiver.receiveNext = r.socket.cb.receiver.receiveNext)
    (hbytes : bytesTaken r' = bytesTaken r) : finsTaken r r' = 0 :=
  @finsTaken_eq r r' 0 0 (by omega) (by rw [hnext, SeqNumber.add_ofNat_zero]) hbytes

theorem Closes.follow (h : Closes c) (hrun : Running conn) (hphase : SendPhase conn.socket.cb)
    (hmono : c.cb.finSent = true → conn.socket.cb.finSent = true) (hle : (c.follow conn).peerFins ≤ 1)
    (hstate : ClosesAs conn.socket.cb (decide ((c.follow conn).peerFins ≠ 0)) (c.follow conn).peerFirst) :
    Closes (c.follow conn) := by
  refine ⟨hrun, hphase, hle, fun hfirst => ?_, fun hopen => ?_, hstate⟩
  · have hle' : c.peerFins ≤ (c.follow conn).peerFins := Nat.le_add_right _ _
    have hpos : c.peerFins ≠ 0 := by
      simp only [CloseRun.follow] at hfirst
      split at hfirst
      next => exact h.first hfirst
      next => exact of_decide_eq_true (Bool.and_eq_true_iff.mp hfirst).2
    omega
  · have hnot : ¬c.cb.finSent = true := fun hfin => by
      have hfin' := hmono hfin
      rw [show conn.socket.cb.finSent = false from hopen] at hfin'
      cases hfin'
    rw [CloseRun.follow, if_neg hnot, show conn.socket.cb.finSent = false from hopen]
    rfl

theorem Closes.peerFirst_same (h : Closes c) (hf : conn.socket.cb.finSent = c.cb.finSent) :
    (c.follow conn).peerFirst = c.peerFirst := by
  rw [CloseRun.follow]
  split
  next => rfl
  next hopen =>
    have hopen : c.cb.finSent = false := by simpa using hopen
    rw [hf, hopen, h.ours hopen]
    rfl

/-- Nothing comes in. -/
theorem Closes.still (h : Closes c) (hrun : Running conn) (hphase : SendPhase conn.socket.cb)
    (hfins : finsTaken c.conn conn = 0) (hf : conn.socket.cb.finSent = c.cb.finSent)
    (hstate : ClosesAs conn.socket.cb (decide (c.peerFins ≠ 0)) c.peerFirst) : Closes (c.follow conn) := by
  have hsame : (c.follow conn).peerFins = c.peerFins := by rw [CloseRun.follow, hfins, Nat.add_zero]
  refine h.follow hrun hphase (fun hfin => hf.trans hfin) (by rw [hsame]; exact h.once) ?_
  rw [hsame, h.peerFirst_same hf]
  exact hstate

/-- The FIN goes out, or text does, or nothing. -/
theorem Closes.sends (h : Closes c) (hrun : Running conn) (hphase : SendPhase conn.socket.cb)
    (hfins : finsTaken c.conn conn = 0) (hm : Moves c.cb cb₁ sent o) (hstate : conn.socket.cb.state = cb₁.state)
    (hrt : conn.socket.cb.rt = cb₁.rt) (hsender : conn.socket.cb.sender = cb₁.sender)
    (hopen : IsMarker sent = true → c.cb.finSent = false)
    (ho : o.inFlight.any List.isEmpty = (c.cb.sender.outbox.inFlight.any List.isEmpty || IsMarker sent)) :
    Closes (c.follow conn) := by
  have hf := hm.emitted.finSent
  have hfin : conn.socket.cb.finSent = cb₁.finSent := by rw [finSent, finSent, hrt]
  cases hmark : IsMarker sent with
  | false =>
    rw [hmark, Bool.or_false] at hf ho
    exact h.still hrun hphase hfins (hfin.trans hf) ((h.state.text hm hmark ho).congr hstate hrt hsender)
  | true =>
    have hopen := hopen hmark
    rw [hmark, Bool.or_true] at hf ho
    have hsame : (c.follow conn).peerFins = c.peerFins := by rw [CloseRun.follow, hfins, Nat.add_zero]
    have hfirst : (c.follow conn).peerFirst = decide (c.peerFins ≠ 0) := by
      rw [CloseRun.follow, if_neg (by simp [hopen]), hfin, hf]
      rfl
    refine h.follow hrun hphase (fun _ => hfin.trans hf) (by rw [hsame]; exact h.once) ?_
    rw [hsame, hfirst]
    exact (h.state.fin hm hmark hopen ho).congr hstate hrt hsender

/-- A segment comes in. -/
theorem Closes.received {header : TcpHeader} {data : Buffer} (h : Closes c) (hrun : Running conn)
    (hphase : SendPhase conn.socket.cb) (hreset : c.NoReset (.segment header data, env))
    (hone : c.OneFin (.segment header data, env)) (hr : Received c.cb header data conn.socket.cb)
    (hpopped : conn.popped = c.conn.popped) : Closes (c.follow conn) := by
  have hf : conn.socket.cb.finSent = c.cb.finSent := hr.emits.finSent.trans (Bool.or_false _)
  have hsame : ∀ {cb : ControlBlock}, cb.receiver.receiveNext = c.cb.receiver.receiveNext →
      cb.receiver.recvQueue = c.cb.receiver.recvQueue → conn.socket.cb.receiver = cb.receiver →
      finsTaken c.conn conn = 0 := by
    intro cb hnext hqueue heq
    refine finsTaken_same (by rw [heq]; exact hnext) ?_
    rw [bytesTaken, bytesTaken, hpopped, heq, hqueue]
    rfl
  cases hr with
  | dropped hm hc =>
    refine h.still hrun hphase (hsame rfl rfl hc.receiver) hf ?_
    rw [ClosesAs, finAcked, hf, hc.state, hc.sender]
    exact h.state
  | reset hkept hflag =>
    obtain ⟨hrst, hsyn⟩ := hreset _ (Option.join_eq_some_iff.mpr hkept)
    rw [hrst, hsyn] at hflag
    rcases hflag with hflag | hflag <;> cases hflag
  | @setAside s cb₁ hp hack _ hs =>
    refine h.still hrun hphase (hsame hack.inbound.receiveNext hack.inbound.recvQueue hs.receiver) hf ?_
    have hacked := h.state.ack h.running.inFlight h.phase hack
    have hfin : cb₁.finSent = c.cb.finSent := by rw [finSent, hack.rt]; rfl
    rw [ClosesAs, finAcked, hf, hs.state, hs.sender, ← hfin]
    exact hacked
  | @inOrder s cb₁ hp hack hstart hi =>
    have hacked := h.state.ack h.running.inFlight h.phase hack
    have hfin : cb₁.finSent = c.cb.finSent := by rw [finSent, hack.rt]; rfl
    have hfinAcked : conn.socket.cb.finAcked = cb₁.finAcked := by rw [finAcked, finAcked, hf, hfin, hi.sender]
    have hfins : finsTaken c.conn conn = (cb₁.finArrives s).toNat := by
      apply @finsTaken_eq c.conn conn (textOf (cb₁.arrivals s)).length
      · have hle := Bool.toNat_le (cb₁.finArrives s)
        omega
      · rw [hi.receiveNext, hack.inbound.receiveNext]
        rfl
      · rw [bytesTaken, bytesTaken, hpopped, hi.recvQueue, hack.inbound.recvQueue, List.flatten_append,
          List.length_append, ← Nat.add_assoc]
        rfl
    have hstate := hi.state
    cases hfa : cb₁.finArrives s with
    | false =>
      rw [hfa, if_neg (by simp)] at hstate
      rw [hfa] at hfins
      refine h.still hrun hphase hfins hf ?_
      rw [ClosesAs, hfinAcked, hf, hstate, ← hfin]
      exact hacked
    | true =>
      rw [hfa, if_pos rfl] at hstate
      rw [hfa, Bool.toNat_true] at hfins
      have hzero : c.peerFins = 0 := by
        by_contra hne
        have hno := hone hne s (processed_eq_some.mpr hp) hstart
        rw [← hack.finArrives, hfa] at hno
        cases hno
      have hfirst : c.peerFirst = false := by
        rw [← Bool.not_eq_true]
        exact fun hfirst => h.first hfirst hzero
      have hcount : (c.follow conn).peerFins = 1 := by rw [CloseRun.follow, hfins, hzero]
      refine h.follow hrun hphase (fun hfin => hf.trans hfin) (by rw [hcount]) ?_
      rw [hzero, hfirst] at hacked
      rw [h.peerFirst_same hf, hfirst, hcount, ClosesAs, hfinAcked, hf, ← hfin]
      exact hacked.consume hstate

theorem finsTaken_outbound {r r' : SocketRun} (hin : SameInbound r.socket.cb r'.socket.cb)
    (hpopped : r'.popped = r.popped) : finsTaken r r' = 0 :=
  finsTaken_same hin.receiveNext (by rw [bytesTaken, bytesTaken, hpopped, hin.recvQueue])

theorem finsTaken_popped {r r' : SocketRun} (hcb : r'.socket.cb = r.socket.cb.pollRecv.2)
    (hpopped : r'.popped = r.popped ++ r.socket.cb.pollRecv.1.toList) : finsTaken r r' = 0 := by
  apply finsTaken_same
  · rw [hcb, pollRecv]
    cases hpop : r.socket.cb.receiver.pop with
    | none => rfl
    | some popped =>
      unfold Receiver.pop at hpop
      split at hpop
      next => cases hpop
      next =>
        cases hpop
        rfl
  · rw [bytesTaken, bytesTaken, hpopped, hcb, pollRecv]
    unfold Receiver.pop
    cases hq : r.socket.cb.receiver.recvQueue with
    | nil => simp [hq]
    | cons buf rest =>
      simp only [Option.toList_some, List.flatten_append, List.flatten_cons, List.flatten_nil, List.length_append,
        List.length_nil]
      omega

theorem isMarker_text {seqNum : SeqNumber} {piece : Buffer} (bufs : List Buffer) :
    (bufs ++ [piece]).any List.isEmpty = (bufs.any List.isEmpty || IsMarker (some (seqNum, piece))) := by
  simp [IsMarker]

theorem Resent.marker_any {s : EstablishedSocket} (h : Resent s sent) (hmark : IsMarker sent = true) :
    s.cb.sender.outbox.inFlight.any List.isEmpty = true := by
  cases h with
  | nothing => cases hmark
  | oldest hq =>
    rw [hq, List.any_cons]
    simp only [show List.isEmpty _ = true from hmark, Bool.true_or]
  | probe => cases hmark

theorem closes_step {c' : CloseRun} {e : SocketEvent × Env} (h : Closes c)
    (hok : (c.conn.FitsPacket e ∧ c.conn.SendsFinLast e) ∧ c.NoReset e ∧ c.OneFin e) (hs : c.step e = some c') :
    Closes c' := by
  obtain ⟨conn, hconn, rfl⟩ := Option.map_eq_some_iff.mp hs
  obtain ⟨⟨hdata, hlast⟩, hreset, hone⟩ := hok
  obtain ⟨hstep, hrun⟩ := h.running.step hdata hconn
  have hphase := sendPhase_step h.phase h.running.inFlight.toCoherent h.running.inFlight.toWithinHalf hlast hstep
  obtain ⟨event, env⟩ := e
  cases hstep with
  | received he hr _ hpopped =>
    dsimp only at he
    subst he
    exact h.received hrun hphase hreset hone hr hpopped
  | popped _ hcb _ hpopped =>
    obtain ⟨hrt, hstate, -⟩ := pollRecv_outbound c.conn.socket.cb
    have hsender := pollRecv_sender c.conn.socket.cb
    rw [← hcb] at hrt hstate hsender
    exact h.still hrun hphase (finsTaken_popped hcb hpopped) (by rw [finSent, hrt]; rfl)
      (h.state.congr hstate hrt hsender)
  | refused hsocket hpopped =>
    have hcb : conn.socket.cb = c.cb := congrArg EstablishedSocket.cb hsocket
    exact h.still hrun hphase (finsTaken_outbound (hcb ▸ .refl _) hpopped) (by rw [hcb])
      (h.state.congr (by rw [hcb]) (by rw [hcb]) (by rw [hcb]))
  | sentNow hh hopen _ _ hm _ hpopped =>
    have hsame := hh.same
    exact h.sends hrun hphase (finsTaken_outbound (hm.inbound.trans hsame.inbound) hpopped) hm hsame.state hsame.rt
      hsame.sender (fun _ => h.phase.open (.inl hopen)) (isMarker_text _)
  | queued hh _ _ _ hm _ hpopped =>
    have hsame := hh.same
    exact h.sends hrun hphase (finsTaken_outbound (hm.inbound.trans hsame.inbound) hpopped) hm hsame.state hsame.rt
      hsame.sender (fun hmark => by cases hmark) (Bool.or_false _).symm
  | turn _ ht hpopped =>
    have hfins := finsTaken_outbound ht.inbound hpopped
    have hstill : conn.socket.cb = c.cb → Closes (c.follow conn) := fun hcb =>
      h.still hrun hphase hfins (by rw [hcb]) (h.state.congr (by rw [hcb]) (by rw [hcb]) (by rw [hcb]))
    cases ht with
    | idle _ hsame => exact hstill (by rw [hsame]; rfl)
    | awaits _ _ hsame => exact hstill (by rw [hsame]; rfl)
    | probe _ _ _ _ _ hm =>
      exact h.sends hrun hphase hfins hm rfl rfl rfl (fun hmark => by cases hmark) (isMarker_text _)
    | segment _ _ _ hq _ _ hm =>
      refine h.sends hrun hphase hfins hm rfl rfl rfl (fun _ => h.phase.open (.inr ?_)) (isMarker_text _)
      change c.conn.socket.cb.sender.unsentQueue ≠ []
      rw [hq]
      simp
  | @resent sent _ hsent hm _ hpopped =>
    have hfins := finsTaken_outbound hm.inbound hpopped
    cases hmark : IsMarker sent with
    | false =>
      exact h.sends hrun hphase hfins hm rfl rfl rfl (fun hm' => by rw [hmark] at hm'; cases hm')
        (by rw [hmark, Bool.or_false]; rfl)
    | true =>
      have hfin : c.cb.finSent = true := h.phase.resent_marker hsent hmark
      have hf : conn.socket.cb.finSent = c.cb.finSent := by
        rw [hfin, hm.emitted.finSent, hmark, Bool.or_true]
      exact h.still hrun hphase hfins hf (h.state.finAgain hm hmark hfin (hsent.marker_any hmark))

theorem Opened.closes {cb : ControlBlock} (h : Opened cb) : Closes (.start ⟨cb, .top⟩) where
  running := h.running
  phase := h.sendPhase
  once := Nat.zero_le _
  first := fun hfirst => by cases hfirst
  ours := fun _ => rfl
  state := by
    have hfin : cb.finSent = false := by rw [finSent]; exact congrArg (List.any · _) h.rt
    change cb.state = closeState cb.finSent cb.finAcked false false
    rw [finAcked, hfin, h.state]
    rfl

/-- As long as no segment resets the connection, the FIN is the last thing sent, and no segment brings a second FIN of the
peer, the state is the one that goes with the FINs, and RCV.NXT moves over a FIN at most once. -/
theorem closeRun_state {cb : ControlBlock} {es : List (SocketEvent × Env)} (ho : Opened cb)
    (hp : Admits CloseRun.step (fun c => c.conn.FitsPacket) (.start ⟨cb, .top⟩) es)
    (hreset : Admits CloseRun.step NoReset (.start ⟨cb, .top⟩) es)
    (hlast : Admits CloseRun.step (fun c => c.conn.SendsFinLast) (.start ⟨cb, .top⟩) es)
    (hone : Admits CloseRun.step OneFin (.start ⟨cb, .top⟩) es) (hr : run CloseRun.step (.start ⟨cb, .top⟩) es = some c) :
    c.cb.state = closeState c.cb.finSent c.cb.finAcked (decide (c.peerFins ≠ 0)) c.peerFirst ∧ c.peerFins ≤ 1 := by
  have h : Closes c :=
    run_reaches (fun _ _ _ h hok hs => closes_step h hok hs) ho.closes ((hp.and hlast).and (hreset.and hone)) hr
  exact ⟨h.state, h.once⟩

end

theorem closeRun_state_sample : ∃ c, run CloseRun.step (.start ⟨smallWindow, .top⟩)
      [(.segment (peerHeader ⟨40⟩ true) [1, 2], linkEnv), (.close, linkEnv)] = some c ∧
    c.cb.state = closeState c.cb.finSent c.cb.finAcked (decide (c.peerFins ≠ 0)) c.peerFirst ∧ c.peerFins ≤ 1 ∧
    c.cb.state = .lastAck := by
  obtain ⟨c, hr, hlast⟩ : ∃ c, run CloseRun.step (.start ⟨smallWindow, .top⟩)
      [(.segment (peerHeader ⟨40⟩ true) [1, 2], linkEnv), (.close, linkEnv)] = some c ∧ c.cb.state = .lastAck :=
    ⟨_, rfl, rfl⟩
  obtain ⟨hstate, honce⟩ := closeRun_state smallWindow_opened (by decide) (by decide) (by decide) (by decide) hr
  exact ⟨c, hr, hstate, honce, hlast⟩

/-- In state CLOSE-WAIT another FIN of the peer moves RCV.NXT once more. -/
theorem closeRun_state_second_fin : ∃ c, Opened smallWindow ∧
    Admits CloseRun.step NoReset (.start ⟨smallWindow, .top⟩)
      [(.segment (peerHeader ⟨40⟩ true) [], linkEnv), (.segment (peerHeader ⟨41⟩ true) [], linkEnv)] ∧
    run CloseRun.step (.start ⟨smallWindow, .top⟩)
      [(.segment (peerHeader ⟨40⟩ true) [], linkEnv), (.segment (peerHeader ⟨41⟩ true) [], linkEnv)] = some c ∧
    c.cb.state = .closeWait ∧ c.cb.receiver.receiveNext = ⟨42⟩ ∧ c.peerFins = 2 :=
  ⟨_, smallWindow_opened, by decide, rfl, rfl, rfl, rfl⟩

end Capybara
