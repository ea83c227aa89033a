import Capybara.AckNumbers
import Capybara.Migration
import Capybara.PeerStream

namespace Capybara

open ControlBlock Runs StreamRun

/-- The text that a connection has received in order: what was popped and what waits to be. -/
def SocketRun.delivered (r : SocketRun) : Buffer := r.popped.flatten ++ r.socket.cb.receiver.recvQueue.flatten

inductive Side
  | client | server
  deriving DecidableEq, Repr

def Side.peer : Side → Side
  | .client => .server
  | .server => .client

/-- The two ends of a connection. An end may move from one server to another; `past` is what it sent before. What one
end has sent may reach the other at any time, in any order, more than once or never. -/
structure Link where
  ends : Side → StreamRun
  past : Side → List Transmission

inductive LinkEvent
  | call (side : Side) (e : SocketEvent) (env : Env)
  | deliver (side : Side) (index : Nat) (env : Env)
  | migrate (side : Side) (appState : MigratedApplicationState) (local_ : SocketAddrV4) (ackDelayTimeout : Duration)

def LinkEvent.side : LinkEvent → Side
  | .call side _ _ | .deliver side _ _ | .migrate side _ _ _ => side

namespace Link

def start (blocks : Side → ControlBlock) : Link where
  ends side := .start ⟨blocks side, .top⟩
  past _ := []

def sent (l : Link) (side : Side) : List Transmission := l.past side ++ (l.ends side).cb.rt

def set (l : Link) (side : Side) (s : StreamRun) (past : List Transmission) : Link where
  ends other := if other = side then s else l.ends other
  past other := if other = side then past else l.past other

/-- What happens at an end: a call, a timer or a segment that the peer has sent. Segments come from the peer only. -/
def happens (l : Link) (e : LinkEvent) : Option (SocketEvent × Env) :=
  match e with
  | .call _ (.segment _ _) _ | .migrate _ _ _ _ => none
  | .call _ e env => some (e, env)
  | .deliver side index env => (l.sent side.peer)[index]?.map fun t =>
    (.segment t.segment.tcpHdr (t.segment.data.getD []), env)

def step (l : Link) (e : LinkEvent) : Option Link :=
  match e with
  | .migrate side appState local_ ackDelayTimeout => do
    let s := l.ends side
    let socket ← s.conn.socket.migrate appState local_ ackDelayTimeout
    some (l.set side { s with conn := { s.conn with socket := socket } } (l.sent side))
  | e => do
    let e' ← l.happens e
    let s ← (l.ends e.side).step e'
    some (l.set e.side s (l.past e.side))

/-- An open connection that its user has not closed, with no more in flight than the peer's window may hold. -/
def Movable (s : EstablishedSocket) : Prop :=
  s.cb.state = .established ∧ s.cb.userIsDoneSending = false ∧ seqTotal s.cb.sender.outbox.inFlight ≤ 2 ^ 31

instance (s : EstablishedSocket) : Decidable (Movable s) := inferInstanceAs (Decidable (_ ∧ _))

/-- Segments fit a packet, the end-of-send marker goes out last, and only open connections move. -/
def Sound (l : Link) (e : LinkEvent) : Prop :=
  match e with
  | .migrate side _ _ _ => Movable (l.ends side).conn.socket
  | e => ∀ e', l.happens e = some e' → (l.ends e.side).conn.FitsPacket e' ∧ (l.ends e.side).conn.SendsFinLast e'

instance : (l : Link) → (e : LinkEvent) → Decidable (l.Sound e)
  | l, .migrate side _ _ _ => inferInstanceAs (Decidable (Movable (l.ends side).conn.socket))
  | l, .call side e env => inferInstanceAs (Decidable (∀ e', l.happens (.call side e env) = some e' → _))
  | l, .deliver side index env => inferInstanceAs (Decidable (∀ e', l.happens (.deliver side index env) = some e' → _))

/-- The text that a side takes from the application is short enough for each byte to have a number of its own. -/
def Short (l : Link) : Prop := ∀ side, (l.ends side).pushed.length + 1 < 2 ^ 32

instance (l : Link) : Decidable l.Short :=
  decidable_of_iff ((l.ends .client).pushed.length + 1 < 2 ^ 32 ∧ (l.ends .server).pushed.length + 1 < 2 ^ 32)
    ⟨fun h side => by cases side; exacts [h.1, h.2], fun h => ⟨h .client, h .server⟩⟩

end Link

/-- Two blocks as a handshake leaves them: each starts to receive where the other starts to send. -/
structure Connected (blocks : Side → ControlBlock) : Prop where
  opened : ∀ side, Opened (blocks side)
  receiveNext : ∀ side, (blocks side).receiver.receiveNext = (blocks side.peer).sender.sendNext

/-- What an event other than a segment does to the receiving side. -/
structure Awaits (r r' : SocketRun) : Prop where
  unmoved : Unmoved r.socket.cb r'.socket.cb
  outOfOrder : r'.socket.cb.outOfOrder = r.socket.cb.outOfOrder
  delivered : r'.delivered = r.delivered
  sendUnacked : r'.socket.cb.sender.sendUnacked = r.socket.cb.sender.sendUnacked

/-- A segment that a side has sent: it belongs to the stream of the side and acknowledges no more than what the side has
read of the peer's. -/
structure Sent (isn peerIsn : SeqNumber) (s : StreamRun) (t : Transmission) : Prop where
  genuine : Genuine isn s.pushed (s.cb.userIsDoneSending = true) t.segment.tcpHdr (t.segment.data.getD [])
  acknowledges : NotAfter peerIsn t.segment.tcpHdr.ackNum s.cb.receiver.receiveNext

/-- What a step of one end does while the other end is in state `p`. -/
structure EndStep (isn peerIsn : SeqNumber) (p s s' : StreamRun) : Prop where
  streams : Streams isn s'
  reads : Reads peerIsn p.pushed (p.cb.userIsDoneSending = true) s'.conn.delivered s'.cb
  advances : NotAfter peerIsn s.cb.receiver.receiveNext s'.cb.receiver.receiveNext
  pushes : s.pushed <+: s'.pushed
  done : s.cb.userIsDoneSending = true → s'.cb.userIsDoneSending = true ∧ s'.pushed = s.pushed
  sent : ∀ t ∈ s'.cb.rt, t ∈ s.cb.rt ∨ Sent isn peerIsn s' t
  acked : s'.cb.sender.sendUnacked = s.cb.sender.sendUnacked ∨
    NotAfter isn s'.cb.sender.sendUnacked p.cb.receiver.receiveNext

section

variable {r r' : SocketRun} {e : SocketEvent} {env : Env} {cb cb' cb₁ : ControlBlock} {buf : Buffer}
  {sent : Option (SeqNumber × Buffer)} {o : Outbox}

theorem Moves.awaits (hm : Moves r.socket.cb r'.socket.cb sent o) (ho : o.sendUnacked = r.socket.cb.sender.sendUnacked)
    (hpopped : r'.popped = r.popped) : Awaits r r' where
  unmoved := hm.unmoved
  outOfOrder := hm.inbound.outOfOrder
  delivered := by rw [SocketRun.delivered, SocketRun.delivered, hpopped, hm.inbound.recvQueue]
  sendUnacked := (congrArg Outbox.sendUnacked hm.outbox).trans ho

theorem Handed.awaits (hh : Handed cb₁ e buf r'.socket.cb) (hm : Moves r.socket.cb cb₁ sent o)
    (ho : o.sendUnacked = r.socket.cb.sender.sendUnacked) (hpopped : r'.popped = r.popped) : Awaits r r' := by
  have ha : Awaits r ⟨⟨cb₁, r'.socket.sender⟩, r'.popped, r'.results⟩ := Moves.awaits hm ho hpopped
  have hs := hh.same
  refine ⟨⟨?_, ?_, ?_⟩, ?_, ?_, ?_⟩
  · exact hs.inbound.receiveNext.trans ha.unmoved.receiveNext
  · exact hs.inbound.outOfOrderFin.trans ha.unmoved.outOfOrderFin
  · rw [hs.state]
    exact ha.unmoved.state
  · exact hs.inbound.outOfOrder.trans ha.outOfOrder
  · rw [← ha.delivered, SocketRun.delivered, SocketRun.delivered, hs.inbound.recvQueue]
  · rw [hs.sender]
    exact ha.sendUnacked

theorem pollRecv_inbound (cb : ControlBlock) : Unmoved cb cb.pollRecv.2 ∧ cb.pollRecv.2.outOfOrder = cb.outOfOrder ∧
    cb.pollRecv.1.toList.flatten ++ cb.pollRecv.2.receiver.recvQueue.flatten = cb.receiver.recvQueue.flatten := by
  unfold pollRecv Receiver.pop
  cases hq : cb.receiver.recvQueue with
  | nil => exact ⟨⟨rfl, rfl, .refl _⟩, rfl, by simp [hq]⟩
  | cons buf queue => exact ⟨⟨rfl, rfl, .refl _⟩, rfl, by simp⟩

/-- Only a segment changes what was received. -/
theorem SocketStep.awaits (h : SocketStep r e env r') (hseg : ∀ header data, e ≠ .segment header data) :
    Awaits r r' := by
  cases h with
  | received he => exact absurd he (hseg _ _)
  | popped _ hcb _ hpopped =>
    obtain ⟨hu, hstore, hqueue⟩ := pollRecv_inbound r.socket.cb
    rw [← hcb] at hu hstore hqueue
    refine ⟨hu, hstore, ?_, by rw [hcb, pollRecv_sender]⟩
    rw [SocketRun.delivered, SocketRun.delivered, hpopped, List.flatten_append, List.append_assoc, hqueue]
  | refused hsocket hpopped =>
    have hm : Moves r.socket.cb r'.socket.cb none r.socket.cb.sender.outbox := by
      rw [hsocket]
      exact .refl _
    exact hm.awaits rfl hpopped
  | sentNow hh _ _ _ hm _ hpopped => exact hh.awaits hm rfl hpopped
  | queued hh _ _ _ hm _ hpopped => exact hh.awaits hm rfl hpopped
  | turn _ ht hpopped =>
    obtain ⟨sent, o, hm, hunacked⟩ := ht.moves
    exact hm.awaits hunacked hpopped
  | resent _ _ hm _ hpopped => exact hm.awaits rfl hpopped

/-- A user that is done pushes nothing more. -/
theorem SocketStep.done (h : SocketStep r e env r') (hdone : r.socket.cb.userIsDoneSending = true) :
    accepted r'.results e = [] ∧ r'.socket.cb.userIsDoneSending = true := by
  cases h with
  | received he hr =>
    subst he
    exact ⟨rfl, hr.done.trans hdone⟩
  | popped he hcb =>
    subst he
    exact ⟨rfl, by rw [hcb, (pollRecv_outbound _).2.2, hdone]⟩
  | refused hsocket _ hresults => exact ⟨accepted_refused hresults, by rw [hsocket, hdone]⟩
  | sentNow _ hopen => rw [hopen] at hdone; cases hdone
  | queued _ hopen => rw [hopen] at hdone; cases hdone
  | turn he ht =>
    subst he
    obtain ⟨sent, o, hm, -⟩ := ht.moves
    exact ⟨rfl, hm.done.trans hdone⟩
  | resent he _ hm => exact ⟨by rcases he with rfl | rfl | rfl | rfl <;> rfl, hm.done.trans hdone⟩

theorem ControlBlock.Received.sendUnacked {header : TcpHeader} {data : Buffer} (hr : Received cb header data cb')
    (hd : data.length < 2 ^ 16) (hsyn : header.syn = false) :
    cb'.sender.sendUnacked = cb.sender.sendUnacked ∨ cb'.sender.sendUnacked = header.ackNum := by
  have htaken : ∀ {s : Incoming} {cb₁ : ControlBlock}, Processed cb header data s → AckTakes cb s.header cb₁ →
      cb₁.sender.sendUnacked = cb.sender.sendUnacked ∨ cb₁.sender.sendUnacked = header.ackNum := by
    intro s cb₁ hp hack
    rcases hack.acked with ⟨-, rfl⟩ | ⟨-, -, hnew, -⟩
    · exact .inl rfl
    · exact .inr (hnew.trans (trimToWindow_cutOf hd hsyn hp.kept).ackNum)
  cases hr with
  | dropped _ hc => exact .inl (by rw [hc.sender])
  | reset _ _ _ hsender => exact .inl (by rw [hsender])
  | setAside hp hack _ hs =>
    rw [hs.sender]
    exact htaken hp hack
  | inOrder hp hack _ hi =>
    rw [hi.sender]
    exact htaken hp hack

end

section

variable {isn peerIsn : SeqNumber} {p s s' : StreamRun} {e : SocketEvent × Env}

theorem NotAfter.trans {a b c : SeqNumber} (h : NotAfter isn a b) (h' : NotAfter isn b c) : NotAfter isn a c :=
  Nat.le_trans h h'

/-- A segment that stands where its number says, with the FIN behind the stream. -/
theorem sent_genuine {t : Transmission} (h : Streams isn s) (hsyn : t.segment.tcpHdr.syn = false)
    (hfin : t.segment.tcpHdr.fin = true ↔ t.segment.data = some [])
    (hplaces : ∀ buf, t.segment.data = some buf → s.Places t.segment.tcpHdr.seqNum buf) :
    Genuine isn s.pushed (s.cb.userIsDoneSending = true) t.segment.tcpHdr (t.segment.data.getD []) := by
  refine ⟨hsyn, fun hne => ?_, fun hf => ?_⟩
  · cases hdata : t.segment.data with
    | none =>
      rw [hdata] at hne
      exact absurd rfl hne
    | some buf =>
      have hplace := hplaces buf hdata
      obtain ⟨before, after, hpushed, hlen⟩ := hplace.position
      exact ⟨before, after, hpushed, by rw [hlen]; exact hplace.numbered h.numbered⟩
  · have hplace := hplaces [] (hfin.mp hf)
    obtain ⟨hlast, hdone⟩ := hplace.fin
    refine ⟨hdone, by rw [hfin.mp hf]; rfl, ?_⟩
    rw [← hlast]
    exact hplace.numbered h.numbered

/-- A call, a timer or a segment of the peer. -/
theorem end_step (h : Streams isn s)
    (hreads : Reads peerIsn p.pushed (p.cb.userIsDoneSending = true) s.conn.delivered s.cb)
    (hshort : p.pushed.length + 1 < 2 ^ 32) (hok : s.conn.FitsPacket e ∧ s.conn.SendsFinLast e)
    (hseg : ∀ header data, e.1 = .segment header data →
      BareSyn header data ∨ (Genuine peerIsn p.pushed (p.cb.userIsDoneSending = true) header data ∧
        NotAfter isn header.ackNum p.cb.receiver.receiveNext))
    (hs : s.step e = some s') : EndStep isn peerIsn p s s' := by
  obtain ⟨hstreams, sent, ⟨out, hout, htext, hfin⟩, hplaces⟩ := streams_step h hok hs
  obtain ⟨conn, hconn, rfl⟩ := Option.map_eq_some_iff.mp hs
  obtain ⟨out', hout', hacks⟩ := step_acks h.running.buffer hok.1 hconn
  cases List.append_cancel_left (hout.symm.trans hout')
  obtain ⟨hstep, -⟩ := h.running.step hok.1 hconn
  have hdone := hstep.done
  have hnew : ∀ t ∈ (s.follow e.1 conn).cb.rt, t ∈ s.cb.rt ∨ Sent isn peerIsn (s.follow e.1 conn) t := by
    intro t ht
    rw [hout] at ht
    refine (List.mem_append.mp ht).imp_right fun ht => ⟨?_, ?_⟩
    · refine sent_genuine hstreams (hacks t ht).noSyn (hfin t ht) fun buf hdata => hplaces _ _ ?_
      have hmem : (t.segment.tcpHdr.seqNum, buf) ∈ out.filterMap Transmission.text :=
        List.mem_filterMap.mpr ⟨t, ht, by rw [Transmission.text, hdata]; rfl⟩
      rw [htext, Option.mem_toList] at hmem
      exact hmem
    · rw [(hacks t ht).ackNum]
      exact Nat.le_refl _
  have hclosed : s.cb.userIsDoneSending = true →
      (s.follow e.1 conn).cb.userIsDoneSending = true ∧ (s.follow e.1 conn).pushed = s.pushed := by
    intro hd
    obtain ⟨hacc, hd'⟩ := hdone hd
    exact ⟨hd', by rw [follow, hacc, List.append_nil]⟩
  by_cases hsegment : ∃ header data, e.1 = .segment header data
  · obtain ⟨header, data, he⟩ := hsegment
    have harrives := hseg header data he
    obtain ⟨event, env⟩ := e
    dsimp only at he
    subst he
    obtain ⟨socket, hsocket, rfl⟩ := Option.map_eq_some_iff.mp hconn
    obtain ⟨cb', hreceive, hsocket⟩ := Option.bind_eq_some_iff.mp hsocket
    cases Option.some.inj hsocket
    have hr := receive_cases (fun t ht => trimToWindow_parsed hok.1 h.running.buffer ht) hreceive
    obtain ⟨⟨taken, hqueue, hreads', hadvances⟩, hacked⟩ :
        Takes peerIsn p.pushed (p.cb.userIsDoneSending = true) s.conn.delivered s.cb cb' ∧
          (cb'.sender.sendUnacked = s.cb.sender.sendUnacked ∨
            NotAfter isn cb'.sender.sendUnacked p.cb.receiver.receiveNext) := by
      rcases harrives with hsyn | ⟨hg, hack⟩
      · obtain ⟨htakes, hsender⟩ := hreads.bareSyn hsyn hr
        exact ⟨htakes, .inl (by rw [hsender])⟩
      · refine ⟨hreads.receive hshort hok.1 h.running.buffer hg hreceive, ?_⟩
        exact (hr.sendUnacked hok.1 hg.noSyn).imp_right fun hnumber => by rw [hnumber]; exact hack
    refine ⟨hstreams, ?_, hadvances, List.prefix_append _ _, hclosed, hnew, hacked⟩
    change Reads _ _ _ (s.conn.popped.flatten ++ cb'.receiver.recvQueue.flatten) cb'
    rw [hqueue, ← List.append_assoc]
    exact hreads'
  · have ha := hstep.awaits fun header data he => hsegment ⟨header, data, he⟩
    refine ⟨hstreams, ?_, ?_, List.prefix_append _ _, hclosed, hnew, .inl ha.sendUnacked⟩
    · change Reads _ _ _ conn.delivered conn.socket.cb
      rw [ha.delivered]
      exact hreads.unmoved ha.unmoved (by rw [ha.outOfOrder]; exact hreads.stored)
    · rw [NotAfter]
      exact Nat.le_of_eq (congrArg (fun n => (n - peerIsn).toNat) ha.unmoved.receiveNext.symm)

/-- A move to another server. -/
theorem migrate_step {socket : EstablishedSocket} {appState : MigratedApplicationState} {local_ : SocketAddrV4}
    {ackDelayTimeout : Duration} (h : Streams isn s)
    (hreads : Reads peerIsn p.pushed (p.cb.userIsDoneSending = true) s.conn.delivered s.cb)
    (hok : Link.Movable s.conn.socket)
    (hmigrate : s.conn.socket.migrate appState local_ ackDelayTimeout = some socket) :
    EndStep isn peerIsn p s { s with conn := { s.conn with socket := socket } } := by
  obtain ⟨hstate, hopen, htotal⟩ := hok
  rw [migrate_of_fits (fits_of_migrate hmigrate)] at hmigrate
  cases hmigrate
  have hqueue := arrived_outbox s.cb local_ ackDelayTimeout
  obtain ⟨hfin, htext⟩ : s.cb.finSent = false ∧ [] ∉ s.cb.sender.outbox.inFlight := by
    have hphase := h.phase
    cases hphase with
    | sending hfin htext => exact ⟨hfin, htext⟩
    | finished _ hdone => exact absurd (hopen.symm.trans hdone) Bool.false_ne_true
  have hinFlight := h.running.inFlight
  refine ⟨⟨⟨⟨hinFlight.toCoherent.arrived local_ ackDelayTimeout, ⟨?_, fun _ _ _ _ ha => (by cases ha)⟩,
      ⟨fun _ => hinFlight.unsent hopen, fun _ ha => by cases ha⟩⟩, h.running.buffer⟩, ?_, h.numbered, ?_, ?_⟩,
    ⟨hreads.stored, hreads.fin, ?_⟩, Nat.le_refl _, List.prefix_refl _, ?_, ?_, .inl rfl⟩
  · change seqTotal (s.cb.arrived local_ ackDelayTimeout).sender.outbox.inFlight + 1 ≤ 2 ^ 31 + 1
    rw [hqueue]
    exact Nat.succ_le_succ htotal
  · refine .sending rfl ?_
    change [] ∉ (s.cb.arrived local_ ackDelayTimeout).sender.outbox.inFlight
    rw [hqueue]
    exact htext
  · obtain ⟨acked, hpushed, hnext⟩ := h.carries
    refine ⟨acked, ?_, ?_⟩
    · change s.pushed = acked ++ (s.cb.arrived local_ ackDelayTimeout).sender.outbox.inFlight.flatten ++
        (s.cb.arrived local_ ackDelayTimeout).sender.outbox.waiting.flatten
      rw [hqueue]
      exact hpushed
    · change s.next = acked.length + (s.cb.arrived local_ ackDelayTimeout).sender.outbox.inFlight.flatten.length + 0
      rw [hqueue, hnext, hfin]
      rfl
  · intro _ _ _ hp
    cases hp
  · change ReadTo _ _ _ s.conn.delivered (s.cb.arrived local_ ackDelayTimeout)
    cases hreads.readTo with
    | reading hread hnext => exact .reading hread hnext (.inl rfl)
    | finished _ _ _ hshut =>
      rw [show s.cb.state = .established from hstate] at hshut
      cases hshut
  · intro hdone
    exact absurd (hopen.symm.trans hdone) Bool.false_ne_true
  · intro t ht
    cases ht

/-- SND.UNA stands behind the text acknowledged, and behind the FIN once that is acknowledged too. -/
theorem Streams.acked (h : Streams isn s) : ∃ acked : Buffer,
    s.pushed = acked ++ s.cb.sender.outbox.inFlight.flatten ++ s.cb.sender.outbox.waiting.flatten ∧
      s.cb.sender.sendUnacked = isn + SeqNumber.ofNat (acked.length + s.cb.finAcked.toNat) ∧
      (s.cb.finAcked = true → acked = s.pushed) := by
  obtain ⟨acked, hpushed, hnext⟩ := h.carries
  have hcount : ∀ n, n + seqTotal s.cb.sender.outbox.inFlight = s.next →
      s.cb.sender.sendUnacked = isn + SeqNumber.ofNat n := by
    intro n hn
    have hinFlight := h.running.inFlight.counts
    have hnumbered := h.numbered
    change s.cb.sender.sendNext = s.cb.sender.sendUnacked + SeqNumber.ofNat _ at hinFlight
    rw [hinFlight, ← hn, ← SeqNumber.add_ofNat_add] at hnumbered
    have hu := s.cb.sender.sendUnacked.toNat_lt
    have hi := (isn + SeqNumber.ofNat n).toNat_lt
    have hsum := congrArg SeqNumber.toNat hnumbered
    rw [SeqNumber.toNat_add_ofNat, SeqNumber.toNat_add_ofNat] at hsum
    apply SeqNumber.toNat_inj.mp
    change (s.cb.sender.sendUnacked.toNat + seqTotal s.cb.sender.outbox.inFlight) % 2 ^ 32 =
      ((isn + SeqNumber.ofNat n).toNat + seqTotal s.cb.sender.outbox.inFlight) % 2 ^ 32 at hsum
    omega
  refine ⟨acked, hpushed, ?_, fun hacked => ?_⟩
  · by_cases hnone : s.cb.sender.outbox.inFlight = []
    · rw [hnone] at hnext
      have hacked : s.cb.finAcked = s.cb.finSent := by rw [finAcked, hnone]; simp
      refine hcount _ ?_
      rw [hnone, hacked, hnext]
      rfl
    · have htotal := h.phase.seqTotal hnone
      have hacked : s.cb.finAcked = false := by
        rw [finAcked]
        have hphase := h.phase
        cases hphase with
        | sending hfin => rw [hfin, Bool.false_and]
        | finished _ _ _ hlast => rw [(hlast.resolve_left hnone).any]; simp
      refine hcount _ ?_
      rw [htotal, hacked, hnext]
      simp only [Bool.toNat_false]
      omega
  · obtain ⟨hfin, hany⟩ := Bool.and_eq_true_iff.mp hacked
    have hphase := h.phase
    cases hphase with
    | sending hopen => rw [hopen] at hfin; cases hfin
    | finished _ _ hwaiting hlast =>
      rcases hlast with hnone | hmarker
      · rw [hpushed, hnone, hwaiting]
        simp
      · rw [hmarker.any] at hany
        cases hany

end

end Capybara
