import Capybara.Connection

namespace Capybara

open ControlBlock Runs

/-- Data that is not acknowledged will be sent again. -/
def ControlBlock.TimerSet (cb : ControlBlock) : Prop :=
  cb.sender.unackedQueue ≠ [] → cb.retransmitDeadline.isSome = true

instance (cb : ControlBlock) : Decidable cb.TimerSet := inferInstanceAs (Decidable (_ → _))

namespace Connection

/-- A window probe goes out only while the timer runs, and a connection moves only with nothing on its way. -/
def KeepsTimer (r : SocketRun) : ConnectionEvent → Prop
  | .socket .background env => r.socket.sendsProbe env = true → r.socket.cb.retransmitDeadline.isSome = true
  | .socket _ _ => True
  | .migrate _ _ _ => r.socket.cb.sender.unackedQueue = []

end Connection

section

variable {cb cb' cb₁ : ControlBlock} {env : Env} {header : TcpHeader} {data : Buffer}

theorem ControlBlock.TimerSet.same (h : cb.TimerSet) (hs : SameSendSide cb cb') : cb'.TimerSet := by
  rw [TimerSet, hs.sender, hs.retransmitDeadline]
  exact h

/-- Sending at once starts the timer, and a buffer that waits leaves it as it is. -/
theorem send_timer {buf : Buffer} {result : Except Fail Unit} (ht : cb.TimerSet)
    (h : cb.send buf env = some (result, cb')) : cb'.TimerSet := by
  rcases send_leaves h with rfl | rfl | himm
  · exact ht
  · exact ht
  · obtain ⟨header, mac, cb₁, -, rfl⟩ := sendImmediate_emits himm
    exact fun _ => startRetransmitTimer_isSome _ env

theorem close_timer {result : Except Fail Unit} (ht : cb.TimerSet) (h : cb.close env = some (result, cb')) :
    cb'.TimerSet := by
  cases hdone : cb.userIsDoneSending with
  | true =>
    rw [close, if_pos hdone] at h
    cases h
    exact ht
  | false =>
    obtain ⟨-, cb₁, hsend, -, rfl⟩ := (close_eq_some_iff hdone).mp h
    have hstats : cb.disableStats.TimerSet := ht
    have hsent := send_timer hstats hsend
    exact hsent

/-- A retransmission leaves the queue as long as it is, and the timer. -/
theorem retransmit_timer (h : cb.retransmit env = some cb') :
    cb'.retransmitDeadline = cb.retransmitDeadline ∧ (cb'.sender.unackedQueue = [] ↔ cb.sender.unackedQueue = []) := by
  unfold ControlBlock.retransmit at h
  split at h
  next =>
    cases h
    exact ⟨rfl, Iff.rfl⟩
  next segment queue hq =>
    dsimp only [Option.bind_eq_bind] at h
    split at h
    next =>
      obtain ⟨_, -, h⟩ := Option.bind_eq_some_iff.mp h
      have hs := emit_sendSide h
      rw [hs.sender]
      exact ⟨hs.retransmitDeadline, by simp [hq]⟩
    next =>
      cases h
      exact ⟨rfl, by simp [hq]⟩

/-- A window probe is added to the retransmission queue and no timer is started for it. -/
theorem probe_timer {s : EstablishedSocket} {sendNext : SeqNumber} {mac : MacAddress} {now : Instant}
    (h : cb.sendProbe sendNext mac now = some s) : s.cb.TimerSet ↔ cb.retransmitDeadline.isSome = true := by
  obtain ⟨byte, rest, queue, -, -, -, hm⟩ := sendProbe_cases h
  have hflight : s.cb.sender.unackedQueue.map UnackedSegment.bytes = _ := congrArg Outbox.inFlight hm.outbox
  have hne : s.cb.sender.unackedQueue ≠ [] := by
    intro hnil
    rw [hnil] at hflight
    simp [Outbox.send] at hflight
  rw [TimerSet, sendProbe_timer h]
  exact ⟨fun hset => hset hne, fun hset _ => hset⟩

/-- A turn of the sender keeps the timer exactly if it sends no window probe or the timer runs. -/
theorem background_timer {s s' : EstablishedSocket} (ht : s.cb.TimerSet) (h : s.background env = some s') :
    s'.cb.TimerSet ↔ (s.sendsProbe env = true → s.cb.retransmitDeadline.isSome = true) := by
  have hquiet : s.sendsProbe env = false → s'.cb.TimerSet →
      (s'.cb.TimerSet ↔ (s.sendsProbe env = true → s.cb.retransmitDeadline.isSome = true)) := by
    intro hno hset
    simp [hno, hset]
  have hqueries : ∀ {awaiting}, HasRead s env awaiting → s.cb.senderQueries env awaiting = some s' →
      (s'.cb.TimerSet ↔ (s.sendsProbe env = true → s.cb.retransmitDeadline.isSome = true)) := by
    intro awaiting hread hs
    unfold senderQueries at hs
    split at hs
    next harp =>
      cases hs
      exact hquiet (by simp [EstablishedSocket.sendsProbe, harp]) ht
    next mac harp =>
      cases awaiting with
      | probe sendNext =>
        rw [probe_timer hs]
        exact ⟨fun hset _ => hset, fun hset => hset (hread.sendsProbe harp)⟩
      | segment => exact hquiet (hread.cutsSegment harp).2 fun _ => sendUnsent_timer hs
  unfold EstablishedSocket.background at h
  split at h
  next htop =>
    obtain ⟨awaiting, hreads, h⟩ := Option.bind_eq_some_iff.mp h
    obtain ⟨hread, hnone⟩ := senderReads_hasRead htop hreads
    cases awaiting with
    | none =>
      cases h
      refine hquiet ?_ ht
      by_contra hprobe
      obtain ⟨sendNext, hprobe⟩ := sendsProbe_hasRead (Bool.not_eq_false _ ▸ hprobe)
      exact hnone rfl _ hprobe
    | some awaiting => exact hqueries (hread awaiting rfl) h
  next awaiting htask => exact hqueries (.before htask) h
  next buf sendNext mac htask =>
    cases h
    exact hquiet (by simp [EstablishedSocket.sendsProbe, htask]) ht

theorem seqTotal_eq_zero {bufs : List Buffer} (h : seqTotal bufs = 0) : bufs = [] := by
  by_contra hne
  have hpos := seqTotal_pos hne
  omega

/-- An ACK of everything empties the queue when the timer stops, and an ACK of less starts the timer. -/
theorem AckEffect.timer (h : AckEffect cb header data env cb') (hc : cb.sender.outbox.Counts)
    (hb : seqTotal cb.sender.outbox.inFlight < 2 ^ 32) (ht : cb.TimerSet) : cb'.TimerSet := by
  cases h with
  | ignored _ hsame => exact ht.same hsame
  | @taken s cb₁ hp hack hsame =>
    refine TimerSet.same ?_ hsame
    cases hnew : cb.sender.sendUnacked.lt s.header.ackNum with
    | false => rwa [processAck_old hnew hack]
    | true =>
      obtain ⟨queue, hremove, hupdate, hdeadline⟩ := processAck_new hnew hack
      obtain ⟨-, hqueue, -⟩ := updateSendWindow_cases hupdate
      by_cases hall : s.header.ackNum = cb.sender.sendNext
      · have htotal := removeAcknowledgedData_total hremove
        have hu := cb.sender.sendUnacked.toNat_lt
        have hnext := congrArg SeqNumber.toNat hc
        simp only [SeqNumber.toNat_add_ofNat, Sender.outbox] at hnext hb
        rw [hall, SeqNumber.toNat_sub] at htotal
        have hempty : seqTotal (queue.map UnackedSegment.bytes) = 0 := by omega
        have hnil : cb₁.sender.unackedQueue = [] := hqueue.trans (List.map_eq_nil_iff.mp (seqTotal_eq_zero hempty))
        exact fun hne => absurd hnil hne
      · rw [if_neg hall] at hdeadline
        exact fun _ => by rw [hdeadline]; rfl

end

namespace Connection

section

variable {r r' : SocketRun} {env : Env} {e : SocketEvent}

/-- Events at the socket other than turns of the sender keep the timer. -/
theorem timer_step (h : Steady r) (hb : seqTotal r.socket.cb.sender.outbox.inFlight < 2 ^ 32)
    (ht : r.socket.cb.TimerSet) (hd : r.FitsPacket (e, env)) (hne : e ≠ .background) (hs : r.step (e, env) = some r') :
    r'.socket.cb.TimerSet := by
  cases e with
  | segment header data =>
    obtain ⟨s, hsocket, rfl⟩ := Option.map_eq_some_iff.mp hs
    obtain ⟨cb', hreceive, hsocket⟩ := Option.bind_eq_some_iff.mp hsocket
    cases Option.some.inj hsocket
    have hack := receive_ackEffect (fun t ht => trimToWindow_parsed hd h.buffer ht) hreceive
    exact hack.timer h.coherent.counts hb ht
  | pop =>
    cases Option.some.inj hs
    exact ht.same (pollRecv_sendSide _)
  | push buf =>
    obtain ⟨⟨result, cb'⟩, hsend, hs⟩ := Option.bind_eq_some_iff.mp hs
    cases Option.some.inj hs
    exact send_timer ht hsend
  | close =>
    obtain ⟨⟨result, cb'⟩, hclose, hs⟩ := Option.bind_eq_some_iff.mp hs
    cases Option.some.inj hs
    exact close_timer ht hclose
  | background => exact absurd rfl hne
  | retransmitTimer =>
    obtain ⟨s, hsocket, rfl⟩ := Option.map_eq_some_iff.mp hs
    unfold EstablishedSocket.retransmitTimer at hsocket
    split at hsocket
    next =>
      cases hsocket
      exact ht
    next =>
      obtain ⟨cb', hre, hsocket⟩ := Option.bind_eq_some_iff.mp hsocket
      cases Option.some.inj hsocket
      exact fun _ => rfl
  | fastRetransmit =>
    obtain ⟨s, hsocket, rfl⟩ := Option.map_eq_some_iff.mp hs
    obtain ⟨cb', hre, hsocket⟩ := Option.bind_eq_some_iff.mp hsocket
    cases Option.some.inj hsocket
    obtain ⟨hdeadline, hqueue⟩ := retransmit_timer hre
    intro hleft
    have hset : r.socket.cb.retransmitDeadline.isSome = true := ht fun hnil => hleft (hqueue.mpr hnil)
    rwa [← hdeadline] at hset
  | ackTimer =>
    obtain ⟨s, hsocket, rfl⟩ := Option.map_eq_some_iff.mp hs
    unfold EstablishedSocket.ackTimer at hsocket
    split at hsocket
    next =>
      cases hsocket
      exact ht
    next =>
      obtain ⟨cb', hack, hsocket⟩ := Option.bind_eq_some_iff.mp hsocket
      cases Option.some.inj hsocket
      exact ht.same (sendAck_sendSide hack)
  | persistTimer =>
    obtain ⟨s, hsocket, rfl⟩ := Option.map_eq_some_iff.mp hs
    unfold EstablishedSocket.persistTimer at hsocket
    split at hsocket
    next =>
      cases hsocket
      exact ht
    next =>
      cases hsocket
      exact ht
    next =>
      obtain ⟨cb', hprobe, hsocket⟩ := Option.bind_eq_some_iff.mp hsocket
      cases Option.some.inj hsocket
      exact ht.same (emitProbe_sendSide hprobe)

/-- One event keeps the timer exactly if it meets the condition. -/
theorem timer_step_iff {e : ConnectionEvent} (h : Steady r ∧ WithinHalf r.socket) (ht : r.socket.cb.TimerSet)
    (hd : FitsPacket r e) (hs : Connection.step r e = some r') :
    (r'.socket.cb.TimerSet ↔ KeepsTimer r e) ∧ (KeepsTimer r e → Steady r' ∧ WithinHalf r'.socket) := by
  obtain ⟨hsteady, hb⟩ := h
  have hsteady' := hsteady.step hd hs
  cases e with
  | socket event env =>
    have hstep := step_cases hsteady.coherent.oneByte hsteady.buffer hd hs
    have hb' := withinHalf_step hb hsteady.coherent hstep
    by_cases hback : event = .background
    · subst event
      obtain ⟨s, hturn, rfl⟩ := Option.map_eq_some_iff.mp hs
      exact ⟨background_timer ht hturn, fun _ => ⟨hsteady', hb'⟩⟩
    · have hset := timer_step hsteady hb.lt ht hd hback hs
      have hkeeps : KeepsTimer r (.socket event env) := by
        cases event with
        | background => exact absurd rfl hback
        | _ => trivial
      exact ⟨⟨fun _ => hkeeps, fun _ => hset⟩, fun _ => ⟨hsteady', hb'⟩⟩
  | migrate appState local_ ackDelayTimeout =>
    have hr' := migrate_arrives hs
    subst hr'
    have hqueue : (r.socket.cb.arrived local_ ackDelayTimeout).TimerSet ↔ r.socket.cb.sender.unackedQueue = [] := by
      simp [TimerSet, arrived]
    refine ⟨hqueue, fun hempty => ⟨hsteady', ?_, fun _ _ _ _ ha => by cases ha⟩⟩
    dsimp only
    rw [arrived_outbox]
    simp [Sender.outbox, show r.socket.cb.sender.unackedQueue = [] from hempty, EstablishedSocket.credit]

instance : (r : SocketRun) → (e : ConnectionEvent) → Decidable (KeepsTimer r e)
  | r, .socket .background env =>
    inferInstanceAs (Decidable (r.socket.sendsProbe env = true → r.socket.cb.retransmitDeadline.isSome = true))
  | r, .migrate _ _ _ => inferInstanceAs (Decidable (r.socket.cb.sender.unackedQueue = []))
  | _, .socket (.segment _ _) _ | _, .socket .pop _ | _, .socket (.push _) _ | _, .socket .close _
  | _, .socket .retransmitTimer _ | _, .socket .fastRetransmit _ | _, .socket .ackTimer _
  | _, .socket .persistTimer _ => inferInstanceAs (Decidable True)

/-- Through sends, probes, ACKs and migrations the retransmission timer runs whenever something is not acknowledged,
exactly if every window probe goes out with the timer running and every migration finds nothing on its way. -/
theorem connection_timerSet {cb : ControlBlock} {es : List ConnectionEvent} (ho : Opened cb)
    (hp : Admits Connection.step FitsPacket (.start ⟨cb, .top⟩) es)
    (hr : run Connection.step (.start ⟨cb, .top⟩) es = some r) :
    Always Connection.step (fun r => r.socket.cb.TimerSet) (.start ⟨cb, .top⟩) es ↔
      Admits Connection.step KeepsTimer (.start ⟨cb, .top⟩) es := by
  have hset : cb.TimerSet := fun hne => absurd ho.unackedQueue hne
  exact always_iff_admits (fun _ _ _ h ht hd hs => timer_step_iff h ht hd hs) ⟨ho.steady, ho.inFlight.toWithinHalf⟩ hset hp hr

/-- Three bytes go out, two are acknowledged, and then the third. -/
def ackedEvents : List ConnectionEvent :=
  [.socket (.push [1, 2, 3]) linkEnv, .socket .background linkEnv,
    .socket (.segment { peerHeader ⟨40⟩ false with ackNum := ⟨9⟩ } []) linkEnv,
    .socket (.segment { peerHeader ⟨40⟩ false with ackNum := ⟨10⟩ } []) linkEnv]

theorem connection_timerSet_acked :
    Always Connection.step (fun r => r.socket.cb.TimerSet) (.start ⟨smallWindow, .top⟩) ackedEvents := by
  have hr : run Connection.step (.start ⟨smallWindow, .top⟩) ackedEvents =
      some ((run Connection.step (.start ⟨smallWindow, .top⟩) ackedEvents).get (by decide)) := (Option.some_get _).symm
  exact (connection_timerSet smallWindow_opened (by decide) hr).mpr (by decide)

/-- The byte of a window probe is not acknowledged and no timer runs for it. -/
theorem connection_timerSet_probe : ∃ r, Opened closedWindow ∧
    run Connection.step (.start ⟨closedWindow, .top⟩)
      [.socket (.push [7, 8]) linkEnv, .socket .background linkEnv] = some r ∧ ¬r.socket.cb.TimerSet :=
  ⟨_, closedWindow_opened, rfl, by decide⟩

end

end Connection

end Capybara
