import Capybara.AckEffect
import Capybara.MigrationPreserves

namespace Capybara

open Runs ControlBlock

/-- Whatever segment comes in, the window stays closed or nothing is seen to wait. -/
def ControlBlock.StaysShut (cb : ControlBlock) : Prop :=
  ∀ header data env cb', cb.receive header data env = some cb' → WindowFits cb' →
    cb'.sender.sendWindow = 0 ∨ cb'.sender.sendNext = cb'.sender.unsentSeqNo

/-- The background sender waits for a link address, and no segment opens the window for what waits. It cannot go on, or
it holds a window probe that no push changes, as the queue takes no more. -/
def EstablishedSocket.Stuck (s : EstablishedSocket) : Prop :=
  ∃ awaiting, s.sender = .awaiting awaiting ∧ s.cb.StaysShut ∧
    ((∀ env, env.arp.isSome = true → s.background env = none) ∨
      awaiting = .probe s.cb.sender.sendNext ∧ s.cb.sender.sendNext ≠ s.cb.sender.unsentSeqNo ∧
        s.cb.sender.sendWindow = 0 ∧ unsentQueueCutoff < s.cb.sender.unsentQueue.length)

/-- An event that changes nothing about the receive side. -/
def SocketEvent.Outbound : SocketEvent → Prop
  | .push _ | .background | .persistTimer => True
  | _ => False

section

variable {cb cb' : ControlBlock} {s s' t : EstablishedSocket} {env : Env} {mac : MacAddress} {sendNext : SeqNumber}
  {now : Instant} {buf : Buffer} {r r' : SocketRun} {e : SocketEvent × Env}

theorem WindowFits.congr (hw : WindowFits cb) (h : SameInbound cb cb') : WindowFits cb' := by
  have hsize : cb'.hdrWindowSize = cb.hdrWindowSize := by
    simp only [hdrWindowSize, getReceiveWindowSize, h.receiveNext, h.readerNext, h.receiveBufferSize, h.windowScale]
  unfold WindowFits ControlBlock.tcpHeader at hw ⊢
  rw [hsize]
  cases hf : cb.hdrWindowSize with
  | none => simp [hf] at hw
  | some size => rfl

theorem emitProbe_segment (h : cb.emitProbe buf sendNext mac = some cb') :
    SameInbound cb cb' ∧ ∃ segment : TcpSegment, segment.tcpHdr.seqNum = sendNext ∧
      cb'.rt = cb.rt ++ [⟨false, segment⟩] := by
  obtain ⟨header, -, h⟩ := Option.bind_eq_some_iff.mp h
  obtain ⟨-, -, h⟩ := Option.bind_eq_some_iff.mp h
  cases Option.some.inj h
  exact ⟨⟨rfl, rfl, rfl, rfl, rfl, rfl, rfl⟩, _, rfl, rfl⟩

theorem emitProbe_of_fits (hw : WindowFits cb) (buf : Buffer) (sendNext : SeqNumber) (mac : MacAddress) :
    ∃ cb', cb.emitProbe buf sendNext mac = some cb' := by
  obtain ⟨header, hh⟩ := Option.isSome_iff_exists.mp hw
  obtain ⟨hack, hfin⟩ := tcpHeader_flags hh
  exact ⟨_, by simp only [emitProbe, emit, hh, hack, debugAssert, if_true, Option.bind_eq_bind, Option.bind_some]; rfl⟩

theorem sendProbe_segment (h : cb.sendProbe sendNext mac now = some t) :
    ∃ segment : TcpSegment, segment.tcpHdr.seqNum = sendNext ∧ t.cb.rt = cb.rt ++ [⟨false, segment⟩] := by
  obtain ⟨popped, -, h⟩ := Option.bind_eq_some_iff.mp h
  rcases popped with - | ⟨byte, sender⟩
  · cases h
  · obtain ⟨cb₁, hprobe, h⟩ := Option.bind_eq_some_iff.mp h
    cases Option.some.inj h
    exact (emitProbe_segment hprobe).2

theorem sendProbe_of_front {byte : UInt8} {rest : Buffer} {queue : List Buffer} (hw : WindowFits cb)
    (hq : cb.sender.unsentQueue = (byte :: rest) :: queue) : ∃ t, cb.sendProbe sendNext mac now = some t := by
  have hone : adjust (byte :: rest) 1 = some rest := adjust_of_le (by simp)
  have hlast : trim (byte :: rest) ((byte :: rest).length - 1) = some [byte] := by
    rw [trim_of_le (by simp)]
    simp
  have hpop : cb.sender.popOneUnsentByte = some (some ([byte], { cb.sender with unsentQueue := rest :: queue })) := by
    simp only [Sender.popOneUnsentByte, hq, hone, hlast, Option.bind_eq_bind, Option.bind_some]
  have hfits : WindowFits { cb with sender := { cb.sender with
      unsentQueue := rest :: queue
      sendNext := cb.sender.sendNext + SeqNumber.ofNat 1
      unackedQueue := cb.sender.unackedQueue ++ [⟨[byte], some now⟩] } } := hw
  obtain ⟨cb', hprobe⟩ := emitProbe_of_fits hfits [byte] sendNext mac
  refine ⟨⟨{ cb' with sender := { cb'.sender with sendWindowChanged := false } }, .probing [byte] sendNext mac⟩, ?_⟩
  simp only [sendProbe, hpop, hprobe, Option.bind_eq_bind, Option.bind_some]

/-- A push behind something that waits is queued. -/
theorem send_behind (hopen : cb.userIsDoneSending = false) (hlen : buf.length < 2 ^ 32)
    (hq : cb.sender.unsentQueue ≠ []) (hroom : cb.sender.unsentQueue.length ≤ unsentQueueCutoff) :
    cb.send buf env = some (.ok (), { cb with sender := { cb.sender with
      unsentQueue := cb.sender.unsentQueue ++ [buf]
      unsentSeqNo := cb.sender.unsentSeqNo + SeqNumber.ofNat buf.length } }) := by
  have hlater : cb.sendImmediate buf env = some none := by
    simp [sendImmediate, hq]
  rw [ControlBlock.send, if_neg (by simp [hopen]), if_neg (Nat.not_le.mpr hlen), hlater]
  exact if_neg (Nat.not_lt.mpr hroom)

theorem run_push {result : Except Fail Unit} (h : s.cb.send buf env = some (result, cb')) :
    run SocketRun.step (.start s) [(.push buf, env)] = some ⟨{ s with cb := cb' }, [], [result]⟩ := by
  simp only [run, SocketRun.step, SocketRun.start, h, Option.bind_eq_bind, Option.bind_some, List.nil_append]

theorem senderQueries_of_arp (harp : env.arp = some mac) (awaiting : Awaiting) :
    cb.senderQueries env awaiting = cb.senderSends mac env awaiting := by
  simp only [senderQueries, harp]

/-- With no congestion window a turn from the top of the loop sends nothing but a window probe. -/
theorem background_narrow (htop : s.sender = .top)
    (hnarrow : env.cwnd.toNat + env.limitedTransmitCwndIncrease.toNat = 0) (harp : env.arp = some mac)
    (h : s.background env = some t) : t = s ∨ s.cb.sender.sendNext ≠ s.cb.sender.unsentSeqNo ∧
      s.cb.sender.sendWindow = 0 ∧ s.cb.sendProbe s.cb.sender.sendNext mac env.now = some t := by
  rw [EstablishedSocket.background, htop] at h
  obtain ⟨awaiting, hreads, h⟩ := Option.bind_eq_some_iff.mp h
  cases awaiting with
  | none => exact .inl (Option.some.inj h).symm
  | some awaiting =>
    have hread := (senderReads_hasRead htop hreads).1 awaiting rfl
    cases hread with
    | before htask => cases htop.symm.trans htask
    | closed _ hsent hwin =>
      exact .inr ⟨hsent, hwin, (senderQueries_of_arp harp (.probe s.cb.sender.sendNext)).symm.trans h⟩
    | opened _ _ _ _ _ _ hcwnd => omega

theorem outbound_fits (he : e.1.Outbound) (hw : WindowFits r.socket.cb) (h : r.step e = some r') :
    WindowFits r'.socket.cb := by
  obtain ⟨event, env⟩ := e
  cases event with
  | push buf =>
    obtain ⟨⟨result, cb'⟩, hsend, h⟩ := Option.bind_eq_some_iff.mp h
    cases Option.some.inj h
    rcases send_cases hsend with ⟨-, rfl⟩ | ⟨-, -, ⟨-, hm⟩ | ⟨-, hm⟩⟩
    · exact hw
    · exact hw.congr hm.inbound
    · exact hw.congr hm.inbound
  | background =>
    obtain ⟨t, ht, rfl⟩ := Option.map_eq_some_iff.mp h
    exact hw.congr (background_turn ht).inbound
  | persistTimer =>
    obtain ⟨t, ht, rfl⟩ := Option.map_eq_some_iff.mp h
    unfold EstablishedSocket.persistTimer at ht
    split at ht
    · cases ht
      exact hw
    · cases ht
      exact hw
    · obtain ⟨cb', hprobe, ht⟩ := Option.bind_eq_some_iff.mp ht
      cases Option.some.inj ht
      exact hw.congr (emitProbe_segment hprobe).1
  | _ => exact he.elim

theorem outbound_windowsFit {events : List (SocketEvent × Env)} (hw : WindowFits s.cb)
    (he : ∀ e ∈ events, e.1.Outbound) : s.WindowsFit events := by
  have hfits : ∀ (events : List (SocketEvent × Env)) (r : SocketRun), WindowFits r.socket.cb →
      (∀ e ∈ events, e.1.Outbound) →
        Admits SocketRun.step (fun r e => ∀ r', r.step e = some r' → WindowFits r'.socket.cb) r events := by
    intro events
    induction events with
    | nil => exact fun _ _ _ => trivial
    | cons e events ih =>
      intro r hr he
      have hstep : ∀ r', r.step e = some r' → WindowFits r'.socket.cb :=
        fun r' hs => outbound_fits (he e List.mem_cons_self) hr hs
      exact ⟨hstep, fun r' hs => ih r' (hstep r' hs) fun e' hmem => he e' (List.mem_cons_of_mem e hmem)⟩
  exact hfits events (.start s) hw he

/-- Where the second socket simulates the first, it goes along with the same events. -/
theorem Simulates.along {events : List (SocketEvent × Env)} (h : s.Simulates s') (hfits : s.WindowsFit events)
    (hr : run SocketRun.step (.start s) events = some r) :
    ∃ r', run SocketRun.step (.start s') events = some r' ∧ Agrees (segmentsOf s.cb.rt) r r' := by
  have hsame : List.Forall₂ SameEvent events events := List.forall₂_same.mpr fun _ _ => ⟨rfl, rfl, rfl, rfl⟩
  exact h events events hsame hfits r hr

theorem Simulates.follows {events : List (SocketEvent × Env)} (h : s.Simulates s') (hw : WindowFits s.cb)
    (he : ∀ e ∈ events, e.1.Outbound) (hr : run SocketRun.step (.start s) events = some r) :
    ∃ r', run SocketRun.step (.start s') events = some r' ∧ Agrees (segmentsOf s.cb.rt) r r' :=
  Simulates.along h (outbound_windowsFit hw he) hr

/-- A window probe that is due is a segment that the target does not send. -/
theorem not_simulates_of_probing (hw : WindowFits s.cb) (hs : s.sender = .probing buf sendNext mac) (hrt : cb'.rt = []) :
    ¬s.Simulates ⟨cb', .top⟩ := by
  intro h
  obtain ⟨cb₁, hprobe⟩ := emitProbe_of_fits hw buf sendNext mac
  obtain ⟨-, segment, -, hsent⟩ := emitProbe_segment hprobe
  have hrun : run SocketRun.step (.start s) [(.persistTimer, ⟨0, none, 0, 0, 0⟩)] = some ⟨{ s with cb := cb₁ }, [], []⟩ := by
    simp [run, SocketRun.step, SocketRun.withSocket, SocketRun.start, EstablishedSocket.persistTimer, hs, hprobe]
  obtain ⟨r', hrun', hagrees⟩ := Simulates.follows h hw (by simp [SocketEvent.Outbound]) hrun
  cases Option.some.inj hrun'
  have hsegments := congrArg List.length hagrees.segments
  simp [SocketRun.start, hrt, hsent, segmentsOf] at hsegments

/-- A segment that goes out after the ARP reply starts a timer that the target does not start without a congestion
window. -/
theorem not_simulates_of_segment {winSz sentData effectiveCwnd : Nat} (hw : WindowFits s.cb)
    (hs : s.sender = .awaiting (.segment sendNext winSz sentData effectiveCwnd)) (harp : env.arp = some mac)
    (ht : s.background env = some t) (htimer : cb'.retransmitDeadline = none) : ¬s.Simulates ⟨cb', .top⟩ := by
  intro h
  have hturn : s.background { env with cwnd := 0, limitedTransmitCwndIncrease := 0 } = some t := by
    rw [← ht]
    simp only [EstablishedSocket.background, hs, senderQueries, harp]
    rfl
  have hset : t.cb.retransmitDeadline.isSome = true := by
    simp only [EstablishedSocket.background, hs, senderQueries, harp] at ht
    exact sendUnsent_timer ht
  have hrun : run SocketRun.step (.start s) [(.background, { env with cwnd := 0, limitedTransmitCwndIncrease := 0 })] =
      some ⟨t, [], []⟩ := by
    simp only [run, SocketRun.step, SocketRun.withSocket, SocketRun.start, hturn, Option.map_some, Option.bind_some]
  obtain ⟨r', hrun', hagrees⟩ := Simulates.follows h hw (by simp [SocketEvent.Outbound]) hrun
  obtain ⟨r₁, hstep, hrun'⟩ := Option.bind_eq_some_iff.mp hrun'
  cases Option.some.inj hrun'
  obtain ⟨t', ht', rfl⟩ := Option.map_eq_some_iff.mp hstep
  have hset' : t'.cb.retransmitDeadline.isSome = true := hagrees.retransmitTimer hset
  have harp' : ({ env with cwnd := 0, limitedTransmitCwndIncrease := 0 } : Env).arp = some mac := harp
  rcases background_narrow rfl rfl harp' ht' with rfl | ⟨-, -, hprobe⟩
  · rw [show (SocketRun.start ⟨cb', .top⟩).socket.cb.retransmitDeadline = none from htimer] at hset'
    cases hset'
  · rw [sendProbe_timer hprobe, show (SocketRun.start ⟨cb', .top⟩).socket.cb.retransmitDeadline = none from htimer] at hset'
    cases hset'

/-- A target without a congestion window that sends one segment sends a window probe. -/
theorem probe_due {segment : TcpSegment} (htop : s.sender = .top) (hrt : s.cb.rt = [])
    (hnarrow : env.cwnd.toNat + env.limitedTransmitCwndIncrease.toNat = 0) (harp : env.arp = some mac)
    (ht : s.background env = some t) (hsent : segmentsOf t.cb.rt = [segment.hideLocal]) :
    segment.tcpHdr.seqNum = s.cb.sender.sendNext ∧ s.cb.sender.sendNext ≠ s.cb.sender.unsentSeqNo ∧
      s.cb.sender.sendWindow = 0 := by
  rcases background_narrow htop hnarrow harp ht with rfl | ⟨hnext, hwin, hprobe⟩
  · rw [hrt] at hsent
    cases hsent
  · obtain ⟨segment', hseq, hrt'⟩ := sendProbe_segment hprobe
    rw [hrt, List.nil_append] at hrt'
    rw [hrt'] at hsent
    have hsame : segment'.hideLocal = segment.hideLocal := (List.cons.inj hsent).1
    have hnum := congrArg (fun x : TcpSegment => x.tcpHdr.seqNum) hsame
    exact ⟨hnum.symm.trans hseq, hnext, hwin⟩

/-- The probe of a sender that waits for the link address is the probe that a target at the top of its loop sends, if
the target simulates the sender. -/
theorem probe_due_of_simulates (h : s.Simulates s') (hw : WindowFits s.cb)
    {events : List (SocketEvent × Env)} (he : ∀ e ∈ events, e.1.Outbound)
    (hr : run SocketRun.step (.start s) events = some r) (hr' : run SocketRun.step (.start s') events = some r')
    (hrt : r.socket.cb.rt = s.cb.rt) (htop : r'.socket.sender = .top) (hrt' : r'.socket.cb.rt = [])
    (hs : r.socket.sender = .awaiting (.probe sendNext)) (harp : env.arp = some mac)
    (ht : r.socket.background env = some t) : sendNext = r'.socket.cb.sender.sendNext ∧
      r'.socket.cb.sender.sendNext ≠ r'.socket.cb.sender.unsentSeqNo ∧ r'.socket.cb.sender.sendWindow = 0 := by
  have hturn : r.socket.background { env with cwnd := 0, limitedTransmitCwndIncrease := 0 } = some t := by
    rw [← ht]
    simp only [EstablishedSocket.background, hs, senderQueries, harp]
    rfl
  have hstep : r.step (.background, { env with cwnd := 0, limitedTransmitCwndIncrease := 0 }) =
      some { r with socket := t } := by
    simp only [SocketRun.step, SocketRun.withSocket, hturn, Option.map_some]
  have hrun : run SocketRun.step (.start s) (events ++ [(.background, { env with
      cwnd := 0, limitedTransmitCwndIncrease := 0 })]) = some { r with socket := t } := by
    rw [run_append, hr, Option.bind_some, run_cons hstep]
    rfl
  obtain ⟨r₁, hrun', hagrees⟩ := Simulates.follows h hw
    (by simpa [or_imp, forall_and, SocketEvent.Outbound] using fun e env hmem => he (e, env) hmem) hrun
  rw [run_append, hr', Option.bind_some] at hrun'
  obtain ⟨r₂, hstep', hr₂⟩ := Option.bind_eq_some_iff.mp hrun'
  cases Option.some.inj hr₂
  obtain ⟨t', ht', rfl⟩ := Option.map_eq_some_iff.mp hstep'
  simp only [EstablishedSocket.background, hs, senderQueries, harp] at ht
  obtain ⟨segment, hseq, hsent⟩ := sendProbe_segment ht
  have hsegments := hagrees.segments
  dsimp only at hsegments
  rw [hsent, hrt, segmentsOf_append] at hsegments
  have hone := List.append_cancel_left hsegments
  have harp' : ({ env with cwnd := 0, limitedTransmitCwndIncrease := 0 } : Env).arp = some mac := harp
  obtain ⟨hnum, hrest⟩ := @probe_due _ _ _ _ segment htop hrt' rfl harp' ht' hone.symm
  exact ⟨hseq.symm.trans hnum, hrest⟩

theorem step_segment_of_waits (hs : ∀ buf sendNext mac, s.sender ≠ .probing buf sendNext mac) (header : TcpHeader)
    (data : Buffer) (env : Env) : (SocketRun.start s).step (.segment header data, env) =
      (s.cb.receive header data env).map fun cb => .start ⟨cb, s.sender⟩ := by
  have htask : ∀ cb, s.taskAfter cb = s.sender := by
    intro cb
    cases hsender : s.sender with
    | top => simp only [EstablishedSocket.taskAfter, hsender]
    | awaiting awaiting => simp only [EstablishedSocket.taskAfter, hsender]
    | probing buf sendNext mac => exact absurd hsender (hs buf sendNext mac)
  simp only [SocketRun.step, SocketRun.withSocket, EstablishedSocket.receive, SocketRun.start, htask]
  cases s.cb.receive header data env <;> rfl

/-- A congestion window too large for its type stops a sender at the top of its loop that sees something waiting and an
open window. -/
theorem background_overflow (htop : s.sender = .top) (hsent : s.cb.sender.sendNext ≠ s.cb.sender.unsentSeqNo)
    (hopen : s.cb.sender.sendWindow ≠ 0) : s.background ⟨0, none, 0, 0xffffffff, 1⟩ = none := by
  have hsum : addU32 (0xffffffff : UInt32).toNat (1 : UInt32).toNat = none := by decide
  simp only [EstablishedSocket.background, htop, senderReads, if_neg hsent, if_neg hopen, hsum, Option.bind_eq_bind,
    Option.bind_none]

/-- A sender that waits for the link address is not asked for the congestion window; a target at the top of its loop is,
once a segment has opened the window. -/
theorem staysShut_of_simulates (h : s.Simulates ⟨cb', .top⟩) {awaiting : Awaiting} (hs : s.sender = .awaiting awaiting) :
    s.cb.StaysShut := by
  intro header data env cb₁ hcb hf
  by_contra hgo
  obtain ⟨hopen, hsent⟩ := not_or.mp hgo
  have hstep := step_segment_of_waits (fun _ _ _ hp => by cases hs.symm.trans hp) header data env
  rw [hcb, Option.map_some] at hstep
  have hturn : (SocketRun.start ⟨cb₁, s.sender⟩).step (.background, ⟨0, none, 0, 0xffffffff, 1⟩) =
      some (.start ⟨cb₁, s.sender⟩) := by
    simp only [SocketRun.step, SocketRun.withSocket, SocketRun.start, EstablishedSocket.background, hs, senderQueries,
      Option.map_some]
  have hreceived : s.WindowsFit [(.segment header data, env)] := by
    refine ⟨fun r hr => ?_, fun _ _ => trivial⟩
    cases Option.some.inj (hstep.symm.trans hr)
    exact hf
  have hboth : s.WindowsFit [(.segment header data, env), (.background, ⟨0, none, 0, 0xffffffff, 1⟩)] := by
    refine ⟨hreceived.1, fun r hr => ⟨fun r' hr' => ?_, fun _ _ => trivial⟩⟩
    cases Option.some.inj (hstep.symm.trans hr)
    cases Option.some.inj (hturn.symm.trans hr')
    exact hf
  obtain ⟨r₁, hrun₁, hagrees⟩ := Simulates.along h hreceived (run_cons hstep)
  obtain ⟨r₁, hstep₁, hrun₁⟩ := Option.bind_eq_some_iff.mp hrun₁
  cases Option.some.inj hrun₁
  have hstep' := hstep₁
  rw [step_segment_of_waits (fun _ _ _ hp => by cases hp)] at hstep₁
  obtain ⟨cb₂, -, rfl⟩ := Option.map_eq_some_iff.mp hstep₁
  obtain ⟨r₂, hrun₂, -⟩ := Simulates.along h hboth ((run_cons hstep).trans (run_cons hturn))
  rw [run_cons hstep'] at hrun₂
  obtain ⟨r₃, hturn₂, -⟩ := Option.bind_eq_some_iff.mp hrun₂
  obtain ⟨t, ht, -⟩ := Option.map_eq_some_iff.mp hturn₂
  have hopen₂ : cb₂.sender.sendWindow ≠ 0 := fun hz => hopen (hagrees.sender.sendWindow.symm.trans hz)
  have hsent₂ : cb₂.sender.sendNext ≠ cb₂.sender.unsentSeqNo := fun heq => hsent <|
    hagrees.sender.sendNext.symm.trans (heq.trans hagrees.sender.unsentSeqNo)
  cases (@background_overflow ⟨cb₂, .top⟩ rfl hsent₂ hopen₂).symm.trans ht

/-- A sender that waits for the link address and is not stuck does what the target does not. -/
theorem stuck_of_simulates (hw : WindowFits s.cb) (hopen : s.cb.userIsDoneSending = false) {awaiting : Awaiting}
    (hs : s.sender = .awaiting awaiting) {local_ : SocketAddrV4} {ackDelayTimeout : Duration}
    (h : s.Simulates ⟨s.cb.arrived local_ ackDelayTimeout, .top⟩) : s.Stuck := by
  by_contra hgo
  have hshut := staysShut_of_simulates h hs
  obtain ⟨env, harp, t, ht⟩ : ∃ env : Env, env.arp.isSome = true ∧ ∃ t, s.background env = some t := by
    by_contra hno
    refine hgo ⟨awaiting, hs, hshut, .inl fun env harp => ?_⟩
    cases ht : s.background env with
    | none => rfl
    | some t => exact absurd ⟨env, harp, t, ht⟩ hno
  obtain ⟨mac, harp⟩ := Option.isSome_iff_exists.mp harp
  cases awaiting with
  | segment sendNext winSz sentData effectiveCwnd => exact not_simulates_of_segment hw hs harp ht rfl h
  | probe sendNext =>
    obtain ⟨hnum, hnext, hwin⟩ := @probe_due_of_simulates _ _ _ env mac sendNext _ _ h hw [] (by simp) rfl rfl rfl rfl rfl
      hs harp ht
    change sendNext = s.cb.sender.sendNext at hnum
    change s.cb.sender.sendNext ≠ s.cb.sender.unsentSeqNo at hnext
    have hroom : s.cb.sender.unsentQueue.length ≤ unsentQueueCutoff := by
      by_contra hfull
      exact hgo ⟨.probe sendNext, hs, hshut, .inr ⟨by rw [hnum], hnext, hwin, by omega⟩⟩
    -- A push that turns the unsent sequence number all the way round to SND.NXT hides what waits from the target.
    have hprobe := ht
    simp only [EstablishedSocket.background, hs, senderQueries_of_arp harp] at hprobe
    obtain ⟨byte, rest, queue, hq, -⟩ := sendProbe_cases hprobe
    have hne : s.cb.sender.unsentQueue ≠ [] := by rw [hq]; exact List.cons_ne_nil _ _
    obtain ⟨buf, hbuf⟩ : ∃ buf : Buffer, buf.length = (s.cb.sender.sendNext - s.cb.sender.unsentSeqNo).toNat :=
      ⟨List.replicate _ 0, List.length_replicate⟩
    have hlen : buf.length < 2 ^ 32 := by
      rw [hbuf]
      exact SeqNumber.toNat_lt _
    have hround : s.cb.sender.unsentSeqNo + SeqNumber.ofNat buf.length = s.cb.sender.sendNext := by
      rw [hbuf, SeqNumber.add_ofNat_sub_toNat]
    have hr := run_push (@send_behind s.cb env buf hopen hlen hne hroom)
    have hr' := @run_push _ ⟨s.cb.arrived local_ ackDelayTimeout, .top⟩ env buf _
      (@send_behind (s.cb.arrived local_ ackDelayTimeout) env buf rfl hlen hne hroom)
    obtain ⟨t', ht'⟩ : ∃ t', EstablishedSocket.background { s with cb := { s.cb with sender := { s.cb.sender with
        unsentQueue := s.cb.sender.unsentQueue ++ [buf]
        unsentSeqNo := s.cb.sender.unsentSeqNo + SeqNumber.ofNat buf.length } } } env = some t' := by
      simp only [EstablishedSocket.background, hs, senderQueries_of_arp harp]
      exact sendProbe_of_front hw (show _ = (byte :: rest) :: (queue ++ [buf]) by rw [hq]; rfl)
    obtain ⟨-, hdiffer, -⟩ := probe_due_of_simulates h hw (by simp [SocketEvent.Outbound]) hr hr' rfl rfl rfl hs harp ht'
    exact hdiffer hround.symm

theorem quiescent_of_preserves (hw : WindowFits s.cb) {appState : MigratedApplicationState} {local_ : SocketAddrV4}
    {ackDelayTimeout : Duration} (h : s.Preserves appState local_ ackDelayTimeout) : s.Quiescent ∨ s.Stuck := by
  obtain ⟨s', hmigrate, hsim⟩ := h
  have hfits := fits_of_migrate hmigrate
  rw [migrate_of_fits hfits] at hmigrate
  cases Option.some.inj hmigrate
  obtain ⟨r', hrun', hagrees⟩ := hsim [] [] .nil trivial _ rfl
  cases Option.some.inj hrun'
  have hdone : s.cb.userIsDoneSending = false := hagrees.userIsDoneSending.symm
  have htimer : s.cb.retransmitDeadline = none := by
    cases hd : s.cb.retransmitDeadline with
    | none => rfl
    | some deadline =>
      have ht := hagrees.retransmitTimer (by simp only [SocketRun.start, hd, Option.isSome_some])
      cases ht
  cases hs : s.sender with
  | top => exact .inl ⟨hagrees.state.symm, hdone, htimer, hs, hfits⟩
  | awaiting awaiting => exact .inr (stuck_of_simulates hw hdone hs hsim)
  | probing buf sendNext mac => exact absurd hsim (not_simulates_of_probing hw hs rfl)

/-- Migration preserves a connection when nothing is closing, no retransmission timer and no window probe is running
and the sender is at the top of its loop: the import starts in ESTABLISHED, without timers, as if `close` had not been
called and with a new background task. It preserves no other connection, unless its sender is stuck. -/
theorem preserves_iff_quiescent (s : EstablishedSocket) (appState : MigratedApplicationState) (local_ : SocketAddrV4)
    (ackDelayTimeout : Duration) (hw : WindowFits s.cb) :
    (s.Quiescent → s.Preserves appState local_ ackDelayTimeout) ∧
      (s.Preserves appState local_ ackDelayTimeout → s.Quiescent ∨ s.Stuck) :=
  ⟨fun h => preserves_of_quiescent hw h appState local_ ackDelayTimeout, quiescent_of_preserves hw⟩

end

def sampleSocket : EstablishedSocket :=
  ⟨.new ⟨⟨10, 0, 1, 8⟩, 10000⟩ ⟨⟨10, 0, 1, 7⟩, 50000⟩ ⟨40⟩ 0 65535 0 ⟨7⟩ 65535 0 1460, .top⟩

def sampleEnv : Env := ⟨0, some ⟨2, 0, 0, 0, 0, 7⟩, 200, 65535, 0⟩

def sampleHeader (seqNum : SeqNumber) : TcpHeader :=
  { TcpHeader.new 50000 10000 with seqNum := seqNum, ackNum := ⟨7⟩, ack := true, windowSize := 65535 }

/-- Text comes in, text after a hole comes in, and a push waits because the link address is not known. -/
def sampleSocketEvents : List (SocketEvent × Env) :=
  [(.segment (sampleHeader ⟨40⟩) [1, 2], sampleEnv), (.segment (sampleHeader ⟨44⟩) [5], sampleEnv),
    (.push [7, 8], { sampleEnv with arp := none })]

theorem preserves_iff_quiescent_sample :
    ∃ r, run SocketRun.step (.start sampleSocket) sampleSocketEvents = some r ∧ r.socket.cb.outOfOrder = [(⟨44⟩, [5])] ∧
      r.socket.cb.receiver.recvQueue = [[1, 2]] ∧ r.socket.cb.sender.unsentQueue = [[7, 8]] ∧
      r.socket.Preserves .none ⟨⟨10, 0, 1, 9⟩, 10000⟩ 0 := by
  obtain ⟨r, hr, hw, hout, hrecv, hunsent, hq⟩ : ∃ r, run SocketRun.step (.start sampleSocket) sampleSocketEvents = some r ∧
      WindowFits r.socket.cb ∧ r.socket.cb.outOfOrder = [(⟨44⟩, [5])] ∧ r.socket.cb.receiver.recvQueue = [[1, 2]] ∧
      r.socket.cb.sender.unsentQueue = [[7, 8]] ∧ r.socket.Quiescent := by
    have hsmall : ∀ buf : Buffer, buf.length < 2 ^ 16 → BufferFits buf :=
      fun buf hlen => Nat.lt_trans hlen (Nat.pow_lt_pow_right (by decide) (by decide))
    refine ⟨_, rfl, rfl, rfl, rfl, rfl, ⟨rfl, rfl, rfl, rfl, ⟨by decide, ?_, ?_, ?_, ?_⟩⟩⟩
    · exact ⟨by decide, List.forall_mem_singleton.mpr (hsmall [5] (by decide))⟩
    · exact ⟨by decide, List.forall_mem_singleton.mpr (hsmall [1, 2] (by decide))⟩
    · exact ⟨by decide, List.forall_mem_nil _⟩
    · exact ⟨by decide, List.forall_mem_singleton.mpr (hsmall [7, 8] (by decide))⟩
  exact ⟨r, hr, hout, hrecv, hunsent, (preserves_iff_quiescent r.socket .none ⟨⟨10, 0, 1, 9⟩, 10000⟩ 0 hw).1 hq⟩

/-- A connection with one byte on its way loses the timer that would send the byte again. -/
theorem preserves_fails_in_flight :
    ∃ r, run SocketRun.step (.start sampleSocket) [(.push [7], sampleEnv)] = some r ∧ WindowFits r.socket.cb ∧
      r.socket.cb.Fits ∧ r.results = [.ok ()] ∧ ¬r.socket.Preserves .none ⟨⟨10, 0, 1, 9⟩, 10000⟩ 0 := by
  obtain ⟨r, hr, hf, hfits, hresults, htimer, htop⟩ :
      ∃ r, run SocketRun.step (.start sampleSocket) [(.push [7], sampleEnv)] = some r ∧ WindowFits r.socket.cb ∧
        r.socket.cb.Fits ∧ r.results = [.ok ()] ∧ r.socket.cb.retransmitDeadline = some 200 ∧ r.socket.sender = .top := by
    have hbyte : BufferFits [7] := Nat.one_lt_two_pow (by decide)
    refine ⟨_, rfl, rfl, ⟨by decide, ?_, ?_, ?_, ?_⟩, rfl, rfl, rfl⟩
    · exact ⟨by decide, List.forall_mem_nil _⟩
    · exact ⟨by decide, List.forall_mem_nil _⟩
    · exact ⟨by decide, List.forall_mem_singleton.mpr hbyte⟩
    · exact ⟨by decide, List.forall_mem_nil _⟩
  refine ⟨r, hr, hf, hfits, hresults, fun h => ?_⟩
  rcases quiescent_of_preserves hf h with hq | ⟨awaiting, ha, -⟩
  · cases htimer.symm.trans hq.retransmitDeadline
  · cases htop.symm.trans ha

end Capybara
