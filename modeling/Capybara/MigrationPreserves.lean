import Capybara.Migration
import Capybara.MirrorSend

namespace Capybara

open Matching Runs

/-- The same event at two servers. -/
structure SameEvent (e e' : SocketEvent × Env) : Prop where
  event : e'.1 = e.1
  env : e.2.Alike e'.2

/-- What the peer and the application can tell of two runs, and the state that decides what they can tell later. The
second run started when the first one had sent the segments `base`. -/
structure Agrees (base : List TcpSegment) (r r' : SocketRun) : Prop where
  popped : r'.popped = r.popped
  results : r'.results = r.results
  segments : segmentsOf r.socket.cb.rt = base ++ segmentsOf r'.socket.cb.rt
  state : r'.socket.cb.state = r.socket.cb.state
  userIsDoneSending : r'.socket.cb.userIsDoneSending = r.socket.cb.userIsDoneSending
  sender : SenderMirrors False r.socket.cb.sender r'.socket.cb.sender
  receiver : ReceiverMirrors r.socket.cb.receiver r'.socket.cb.receiver
  receiveBufferSize : r'.socket.cb.receiveBufferSize = r.socket.cb.receiveBufferSize
  windowScale : r'.socket.cb.windowScale = r.socket.cb.windowScale
  outOfOrder : r'.socket.cb.outOfOrder = r.socket.cb.outOfOrder
  outOfOrderFin : r'.socket.cb.outOfOrderFin = r.socket.cb.outOfOrderFin
  retransmitTimer : r.socket.cb.retransmitDeadline.isSome = true → r'.socket.cb.retransmitDeadline.isSome = true

namespace EstablishedSocket

/-- The advertised window can be computed in every state of the run. -/
def WindowsFit (s : EstablishedSocket) (events : List (SocketEvent × Env)) : Prop :=
  Admits SocketRun.step (fun r e => ∀ r', r.step e = some r' → WindowFits r'.socket.cb) (.start s) events

/-- The second socket does whatever the first one does. -/
def Simulates (s s' : EstablishedSocket) : Prop :=
  ∀ events events' : List (SocketEvent × Env), List.Forall₂ SameEvent events events' → s.WindowsFit events →
    ∀ r, run SocketRun.step (.start s) events = some r →
      ∃ r', run SocketRun.step (.start s') events' = some r' ∧ Agrees (segmentsOf s.cb.rt) r r'

/-- Migration goes through and preserves the behaviour of the connection. -/
def Preserves (s : EstablishedSocket) (appState : MigratedApplicationState) (local_ : SocketAddrV4)
    (ackDelayTimeout : Duration) : Prop :=
  ∃ s', s.migrate appState local_ ackDelayTimeout = some s' ∧ s.Simulates s'

/-- An open connection with nothing closing, no retransmission timer and no window probe running, whose queues fit
the encoding. -/
structure Quiescent (s : EstablishedSocket) : Prop where
  state : s.cb.state = .established
  userIsDoneSending : s.cb.userIsDoneSending = false
  retransmitDeadline : s.cb.retransmitDeadline = none
  sender : s.sender = .top
  fits : s.cb.Fits

end EstablishedSocket

structure RunMirrors (base : List TcpSegment) (r r' : SocketRun) : Prop where
  socket : SocketMirrors base r.socket r'.socket
  popped : r'.popped = r.popped
  results : r'.results = r.results

section

variable {base : List TcpSegment} {r r' : SocketRun} {s s' : EstablishedSocket} {env env' : Env}

theorem RunMirrors.agrees (h : RunMirrors base r r') : Agrees base r r' where
  popped := h.popped
  results := h.results
  segments := h.socket.cb.rt
  state := h.socket.cb.state
  userIsDoneSending := h.socket.cb.userIsDoneSending
  sender := { h.socket.cb.sender with sendWindowChanged := False.elim }
  receiver := h.socket.cb.receiver
  receiveBufferSize := h.socket.cb.receiveBufferSize
  windowScale := h.socket.cb.windowScale
  outOfOrder := h.socket.cb.outOfOrder
  outOfOrderFin := h.socket.cb.outOfOrderFin
  retransmitTimer := fun ht => h.socket.cb.retransmitDeadline.trans ht

/-- A socket step that keeps the control block's window, or needs none. -/
abbrev SocketFits (s : EstablishedSocket) : Prop := WindowFits s.cb

theorem SocketMirrors.withCb (h : SocketMirrors base s s') {cb cb' : ControlBlock}
    (hcb : Mirrors base s.Watching cb cb') : SocketMirrors base { s with cb := cb } { s' with cb := cb' } :=
  ⟨h.sender, hcb⟩

theorem socketReceive_mirrors (h : SocketMirrors base s s') (he : env.Alike env') (header : TcpHeader) (data : Buffer) :
    Matches SocketFits (SocketMirrors base) (s.receive header data env) (s'.receive header data env') := by
  intro t ht hf
  obtain ⟨cb, hcb, ht⟩ := Option.bind_eq_some_iff.mp ht
  cases Option.some.inj ht
  obtain ⟨cb', hcb', hm⟩ := receive_mirrors h.cb he header data cb hcb hf
  refine ⟨⟨cb', s'.taskAfter cb'⟩, by simp only [EstablishedSocket.receive, hcb', Option.bind_eq_bind, Option.bind_some], ?_⟩
  have htask := h.sender
  cases hs : s.sender with
  | top =>
    rw [hs] at htask
    simp only [EstablishedSocket.taskAfter, hs, htask]
    exact hm.atTop
  | awaiting awaiting =>
    rw [hs] at htask
    simp only [EstablishedSocket.taskAfter, hs, htask]
    exact hm.awaiting awaiting
  | probing buf sendNext mac =>
    rw [hs] at htask
    have hchanged := hm.sender.sendWindowChanged ⟨buf, sendNext, mac, hs⟩
    simp only [EstablishedSocket.taskAfter, hs, htask, hchanged]
    exact ⟨rfl, { hm with sender := { hm.sender with sendWindowChanged := fun _ => hchanged } }⟩

theorem retransmitTimer_mirrors (h : SocketMirrors base s s') (he : env.Alike env') :
    SocketMatches base (s.retransmitTimer env) (s'.retransmitTimer env') := by
  have ht := h.cb.retransmitDeadline
  unfold EstablishedSocket.retransmitTimer
  cases hd : s.cb.retransmitDeadline <;> cases hd' : s'.cb.retransmitDeadline <;> simp only [hd, hd'] at ht
  · exact .ret h
  · cases ht
  · cases ht
  · exact .bind (retransmit_mirrors h.cb he) fun cb cb' hm => .ret (h.withCb { hm with retransmitDeadline := rfl })

theorem fastRetransmit_mirrors (h : SocketMirrors base s s') (he : env.Alike env') :
    SocketMatches base (s.fastRetransmit env) (s'.fastRetransmit env') :=
  .bind (retransmit_mirrors h.cb he) fun _ _ hm => .ret (h.withCb hm)

theorem ackTimer_delayed {t : EstablishedSocket} (h : s.ackTimer env = some t) :
    t.sender = s.sender ∧ OnlyDelayedAcks s.cb t.cb := by
  unfold EstablishedSocket.ackTimer at h
  split at h
  next =>
    cases Option.some.inj h
    exact ⟨rfl, rfl, rfl⟩
  next =>
    obtain ⟨cb, hcb, ht⟩ := Option.bind_eq_some_iff.mp h
    cases Option.some.inj ht
    exact ⟨rfl, sendAck_delayed hcb⟩

theorem ackTimer_some {header : TcpHeader} (h : s.cb.tcpHeader = some header) (env : Env) :
    ∃ t, s.ackTimer env = some t := by
  unfold EstablishedSocket.ackTimer
  split
  next => exact ⟨s, rfl⟩
  next =>
    obtain ⟨cb, hcb⟩ := sendAck_of_header h true env
    exact ⟨{ s with cb := cb }, by simp only [hcb, Option.bind_eq_bind, Option.bind_some]⟩

theorem ackTimer_mirrors (h : SocketMirrors base s s') (hf : WindowFits s.cb) :
    SocketMatches base (s.ackTimer env) (s'.ackTimer env') := by
  intro t ht _
  obtain ⟨hsender, hd⟩ := ackTimer_delayed ht
  obtain ⟨header, hheader⟩ := h.cb.windowFits hf
  obtain ⟨t', ht'⟩ := ackTimer_some hheader env'
  obtain ⟨hsender', hd'⟩ := ackTimer_delayed ht'
  refine ⟨t', ht', by rw [hsender', hsender, h.sender], ?_⟩
  rw [EstablishedSocket.Watching, hsender]
  exact (h.cb.delayed_left hd).delayed_right hd'

theorem persistTimer_mirrors (h : SocketMirrors base s s') : SocketMatches base s.persistTimer s'.persistTimer := by
  unfold EstablishedSocket.persistTimer
  rw [h.sender]
  cases hs : s.sender with
  | top => exact .ret h
  | awaiting awaiting => exact .ret h
  | probing buf sendNext mac =>
    refine .bind (emitProbe_mirrors h.cb buf sendNext mac) fun cb cb' hm => .ret ⟨rfl, ?_⟩
    rwa [EstablishedSocket.Watching, hs] at hm

abbrev RunFits (r : SocketRun) : Prop := WindowFits r.socket.cb

theorem withSocket_mirrors (h : RunMirrors base r r') {o o' : Option EstablishedSocket}
    (ho : Matches SocketFits (SocketMirrors base) o o') :
    Matches RunFits (RunMirrors base) (r.withSocket o) (r'.withSocket o') := by
  intro t ht hf
  obtain ⟨s, hs, rfl⟩ := Option.map_eq_some_iff.mp ht
  obtain ⟨s', rfl, hm⟩ := ho s hs hf
  exact ⟨_, rfl, hm, h.popped, h.results⟩

theorem answer_mirrors (h : RunMirrors base r r') {o o' : Option (Except Fail Unit × ControlBlock)}
    (ho : Matches (fun _ => True) (Answers base r.socket.Watching) o o') :
    Matches (fun _ => True) (RunMirrors base)
      (do
        let (result, cb) ← o
        some { r with socket := { r.socket with cb := cb }, results := r.results ++ [result] })
      (do
        let (result, cb) ← o'
        some { r' with socket := { r'.socket with cb := cb }, results := r'.results ++ [result] }) :=
  .bind ho fun x x' hx => .ret ⟨h.socket.withCb hx.2, h.popped, by simp only [h.results, hx.1]⟩

theorem step_mirrors {e e' : SocketEvent × Env} (hf : RunFits r) (h : RunMirrors base r r') (he : SameEvent e e') :
    Matches RunFits (RunMirrors base) (r.step e) (r'.step e') := by
  obtain ⟨event, env⟩ := e
  obtain ⟨event', env'⟩ := e'
  obtain ⟨hevent, henv⟩ := he
  cases hevent
  cases event with
  | segment header data => exact withSocket_mirrors h (socketReceive_mirrors h.socket henv header data)
  | pop =>
    obtain ⟨hbuf, hcb⟩ := pollRecv_mirrors h.socket.cb
    refine .ret ⟨h.socket.withCb hcb, ?_, h.results⟩
    change r'.popped ++ r'.socket.cb.pollRecv.1.toList = r.popped ++ r.socket.cb.pollRecv.1.toList
    rw [h.popped, hbuf]
  | push buf => exact (answer_mirrors h (send_mirrors h.socket.cb henv buf)).any
  | close => exact (answer_mirrors h (close_mirrors h.socket.cb henv)).any
  | background => exact withSocket_mirrors h (background_mirrors h.socket henv).any
  | retransmitTimer => exact withSocket_mirrors h (retransmitTimer_mirrors h.socket henv).any
  | fastRetransmit => exact withSocket_mirrors h (fastRetransmit_mirrors h.socket henv).any
  | ackTimer => exact withSocket_mirrors h (ackTimer_mirrors h.socket hf).any
  | persistTimer => exact withSocket_mirrors h (persistTimer_mirrors h.socket).any

theorem runs_mirror {events events' : List (SocketEvent × Env)} (hf : RunFits r) (h : RunMirrors base r r')
    (he : List.Forall₂ SameEvent events events')
    (ha : Admits SocketRun.step (fun r e => ∀ r', r.step e = some r' → RunFits r') r events) :
    Matches (fun _ => True) (RunMirrors base) (run SocketRun.step r events) (run SocketRun.step r' events') := by
  have hstep : ∀ r r' e e', RunFits r → RunMirrors base r r' → SameEvent e e' →
      Matches RunFits (RunMirrors base) (SocketRun.step r e) (SocketRun.step r' e') :=
    fun _ _ _ _ hf h he => step_mirrors hf h he
  exact run_matches hstep hf h he ha

theorem arrived_mirrors (h : s.Quiescent) (local_ : SocketAddrV4) (ackDelayTimeout : Duration) :
    SocketMirrors (segmentsOf s.cb.rt) s ⟨s.cb.arrived local_ ackDelayTimeout, .top⟩ where
  sender := h.sender.symm
  cb := {
    remote := rfl
    rt := (List.append_nil _).symm
    sender := {
      sendUnacked := rfl
      unackedQueue := by simp only [ControlBlock.arrived, List.map_map]; rfl
      sendNext := rfl
      unsentQueue := rfl
      unsentSeqNo := rfl
      sendWindow := rfl
      sendWindowChanged := fun ⟨_, _, _, hp⟩ => by cases h.sender.symm.trans hp
      sendWindowLastUpdateSeq := rfl
      sendWindowLastUpdateAck := rfl
      windowScale := rfl
      mss := rfl }
    state := h.state.symm
    receiveBufferSize := rfl
    windowScale := rfl
    outOfOrder := rfl
    outOfOrderFin := rfl
    receiver := ⟨rfl, rfl, rfl⟩
    userIsDoneSending := h.userIsDoneSending.symm
    retransmitDeadline := by rw [h.retransmitDeadline]; rfl }

theorem preserves_of_quiescent (hw : WindowFits s.cb) (h : s.Quiescent) (appState : MigratedApplicationState)
    (local_ : SocketAddrV4) (ackDelayTimeout : Duration) : s.Preserves appState local_ ackDelayTimeout := by
  refine ⟨⟨s.cb.arrived local_ ackDelayTimeout, .top⟩, migrate_of_fits h.fits appState local_ ackDelayTimeout, ?_⟩
  intro events events' hevents hfits r hrun
  have hstart : RunMirrors (segmentsOf s.cb.rt) (.start s) (.start ⟨s.cb.arrived local_ ackDelayTimeout, .top⟩) :=
    ⟨arrived_mirrors h local_ ackDelayTimeout, rfl, rfl⟩
  have hf : RunFits (.start s) := hw
  obtain ⟨r', hrun', hm⟩ := runs_mirror hf hstart hevents hfits r hrun trivial
  exact ⟨r', hrun', hm.agrees⟩

end

end Capybara
