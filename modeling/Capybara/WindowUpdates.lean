import Capybara.Connection

namespace Capybara

open ControlBlock Runs

/-- The test of `update_send_window`. -/
def Sender.TakesWindow (s : Sender) (header : TcpHeader) : Prop :=
  s.sendWindowLastUpdateSeq.lt header.seqNum = true ∨
    (s.sendWindowLastUpdateSeq = header.seqNum ∧ s.sendWindowLastUpdateAck.le header.ackNum = true)

instance (s : Sender) (header : TcpHeader) : Decidable (s.TakesWindow header) := inferInstanceAs (Decidable (_ ∨ _))

/-- The header of a segment whose window is taken. -/
def ControlBlock.windowUpdate (cb : ControlBlock) (header : TcpHeader) (data : Buffer) : Option TcpHeader :=
  ((cb.processed header data).map Incoming.header).filter fun header =>
    cb.sender.sendUnacked.lt header.ackNum && decide (cb.sender.TakesWindow header)

/-- A connection, the sequence and acknowledgement number of the last segment whose window was taken, and whether one
was taken after the handshake. -/
structure WindowHistory where
  conn : SocketRun
  used : SeqNumber × SeqNumber
  updated : Bool

namespace WindowHistory

/-- The handshake ends with the peer's SYN just before RCV.NXT and with nothing of ours on its way. -/
def start (cb : ControlBlock) : WindowHistory :=
  ⟨.start ⟨cb, .top⟩, (cb.receiver.receiveNext - SeqNumber.ofNat 1, cb.sender.sendUnacked), false⟩

def follow (h : WindowHistory) (e : ConnectionEvent) (conn : SocketRun) : WindowHistory :=
  match e with
  | .socket (.segment header data) _ =>
    match h.conn.socket.cb.windowUpdate header data with
    | some header => ⟨conn, (header.seqNum, header.ackNum), true⟩
    | none => ⟨conn, h.used, h.updated⟩
  | _ => ⟨conn, h.used, h.updated⟩

def step (h : WindowHistory) (e : ConnectionEvent) : Option WindowHistory :=
  (Connection.step h.conn e).map (h.follow e)

/-- A segment that acknowledges what was sent and is not older than the last one whose window was taken. -/
def Due (h : WindowHistory) (header : TcpHeader) : Prop :=
  (header.ackNum - h.conn.socket.cb.sender.sendUnacked).toNat ≤
      (h.conn.socket.cb.sender.sendNext - h.conn.socket.cb.sender.sendUnacked).toNat ∧
    (h.used.1.lt header.seqNum = true ∨ (h.used.1 = header.seqNum ∧ h.used.2.le header.ackNum = true))

instance (h : WindowHistory) (header : TcpHeader) : Decidable (h.Due header) := inferInstanceAs (Decidable (_ ∧ _))

/-- The window of a segment in bytes. -/
def offered (h : WindowHistory) (header : TcpHeader) : Nat :=
  header.windowSize.toNat * 2 ^ h.conn.socket.cb.sender.windowScale.toNat

/-- The window of every segment that is due is the send window afterwards. -/
def TakesDue (h : WindowHistory) (header : TcpHeader) (data : Buffer) (env : Env) : Prop :=
  ∀ s cb', h.conn.socket.cb.processed header data = some s → h.Due s.header → h.conn.socket.cb.receive header data env = some cb' →
    cb'.sender.sendWindow.toNat = h.offered s.header

/-- It acknowledges something new, and a window was taken before or the numbers of the handshake let it through; or
the send window is that one already. -/
def CanTake (h : WindowHistory) (header : TcpHeader) : Prop :=
  h.conn.socket.cb.sender.sendUnacked.lt header.ackNum = true ∧ (h.updated = true ∨ h.conn.socket.cb.sender.TakesWindow header) ∨
    h.conn.socket.cb.sender.sendWindow.toNat = h.offered header

instance (h : WindowHistory) (header : TcpHeader) : Decidable (h.CanTake header) := inferInstanceAs (Decidable (_ ∨ _))

/-- The numbers the sender remembers are those of the last segment whose window was taken. -/
structure Remembers (h : WindowHistory) : Prop where
  steady : Connection.Steady h.conn
  used : h.updated = true → (h.conn.socket.cb.sender.sendWindowLastUpdateSeq, h.conn.socket.cb.sender.sendWindowLastUpdateAck) = h.used

end WindowHistory

section

variable {h h' : WindowHistory} {cb cb' cb₁ : ControlBlock} {header : TcpHeader} {data : Buffer} {env : Env}

theorem updateSendWindow_taken {s s' : Sender} (ht : s.TakesWindow header) (hs : s.windowScale.toNat < 16)
    (h : s.updateSendWindow header = some s') :
    s'.sendWindow.toNat = header.windowSize.toNat * 2 ^ s.windowScale.toNat ∧
      s'.sendWindowLastUpdateSeq = header.seqNum ∧ s'.sendWindowLastUpdateAck = header.ackNum := by
  unfold Sender.TakesWindow at ht
  rw [Sender.updateSendWindow, if_pos ht, if_pos (by omega)] at h
  cases Option.some.inj h
  have hpow : 2 ^ s.windowScale.toNat ≤ 2 ^ 15 := Nat.pow_le_pow_right (by omega) (by omega)
  have hsize := header.windowSize.toNat_lt
  have hprod : header.windowSize.toNat * 2 ^ s.windowScale.toNat ≤ (2 ^ 16 - 1) * 2 ^ 15 :=
    Nat.mul_le_mul (by omega) hpow
  refine ⟨?_, rfl, rfl⟩
  rw [UInt32.toNat_ofNat', Nat.mod_eq_of_lt (by omega)]

theorem updateSendWindow_left {s s' : Sender} (ht : ¬s.TakesWindow header) (h : s.updateSendWindow header = some s') :
    s' = s := by
  unfold Sender.TakesWindow at ht
  rw [Sender.updateSendWindow, if_neg ht] at h
  exact (Option.some.inj h).symm

/-- The window of a segment is taken with its numbers, or what is known about the window stays as it was. -/
theorem AckEffect.windowUpdate (ha : AckEffect cb header data env cb') (hs : cb.sender.windowScale.toNat < 16) :
    match cb.windowUpdate header data with
    | some update => cb'.sender.sendWindow.toNat = update.windowSize.toNat * 2 ^ cb.sender.windowScale.toNat ∧
        cb'.sender.sendWindowLastUpdateSeq = update.seqNum ∧ cb'.sender.sendWindowLastUpdateAck = update.ackNum
    | none => SamePeerWindow cb.sender cb'.sender := by
  cases ha with
  | ignored hnone hsame =>
    rw [ControlBlock.windowUpdate, hnone]
    exact hsame.peerWindow
  | @taken s cb₁ hp hack hsame =>
    rw [ControlBlock.windowUpdate, processed_eq_some.mpr hp, hsame.sender]
    cases hnew : cb.sender.sendUnacked.lt s.header.ackNum with
    | false =>
      rw [processAck_old hnew hack]
      simp only [Option.map_some, Option.filter, hnew, Bool.false_and]
      exact .refl _
    | true =>
      obtain ⟨queue, -, hupdate, -⟩ := processAck_new hnew hack
      have hsame : Sender.TakesWindow { cb.sender with unackedQueue := queue, sendUnacked := s.header.ackNum } s.header ↔
          cb.sender.TakesWindow s.header := Iff.rfl
      by_cases ht : cb.sender.TakesWindow s.header
      · have htaken := updateSendWindow_taken (hsame.mpr ht) hs hupdate
        simp only [Option.map_some, Option.filter, hnew, ht, decide_true, Bool.and_true]
        exact htaken
      · have hleft := updateSendWindow_left (fun hc => ht (hsame.mp hc)) hupdate
        simp only [Option.map_some, Option.filter, hnew, ht, decide_false, Bool.and_false]
        rw [hleft]
        exact ⟨rfl, rfl, rfl⟩

end

namespace WindowHistory

section

variable {h h' : WindowHistory} {header : TcpHeader} {data : Buffer} {env : Env}

/-- Nothing is learned about the window. -/
theorem Remembers.keep {conn : SocketRun} (hr : Remembers h) (hs : Connection.Steady conn)
    (hseq : conn.socket.cb.sender.sendWindowLastUpdateSeq = h.conn.socket.cb.sender.sendWindowLastUpdateSeq)
    (hack : conn.socket.cb.sender.sendWindowLastUpdateAck = h.conn.socket.cb.sender.sendWindowLastUpdateAck) :
    Remembers ⟨conn, h.used, h.updated⟩ := by
  refine ⟨hs, fun hu => ?_⟩
  dsimp only
  rw [hseq, hack]
  exact hr.used hu

theorem remembers_step {e : ConnectionEvent} (hr : Remembers h) (hd : Connection.FitsPacket h.conn e)
    (hs : h.step e = some h') : Remembers h' := by
  obtain ⟨conn, hconn, rfl⟩ := Option.map_eq_some_iff.mp hs
  have hsteady := hr.steady.step hd hconn
  cases e with
  | migrate appState local_ ackDelayTimeout =>
    have hmoved := Connection.migrate_arrives hconn
    subst hmoved
    exact hr.keep hsteady rfl rfl
  | socket event env =>
    by_cases hseg : ∃ header data, event = .segment header data
    · obtain ⟨header, data, rfl⟩ := hseg
      obtain ⟨s, hsocket, rfl⟩ := Option.map_eq_some_iff.mp hconn
      obtain ⟨cb', hreceive, hsocket⟩ := Option.bind_eq_some_iff.mp hsocket
      cases Option.some.inj hsocket
      have heffect := receive_ackEffect (fun t ht => trimToWindow_parsed hd hr.steady.buffer ht) hreceive
      have hwindow := heffect.windowUpdate hr.steady.coherent.scale
      change Remembers (match h.conn.socket.cb.windowUpdate header data with
        | some header => ⟨_, (header.seqNum, header.ackNum), true⟩
        | none => ⟨_, h.used, h.updated⟩)
      cases hupdate : h.conn.socket.cb.windowUpdate header data with
      | none =>
        rw [hupdate] at hwindow
        exact hr.keep hsteady hwindow.sendWindowLastUpdateSeq hwindow.sendWindowLastUpdateAck
      | some update =>
        rw [hupdate] at hwindow
        obtain ⟨-, hseq, hack⟩ := hwindow
        exact ⟨hsteady, fun _ => Prod.ext hseq hack⟩
    · have hwindow := step_peerWindow hconn fun header data he => hseg ⟨header, data, he⟩
      have hkeep := hr.keep hsteady hwindow.sendWindowLastUpdateSeq hwindow.sendWindowLastUpdateAck
      cases event with
      | segment header data => exact absurd ⟨header, data, rfl⟩ hseg
      | _ => exact hkeep

theorem Opened.remembers {cb : ControlBlock} (ho : Opened cb) : Remembers (.start cb) :=
  ⟨ho.steady, fun hu => by cases hu⟩

/-- The window after a segment that is due. -/
theorem Remembers.received {cb' : ControlBlock} {s : Incoming} (hrem : Remembers h) (hd : data.length < 2 ^ 16)
    (hs : h.conn.socket.cb.processed header data = some s) (hdue : h.Due s.header)
    (hreceive : h.conn.socket.cb.receive header data env = some cb') :
    cb'.sender.sendWindow.toNat = h.offered s.header ↔ h.CanTake s.header := by
  have heffect := receive_ackEffect (fun t ht => trimToWindow_parsed hd hrem.steady.buffer ht) hreceive
  have hwindow := heffect.windowUpdate hrem.steady.coherent.scale
  cases hnew : h.conn.socket.cb.sender.sendUnacked.lt s.header.ackNum with
  | false =>
    have hnone : h.conn.socket.cb.windowUpdate header data = none := by simp [windowUpdate, hs, hnew]
    rw [hnone] at hwindow
    rw [hwindow.sendWindow]
    simp [CanTake, hnew]
  | true =>
    by_cases ht : h.conn.socket.cb.sender.TakesWindow s.header
    · have hupdate : h.conn.socket.cb.windowUpdate header data = some s.header := by simp [windowUpdate, hs, hnew, ht, Option.filter]
      rw [hupdate] at hwindow
      exact ⟨fun _ => .inl ⟨hnew, .inr ht⟩, fun _ => hwindow.1⟩
    · have hnone : h.conn.socket.cb.windowUpdate header data = none := by simp [windowUpdate, hs, hnew, ht, Option.filter]
      rw [hnone] at hwindow
      rw [hwindow.sendWindow]
      constructor
      · exact .inr
      · rintro (⟨-, hu | htakes⟩ | hsame)
        -- After an update the remembered numbers are those of the history.
        · have hused := hrem.used hu
          have hnot : ¬(h.used.1.lt s.header.seqNum = true ∨
              (h.used.1 = s.header.seqNum ∧ h.used.2.le s.header.ackNum = true)) := by
            rw [← hused]
            exact ht
          exact absurd hdue.2 hnot
        · exact absurd htakes ht
        · exact hsame

/-- After any history the window of a segment that is due is the send window afterwards exactly if the segment
acknowledges something new and a window was taken before or the numbers of the handshake let it through: an ACK of
nothing new never opens the window, and the numbers it is first compared with are our own. -/
theorem takesDue_iff {cb : ControlBlock} {es : List ConnectionEvent} (ho : Opened cb)
    (hp : Admits step (fun h e => Connection.FitsPacket h.conn e) (.start cb) es) (hr : run step (.start cb) es = some h)
    (hd : data.length < 2 ^ 16) :
    h.TakesDue header data env ↔ ∀ s, h.conn.socket.cb.processed header data = some s → h.Due s.header →
      (h.conn.socket.cb.receive header data env).isSome = true → h.CanTake s.header := by
  have hrem : Remembers h := run_reaches (fun _ _ _ hr hd hs => remembers_step hr hd hs) (Opened.remembers ho) hp hr
  constructor
  · intro htakes s hs hdue hsome
    obtain ⟨cb', hreceive⟩ := Option.isSome_iff_exists.mp hsome
    exact (hrem.received hd hs hdue hreceive).mp (htakes s cb' hs hdue hreceive)
  · intro hcan s cb' hs hdue hreceive
    exact (hrem.received hd hs hdue hreceive).mpr (hcan s hs hdue (by rw [hreceive]; rfl))

/-- One byte is sent and the window of the segment that acknowledges it is taken. -/
theorem takesDue_iff_sample : ∃ h, run step (.start smallWindow) [.socket (.push [1]) linkEnv] = some h ∧
    h.TakesDue { peerHeader ⟨40⟩ false with ackNum := ⟨8⟩ } [] linkEnv := by
  have hp : Admits step (fun h e => Connection.FitsPacket h.conn e) (.start smallWindow) [.socket (.push [1]) linkEnv] := by decide
  refine ⟨_, rfl, ?_⟩
  rw [takesDue_iff smallWindow_opened hp rfl (by decide)]
  intro s hs _ _
  cases Option.some.inj hs
  decide

/-- The peer opens its window with an ACK of nothing new. -/
theorem takesDue_iff_closed : ∃ h cb', Opened closedWindow ∧ run step (.start closedWindow) [] = some h ∧
    h.conn.socket.cb.receive (peerHeader ⟨40⟩ false) [] linkEnv = some cb' ∧
    ¬h.TakesDue (peerHeader ⟨40⟩ false) [] linkEnv := by
  refine ⟨_, _, closedWindow_opened, rfl, rfl, fun htakes => ?_⟩
  have hwindow := htakes _ _ rfl (by decide) rfl
  exact absurd hwindow (by decide)

end

end WindowHistory

end Capybara
