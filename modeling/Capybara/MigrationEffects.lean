import Capybara.Custody
import Capybara.Handover
import Capybara.MigrationReplies

namespace Capybara

/-- The defragmenter of a migration that waits for a connection state. -/
def ActiveMigration.awaited (a : ActiveMigration) : Option TcpMigDefragmenter :=
  if a.lastSentStage = .prepareMigrationAck then some a.defragmenter else none

def TcpMigPeer.awaited (p : TcpMigPeer) (client : SocketAddrV4) : Option TcpMigDefragmenter :=
  (p.activeMigrations.get client).bind ActiveMigration.awaited

/-- Each migration is the one of its client, and no segment has come for it. -/
def TcpMigPeer.Tidy (p : TcpMigPeer) : Prop := ∀ client active, p.activeMigrations.get client = some active →
  active.client = client ∧ active.recvQueue = []

/-- No part of a connection state goes out. -/
def TcpMigPeer.Quiet (p p' : TcpMigPeer) : Prop :=
  ∃ out, p'.rt = p.rt ++ out ∧ ∀ s ∈ out, s.tcpmigHdr.stage ≠ .connectionState

/-- No part of a connection state goes out, and none is taken in. -/
structure TcpMigPeer.Calm (p p' : TcpMigPeer) : Prop where
  tidy : p.Tidy → p'.Tidy
  awaited : ∀ client d, p'.awaited client = some d → d = .new ∨ p.awaited client = some d
  quiet : p.Quiet p'

namespace ActiveMigration

/-- What a migration under way makes of a message. -/
inductive Answers (a : ActiveMigration) (hdr : TcpMigHeader) (buf : Buffer) : Outcome → Prop
  | keeps {r : Except Fail TcpmigReceiveStatus} (port : UInt16) (hr : ∀ state, r ≠ .ok (.stateReceived state)) :
      Answers a hdr buf (r, { a with destUdpPort := port }, [])
  | stores {d : TcpMigDefragmenter} (hstage : hdr.stage = .connectionState)
      (hlast : a.lastSentStage = .prepareMigrationAck) (hdefrag : a.defragmenter.defragment hdr buf = some (none, d)) :
      Answers a hdr buf (.ok .ok, { a with defragmenter := d }, [])
  | completes {d : TcpMigDefragmenter} {whole : TcpMigHeader} {all : Buffer} {state : TcpState}
      {out : List TcpMigSegment} (hstage : hdr.stage = .connectionState)
      (hlast : a.lastSentStage = .prepareMigrationAck)
      (hdefrag : a.defragmenter.defragment hdr buf = some (some (whole, all), d))
      (hstate : TcpState.deserialize all = some state) (hout : ∀ s ∈ out, s.tcpmigHdr.stage ≠ .connectionState) :
      Answers a hdr buf (.ok (.stateReceived (state.setLocal ⟨a.localIpv4Addr, a.selfUdpPort⟩)),
        { a with defragmenter := d, lastSentStage := .connectionStateAck }, out)

section

variable {a : ActiveMigration} {hdr : TcpMigHeader} {buf : Buffer} {o : Outcome}

theorem receiveState_answers (hstage : hdr.stage = .connectionState) (hlast : a.lastSentStage = .prepareMigrationAck)
    (h : a.receiveState hdr buf = some o) : a.Answers hdr buf o := by
  obtain ⟨⟨complete, d⟩, hdefrag, h⟩ := Option.bind_eq_some_iff.mp h
  cases complete with
  | none =>
    cases h
    exact .stores hstage hlast hdefrag
  | some message =>
    obtain ⟨whole, all⟩ := message
    obtain ⟨state, hstate, h⟩ := Option.bind_eq_some_iff.mp h
    obtain ⟨out, hout, h⟩ := Option.bind_eq_some_iff.mp h
    cases h
    rw [send_empty] at hout
    cases hout
    exact .completes hstage hlast hdefrag hstate (List.forall_mem_singleton.mpr fun heq => (by cases heq))

theorem processPacket_answers (hprepare : hdr.stage ≠ .prepareMigration) (h : a.processPacket hdr buf = some o) :
    a.Answers hdr buf o := by
  have hrefused : ∀ cause, a.Answers hdr buf (a.badMessage cause) := fun cause => .keeps a.destUdpPort fun _ => nofun
  have hkept : ∀ status, (∀ state, status ≠ .stateReceived state) → a.Answers hdr buf (.ok status, a, []) :=
    fun status hstatus => .keeps a.destUdpPort fun state heq => hstatus state (Except.ok.inj heq)
  unfold processPacket at h
  split at h
  next =>
    split at h
    next hstage => exact absurd hstage hprepare
    next => cases h; exact hrefused _
  next =>
    split at h
    next =>
      obtain ⟨qd, -, h⟩ := Option.bind_eq_some_iff.mp h
      cases h
      exact .keeps hdr.sourceUdpPort fun _ => nofun
    next => cases h; exact hkept _ fun _ => nofun
    next => cases h; exact hrefused _
  next hlast =>
    split at h
    next hstage => exact receiveState_answers hstage hlast h
    next => cases h; exact hrefused _
  next =>
    split at h
    next => cases h; exact hkept _ fun _ => nofun
    next => cases h; exact hrefused _
  next => cases h; exact hkept _ fun _ => nofun
  all_goals cases h

end

end ActiveMigration

namespace TcpMigPeer

section

variable {p p' p'' : TcpMigPeer} {client remote : SocketAddrV4} {hdr : TcpMigHeader} {payload : Buffer}
  {active : ActiveMigration} {out : List TcpMigSegment} {r : Except Fail TcpmigReceiveStatus}

theorem setActive_awaited (p : TcpMigPeer) (client remote : SocketAddrV4) (active : ActiveMigration)
    (out : List TcpMigSegment) : (p.setActive client active out).awaited remote =
      if remote = client then active.awaited else p.awaited remote := by
  rw [awaited, setActive_get]
  split <;> rfl

theorem removeActive_awaited (p : TcpMigPeer) (client remote : SocketAddrV4) :
    (p.removeActive client).awaited remote = if remote = client then none else p.awaited remote := by
  rw [awaited, removeActive_get]
  split <;> rfl

theorem Tidy.setActive (h : p.Tidy) (hclient : active.client = client) (hqueue : active.recvQueue = [])
    (out : List TcpMigSegment) : (p.setActive client active out).Tidy := by
  intro remote a hget
  rw [setActive_get] at hget
  split at hget
  next heq =>
    cases hget
    exact ⟨hclient.trans heq.symm, hqueue⟩
  next => exact h remote a hget

theorem Tidy.removeActive (h : p.Tidy) (client : SocketAddrV4) : (p.removeActive client).Tidy := by
  intro remote a hget
  rw [removeActive_get] at hget
  split at hget
  next => cases hget
  next => exact h remote a hget

theorem Quiet.of_rt (hrt : p'.rt = p.rt) : p.Quiet p' :=
  ⟨[], by rw [hrt, List.append_nil], fun _ hs => absurd hs List.not_mem_nil⟩

theorem Quiet.refl (p : TcpMigPeer) : p.Quiet p := .of_rt rfl

theorem Calm.of_same (hactive : p'.activeMigrations = p.activeMigrations) (hrt : p'.rt = p.rt) : p.Calm p' where
  tidy h client a hget := h client a (hactive ▸ hget)
  awaited client d hd := .inr (by rwa [TcpMigPeer.awaited, hactive] at hd)
  quiet := .of_rt hrt

theorem Calm.refl (p : TcpMigPeer) : p.Calm p := .of_same rfl rfl

theorem Quiet.trans (h : p.Quiet p') (h' : p'.Quiet p'') : p.Quiet p'' := by
  obtain ⟨out, hrt, hout⟩ := h
  obtain ⟨out', hrt', hout'⟩ := h'
  refine ⟨out ++ out', by rw [hrt', hrt, List.append_assoc], fun s hs => ?_⟩
  rcases List.mem_append.mp hs with hs | hs
  · exact hout s hs
  · exact hout' s hs

theorem Calm.trans (h : p.Calm p') (h' : p'.Calm p'') : p.Calm p'' where
  tidy ht := h'.tidy (h.tidy ht)
  awaited client d hd := by
    rcases h'.awaited client d hd with hnew | hold
    · exact .inl hnew
    · exact h.awaited client d hold
  quiet := h.quiet.trans h'.quiet

theorem calm_setActive (htidy : p.Tidy → active.client = client ∧ active.recvQueue = [])
    (hd : ∀ d, active.awaited = some d → d = .new ∨ p.awaited client = some d)
    (hout : ∀ s ∈ out, s.tcpmigHdr.stage ≠ .connectionState) : p.Calm (p.setActive client active out) where
  tidy h := h.setActive (htidy h).1 (htidy h).2 out
  awaited remote d h := by
    rw [setActive_awaited] at h
    split at h
    next heq => exact heq ▸ hd d h
    next => exact .inr h
  quiet := ⟨out, rfl, hout⟩

theorem calm_removeActive (p : TcpMigPeer) (client : SocketAddrV4) : p.Calm (p.removeActive client) where
  tidy h := h.removeActive client
  awaited remote d h := by
    rw [removeActive_awaited] at h
    split at h
    next => cases h
    next => exact .inr h
  quiet := .of_rt rfl

theorem initiateMigration_calm {conn : Endpoints} {qd : QDesc} (h : p.initiateMigration conn qd = some p') :
    p.Calm p' := by
  cases hget : p.activeMigrations.get conn.2 with
  | some active =>
    rw [initiateMigration, hget] at h
    cases h
  | none =>
    obtain ⟨active, out, hlast, -, -, hclient, hqueue, hout, hinitiate⟩ := initiateMigration_eq hget qd
    cases hinitiate.symm.trans h
    refine calm_setActive (fun _ => ⟨hclient, hqueue⟩) (fun d hd => ?_) fun s hs => ?_
    · rw [ActiveMigration.awaited, hlast] at hd
      cases hd
    · rw [hout s hs]
      exact fun heq => by cases heq

/-- What a server makes of a message about its migrations. -/
inductive Takes (p : TcpMigPeer) (hdr : TcpMigHeader) (payload : Buffer) (r : Except Fail TcpmigReceiveStatus)
    (p' : TcpMigPeer) : Prop
  | calm (hcalm : p.Calm p') (hr : ∀ state, r ≠ .ok (.stateReceived state))
  | stores {d d' : TcpMigDefragmenter} (hstage : hdr.stage = .connectionState) (hd : p.awaited hdr.client = some d)
      (hdefrag : d.defragment hdr payload = some (none, d'))
      (hafter : ∀ client, p'.awaited client = if client = hdr.client then some d' else p.awaited client)
      (htidy : p.Tidy → p'.Tidy) (hquiet : p.Quiet p') (hr : r = .ok .ok)
  | completes {d d' : TcpMigDefragmenter} {whole : TcpMigHeader} {all : Buffer} {state state' : TcpState}
      (local_ : SocketAddrV4) (hstage : hdr.stage = .connectionState) (hd : p.awaited hdr.client = some d)
      (hdefrag : d.defragment hdr payload = some (some (whole, all), d'))
      (hstate : TcpState.deserialize all = some state)
      (hafter : ∀ client, p'.awaited client = if client = hdr.client then none else p.awaited client)
      (htidy : p.Tidy → p'.Tidy) (hquiet : p.Quiet p') (hcb : state'.cb = state.cb.setLocal local_)
      (hr : r = .ok (.stateReceived state'))

theorem finishPacket_calm {status : TcpmigReceiveStatus} (hne : ∀ state, status ≠ .stateReceived state)
    (h : p.finishPacket remote status = some (r, p')) : p.Calm p' ∧ r = .ok status := by
  unfold finishPacket at h
  split at h
  next => cases h; exact ⟨.refl p, rfl⟩
  next => cases h; exact ⟨.refl p, rfl⟩
  next state => exact absurd rfl (hne state)
  next => cases h; exact ⟨calm_removeActive p remote, rfl⟩
  next => cases h; exact ⟨calm_removeActive p remote, rfl⟩
  next => cases h; exact ⟨calm_removeActive p remote, rfl⟩
  next => cases h
  next => cases h

theorem processPacket_takes (hprepare : hdr.stage ≠ .prepareMigration)
    (h : p.processPacket hdr payload = some (r, p')) : p.Takes hdr payload r p' := by
  obtain ⟨active, hget, h⟩ := Option.bind_eq_some_iff.mp h
  obtain ⟨⟨outcome, active', out⟩, hpacket, h⟩ := Option.bind_eq_some_iff.mp h
  have hawaited : p.awaited hdr.client = active.awaited := by
    rw [awaited, hget]
    rfl
  cases ActiveMigration.processPacket_answers hprepare hpacket with
  | keeps port hr =>
    have hcalm : p.Calm (p.setActive hdr.client { active with destUdpPort := port } []) :=
      calm_setActive (fun ht => ht hdr.client active hget) (fun d hd => .inr (hawaited.trans hd))
        fun _ hs => absurd hs List.not_mem_nil
    cases outcome with
    | error e =>
      cases h
      exact .calm hcalm hr
    | ok status =>
      obtain ⟨hfinish, rfl⟩ := finishPacket_calm (fun state heq => hr state (congrArg _ heq)) h
      exact .calm (hcalm.trans hfinish) hr
  | @stores d hstage hlast hdefrag =>
    cases h
    have hd : active.awaited = some active.defragmenter := if_pos hlast
    refine .stores hstage (hawaited.trans hd) hdefrag (fun client => ?_) (fun ht => ?_)
      (.of_rt (List.append_nil _)) rfl
    · rw [setActive_awaited]
      exact congrArg (fun o => if client = hdr.client then o else p.awaited client) (if_pos hlast)
    · refine ht.setActive ?_ ?_ []
      · exact (ht hdr.client active hget).1
      · exact (ht hdr.client active hget).2
  | @completes d whole all state out hstage hlast hdefrag hstate hout =>
    have hd : active.awaited = some active.defragmenter := if_pos hlast
    dsimp only at h
    rw [finishPacket_stateReceived] at h
    obtain ⟨rfl, rfl⟩ := Prod.mk.inj (Option.some.inj h)
    refine .completes ⟨active.localIpv4Addr, active.selfUdpPort⟩ hstage (hawaited.trans hd) hdefrag hstate
      (fun client => ?_) (fun ht => ?_) ?_ (takeAppState_cb _ _) rfl
    · rw [awaited, takeAppState_activeMigrations]
      exact setActive_awaited ..
    · intro client a ha
      rw [takeAppState_activeMigrations] at ha
      refine ht.setActive ?_ ?_ out client a ha
      · exact (ht hdr.client active hget).1
      · exact (ht hdr.client active hget).2
    · refine ⟨out, ?_, hout⟩
      unfold takeAppState
      split <;> rfl

theorem receivePrepare_calm (hstage : hdr.stage = .prepareMigration) (h : p.receivePrepare hdr payload = some (r, p')) :
    p.Calm p' ∧ ∀ state, r ≠ .ok (.stateReceived state) := by
  have hinserted : p.Calm (p.setActive hdr.client (p.newActive hdr.origin.port hdr.origin hdr.client none) []) :=
    calm_setActive (fun _ => ⟨rfl, rfl⟩) (fun d hd => (by cases hd)) fun _ hs => absurd hs List.not_mem_nil
  cases hget : p.activeMigrations.get hdr.client with
  | some active =>
    rw [receivePrepare, hget] at h
    cases h
    exact ⟨hinserted.trans (calm_removeActive _ hdr.client), fun _ heq => (by cases heq)⟩
  | none =>
    obtain ⟨active, out, hlast, hqueue, hclient, hnew, hout, hprepared⟩ :=
      @receivePrepare_new p hdr payload hstage hget
    cases hprepared.symm.trans h
    refine ⟨hinserted.trans (calm_setActive (fun _ => ⟨hclient, hqueue⟩) (fun d hd => ?_) fun s hs => ?_),
      fun _ heq => (by cases heq)⟩
    · rw [ActiveMigration.awaited, if_pos hlast, hnew] at hd
      exact .inl (Option.some.inj hd).symm
    · rw [hout s hs]
      exact fun heq => by cases heq

theorem receive_takes {ipv4Hdr : Ipv4Header} {buf : Buffer} (hp : TcpMigHeader.parse ipv4Hdr buf = .ok (hdr, payload))
    (h : p.receive ipv4Hdr buf = some (r, p')) : p.Takes hdr payload r p' := by
  rw [receive_of_parse hp] at h
  by_cases hprepare : hdr.stage = .prepareMigration
  · rw [receiveMessage, hprepare] at h
    obtain ⟨hcalm, hr⟩ := receivePrepare_calm hprepare h
    exact .calm hcalm hr
  · by_cases hbeat : hdr.stage = .heartbeatResponse
    · rw [receiveMessage, hbeat] at h
      dsimp only at h
      split at h <;> cases h
      exact .calm (.refl p) fun _ heq => (by cases heq)
    · rw [receiveMessage_packet hbeat hprepare] at h
      exact processPacket_takes hprepare h

end

end TcpMigPeer

end Capybara
