import Capybara.MigrationFrames
import Capybara.TcpMigDatagrams

namespace Capybara

open Runs

/-- A target from PREPARE_MIGRATION on, with the segments of the migrating connection that have come since then and
the control block that its state has brought. -/
structure Handover where
  inner : Inner
  client : SocketAddrV4
  local_ : SocketAddrV4
  segments : List (TcpHeader × Buffer)
  block : Option ControlBlock

namespace Handover

/-- After PREPARE_MIGRATION. -/
def prepared (inner : Inner) (client : SocketAddrV4) : Handover :=
  ⟨inner, client, ⟨inner.tcpmig.localIpv4Addr, inner.tcpmig.selfUdpPort⟩, [], none⟩

def segmentsOf (h : Handover) : InnerEvent → List (TcpHeader × Buffer)
  | .segment srcAddr dstAddr header data _ =>
    if (⟨srcAddr, header.srcPort⟩ : SocketAddrV4) = h.client ∧ (⟨dstAddr, header.dstPort⟩ : SocketAddrV4) = h.local_ then
      [(header, data)]
    else []
  | _ => []

def stateOf : Option (Except Fail TcpmigReceiveStatus × TcpMigPeer) → Option TcpState
  | some (.ok (.stateReceived state), _) => some state
  | _ => none

def blockOf (h : Handover) : InnerEvent → Option ControlBlock
  | .tcpmig ipv4Hdr buf =>
    (stateOf (h.inner.tcpmig.receive ipv4Hdr buf)).bind fun state =>
      if state.cb.remote = h.client then some (.fromState h.inner.tcpConfig.ackDelayTimeout state.cb) else none
  | _ => none

def step (h : Handover) (e : InnerEvent) : Option Handover := do
  let inner ← h.inner.step e
  some { h with
    inner := inner
    segments := h.segments ++ h.segmentsOf e
    block := (h.blockOf e).or h.block }

/-- No further PREPARE_MIGRATION for the client. -/
def SinglePrepare (h : Handover) : InnerEvent → Prop
  | .tcpmig ipv4Hdr buf => ∀ hdr payload, TcpMigHeader.parse ipv4Hdr buf = .ok (hdr, payload) →
      hdr.stage = .prepareMigration → hdr.client ≠ h.client
  | _ => True

/-- The segments of the client for no connection known here are those of the migrating one, and no other connection
of the client is accepted. -/
def Separate (h : Handover) : InnerEvent → Prop
  | .segment srcAddr dstAddr header _ _ => (⟨srcAddr, header.srcPort⟩ : SocketAddrV4) = h.client →
      ((⟨dstAddr, header.dstPort⟩ : SocketAddrV4) = h.local_ ↔
        h.inner.Unknown srcAddr (⟨dstAddr, header.dstPort⟩, ⟨srcAddr, header.srcPort⟩))
  | .pollAccept qd _ _ => ∀ local_ passive cb rest, h.inner.sockets.get qd = some (.listening local_) →
      h.inner.passive.get local_ = some passive → passive.ready.ready = .ok cb :: rest → cb.remote ≠ h.client
  | _ => True

end Handover

/-- The target side of a migration. -/
def ActiveMigration.Awaits (a : ActiveMigration) : Prop :=
  a.lastSentStage = .prepareMigrationAck ∨ a.lastSentStage = .connectionStateAck

/-- A migration to this server is under way for the client, with these segments kept. -/
def TcpMigPeer.Expects (p : TcpMigPeer) (client : SocketAddrV4) (segments : List (TcpHeader × Buffer)) : Prop :=
  ∃ active, p.activeMigrations.get client = some active ∧ active.Awaits ∧ active.recvQueue = segments

/-- What the target side of a migration makes of a message. -/
inductive TcpmigReceiveStatus.OfTarget : Except Fail TcpmigReceiveStatus → Prop
  | refused (e : Fail) : OfTarget (.error e)
  | ok : OfTarget (.ok .ok)
  | stateReceived (state : TcpState) : OfTarget (.ok (.stateReceived state))

theorem ActiveMigration.receiveState_awaits {a a' : ActiveMigration} {hdr : TcpMigHeader} {buf : Buffer}
    {r : Except Fail TcpmigReceiveStatus} {out : List TcpMigSegment} (ha : a.Awaits)
    (h : a.receiveState hdr buf = some (r, a', out)) :
    a'.Awaits ∧ a'.recvQueue = a.recvQueue ∧ TcpmigReceiveStatus.OfTarget r := by
  obtain ⟨⟨complete, defragmenter⟩, -, h⟩ := Option.bind_eq_some_iff.mp h
  cases complete with
  | none =>
    cases h
    exact ⟨ha, rfl, .ok⟩
  | some message =>
    obtain ⟨state, -, h⟩ := Option.bind_eq_some_iff.mp h
    obtain ⟨out', -, h⟩ := Option.bind_eq_some_iff.mp h
    cases h
    exact ⟨.inr rfl, rfl, .stateReceived _⟩

theorem ActiveMigration.processPacket_awaits {a a' : ActiveMigration} {hdr : TcpMigHeader} {buf : Buffer}
    {r : Except Fail TcpmigReceiveStatus} {out : List TcpMigSegment} (ha : a.Awaits)
    (h : a.processPacket hdr buf = some (r, a', out)) :
    a'.Awaits ∧ a'.recvQueue = a.recvQueue ∧ TcpmigReceiveStatus.OfTarget r := by
  unfold processPacket at h
  rcases ha with hlast | hlast <;> rw [hlast] at h <;> dsimp only at h
  · split at h
    next => exact receiveState_awaits (.inl hlast) h
    next =>
      cases h
      exact ⟨.inl hlast, rfl, .refused _⟩
  · cases h
    exact ⟨.inr hlast, rfl, .ok⟩

namespace TcpMigPeer

section

variable {p p' : TcpMigPeer} {client remote : SocketAddrV4} {segments : List (TcpHeader × Buffer)}
  {hdr : TcpMigHeader} {buf : Buffer} {r : Except Fail TcpmigReceiveStatus}

theorem Expects.of_same (h : p.Expects client segments)
    (hsame : p'.activeMigrations.get client = p.activeMigrations.get client) : p'.Expects client segments := by
  obtain ⟨active, hget, hawaits, hkept⟩ := h
  exact ⟨active, hsame.trans hget, hawaits, hkept⟩

theorem Expects.of_activeMigrations (h : p.Expects client segments)
    (hsame : p'.activeMigrations = p.activeMigrations) : p'.Expects client segments := h.of_same (by rw [hsame])

theorem Expects.of_eq (h : p.Expects client segments) (hsame : p' = p) : p'.Expects client segments := hsame ▸ h

theorem Expects.setActive_other (h : p.Expects client segments) (hne : client ≠ remote) (active : ActiveMigration)
    (out : List TcpMigSegment) : (p.setActive remote active out).Expects client segments :=
  h.of_same ((setActive_get ..).trans (if_neg hne))

theorem Expects.removeActive_other (h : p.Expects client segments) (hne : client ≠ remote) :
    (p.removeActive remote).Expects client segments :=
  h.of_same ((removeActive_get ..).trans (if_neg hne))

theorem Expects.takeAppState (h : p.Expects client segments) (state : TcpState) :
    (p.takeAppState state).2.Expects client segments :=
  h.of_same (by rw [takeAppState_activeMigrations])

theorem Expects.finishPacket_other {status : TcpmigReceiveStatus} (h : p.Expects client segments) (hne : client ≠ remote)
    (hf : p.finishPacket remote status = some (r, p')) : p'.Expects client segments := by
  unfold finishPacket at hf
  split at hf
  next => cases hf; exact h
  next => cases hf; exact h
  next state => cases hf; exact h.takeAppState state
  next => cases hf; exact h.removeActive_other hne
  next => cases hf; exact h.removeActive_other hne
  next => cases hf; exact h.removeActive_other hne
  next => cases hf
  next => cases hf

theorem Expects.processPacket (h : p.Expects client segments) (hp : p.processPacket hdr buf = some (r, p')) :
    p'.Expects client segments := by
  obtain ⟨active, hactive, hp⟩ := Option.bind_eq_some_iff.mp hp
  obtain ⟨⟨outcome, active', out⟩, hpacket, hp⟩ := Option.bind_eq_some_iff.mp hp
  by_cases hne : client = hdr.client
  swap
  · have hnext := h.setActive_other hne active' out
    cases outcome with
    | error e =>
      cases hp
      exact hnext
    | ok status => exact hnext.finishPacket_other hne hp
  subst hne
  obtain ⟨_, hget, hawaits, hkept⟩ := h
  cases hactive.symm.trans hget
  obtain ⟨hawaits', hqueue, htarget⟩ := ActiveMigration.processPacket_awaits hawaits hpacket
  have hnext : (p.setActive hdr.client active' out).Expects hdr.client segments :=
    ⟨active', (setActive_get ..).trans (if_pos rfl), hawaits', hqueue.trans hkept⟩
  cases htarget with
  | refused e =>
    cases hp
    exact hnext
  | ok =>
    cases hp
    exact hnext
  | stateReceived state =>
    cases hp
    exact hnext.takeAppState state

theorem Expects.receive (h : p.Expects client segments) {ipv4Hdr : Ipv4Header}
    (hsingle : ∀ hdr payload, TcpMigHeader.parse ipv4Hdr buf = .ok (hdr, payload) → hdr.stage = .prepareMigration →
      hdr.client ≠ client)
    (hr : p.receive ipv4Hdr buf = some (r, p')) : p'.Expects client segments := by
  unfold TcpMigPeer.receive at hr
  split at hr
  next =>
    cases hr
    exact h
  next hdr payload hparse =>
    unfold receiveMessage at hr
    split at hr
    next =>
      split at hr
      next => cases hr
      next =>
        cases hr
        exact h
    next hstage =>
      have hne := (hsingle hdr payload hparse hstage).symm
      have hinserted := h.setActive_other hne (p.newActive hdr.origin.port hdr.origin hdr.client none) []
      unfold receivePrepare at hr
      dsimp only at hr
      split at hr
      next =>
        cases hr
        exact hinserted.removeActive_other hne
      next => exact hinserted.processPacket hr
    next => exact h.processPacket hr

/-- A client has at most one migration, so that a second one begins for others only. -/
theorem Expects.initiateMigration (h : p.Expects client segments) {conn : Endpoints} {qd : QDesc}
    (hi : p.initiateMigration conn qd = some p') : p'.Expects client segments := by
  unfold TcpMigPeer.initiateMigration at hi
  split at hi
  next => cases hi
  next hnone =>
    obtain ⟨⟨active, out⟩, -, hi⟩ := Option.bind_eq_some_iff.mp hi
    cases hi
    refine h.setActive_other (fun heq => ?_) active out
    obtain ⟨_, hget, -⟩ := h
    rw [heq, hnone] at hget
    cases hget

/-- A state goes out for a migration from this server. -/
theorem Expects.sendTcpState (h : p.Expects client segments) {state : TcpState} (hs : p.sendTcpState state = some p') :
    p'.Expects client segments := by
  obtain ⟨active, hactive, hs⟩ := Option.bind_eq_some_iff.mp hs
  obtain ⟨⟨active', out⟩, hsend, hs⟩ := Option.bind_eq_some_iff.mp hs
  cases hs
  unfold ActiveMigration.sendConnectionState at hsend
  split at hsend
  swap
  · cases hsend
  next hstage =>
    have hne : client ≠ state.cb.remote := by
      intro heq
      obtain ⟨_, hget, hawaits, -⟩ := h
      rw [heq] at hget
      cases hactive.symm.trans hget
      rcases hawaits with hlast | hlast <;> cases hstage.symm.trans hlast
    exact h.setActive_other hne active' out

end

end TcpMigPeer

namespace Inner

section

variable {i i' : Inner} {client : SocketAddrV4} {segments : List (TcpHeader × Buffer)} {r : Except Fail Unit}

theorem startMigration_expects {conn : Endpoints} {qd : QDesc} (he : i.tcpmig.Expects client segments)
    (h : i.startMigration conn qd = some i') : i'.tcpmig.Expects client segments := by
  obtain ⟨_, -, h⟩ := Option.bind_eq_some_iff.mp h
  obtain ⟨tcpmig, hinitiate, h⟩ := Option.bind_eq_some_iff.mp h
  cases h
  exact he.initiateMigration hinitiate

theorem initiateMigrationByAddr_expects {conn : Endpoints} (he : i.tcpmig.Expects client segments)
    (h : i.initiateMigrationByAddr conn = some i') : i'.tcpmig.Expects client segments := by
  obtain ⟨_, -, h⟩ := Option.bind_eq_some_iff.mp h
  exact startMigration_expects he h

theorem initiateMigrationByQd_expects {qd : QDesc} (he : i.tcpmig.Expects client segments)
    (h : i.initiateMigrationByQd qd = some (r, i')) : i'.tcpmig.Expects client segments := by
  unfold initiateMigrationByQd at h
  split at h
  next => cases h; exact he
  next =>
    obtain ⟨_, hstart, h⟩ := Option.bind_eq_some_iff.mp h
    cases h
    exact startMigration_expects he hstart
  next => cases h; exact he

theorem actOnStatus_expects {status : TcpmigReceiveStatus} (he : i.tcpmig.Expects client segments)
    (h : i.actOnStatus status = some (r, i')) : i'.tcpmig.Expects client segments := by
  cases status with
  | ok | migrationCompleted | sentReject | heartbeatResponse =>
    cases h
    exact he
  | rejected local_ remote =>
    obtain ⟨_, hresume, h⟩ := Option.map_eq_some_iff.mp h
    obtain ⟨_, -, hresume⟩ := Option.bind_eq_some_iff.mp hresume
    obtain ⟨_, -, hresume⟩ := Option.bind_eq_some_iff.mp hresume
    cases hresume
    cases h
    exact he
  | returnedBySwitch local_ remote =>
    obtain ⟨_, hinitiate, h⟩ := Option.map_eq_some_iff.mp h
    cases h
    exact initiateMigrationByAddr_expects he hinitiate
  | prepareMigrationAcked qd =>
    obtain ⟨⟨state, i₁⟩, hout, h⟩ := Option.bind_eq_some_iff.mp h
    obtain ⟨tcpmig, hsend, h⟩ := Option.bind_eq_some_iff.mp h
    cases h
    rw [migrateOutConnection_tcpmig hout] at hsend
    exact he.sendTcpState hsend
  | stateReceived state =>
    rw [actOnStatus] at h
    rw [migrateInConnection_tcpmig h]
    exact he

theorem receiveTcpmig_expects {ipv4Hdr : Ipv4Header} {buf : Buffer} (he : i.tcpmig.Expects client segments)
    (hsingle : ∀ hdr payload, TcpMigHeader.parse ipv4Hdr buf = .ok (hdr, payload) → hdr.stage = .prepareMigration →
      hdr.client ≠ client)
    (h : i.receiveTcpmig ipv4Hdr buf = some (r, i')) : i'.tcpmig.Expects client segments := by
  obtain ⟨⟨result, tcpmig⟩, hreceive, h⟩ := Option.bind_eq_some_iff.mp h
  have hnext := he.receive hsingle hreceive
  cases result with
  | error e =>
    cases h
    exact hnext
  | ok status => exact @actOnStatus_expects { i with tcpmig := tcpmig } _ _ _ _ _ hnext h

end

end Inner

namespace Handover

section

variable {h h' : Handover} {e : InnerEvent}

/-- The migration has kept the segments that have come, and the block is the client's. -/
structure Tracks (h : Handover) : Prop where
  expects : h.inner.tcpmig.Expects h.client h.segments
  block : ∀ cb, h.block = some cb → cb.remote = h.client

theorem blockOf_remote {cb : ControlBlock} (hb : h.blockOf e = some cb) : cb.remote = h.client := by
  cases e with
  | tcpmig ipv4Hdr buf =>
    obtain ⟨state, -, hb⟩ := Option.bind_eq_some_iff.mp hb
    split at hb
    next heq =>
      cases hb
      exact heq
    next => cases hb
  | _ => cases hb

theorem segment_expects {srcAddr dstAddr : Ipv4Addr} {header : TcpHeader} {data : Buffer} {env : Env} {inner : Inner}
    {r : Except Fail Unit} (hs : h.inner.tcpmig.Expects h.client h.segments)
    (hseparate : h.Separate (.segment srcAddr dstAddr header data env))
    (hr : h.inner.receive srcAddr dstAddr header data env = some (r, inner)) :
    inner.tcpmig.Expects h.client (h.segments ++ h.segmentsOf (.segment srcAddr dstAddr header data env)) := by
  rw [segmentsOf]
  by_cases hclient : (⟨srcAddr, header.srcPort⟩ : SocketAddrV4) = h.client
  swap
  · rw [if_neg fun hboth => hclient hboth.1, List.append_nil]
    rcases Inner.receive_tcpmig hr with ⟨hsame, -⟩ | ⟨-, hbuffered⟩
    · rw [hsame]
      exact hs
    · obtain ⟨active, -, hset⟩ := Option.map_eq_some_iff.mp hbuffered
      rw [← hset]
      exact hs.setActive_other (fun heq => hclient heq.symm) _ _
  have hunknown := hseparate hclient
  obtain ⟨active, hget, hawaits, hkept⟩ := hs
  have hbuffer : h.inner.tcpmig.tryBufferPacket ⟨srcAddr, header.srcPort⟩ header data =
      some (h.inner.tcpmig.setActive h.client (active.bufferPacket header data) []) := by
    rw [hclient, TcpMigPeer.tryBufferPacket, hget]
    rfl
  rcases Inner.receive_tcpmig hr with ⟨hsame, hnot⟩ | ⟨hunknown', hbuffered⟩
  · rw [hsame, if_neg, List.append_nil]
    · exact ⟨active, hget, hawaits, hkept⟩
    · intro hboth
      rcases hnot with hnot | hnone
      · exact hnot (hunknown.mp hboth.2)
      · rw [hbuffer] at hnone
        cases hnone
  · rw [if_pos ⟨hclient, hunknown.mpr hunknown'⟩]
    rw [hbuffer] at hbuffered
    rw [← Option.some.inj hbuffered]
    refine ⟨active.bufferPacket header data, (TcpMigPeer.setActive_get ..).trans (if_pos rfl), hawaits, ?_⟩
    rw [← hkept]
    rfl

theorem other_expects {inner : Inner} (hs : h.inner.tcpmig.Expects h.client h.segments)
    (hsingle : h.SinglePrepare e) (hseparate : h.Separate e) (hr : h.inner.step e = some inner)
    (hne : ∀ srcAddr dstAddr header data env, e ≠ .segment srcAddr dstAddr header data env) :
    inner.tcpmig.Expects h.client h.segments := by
  cases e with
  | segment srcAddr dstAddr header data env => exact absurd rfl (hne srcAddr dstAddr header data env)
  | doSocket qd =>
    cases hr
    exact hs.of_eq (Inner.doSocket_tcpmig ..)
  | bind qd addr =>
    cases hr
    exact hs.of_activeMigrations (Inner.bind_activeMigrations ..)
  | listen qd backlog nonce =>
    cases hr
    exact hs.of_eq (Inner.listen_tcpmig ..)
  | pollAccept qd newQd env =>
    obtain ⟨⟨r, inner⟩, hcall, rfl⟩ := Option.map_eq_some_iff.mp hr
    rcases Inner.pollAccept_tcpmig hcall with hsame | ⟨local_, passive, cb, rest, hsocket, hpassive, hready, hremoved⟩
    · exact hs.of_eq hsame
    · have hother := hseparate local_ passive cb rest hsocket hpassive hready
      exact (hs.removeActive_other hother.symm).of_eq hremoved
  | connect qd remote =>
    obtain ⟨⟨r, inner⟩, hcall, rfl⟩ := Option.map_eq_some_iff.mp hr
    exact hs.of_eq (Inner.connect_tcpmig hcall)
  | pollConnectFinished qd =>
    obtain ⟨⟨r, inner⟩, hcall, rfl⟩ := Option.map_eq_some_iff.mp hr
    exact hs.of_eq (Inner.pollConnectFinished_tcpmig hcall)
  | pollRecv qd =>
    cases hr
    exact hs.of_eq (Inner.pollRecv_tcpmig ..)
  | send qd buf env =>
    obtain ⟨⟨r, inner⟩, hcall, rfl⟩ := Option.map_eq_some_iff.mp hr
    exact hs.of_eq (Inner.send_tcpmig hcall)
  | doClose qd env =>
    obtain ⟨⟨r, inner⟩, hcall, rfl⟩ := Option.map_eq_some_iff.mp hr
    exact hs.of_eq (Inner.doClose_tcpmig hcall)
  | task key task env => exact hs.of_eq (Inner.runTask_tcpmig hr)
  | handshakeTimeout key =>
    cases hr
    exact hs.of_eq (Inner.handshakeTimeout_tcpmig ..)
  | tcpmig ipv4Hdr buf =>
    obtain ⟨⟨r, inner⟩, hcall, rfl⟩ := Option.map_eq_some_iff.mp hr
    exact Inner.receiveTcpmig_expects hs hsingle hcall
  | initiateByAddr conn => exact Inner.initiateMigrationByAddr_expects hs hr
  | initiateByQd qd =>
    obtain ⟨⟨r, inner⟩, hcall, rfl⟩ := Option.map_eq_some_iff.mp hr
    exact Inner.initiateMigrationByQd_expects hs hcall
  | registerState qd state => exact hs.of_activeMigrations (Inner.registerApplicationState_activeMigrations hr)
  | takeState decode qd =>
    obtain ⟨⟨r, inner⟩, hcall, rfl⟩ := Option.map_eq_some_iff.mp hr
    exact hs.of_activeMigrations (Inner.getMigratedApplicationState_activeMigrations hcall)

theorem step_tracks (ht : h.Tracks) (hsingle : h.SinglePrepare e) (hseparate : h.Separate e)
    (hs : h.step e = some h') : h'.Tracks ∧ h'.client = h.client ∧ h'.local_ = h.local_ := by
  obtain ⟨inner, hr, hs⟩ := Option.bind_eq_some_iff.mp hs
  cases hs
  refine ⟨⟨?_, fun cb hb => ?_⟩, rfl, rfl⟩
  · by_cases hsegment : ∃ srcAddr dstAddr header data env, e = .segment srcAddr dstAddr header data env
    · obtain ⟨srcAddr, dstAddr, header, data, env, rfl⟩ := hsegment
      obtain ⟨⟨r, inner⟩, hcall, rfl⟩ := Option.map_eq_some_iff.mp hr
      exact segment_expects ht.expects hseparate hcall
    · have hne : ∀ srcAddr dstAddr header data env, e ≠ .segment srcAddr dstAddr header data env :=
        fun srcAddr dstAddr header data env heq => hsegment ⟨srcAddr, dstAddr, header, data, env, heq⟩
      have hnone : h.segmentsOf e = [] := by
        cases e <;> first | rfl | exact absurd rfl (hne _ _ _ _ _)
      rw [hnone, List.append_nil]
      exact @other_expects h e inner ht.expects hsingle hseparate hr hne
  · rcases Option.or_eq_some_iff.mp hb with hnew | ⟨-, hold⟩
    · exact @blockOf_remote h e cb hnew
    · exact ht.block cb hold

theorem run_tracks {events : List InnerEvent} (ht : h.Tracks) (hsingle : Admits step SinglePrepare h events)
    (hseparate : Admits step Separate h events) (hr : run step h events = some h') :
    h'.Tracks ∧ h'.client = h.client ∧ h'.local_ = h.local_ := by
  have hstep : ∀ h₁ e h₂, (Tracks h₁ ∧ h₁.client = h.client ∧ h₁.local_ = h.local_) →
      (h₁.SinglePrepare e ∧ h₁.Separate e) → step h₁ e = some h₂ →
      Tracks h₂ ∧ h₂.client = h.client ∧ h₂.local_ = h.local_ := by
    rintro h₁ e h₂ ⟨ht, hclient, hlocal⟩ ⟨hsingle, hseparate⟩ hs
    obtain ⟨ht', hclient', hlocal'⟩ := step_tracks ht hsingle hseparate hs
    exact ⟨ht', hclient'.trans hclient, hlocal'.trans hlocal⟩
  exact run_reaches hstep ⟨ht, rfl, rfl⟩ (hsingle.and hseparate) hr

theorem prepared_tracks {i₀ i : Inner} {ipv4Hdr : Ipv4Header} {buf payload : Buffer} {hdr : TcpMigHeader}
    (hp : TcpMigHeader.parse ipv4Hdr buf = .ok (hdr, payload)) (hstage : hdr.stage = .prepareMigration)
    (hfresh : i₀.tcpmig.activeMigrations.get hdr.client = none) (hs : i₀.step (.tcpmig ipv4Hdr buf) = some i) :
    (prepared i hdr.client).Tracks := by
  refine ⟨?_, fun cb hb => (by cases hb)⟩
  obtain ⟨⟨r, i⟩, hcall, rfl⟩ := Option.map_eq_some_iff.mp hs
  obtain ⟨active, out, hlast, hqueue, -, -, -, hnew⟩ :=
    @TcpMigPeer.receivePrepare_new i₀.tcpmig hdr payload hstage hfresh
  have hreceive : i₀.tcpmig.receive ipv4Hdr buf = i₀.tcpmig.receivePrepare hdr payload := by
    rw [TcpMigPeer.receive_of_parse hp, TcpMigPeer.receiveMessage, hstage]
  rw [Inner.receiveTcpmig, hreceive, hnew] at hcall
  cases hcall
  exact ⟨active, (TcpMigPeer.setActive_get ..).trans (if_pos rfl), .inl hlast, hqueue⟩

end

/-- From PREPARE_MIGRATION until its connection is accepted, a target keeps the segments of the connection and gives
each of them once to the control block that came, in the order in which they came. -/
theorem handover_replays {i₀ i i' : Inner} {ipv4Hdr : Ipv4Header} {buf payload : Buffer} {hdr : TcpMigHeader}
    (hp : TcpMigHeader.parse ipv4Hdr buf = .ok (hdr, payload)) (hstage : hdr.stage = .prepareMigration)
    (hfresh : i₀.tcpmig.activeMigrations.get hdr.client = none) (hs : i₀.step (.tcpmig ipv4Hdr buf) = some i)
    {events : List InnerEvent} {h : Handover} (hr : run step (prepared i hdr.client) events = some h)
    (hsingle : Admits step SinglePrepare (prepared i hdr.client) events)
    (hseparate : Admits step Separate (prepared i hdr.client) events)
    {passive : PassiveSocket} {cb : ControlBlock} {rest : List (Except Fail ControlBlock)} {qd newQd : QDesc}
    {env : Nat → Env} {r : Option (Except Fail QDesc)} (hblock : h.block = some cb)
    (hsocket : h.inner.sockets.get qd = some (.listening h.local_))
    (hpassive : h.inner.passive.get h.local_ = some passive) (hready : passive.ready.ready = .ok cb :: rest)
    (haccept : h.inner.pollAccept qd newQd env = some (r, i')) :
    r = some (.ok newQd) ∧ ∃ cb₁ cb', cb.receiveAll h.segments env = some cb₁ ∧ cb₁.enableStats = some cb' ∧
      i'.established.get (h.local_, h.client) = some ⟨cb', .top⟩ := by
  obtain ⟨ht, -, -⟩ := run_tracks (prepared_tracks hp hstage hfresh hs) hsingle hseparate hr
  obtain ⟨hresult, passive', haccept⟩ := Inner.pollAccept_takes hsocket hpassive hready haccept
  obtain ⟨active, hget, -, hkept⟩ := ht.expects
  have hremote := ht.block cb hblock
  obtain ⟨cb₁, hall, haccept⟩ := Option.bind_eq_some_iff.mp haccept
  obtain ⟨cb', henable, haccept⟩ := Option.bind_eq_some_iff.mp haccept
  refine ⟨hresult, cb₁, cb', ?_, henable, ?_⟩
  · dsimp only at hall
    rw [hremote, hget, Option.map_some, Option.getD_some, hkept] at hall
    exact hall
  · unfold Inner.installAccepted at haccept
    split at haccept <;> cases haccept
    all_goals
      show (HashMap.insert _ _ _).get _ = _
      rw [HashMap.get_insert, hremote, if_pos rfl]

/-- A server that listens on port 10001. -/
def sampleTarget : Inner :=
  ((((sampleServer [50000]).doSocket 1).2.bind 1 ⟨⟨10, 0, 1, 8⟩, 10001⟩).2.listen 1 8 0).2

def sampleIpv4 : Ipv4Header := .new ⟨10, 0, 1, 9⟩ ⟨10, 0, 1, 8⟩ .udp

def samplePrepared : InnerEvent := .tcpmig sampleIpv4 (samplePrepare.serialize sampleIpv4 [])

def sampleStateHeader : TcpMigHeader := { samplePrepare with stage := .connectionState }

def sampleStateEvent : InnerEvent :=
  .tcpmig sampleIpv4 (sampleStateHeader.serialize sampleIpv4 TcpState.sample.encode ++ TcpState.sample.encode)

/-- A byte from the client, at the sequence number that the migrated connection expects. -/
def sampleByte (port : UInt16) : InnerEvent :=
  .segment ⟨10, 0, 1, 7⟩ ⟨10, 0, 1, 8⟩
    { TcpHeader.new 201 port with seqNum := ⟨9⟩, ack := true, ackNum := ⟨4⟩, windowSize := 1024 } [1] linkEnv

theorem sample_singlePrepare (h : Handover) (port : UInt16) :
    Admits step SinglePrepare h [sampleByte port, sampleStateEvent] := by
  refine ⟨trivial, fun h₁ _ => ⟨fun hdr payload hp hstage => ?_, fun _ _ => trivial⟩⟩
  have hparse := TcpMigHeader.parse_serialize sampleStateHeader sampleIpv4 TcpState.sample.encode
  cases hparse.symm.trans hp
  cases hstage

set_option maxRecDepth 20000 in
/-- A byte that comes before the state is given to the block when it is accepted. -/
theorem handover_replays_byte : ∃ i h cb i' cb₁ cb', sampleTarget.step samplePrepared = some i ∧
    run step (prepared i samplePrepare.client) [sampleByte 10001, sampleStateEvent] = some h ∧ h.segments.length = 1 ∧
    h.block = some cb ∧ h.inner.pollAccept 1 2 (fun _ => linkEnv) = some (some (.ok 2), i') ∧
    cb.receiveAll h.segments (fun _ => linkEnv) = some cb₁ ∧ cb₁.enableStats = some cb' ∧
    i'.established.get (h.local_, h.client) = some ⟨cb', .top⟩ := by
  obtain ⟨i, h, passive, cb, rest, i', hs, hr, hlength, hblock, hsocket, hpassive, hready, haccept⟩ :
      ∃ i h passive cb rest i', sampleTarget.step samplePrepared = some i ∧
        run step (prepared i samplePrepare.client) [sampleByte 10001, sampleStateEvent] = some h ∧
        h.segments.length = 1 ∧ h.block = some cb ∧ h.inner.sockets.get 1 = some (.listening h.local_) ∧
        h.inner.passive.get h.local_ = some passive ∧ passive.ready.ready = .ok cb :: rest ∧
        h.inner.pollAccept 1 2 (fun _ => linkEnv) = some (some (.ok 2), i') :=
    ⟨_, _, _, _, _, _, rfl, rfl, rfl, rfl, rfl, rfl, rfl, rfl⟩
  have hp : TcpMigHeader.parse sampleIpv4 (samplePrepare.serialize sampleIpv4 []) = .ok (samplePrepare, []) := by
    have hparse := TcpMigHeader.parse_serialize samplePrepare sampleIpv4 []
    rwa [List.append_nil] at hparse
  have hseparate : Admits step Separate (prepared i samplePrepare.client) [sampleByte 10001, sampleStateEvent] := by
    cases hs
    exact ⟨fun _ => ⟨fun _ => ⟨by decide, rfl, rfl⟩, fun _ => rfl⟩, fun _ _ => ⟨trivial, fun _ _ => trivial⟩⟩
  obtain ⟨-, cb₁, cb', hall, henable, hentry⟩ := handover_replays hp rfl rfl hs hr (sample_singlePrepare _ _) hseparate
    hblock hsocket hpassive hready haccept
  exact ⟨i, h, cb, i', cb₁, cb', hs, hr, hlength, hblock, haccept, hall, henable, hentry⟩

set_option maxRecDepth 20000 in
/-- A byte from the same client to another port is delivered on the migrated connection. -/
theorem handover_replays_otherPort : ∃ i h passive cb rest i' cb', sampleTarget.step samplePrepared = some i ∧
    run step (prepared i samplePrepare.client) [sampleByte 80, sampleStateEvent] = some h ∧
    Admits step SinglePrepare (prepared i samplePrepare.client) [sampleByte 80, sampleStateEvent] ∧
    h.segments = [] ∧ h.block = some cb ∧ h.inner.sockets.get 1 = some (.listening h.local_) ∧
    h.inner.passive.get h.local_ = some passive ∧ passive.ready.ready = .ok cb :: rest ∧
    h.inner.pollAccept 1 2 (fun _ => linkEnv) = some (some (.ok 2), i') ∧
    i'.established.get (h.local_, h.client) = some ⟨cb', .top⟩ ∧ cb.enableStats ≠ some cb' := by
  refine ⟨_, _, _, _, _, _, _, rfl, rfl, sample_singlePrepare _ _, rfl, rfl, rfl, rfl, rfl, rfl, rfl, fun heq => ?_⟩
  have hqueue := congrArg (Option.map fun cb => cb.receiver.recvQueue) heq
  revert hqueue
  decide

end Handover

end Capybara
