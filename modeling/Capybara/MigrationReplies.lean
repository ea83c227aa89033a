import Capybara.HandshakeWindows
import Capybara.MigrationFrames
import Capybara.TableFrames
import Capybara.TcpMigDatagrams

namespace Capybara

open Runs

/-- Nothing of a connection changes but its statistics. -/
def EstablishedSocket.SameButStats (s s' : EstablishedSocket) : Prop := ∃ recvQueueStats rpsStats, s' = { s with
  cb := { s.cb with
    receiver := { s.cb.receiver with recvQueueStats := recvQueueStats, rpsStats := rpsStats } } }

/-- The message answers a PREPARE_MIGRATION, or is one that comes back. -/
def TcpMigHeader.IsReply (hdr : TcpMigHeader) : Prop :=
  hdr.stage = .prepareMigrationAck ∨ hdr.stage = .rejected ∨ hdr.stage = .prepareMigration

namespace Inner

/-- A connection has left all tables, its state went out in one message, and its migration asks for no other. -/
structure Moved (i i' : Inner) (qd : QDesc) (local_ remote : SocketAddrV4) (s : EstablishedSocket)
    (state : ControlBlockState) (out : List TcpMigSegment) : Prop where
  hsocket : i.sockets.get qd = some (.established local_ remote)
  hentry : i.established.get (local_, remote) = some s
  hstate : s.cb.toState = some state
  hsockets : i'.sockets = i.sockets.insert qd (.migratedOut local_ remote)
  hqds : i'.qds = i.qds.remove (local_, remote)
  hestablished : i'.established = i.established.remove (local_, remote)
  hsent : ∃ (sending : ActiveMigration) (hdr : TcpMigHeader), hdr.stage = .connectionState ∧
    (sending.message hdr (i.tcpmig.addAppState ⟨state, .none⟩).encode).fragments = some out
  hrt : i'.tcpmig.rt = i.tcpmig.rt ++ out
  hlast : ∃ active, i'.tcpmig.activeMigrations.get state.remote = some active ∧
    active.lastSentStage = .connectionState

/-- A connection stays where it is, with its descriptor. -/
structure Stays (i i' : Inner) (conn : Endpoints) (s s' : EstablishedSocket) : Prop where
  hentry : i.established.get conn = some s
  hsame : s.SameButStats s'
  hsockets : i'.sockets = i.sockets
  hqds : i'.qds = i.qds
  hestablished : i'.established = i.established.insert conn s'

/-- The migration is complete, or is given up with the connection left at the origin. -/
def Settled (i i' : Inner) (active : ActiveMigration) (conn : Endpoints) : Prop :=
  (∃ qd local_ remote s state out, active.qd = some qd ∧ i.Moved i' qd local_ remote s state out) ∨
    ∃ s s', i.Stays i' conn s s'

/-- A reply is handled without a panic and settles its migration, and so does no call that begins one panic. -/
def Settles (i : Inner) : InnerEvent → Prop
  | .initiateByQd qd => (i.initiateMigrationByQd qd).isSome = true
  | .tcpmig ipv4Hdr buf => ∀ hdr payload active, TcpMigHeader.parse ipv4Hdr buf = .ok (hdr, payload) →
      i.tcpmig.activeMigrations.get hdr.client = some active → active.lastSentStage = .prepareMigration →
      hdr.IsReply → ∃ r i', i.receiveTcpmig ipv4Hdr buf = some (r, i') ∧ i.Settled i' active (hdr.origin, hdr.client)
  | _ => True

/-- What a reply needs of the tables when it comes. -/
def CanReply (i : Inner) (active : ActiveMigration) (hdr : TcpMigHeader) : Prop :=
  match hdr.stage with
  | .prepareMigrationAck => ∃ qd, active.qd = some qd ∧ i.Exports qd
  | .rejected => ∃ s, i.established.get (hdr.origin, hdr.client) = some s ∧
      s.cb.receiver.recvQueueStats.isEnabled = false ∧ s.cb.receiver.rpsStats.isEnabled = false
  | _ => (i.qds.get (hdr.origin, hdr.client)).isSome = true ∧
      (i.established.get (hdr.origin, hdr.client)).isSome = true

def CanSettle (i : Inner) : InnerEvent → Prop
  | .initiateByQd qd => ∀ local_ remote, i.sockets.get qd = some (.established local_ remote) →
      (i.established.get (local_, remote)).isSome = true ∧ i.tcpmig.activeMigrations.get remote = none
  | .tcpmig ipv4Hdr buf => ∀ hdr payload active, TcpMigHeader.parse ipv4Hdr buf = .ok (hdr, payload) →
      i.tcpmig.activeMigrations.get hdr.client = some active → active.lastSentStage = .prepareMigration →
      hdr.IsReply → i.CanReply active hdr
  | _ => True

end Inner

/-- A state goes out with the message that its migration makes of it. -/
structure TcpMigPeer.SendsState (p p' : TcpMigPeer) (state : TcpState) (sending active : ActiveMigration)
    (hdr : TcpMigHeader) (out : List TcpMigSegment) : Prop where
  hget : p.activeMigrations.get state.cb.remote = some sending
  hstage : hdr.stage = .connectionState
  hclient : hdr.client = sending.client
  hfits : (p.addAppState state).cb.Fits
  hfragments : (sending.message hdr (p.addAppState state).encode).fragments = some out
  hrt : p'.rt = p.rt ++ out
  hactive : p'.activeMigrations = p.activeMigrations.insert state.cb.remote active
  hlast : active.lastSentStage = .connectionState
  hsame : active.client = sending.client
  hqueue : active.recvQueue = sending.recvQueue

theorem ControlBlock.disableStats_same (s : EstablishedSocket) :
    s.SameButStats { s with cb := s.cb.disableStats } := ⟨_, _, rfl⟩

theorem ControlBlock.enableStats_same {s : EstablishedSocket} {cb : ControlBlock} (h : s.cb.enableStats = some cb) :
    s.SameButStats { s with cb := cb } := by
  obtain ⟨recvQueueStats, -, h⟩ := Option.bind_eq_some_iff.mp h
  obtain ⟨rpsStats, -, h⟩ := Option.bind_eq_some_iff.mp h
  cases h
  exact ⟨recvQueueStats, rpsStats, rfl⟩

/-- What goes out when a state is sent. -/
theorem TcpMigPeer.sendTcpState_sent {p p' : TcpMigPeer} {state : TcpState} (h : p.sendTcpState state = some p') :
    ∃ sending active hdr out, p.SendsState p' state sending active hdr out := by
  obtain ⟨sending, hget, h⟩ := Option.bind_eq_some_iff.mp h
  obtain ⟨⟨active, out⟩, hsend, h⟩ := Option.bind_eq_some_iff.mp h
  cases h
  unfold ActiveMigration.sendConnectionState at hsend
  split at hsend
  swap
  · cases hsend
  next =>
    obtain ⟨buf, hbuf, hsend⟩ := Option.bind_eq_some_iff.mp hsend
    obtain ⟨hdr, hhdr, hsend⟩ := Option.bind_eq_some_iff.mp hsend
    obtain ⟨out', hout, hsend⟩ := Option.bind_eq_some_iff.mp hsend
    cases hsend
    have hfits : (p.addAppState state).cb.Fits := by
      by_contra hnot
      rw [TcpState.serialize_of_not_fits hnot] at hbuf
      cases hbuf
    rw [TcpState.serialize_of_fits hfits] at hbuf
    cases hbuf
    obtain ⟨hstage, hclient⟩ : hdr.stage = .connectionState ∧ hdr.client = sending.client := by
      unfold TcpMigHeader.new at hhdr
      split at hhdr <;> cases hhdr
      exact ⟨rfl, rfl⟩
    unfold ActiveMigration.send at hout
    split at hout
    next => cases hout
    next => exact ⟨sending, _, hdr, out, hget, hstage, hclient, hfits, hout, rfl, rfl, rfl, rfl, rfl⟩

namespace Inner

section

variable {i i' : Inner} {ipv4Hdr : Ipv4Header} {buf payload : Buffer} {hdr : TcpMigHeader} {active : ActiveMigration}
  {conn : Endpoints}

theorem actOnAck_moved {qd : QDesc} {r : Except Fail Unit}
    (h : i.actOnStatus (.prepareMigrationAcked qd) = some (r, i')) :
    ∃ local_ remote s state out, i.Moved i' qd local_ remote s state out := by
  obtain ⟨⟨state, i₁⟩, hout, h⟩ := Option.bind_eq_some_iff.mp h
  obtain ⟨p, hsend, h⟩ := Option.bind_eq_some_iff.mp h
  cases h
  obtain ⟨local_, remote, s, cb, hsocket, -, hentry, hstate, rfl, rfl⟩ := migrateOutConnection_eq_some.mp hout
  obtain ⟨sending, active, hdr, out, hsent⟩ := TcpMigPeer.sendTcpState_sent hsend
  refine ⟨local_, remote, s, cb, out, hsocket, hentry, hstate, rfl, rfl, rfl, ⟨sending, hdr, hsent.hstage,
    hsent.hfragments⟩, hsent.hrt, active, ?_, hsent.hlast⟩
  rw [hsent.hactive]
  exact (HashMap.get_insert ..).trans (if_pos rfl)

/-- The port that the answer comes from is taken over first. -/
theorem Moved.of_setActive {active' : ActiveMigration} {client : SocketAddrV4} {qd : QDesc} {local_ remote : SocketAddrV4}
    {s : EstablishedSocket} {state : ControlBlockState} {out : List TcpMigSegment}
    (h : ({ i with tcpmig := i.tcpmig.setActive client active' [] } : Inner).Moved i' qd local_ remote s state out) :
    i.Moved i' qd local_ remote s state out where
  hsocket := h.hsocket
  hentry := h.hentry
  hstate := h.hstate
  hsockets := h.hsockets
  hqds := h.hqds
  hestablished := h.hestablished
  hsent := h.hsent
  hrt := h.hrt.trans (by rw [TcpMigPeer.setActive, List.append_nil])
  hlast := h.hlast

/-- A reply is never refused. -/
theorem reply_ok {r : Except Fail Unit} (hp : TcpMigHeader.parse ipv4Hdr buf = .ok (hdr, payload))
    (hget : i.tcpmig.activeMigrations.get hdr.client = some active)
    (hlast : active.lastSentStage = .prepareMigration) (hreply : hdr.IsReply)
    (hr : i.receiveTcpmig ipv4Hdr buf = some (r, i')) : r = .ok () := by
  rcases hreply with hstage | hstage | hstage
  · cases hqd : active.qd with
    | none =>
      have hpacket : active.processPacket hdr payload = none := by
        simp only [ActiveMigration.processPacket, hlast, hstage, hqd, Option.bind_eq_bind, Option.bind_none]
      have hbeat : hdr.stage ≠ .heartbeatResponse := by rw [hstage]; exact fun heq => by cases heq
      have hprepare : hdr.stage ≠ .prepareMigration := by rw [hstage]; exact fun heq => by cases heq
      cases (receiveTcpmig_panics hp hbeat hprepare hget hpacket).symm.trans hr
    | some qd => exact actOnStatus_ok (fun _ heq => (by cases heq)) ((ack_taken hp hstage hget hlast hqd).symm.trans hr)
  · exact actOnStatus_ok (fun _ heq => (by cases heq)) ((rejected_taken hp hstage hget hlast).symm.trans hr)
  · obtain ⟨p, -, -, htaken⟩ := returned_taken hp hstage hget
    obtain ⟨_, -, heq⟩ := Option.map_eq_some_iff.mp (htaken.symm.trans hr)
    cases heq
    rfl

theorem ack_settled {r : Except Fail Unit} (hp : TcpMigHeader.parse ipv4Hdr buf = .ok (hdr, payload))
    (hstage : hdr.stage = .prepareMigrationAck) (hget : i.tcpmig.activeMigrations.get hdr.client = some active)
    (hlast : active.lastSentStage = .prepareMigration) (hr : i.receiveTcpmig ipv4Hdr buf = some (r, i')) :
    i.Settled i' active (hdr.origin, hdr.client) := by
  obtain ⟨qd, hqd, -⟩ : ∃ qd, active.qd = some qd ∧ i.Exports qd := by
    refine (ack_withstands hp hstage hget hlast).mp ?_
    rw [withstands_iff_isSome hp hget fun r i' => reply_ok hp hget hlast (.inl hstage), hr]
    rfl
  rw [ack_taken hp hstage hget hlast hqd] at hr
  obtain ⟨local_, remote, s, state, out, hmoved⟩ := actOnAck_moved hr
  exact .inl ⟨qd, local_, remote, s, state, out, hqd, hmoved.of_setActive⟩

theorem rejected_settled {r : Except Fail Unit} (hp : TcpMigHeader.parse ipv4Hdr buf = .ok (hdr, payload))
    (hstage : hdr.stage = .rejected) (hget : i.tcpmig.activeMigrations.get hdr.client = some active)
    (hlast : active.lastSentStage = .prepareMigration) (hr : i.receiveTcpmig ipv4Hdr buf = some (r, i')) :
    i.Settled i' active (hdr.origin, hdr.client) := by
  rw [rejected_taken hp hstage hget hlast, actOnStatus] at hr
  obtain ⟨_, hresume, hr⟩ := Option.map_eq_some_iff.mp hr
  cases hr
  obtain ⟨s, hentry, hresume⟩ := Option.bind_eq_some_iff.mp hresume
  obtain ⟨cb, henable, hresume⟩ := Option.bind_eq_some_iff.mp hresume
  cases hresume
  exact .inr ⟨s, _, hentry, ControlBlock.enableStats_same henable, rfl, rfl, rfl⟩

theorem returned_settled {r : Except Fail Unit} (hp : TcpMigHeader.parse ipv4Hdr buf = .ok (hdr, payload))
    (hstage : hdr.stage = .prepareMigration) (hget : i.tcpmig.activeMigrations.get hdr.client = some active)
    (hr : i.receiveTcpmig ipv4Hdr buf = some (r, i')) : i.Settled i' active (hdr.origin, hdr.client) := by
  obtain ⟨p, -, -, htaken⟩ := returned_taken hp hstage hget
  obtain ⟨_, hagain, heq⟩ := Option.map_eq_some_iff.mp (htaken.symm.trans hr)
  cases heq
  obtain ⟨qd, -, hagain⟩ := Option.bind_eq_some_iff.mp hagain
  obtain ⟨s, hentry, hagain⟩ := Option.bind_eq_some_iff.mp hagain
  obtain ⟨tcpmig, -, hagain⟩ := Option.bind_eq_some_iff.mp hagain
  cases hagain
  exact .inr ⟨s, _, hentry, ControlBlock.disableStats_same s, rfl, rfl, rfl⟩

/-- A reply that does not make the server panic settles its migration. -/
theorem reply_settles_iff (hp : TcpMigHeader.parse ipv4Hdr buf = .ok (hdr, payload))
    (hget : i.tcpmig.activeMigrations.get hdr.client = some active)
    (hlast : active.lastSentStage = .prepareMigration) (hreply : hdr.IsReply) :
    (∃ r i', i.receiveTcpmig ipv4Hdr buf = some (r, i') ∧ i.Settled i' active (hdr.origin, hdr.client)) ↔
      i.CanReply active hdr := by
  have hsettled : ∀ r i', i.receiveTcpmig ipv4Hdr buf = some (r, i') →
      i.Settled i' active (hdr.origin, hdr.client) := by
    intro r i' hr
    rcases hreply with hstage | hstage | hstage
    · exact ack_settled hp hstage hget hlast hr
    · exact rejected_settled hp hstage hget hlast hr
    · exact returned_settled hp hstage hget hr
  have hwithstands : i.Withstands ipv4Hdr buf ↔ i.CanReply active hdr := by
    unfold CanReply
    rcases hreply with hstage | hstage | hstage
    · rw [ack_withstands hp hstage hget hlast, hstage]
    · rw [rejected_withstands hp hstage hget hlast, hstage]
    · rw [prepare_withstands hp hstage, hstage, hget]
      exact ⟨fun h => h (fun heq => by cases heq), fun h _ => h⟩
  rw [← hwithstands, withstands_iff_isSome hp hget fun r i' => reply_ok hp hget hlast hreply]
  constructor
  · rintro ⟨r, i', hr, -⟩
    rw [hr]
    rfl
  · intro hsome
    obtain ⟨⟨r, i'⟩, hr⟩ := Option.isSome_iff_exists.mp hsome
    exact ⟨r, i', hr, hsettled r i' hr⟩

theorem initiateMigrationByQd_isSome_iff (i : Inner) (qd : QDesc) : (i.initiateMigrationByQd qd).isSome = true ↔
    ∀ local_ remote, i.sockets.get qd = some (.established local_ remote) →
      (i.established.get (local_, remote)).isSome = true ∧ i.tcpmig.activeMigrations.get remote = none := by
  unfold initiateMigrationByQd
  cases hsocket : i.sockets.get qd with
  | none => exact iff_of_true rfl fun _ _ heq => (by cases heq)
  | some socket =>
    cases socket with
    | established local_ remote =>
      have hstart : (i.startMigration (local_, remote) qd).isSome = true ↔
          (i.established.get (local_, remote)).isSome = true ∧ i.tcpmig.activeMigrations.get remote = none := by
        unfold startMigration
        cases i.established.get (local_, remote) with
        | none => exact ⟨fun h => (by cases h), fun h => (by cases h.1)⟩
        | some s =>
          rw [Option.bind_eq_bind, Option.bind_some]
          cases hget : i.tcpmig.activeMigrations.get remote with
          | none =>
            obtain ⟨_, _, -, -, -, -, -, -, hinitiate⟩ :=
              @TcpMigPeer.initiateMigration_eq i.tcpmig (local_, remote) hget qd
            rw [hinitiate]
            exact ⟨fun _ => ⟨rfl, rfl⟩, fun _ => rfl⟩
          | some active =>
            have hpanic : i.tcpmig.initiateMigration (local_, remote) qd = none := by
              rw [TcpMigPeer.initiateMigration, hget]
            rw [hpanic]
            exact ⟨fun h => (by cases h), fun h => (by cases h.2)⟩
      dsimp only
      constructor
      · intro h local_' remote' heq
        cases heq
        rw [← hstart]
        revert h
        cases i.startMigration (local_, remote) qd with
        | none => exact fun h => (by cases h)
        | some _ => exact fun _ => rfl
      · intro h
        obtain ⟨i₁, hi₁⟩ := Option.isSome_iff_exists.mp (hstart.mpr (h local_ remote rfl))
        rw [hi₁]
        rfl
    | _ => exact iff_of_true rfl fun _ _ heq => (by cases heq)

theorem settles_iff (i : Inner) (e : InnerEvent) : i.Settles e ↔ i.CanSettle e := by
  cases e with
  | initiateByQd qd => exact i.initiateMigrationByQd_isSome_iff qd
  | tcpmig ipv4Hdr buf =>
    constructor
    · intro h hdr payload active hp hget hlast hreply
      exact (reply_settles_iff hp hget hlast hreply).mp (h hdr payload active hp hget hlast hreply)
    · intro h hdr payload active hp hget hlast hreply
      exact (reply_settles_iff hp hget hlast hreply).mpr (h hdr payload active hp hget hlast hreply)
  | _ => exact Iff.rfl

end

end Inner

/-- A server that has accepted a connection and begun its migration. -/
def sampleOrigin : List InnerEvent :=
  [.doSocket 1, .bind 1 ⟨⟨10, 0, 1, 8⟩, 10000⟩, .listen 1 8 0,
    .segment ⟨10, 0, 1, 7⟩ ⟨10, 0, 1, 8⟩ (sampleSyn 1000 2) [] linkEnv,
    .segment ⟨10, 0, 1, 7⟩ ⟨10, 0, 1, 8⟩ sampleAck [] linkEnv, .pollAccept 1 2 (fun _ => linkEnv), .initiateByQd 2]

def samplePrepareAck : TcpMigHeader :=
  ⟨⟨⟨10, 0, 1, 8⟩, 10000⟩, ⟨⟨10, 0, 1, 7⟩, 50000⟩, 28, 0, false, false, .prepareMigrationAck, 10001, 10000⟩

end Capybara
