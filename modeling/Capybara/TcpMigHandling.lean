import Capybara.PeerMigration

namespace Capybara

namespace ActiveMigration

/-- What a migration does with the fragment that completes the state. -/
theorem processPacket_complete {a : ActiveMigration} {hdr whole : TcpMigHeader} {payload all : Buffer}
    {state : TcpState} {defragmenter : TcpMigDefragmenter} (hstage : hdr.stage = .connectionState)
    (hlast : a.lastSentStage = .prepareMigrationAck)
    (hdefrag : a.defragmenter.defragment hdr payload = some (some (whole, all), defragmenter))
    (hstate : TcpState.deserialize all = some state) :
    ∃ active' out, active'.lastSentStage = .connectionStateAck ∧ a.processPacket hdr payload =
      some (.ok (.stateReceived (state.setLocal ⟨a.localIpv4Addr, a.selfUdpPort⟩)), active', out) := by
  simp only [ActiveMigration.processPacket, hlast, hstage, ActiveMigration.receiveState, hdefrag, hstate,
    ActiveMigration.send_empty, Option.bind_eq_bind, Option.bind_some]
  exact ⟨_, _, rfl, rfl⟩

end ActiveMigration

theorem ControlBlock.enableStats_isSome_iff (cb : ControlBlock) : cb.enableStats.isSome = true ↔
    cb.receiver.recvQueueStats.isEnabled = false ∧ cb.receiver.rpsStats.isEnabled = false := by
  have hrecv := cb.receiver.recvQueueStats.enable_isSome false cb.receiver.recvQueue.length
  have hrps := cb.receiver.rpsStats.enable_isSome true 0
  unfold enableStats
  rw [← hrecv, ← hrps]
  cases cb.receiver.recvQueueStats.enable false cb.receiver.recvQueue.length with
  | none => exact ⟨fun h => (by cases h), fun h => (by cases h.1)⟩
  | some recvQueueStats =>
    cases cb.receiver.rpsStats.enable true 0 with
    | none => exact ⟨fun h => (by cases h), fun h => (by cases h.2)⟩
    | some rpsStats => exact ⟨fun _ => ⟨rfl, rfl⟩, fun _ => rfl⟩

namespace TcpMigPeer

theorem sendTcpState_isSome_iff (p : TcpMigPeer) (state : TcpState) : (p.sendTcpState state).isSome = true ↔
    ∃ active, p.activeMigrations.get state.cb.remote = some active ∧
      ((p.addAppState state).cb.Fits ∧ active.lastSentStage = .prepareMigration ∧
        Pieces.count maxFragmentSize (p.addAppState state).serializedSize < 2 ^ 16) := by
  unfold sendTcpState
  dsimp only
  cases hactive : p.activeMigrations.get state.cb.remote with
  | none =>
    refine ⟨fun h => (by cases h), ?_⟩
    rintro ⟨_, ⟨⟩, -⟩
  | some active =>
    have hsend := active.sendConnectionState_isSome_iff (p.addAppState state)
    rw [Option.bind_eq_bind, Option.bind_some]
    cases hsent : active.sendConnectionState (p.addAppState state) with
    | none =>
      rw [hsent] at hsend
      refine ⟨fun h => (by cases h), ?_⟩
      rintro ⟨_, ⟨⟩, hfits, hstage, hsize⟩
      cases hsend.mpr ⟨hstage, hfits, hsize⟩
    | some sent =>
      rw [hsent] at hsend
      obtain ⟨hstage, hfits, hsize⟩ := hsend.mp rfl
      exact ⟨fun _ => ⟨active, rfl, hfits, hstage, hsize⟩, fun _ => rfl⟩

theorem setActive_get (p : TcpMigPeer) (client remote : SocketAddrV4) (active : ActiveMigration)
    (out : List TcpMigSegment) : (p.setActive client active out).activeMigrations.get remote =
      if remote = client then some active else p.activeMigrations.get remote := HashMap.get_insert ..

theorem removeActive_get (p : TcpMigPeer) (client remote : SocketAddrV4) :
    (p.removeActive client).activeMigrations.get remote =
      if remote = client then none else p.activeMigrations.get remote := HashMap.get_remove ..

theorem addAppState_cb (p : TcpMigPeer) (state : TcpState) : (p.addAppState state).cb = state.cb := by
  unfold addAppState
  split <;> rfl

theorem takeAppState_cb (p : TcpMigPeer) (state : TcpState) : (p.takeAppState state).1.cb = state.cb := by
  unfold takeAppState
  split <;> rfl

theorem takeAppState_activeMigrations (p : TcpMigPeer) (state : TcpState) :
    (p.takeAppState state).2.activeMigrations = p.activeMigrations := by
  unfold takeAppState
  split <;> rfl

theorem finishPacket_stateReceived (p : TcpMigPeer) (remote : SocketAddrV4) (state : TcpState) :
    p.finishPacket remote (.stateReceived state) =
      some (.ok (.stateReceived (p.takeAppState state).1), (p.takeAppState state).2) := rfl

theorem receive_of_parse {p : TcpMigPeer} {ipv4Hdr : Ipv4Header} {buf payload : Buffer} {hdr : TcpMigHeader}
    (h : TcpMigHeader.parse ipv4Hdr buf = .ok (hdr, payload)) :
    p.receive ipv4Hdr buf = p.receiveMessage hdr payload := by
  rw [receive, h]

/-- A migration begins as long as the client has none. -/
theorem initiateMigration_eq {p : TcpMigPeer} {conn : Endpoints} (h : p.activeMigrations.get conn.2 = none)
    (qd : QDesc) :
    ∃ active out, active.lastSentStage = .prepareMigration ∧ active.qd = some qd ∧ active.origin = conn.1 ∧
      active.client = conn.2 ∧ active.recvQueue = [] ∧ (∀ s ∈ out, s.tcpmigHdr.stage = .prepareMigration) ∧
      p.initiateMigration conn qd = some (p.setActive conn.2 active out) := by
  obtain ⟨active, out, hactive, hstage, hqd, horigin, hclient, hqueue, hout⟩ : ∃ active out,
      (p.newActive (if p.selfUdpPort = 10001 then 10000 else 10001) conn.1 conn.2 (some qd)).initiateMigration =
        some (active, out) ∧ active.lastSentStage = .prepareMigration ∧ active.qd = some qd ∧
        active.origin = conn.1 ∧ active.client = conn.2 ∧ active.recvQueue = [] ∧
        ∀ s ∈ out, s.tcpmigHdr.stage = .prepareMigration := by
    simp only [ActiveMigration.initiateMigration, TcpMigHeader.new, ActiveMigration.send_empty, Option.bind_eq_bind]
    exact ⟨_, _, rfl, rfl, rfl, rfl, rfl, rfl, List.forall_mem_singleton.mpr rfl⟩
  refine ⟨active, out, hstage, hqd, horigin, hclient, hqueue, hout, ?_⟩
  rw [initiateMigration, h]
  dsimp only
  rw [hactive]
  rfl

theorem receiveMessage_packet {p : TcpMigPeer} {hdr : TcpMigHeader} {payload : Buffer}
    (hbeat : hdr.stage ≠ .heartbeatResponse) (hprepare : hdr.stage ≠ .prepareMigration) :
    p.receiveMessage hdr payload = p.processPacket hdr payload := by
  unfold receiveMessage
  split
  next hstage => exact absurd hstage hbeat
  next hstage => exact absurd hstage hprepare
  next => rfl

/-- The first PREPARE_MIGRATION for a client is accepted. -/
theorem receivePrepare_new {p : TcpMigPeer} {hdr : TcpMigHeader} {payload : Buffer}
    (hstage : hdr.stage = .prepareMigration) (h : p.activeMigrations.get hdr.client = none) :
    ∃ active out, active.lastSentStage = .prepareMigrationAck ∧ active.recvQueue = [] ∧ active.client = hdr.client ∧
      active.defragmenter = .new ∧ (∀ s ∈ out, s.tcpmigHdr.stage = .prepareMigrationAck) ∧
      p.receivePrepare hdr payload = some (.ok .ok,
        (p.setActive hdr.client (p.newActive hdr.origin.port hdr.origin hdr.client none) []).setActive hdr.client active
          out) := by
  obtain ⟨active, out, hactive, hlast, hqueue, hclient, hnew, hout⟩ : ∃ active out,
      (p.newActive hdr.origin.port hdr.origin hdr.client none).processPacket hdr payload =
        some (.ok .ok, active, out) ∧ active.lastSentStage = .prepareMigrationAck ∧ active.recvQueue = [] ∧
        active.client = hdr.client ∧ active.defragmenter = .new ∧
        ∀ s ∈ out, s.tcpmigHdr.stage = .prepareMigrationAck := by
    simp only [ActiveMigration.processPacket, TcpMigPeer.newActive, ActiveMigration.new, hstage,
      ActiveMigration.acceptMigration, ActiveMigration.send_empty, Option.bind_eq_bind, Option.bind_some]
    exact ⟨_, _, rfl, rfl, rfl, rfl, rfl, List.forall_mem_singleton.mpr rfl⟩
  refine ⟨active, out, hlast, hqueue, hclient, hnew, hout, ?_⟩
  simp only [receivePrepare, h, processPacket, setActive_get, if_pos, hactive, Option.bind_eq_bind, Option.bind_some]
  rfl

end TcpMigPeer

end Capybara
