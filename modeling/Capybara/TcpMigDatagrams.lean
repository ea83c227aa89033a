import Capybara.AtomicCalls
import Capybara.TcpMigHandling

namespace Capybara

open Runs

/-- The tables of connections and of migrations hold what they held. -/
structure Inner.Untouched (i i' : Inner) : Prop where
  sockets : i'.sockets = i.sockets
  qds : i'.qds = i.qds
  established : i'.established = i.established
  migrations : ∀ client, i'.tcpmig.activeMigrations.get client = i.tcpmig.activeMigrations.get client

/-- A message that neither begins a migration nor belongs to one. -/
def Inner.Unmatched (i : Inner) (hdr : TcpMigHeader) : Prop :=
  hdr.stage ≠ .prepareMigration ∧ i.tcpmig.activeMigrations.get hdr.client = none

/-- A datagram is handled without a panic, and one that is refused or matches no migration changes no table. -/
def Inner.Withstands (i : Inner) (ipv4Hdr : Ipv4Header) (buf : Buffer) : Prop :=
  ∃ r i', i.receiveTcpmig ipv4Hdr buf = some (r, i') ∧
    ((∃ e, r = .error e) ∨
      (∃ hdr payload, TcpMigHeader.parse ipv4Hdr buf = .ok (hdr, payload) ∧ i.Unmatched hdr) → i.Untouched i')

/-- What is needed to send the connection of a descriptor to the other server. -/
structure Inner.CanExport (i : Inner) (qd : QDesc) (local_ remote : SocketAddrV4) (s : EstablishedSocket)
    (state : ControlBlockState) (active : ActiveMigration) : Prop where
  hsocket : i.sockets.get qd = some (.established local_ remote)
  hqd : (i.qds.get (local_, remote)).isSome = true
  hentry : i.established.get (local_, remote) = some s
  hstate : s.cb.toState = some state
  hfits : state.Fits
  hactive : i.tcpmig.activeMigrations.get state.remote = some active
  hstage : active.lastSentStage = .prepareMigration
  hsize : Pieces.count maxFragmentSize (i.tcpmig.addAppState ⟨state, .none⟩).serializedSize < 2 ^ 16

/-- A fragment of a connection state can be stored; if it completes the state, this can be decoded, and a socket
listens on the port of the migration and has no accepted connection of the client waiting. -/
def Inner.CanImport (i : Inner) (active : ActiveMigration) (hdr : TcpMigHeader) (payload : Buffer) : Prop :=
  ∃ complete defragmenter, active.defragmenter.defragment hdr payload = some (complete, defragmenter) ∧
    ∀ whole buf, complete = some (whole, buf) → ∃ state passive, TcpState.deserialize buf = some state ∧
      i.passive.get ⟨active.localIpv4Addr, active.selfUdpPort⟩ = some passive ∧
      state.cb.remote ∉ passive.ready.endpoints

/-- What the answer to PREPARE_MIGRATION needs at the origin. -/
def Inner.Exports (i : Inner) (qd : QDesc) : Prop :=
  ∃ local_ remote s state sending, i.CanExport qd local_ remote s state sending

/-- What a message needs by the last one that the migration sent. -/
def Inner.CanProceed (i : Inner) (active : ActiveMigration) (hdr : TcpMigHeader) (payload : Buffer) : Prop :=
  match active.lastSentStage with
  | .prepareMigration =>
    match hdr.stage with
    | .prepareMigrationAck => ∃ qd, active.qd = some qd ∧ i.Exports qd
    | .rejected => ∃ s, i.established.get (hdr.origin, hdr.client) = some s ∧
        s.cb.receiver.recvQueueStats.isEnabled = false ∧ s.cb.receiver.rpsStats.isEnabled = false
    | _ => True
  | .prepareMigrationAck =>
    match hdr.stage with
    | .connectionState => i.CanImport active hdr payload
    | _ => True
  | .none | .connectionState | .connectionStateAck => True
  | .rejected | .heartbeatUpdate | .heartbeatResponse => False

/-- The condition on a server under which it handles a message. -/
def Inner.Handles (i : Inner) (hdr : TcpMigHeader) (payload : Buffer) : Prop :=
  match hdr.stage with
  | .heartbeatResponse => 4 ≤ payload.length
  | .prepareMigration => i.tcpmig.activeMigrations.get hdr.client ≠ none →
      (i.qds.get (hdr.origin, hdr.client)).isSome = true ∧ (i.established.get (hdr.origin, hdr.client)).isSome = true
  | _ => ∃ active, i.tcpmig.activeMigrations.get hdr.client = some active ∧ i.CanProceed active hdr payload

namespace Inner

section

variable {i i' : Inner} {ipv4Hdr : Ipv4Header} {buf payload : Buffer} {hdr : TcpMigHeader} {active : ActiveMigration}
  {conn : Endpoints}

theorem Untouched.refl (i : Inner) : i.Untouched i := ⟨rfl, rfl, rfl, fun _ => rfl⟩

theorem withstands_of_error {e : Fail} (h : TcpMigHeader.parse ipv4Hdr buf = .error e) : i.Withstands ipv4Hdr buf := by
  refine ⟨.error e, i, ?_, fun _ => .refl i⟩
  rw [receiveTcpmig, TcpMigPeer.receive, h]
  rfl

theorem not_withstands (h : i.receiveTcpmig ipv4Hdr buf = none) : ¬i.Withstands ipv4Hdr buf := by
  rintro ⟨r, i', hr, -⟩
  cases h.symm.trans hr

/-- Only a refusal makes demands on how a matched datagram is handled. -/
theorem withstands_matched (hp : TcpMigHeader.parse ipv4Hdr buf = .ok (hdr, payload)) (hm : ¬i.Unmatched hdr) :
    i.Withstands ipv4Hdr buf ↔
      ∃ r i', i.receiveTcpmig ipv4Hdr buf = some (r, i') ∧ ∀ e, r = .error e → i.Untouched i' := by
  constructor
  · rintro ⟨r, i', hr, hkept⟩
    exact ⟨r, i', hr, fun e he => hkept (.inl ⟨e, he⟩)⟩
  · rintro ⟨r, i', hr, hkept⟩
    refine ⟨r, i', hr, ?_⟩
    rintro (⟨e, he⟩ | ⟨hdr', payload', hp', hm'⟩)
    · exact hkept e he
    · cases hp.symm.trans hp'
      exact absurd hm' hm

theorem receiveTcpmig_of_parse (hp : TcpMigHeader.parse ipv4Hdr buf = .ok (hdr, payload)) :
    i.receiveTcpmig ipv4Hdr buf = (i.tcpmig.receiveMessage hdr payload).bind fun handled =>
      match handled.1 with
      | .error e => some (.error e, { i with tcpmig := handled.2 })
      | .ok status => { i with tcpmig := handled.2 }.actOnStatus status := by
  rw [receiveTcpmig, TcpMigPeer.receive_of_parse hp]
  rfl

theorem untouched_updateThreshold (i : Inner) (globalQueueLenSum : Nat) :
    i.Untouched (i.updateThreshold globalQueueLenSum) :=
  ⟨rfl, rfl, rfl, fun _ => rfl⟩

theorem heartbeat_withstands (hp : TcpMigHeader.parse ipv4Hdr buf = .ok (hdr, payload))
    (hstage : hdr.stage = .heartbeatResponse) : i.Withstands ipv4Hdr buf ↔ 4 ≤ payload.length := by
  have hr := @receiveTcpmig_of_parse i _ _ _ _ hp
  by_cases hshort : payload.length < 4
  · have hnone : i.tcpmig.receiveMessage hdr payload = none := by
      unfold TcpMigPeer.receiveMessage
      rw [hstage]
      exact if_pos hshort
    rw [hnone] at hr
    exact ⟨fun h => absurd h (not_withstands hr), fun h => by omega⟩
  · obtain ⟨sum, hsome⟩ : ∃ sum, i.tcpmig.receiveMessage hdr payload =
        some (.ok (.heartbeatResponse sum), i.tcpmig) := by
      unfold TcpMigPeer.receiveMessage
      rw [hstage]
      exact ⟨_, if_neg hshort⟩
    rw [hsome] at hr
    exact ⟨fun _ => by omega, fun _ => ⟨_, _, hr, fun _ => i.untouched_updateThreshold sum⟩⟩

theorem initiateMigrationByAddr_isSome_iff (h : i.tcpmig.activeMigrations.get conn.2 = none) :
    (i.initiateMigrationByAddr conn).isSome = true ↔
      (i.qds.get conn).isSome = true ∧ (i.established.get conn).isSome = true := by
  unfold initiateMigrationByAddr startMigration
  cases i.qds.get conn with
  | none => exact ⟨nofun, nofun⟩
  | some qd =>
    cases i.established.get conn with
    | none => exact ⟨nofun, nofun⟩
    | some s =>
      obtain ⟨active, out, -, -, -, -, -, -, hstart⟩ := TcpMigPeer.initiateMigration_eq h qd
      simp only [Option.bind_eq_bind, Option.bind_some, hstart, Option.isSome_some, and_self]

/-- An own PREPARE_MIGRATION that comes back ends the migration, and another one begins. -/
theorem returned_taken (hp : TcpMigHeader.parse ipv4Hdr buf = .ok (hdr, payload)) (hstage : hdr.stage = .prepareMigration)
    (hget : i.tcpmig.activeMigrations.get hdr.client = some active) :
    ∃ p, (∀ client, p.activeMigrations.get client =
        if client = hdr.client then none else i.tcpmig.activeMigrations.get client) ∧ p.rt = i.tcpmig.rt ∧
      i.receiveTcpmig ipv4Hdr buf =
        (({ i with tcpmig := p } : Inner).initiateMigrationByAddr (hdr.origin, hdr.client)).map fun i => (.ok (), i) := by
  have hr := @receiveTcpmig_of_parse i _ _ _ _ hp
  simp only [TcpMigPeer.receiveMessage, hstage, TcpMigPeer.receivePrepare, hget, Option.bind_some, actOnStatus] at hr
  refine ⟨_, fun client => ?_, ?_, hr⟩
  · rw [TcpMigPeer.removeActive_get, TcpMigPeer.setActive_get]
    split <;> rfl
  · exact List.append_nil _

theorem prepare_withstands (hp : TcpMigHeader.parse ipv4Hdr buf = .ok (hdr, payload))
    (hstage : hdr.stage = .prepareMigration) :
    i.Withstands ipv4Hdr buf ↔ (i.tcpmig.activeMigrations.get hdr.client ≠ none →
      (i.qds.get (hdr.origin, hdr.client)).isSome = true ∧
        (i.established.get (hdr.origin, hdr.client)).isSome = true) := by
  rw [withstands_matched hp fun hm => hm.1 hstage]
  cases hget : i.tcpmig.activeMigrations.get hdr.client with
  | none =>
    have hr := @receiveTcpmig_of_parse i _ _ _ _ hp
    simp only [TcpMigPeer.receiveMessage, hstage] at hr
    obtain ⟨active, out, -, -, -, -, -, hnew⟩ := @TcpMigPeer.receivePrepare_new i.tcpmig hdr payload hstage hget
    rw [hnew] at hr
    exact ⟨fun _ hne => absurd rfl hne, fun _ => ⟨_, _, hr, fun e he => by cases he⟩⟩
  | some active =>
    obtain ⟨p, hactive, -, hr⟩ := returned_taken hp hstage hget
    have hfree : p.activeMigrations.get hdr.client = none := (hactive hdr.client).trans (if_pos rfl)
    have hsome := @initiateMigrationByAddr_isSome_iff { i with tcpmig := p } (hdr.origin, hdr.client) hfree
    rw [← hsome, hr]
    cases ({ i with tcpmig := p } : Inner).initiateMigrationByAddr (hdr.origin, hdr.client) with
    | none =>
      refine iff_of_false ?_ fun h => (by cases h (by simp))
      rintro ⟨_, _, ⟨⟩, -⟩
    | some after => exact ⟨fun _ _ => rfl, fun _ => ⟨_, _, rfl, fun e he => by cases he⟩⟩

/-- A refused message leaves the migration as it was. -/
theorem withstands_refused (hp : TcpMigHeader.parse ipv4Hdr buf = .ok (hdr, payload))
    (hbeat : hdr.stage ≠ .heartbeatResponse) (hprepare : hdr.stage ≠ .prepareMigration)
    (hget : i.tcpmig.activeMigrations.get hdr.client = some active) {cause : String}
    (hpacket : active.processPacket hdr payload = some (active.badMessage cause)) : i.Withstands ipv4Hdr buf := by
  have hr := @receiveTcpmig_of_parse i _ _ _ _ hp
  rw [TcpMigPeer.receiveMessage_packet hbeat hprepare, TcpMigPeer.processPacket, hget, Option.bind_eq_bind,
    Option.bind_some, hpacket] at hr
  refine ⟨_, _, hr, fun _ => ⟨rfl, rfl, rfl, fun client => ?_⟩⟩
  refine (TcpMigPeer.setActive_get ..).trans ?_
  split
  next heq => rw [heq, hget]
  next => rfl

/-- What becomes of a message that the migration takes. -/
theorem receiveTcpmig_taken (hp : TcpMigHeader.parse ipv4Hdr buf = .ok (hdr, payload))
    (hbeat : hdr.stage ≠ .heartbeatResponse) (hprepare : hdr.stage ≠ .prepareMigration)
    (hget : i.tcpmig.activeMigrations.get hdr.client = some active) {status status' : TcpmigReceiveStatus}
    {active' : ActiveMigration} {out : List TcpMigSegment} {p : TcpMigPeer}
    (hpacket : active.processPacket hdr payload = some (.ok status, active', out))
    (hfinish : (i.tcpmig.setActive hdr.client active' out).finishPacket hdr.client status = some (.ok status', p)) :
    i.receiveTcpmig ipv4Hdr buf = ({ i with tcpmig := p } : Inner).actOnStatus status' := by
  have hr := @receiveTcpmig_of_parse i _ _ _ _ hp
  rw [TcpMigPeer.receiveMessage_packet hbeat hprepare, TcpMigPeer.processPacket, hget, Option.bind_eq_bind,
    Option.bind_some, hpacket, Option.bind_eq_bind, Option.bind_some] at hr
  dsimp only at hr
  rw [hfinish] at hr
  exact hr

theorem receiveTcpmig_panics (hp : TcpMigHeader.parse ipv4Hdr buf = .ok (hdr, payload))
    (hbeat : hdr.stage ≠ .heartbeatResponse) (hprepare : hdr.stage ≠ .prepareMigration)
    (hget : i.tcpmig.activeMigrations.get hdr.client = some active)
    (hpacket : active.processPacket hdr payload = none) : i.receiveTcpmig ipv4Hdr buf = none := by
  rw [receiveTcpmig_of_parse hp, TcpMigPeer.receiveMessage_packet hbeat hprepare, TcpMigPeer.processPacket, hget,
    Option.bind_eq_bind, Option.bind_some, hpacket]
  rfl

/-- A connection can be taken out if its descriptor and the tables agree on it. -/
theorem migrateOutConnection_eq_some {qd : QDesc} {state : TcpState} :
    i.migrateOutConnection qd = some (state, i') ↔ ∃ local_ remote s cb,
      i.sockets.get qd = some (.established local_ remote) ∧ (i.qds.get (local_, remote)).isSome = true ∧
      i.established.get (local_, remote) = some s ∧ s.cb.toState = some cb ∧ state = ⟨cb, .none⟩ ∧ i' = { i with
        sockets := i.sockets.insert qd (.migratedOut local_ remote)
        qds := i.qds.remove (local_, remote)
        established := i.established.remove (local_, remote) } := by
  constructor
  · intro h
    unfold migrateOutConnection at h
    split at h
    next local_ remote hsocket =>
      obtain ⟨_, hqd, h⟩ := Option.bind_eq_some_iff.mp h
      obtain ⟨s, hentry, h⟩ := Option.bind_eq_some_iff.mp h
      obtain ⟨cb, hstate, h⟩ := Option.bind_eq_some_iff.mp h
      cases h
      exact ⟨local_, remote, s, cb, hsocket, by rw [hqd]; rfl, hentry, hstate, rfl, rfl⟩
    next => cases h
  · rintro ⟨local_, remote, s, cb, hsocket, hqd, hentry, hstate, rfl, rfl⟩
    obtain ⟨q, hq⟩ := Option.isSome_iff_exists.mp hqd
    simp only [migrateOutConnection, hsocket, hq, hentry, hstate, Option.bind_eq_bind, Option.bind_some]

theorem actOnAck_isSome_iff (i : Inner) (qd : QDesc) :
    (i.actOnStatus (.prepareMigrationAcked qd)).isSome = true ↔ i.Exports qd := by
  rw [actOnStatus]
  unfold Exports
  constructor
  · intro h
    cases hout : i.migrateOutConnection qd with
    | none =>
      rw [hout] at h
      cases h
    | some out =>
      obtain ⟨state, i₁⟩ := out
      rw [hout, Option.bind_eq_bind, Option.bind_some] at h
      obtain ⟨local_, remote, s, cb, hsocket, hqd, hentry, hstate, rfl, rfl⟩ := migrateOutConnection_eq_some.mp hout
      dsimp only at h
      cases hsend : i.tcpmig.sendTcpState ⟨cb, .none⟩ with
      | none =>
        rw [hsend] at h
        cases h
      | some p =>
        obtain ⟨sending, hactive, hfits, hstage, hsize⟩ :=
          (i.tcpmig.sendTcpState_isSome_iff ⟨cb, .none⟩).mp (by rw [hsend]; rfl)
        rw [TcpMigPeer.addAppState_cb] at hfits
        exact ⟨local_, remote, s, cb, sending, hsocket, hqd, hentry, hstate, hfits, hactive, hstage, hsize⟩
  · rintro ⟨local_, remote, s, state, sending, hc⟩
    have hsend : (i.tcpmig.sendTcpState ⟨state, .none⟩).isSome = true := by
      rw [TcpMigPeer.sendTcpState_isSome_iff]
      refine ⟨sending, hc.hactive, ?_, hc.hstage, hc.hsize⟩
      rw [TcpMigPeer.addAppState_cb]
      exact hc.hfits
    obtain ⟨p, hp⟩ := Option.isSome_iff_exists.mp hsend
    rw [migrateOutConnection_eq_some.mpr
      ⟨local_, remote, s, state, hc.hsocket, hc.hqd, hc.hentry, hc.hstate, rfl, rfl⟩]
    simp only [Option.bind_eq_bind, Option.bind_some, hp, Option.isSome_some]

/-- The answer only changes the port in the migration. -/
theorem exports_setActive {out : List TcpMigSegment} {active' : ActiveMigration} {qd : QDesc}
    (hget : i.tcpmig.activeMigrations.get hdr.client = some active)
    (hstage : active'.lastSentStage = active.lastSentStage) :
    ({ i with tcpmig := i.tcpmig.setActive hdr.client active' out } : Inner).Exports qd ↔ i.Exports qd := by
  have hadd : ∀ state, (i.tcpmig.setActive hdr.client active' out).addAppState state = i.tcpmig.addAppState state :=
    fun _ => rfl
  constructor
  · rintro ⟨local_, remote, s, state, sending, hc⟩
    have hactive := hc.hactive
    rw [TcpMigPeer.setActive_get] at hactive
    split at hactive
    next heq =>
      cases hactive
      exact ⟨local_, remote, s, state, active, hc.hsocket, hc.hqd, hc.hentry, hc.hstate, hc.hfits, by rw [heq, hget],
        hstage ▸ hc.hstage, hc.hsize⟩
    next =>
      exact ⟨local_, remote, s, state, sending, hc.hsocket, hc.hqd, hc.hentry, hc.hstate, hc.hfits, hactive, hc.hstage,
        hc.hsize⟩
  · rintro ⟨local_, remote, s, state, sending, hc⟩
    by_cases heq : state.remote = hdr.client
    · have hsame := hc.hactive
      rw [heq, hget] at hsame
      cases hsame
      refine ⟨local_, remote, s, state, active', hc.hsocket, hc.hqd, hc.hentry, hc.hstate, hc.hfits, ?_,
        hstage.trans hc.hstage, hc.hsize⟩
      rw [TcpMigPeer.setActive_get, if_pos heq]
    · refine ⟨local_, remote, s, state, sending, hc.hsocket, hc.hqd, hc.hentry, hc.hstate, hc.hfits, ?_, hc.hstage,
        hc.hsize⟩
      rw [TcpMigPeer.setActive_get, if_neg heq]
      exact hc.hactive

/-- A call that refuses nothing is only asked not to panic. -/
theorem withstands_iff_isSome (hp : TcpMigHeader.parse ipv4Hdr buf = .ok (hdr, payload))
    (hget : i.tcpmig.activeMigrations.get hdr.client = some active)
    (hok : ∀ r i', i.receiveTcpmig ipv4Hdr buf = some (r, i') → r = .ok ()) :
    i.Withstands ipv4Hdr buf ↔ (i.receiveTcpmig ipv4Hdr buf).isSome = true := by
  rw [withstands_matched hp fun hm => by rw [hm.2] at hget; cases hget]
  constructor
  · rintro ⟨r, i', hr, -⟩
    rw [hr]
    rfl
  · intro hsome
    obtain ⟨⟨r, i'⟩, hr⟩ := Option.isSome_iff_exists.mp hsome
    refine ⟨r, i', hr, fun e he => ?_⟩
    cases (hok r i' hr).symm.trans he

/-- Only a state that arrives can be refused on the way into the tables. -/
theorem actOnStatus_ok {status : TcpmigReceiveStatus} {r : Except Fail Unit}
    (hne : ∀ state, status ≠ .stateReceived state) (h : i.actOnStatus status = some (r, i')) : r = .ok () := by
  cases status with
  | ok | migrationCompleted | sentReject | heartbeatResponse =>
    cases h
    rfl
  | rejected local_ remote =>
    obtain ⟨_, -, h⟩ := Option.map_eq_some_iff.mp h
    cases h
    rfl
  | returnedBySwitch local_ remote =>
    obtain ⟨_, -, h⟩ := Option.map_eq_some_iff.mp h
    cases h
    rfl
  | prepareMigrationAcked qd =>
    obtain ⟨⟨state, i₁⟩, -, h⟩ := Option.bind_eq_some_iff.mp h
    obtain ⟨p, -, h⟩ := Option.bind_eq_some_iff.mp h
    cases h
    rfl
  | stateReceived state => exact absurd rfl (hne state)

theorem ack_taken (hp : TcpMigHeader.parse ipv4Hdr buf = .ok (hdr, payload)) (hstage : hdr.stage = .prepareMigrationAck)
    (hget : i.tcpmig.activeMigrations.get hdr.client = some active)
    (hlast : active.lastSentStage = .prepareMigration) {qd : QDesc} (hqd : active.qd = some qd) :
    i.receiveTcpmig ipv4Hdr buf = ({ i with
        tcpmig := i.tcpmig.setActive hdr.client { active with destUdpPort := hdr.sourceUdpPort } [] } :
      Inner).actOnStatus (.prepareMigrationAcked qd) := by
  have hbeat : hdr.stage ≠ .heartbeatResponse := by rw [hstage]; exact fun heq => by cases heq
  have hprepare : hdr.stage ≠ .prepareMigration := by rw [hstage]; exact fun heq => by cases heq
  have hpacket : active.processPacket hdr payload =
      some (.ok (.prepareMigrationAcked qd), { active with destUdpPort := hdr.sourceUdpPort }, []) := by
    simp only [ActiveMigration.processPacket, hlast, hstage, hqd, Option.bind_eq_bind, Option.bind_some]
  exact receiveTcpmig_taken hp hbeat hprepare hget hpacket rfl

theorem ack_withstands (hp : TcpMigHeader.parse ipv4Hdr buf = .ok (hdr, payload))
    (hstage : hdr.stage = .prepareMigrationAck) (hget : i.tcpmig.activeMigrations.get hdr.client = some active)
    (hlast : active.lastSentStage = .prepareMigration) :
    i.Withstands ipv4Hdr buf ↔ ∃ qd, active.qd = some qd ∧ i.Exports qd := by
  cases hqd : active.qd with
  | none =>
    have hbeat : hdr.stage ≠ .heartbeatResponse := by rw [hstage]; exact fun heq => by cases heq
    have hprepare : hdr.stage ≠ .prepareMigration := by rw [hstage]; exact fun heq => by cases heq
    have hpacket : active.processPacket hdr payload = none := by
      simp only [ActiveMigration.processPacket, hlast, hstage, hqd, Option.bind_eq_bind, Option.bind_none]
    refine ⟨fun h => absurd h (not_withstands (receiveTcpmig_panics hp hbeat hprepare hget hpacket)), ?_⟩
    rintro ⟨_, ⟨⟩, -⟩
  | some qd =>
    have hr := ack_taken hp hstage hget hlast hqd
    have hexports := @exports_setActive i hdr active [] { active with destUdpPort := hdr.sourceUdpPort } qd hget rfl
    rw [withstands_iff_isSome hp hget, hr, actOnAck_isSome_iff, hexports]
    · refine ⟨fun h => ⟨qd, rfl, h⟩, ?_⟩
      rintro ⟨_, ⟨⟩, h⟩
      exact h
    · intro r i' hact
      exact actOnStatus_ok (fun _ heq => (by cases heq)) (hr.symm.trans hact)

theorem rejected_taken (hp : TcpMigHeader.parse ipv4Hdr buf = .ok (hdr, payload)) (hstage : hdr.stage = .rejected)
    (hget : i.tcpmig.activeMigrations.get hdr.client = some active)
    (hlast : active.lastSentStage = .prepareMigration) :
    i.receiveTcpmig ipv4Hdr buf = ({ i with
        tcpmig := (i.tcpmig.setActive hdr.client active []).removeActive hdr.client } :
      Inner).actOnStatus (.rejected hdr.origin hdr.client) := by
  have hbeat : hdr.stage ≠ .heartbeatResponse := by rw [hstage]; exact fun heq => by cases heq
  have hprepare : hdr.stage ≠ .prepareMigration := by rw [hstage]; exact fun heq => by cases heq
  have hpacket : active.processPacket hdr payload = some (.ok (.rejected hdr.origin hdr.client), active, []) := by
    simp only [ActiveMigration.processPacket, hlast, hstage]
  exact receiveTcpmig_taken hp hbeat hprepare hget hpacket rfl

theorem rejected_withstands (hp : TcpMigHeader.parse ipv4Hdr buf = .ok (hdr, payload))
    (hstage : hdr.stage = .rejected) (hget : i.tcpmig.activeMigrations.get hdr.client = some active)
    (hlast : active.lastSentStage = .prepareMigration) :
    i.Withstands ipv4Hdr buf ↔ ∃ s, i.established.get (hdr.origin, hdr.client) = some s ∧
      s.cb.receiver.recvQueueStats.isEnabled = false ∧ s.cb.receiver.rpsStats.isEnabled = false := by
  have hr := rejected_taken hp hstage hget hlast
  rw [withstands_iff_isSome hp hget fun r i' hact => actOnStatus_ok (fun _ heq => (by cases heq)) (hr.symm.trans hact), hr,
    actOnStatus, Option.isSome_map]
  unfold resumeStats
  show (Option.bind (i.established.get (hdr.origin, hdr.client)) _).isSome = true ↔ _
  cases i.established.get (hdr.origin, hdr.client) with
  | none =>
    refine ⟨fun h => (by cases h), ?_⟩
    rintro ⟨_, ⟨⟩, -⟩
  | some s =>
    have henable := s.cb.enableStats_isSome_iff
    rw [Option.bind_some]
    cases hcb : s.cb.enableStats with
    | none =>
      rw [hcb] at henable
      refine ⟨fun h => (by cases h), ?_⟩
      rintro ⟨_, ⟨⟩, hboth⟩
      cases henable.mpr hboth
    | some cb =>
      rw [hcb] at henable
      exact ⟨fun _ => ⟨s, rfl, henable.mp rfl⟩, fun _ => rfl⟩

/-- The connection that a complete state brings is taken by the socket that listens on the port of the migration. -/
theorem migrateInConnection_ok_iff (i : Inner) (state : TcpState) :
    (∃ i', i.migrateInConnection state = some (.ok (), i')) ↔ ∃ passive, i.passive.get state.cb.local_ = some passive ∧
      state.cb.remote ∉ passive.ready.endpoints := by
  have hlocal : (ControlBlock.fromState i.tcpConfig.ackDelayTimeout state.cb).local_ = state.cb.local_ := rfl
  have hremote : (ControlBlock.fromState i.tcpConfig.ackDelayTimeout state.cb).remote = state.cb.remote := rfl
  unfold migrateInConnection
  dsimp only
  rw [hlocal]
  cases i.passive.get state.cb.local_ with
  | none =>
    constructor
    · rintro ⟨_, ⟨⟩⟩
    · rintro ⟨_, ⟨⟩, -⟩
  | some passive =>
    simp only [PassiveSocket.pushMigratedIn, ReadySockets.pushOk, hremote, Option.bind_eq_bind]
    by_cases hin : state.cb.remote ∈ passive.ready.endpoints
    · simp only [if_pos hin, Option.bind_none]
      constructor
      · rintro ⟨_, ⟨⟩⟩
      · rintro ⟨_, ⟨⟩, hnot⟩
        exact absurd hin hnot
    · simp only [if_neg hin, Option.bind_some]
      exact ⟨fun _ => ⟨passive, rfl, hin⟩, fun _ => ⟨_, rfl⟩⟩

theorem migrateInConnection_error {state : TcpState} {e : Fail}
    (h : i.migrateInConnection state = some (.error e, i')) : i' = i := by
  unfold migrateInConnection at h
  dsimp only at h
  split at h
  next =>
    obtain ⟨passive, -, h⟩ := Option.bind_eq_some_iff.mp h
    cases h
  next =>
    cases h
    rfl

theorem state_withstands (hp : TcpMigHeader.parse ipv4Hdr buf = .ok (hdr, payload))
    (hstage : hdr.stage = .connectionState) (hget : i.tcpmig.activeMigrations.get hdr.client = some active)
    (hlast : active.lastSentStage = .prepareMigrationAck) :
    i.Withstands ipv4Hdr buf ↔ i.CanImport active hdr payload := by
  have hbeat : hdr.stage ≠ .heartbeatResponse := by rw [hstage]; exact fun heq => by cases heq
  have hprepare : hdr.stage ≠ .prepareMigration := by rw [hstage]; exact fun heq => by cases heq
  have hpacket : active.processPacket hdr payload = active.receiveState hdr payload := by
    simp only [ActiveMigration.processPacket, hlast, hstage]
  have hmatched : ¬i.Unmatched hdr := fun hm => by cases hm.2.symm.trans hget
  unfold CanImport
  cases hdefrag : active.defragmenter.defragment hdr payload with
  | none =>
    rw [ActiveMigration.receiveState, hdefrag] at hpacket
    refine ⟨fun h => absurd h (not_withstands (receiveTcpmig_panics hp hbeat hprepare hget hpacket)), ?_⟩
    rintro ⟨_, _, ⟨⟩, -⟩
  | some out =>
    obtain ⟨complete, defragmenter⟩ := out
    cases complete with
    | none =>
      rw [ActiveMigration.receiveState, hdefrag] at hpacket
      have hr := receiveTcpmig_taken hp hbeat hprepare hget hpacket rfl
      refine ⟨fun _ => ⟨_, _, rfl, fun whole all h => (by cases h)⟩, fun _ => ?_⟩
      rw [withstands_matched hp hmatched, hr]
      exact ⟨_, _, rfl, fun e he => (by cases he)⟩
    | some message =>
      obtain ⟨whole, all⟩ := message
      cases hstate : TcpState.deserialize all with
      | none =>
        rw [ActiveMigration.receiveState, hdefrag, Option.bind_eq_bind, Option.bind_some] at hpacket
        dsimp only at hpacket
        rw [hstate] at hpacket
        refine ⟨fun h => absurd h (not_withstands (receiveTcpmig_panics hp hbeat hprepare hget hpacket)), ?_⟩
        rintro ⟨_, _, ⟨⟩, himport⟩
        obtain ⟨_, _, h, -⟩ := himport whole all rfl
        cases hstate.symm.trans h
      | some state =>
        obtain ⟨active', out, hsent, hpacket⟩ := ActiveMigration.processPacket_complete hstage hlast hdefrag hstate
        have hr := receiveTcpmig_taken hp hbeat hprepare hget hpacket (TcpMigPeer.finishPacket_stateReceived ..)
        rw [actOnStatus] at hr
        generalize hnext : (i.tcpmig.setActive hdr.client active' out).takeAppState
          (state.setLocal ⟨active.localIpv4Addr, active.selfUdpPort⟩) = next at hr
        have hcb : next.1.cb = (state.setLocal ⟨active.localIpv4Addr, active.selfUdpPort⟩).cb := by
          rw [← hnext, TcpMigPeer.takeAppState_cb]
        have hactive : next.2.activeMigrations.get hdr.client = some active' := by
          rw [← hnext, TcpMigPeer.takeAppState_activeMigrations, TcpMigPeer.setActive_get, if_pos rfl]
        have hok := ({ i with tcpmig := next.2 } : Inner).migrateInConnection_ok_iff next.1
        rw [hcb] at hok
        rw [withstands_matched hp hmatched, hr]
        constructor
        · rintro ⟨r, i', himport, hkept⟩
          cases r with
          | error e =>
            have hsame := migrateInConnection_error himport
            have hclient := (hkept e rfl).migrations hdr.client
            rw [hsame, hget] at hclient
            cases hactive.symm.trans hclient
            cases hlast.symm.trans hsent
          | ok =>
            obtain ⟨passive, hpassive, hnot⟩ := hok.mp ⟨i', himport⟩
            refine ⟨_, _, rfl, fun whole' all' h => ?_⟩
            cases h
            exact ⟨state, passive, hstate, hpassive, hnot⟩
        · rintro ⟨_, _, ⟨⟩, himport⟩
          obtain ⟨state', passive, hstate', hpassive, hnot⟩ := himport whole all rfl
          cases hstate.symm.trans hstate'
          obtain ⟨i', hi'⟩ := hok.mpr ⟨passive, hpassive, hnot⟩
          exact ⟨_, i', hi', fun e he => (by cases he)⟩

/-- What is asked of a migration depends on what it sent last. -/
theorem proceed_withstands (hp : TcpMigHeader.parse ipv4Hdr buf = .ok (hdr, payload))
    (hbeat : hdr.stage ≠ .heartbeatResponse) (hprepare : hdr.stage ≠ .prepareMigration)
    (hget : i.tcpmig.activeMigrations.get hdr.client = some active) :
    i.Withstands ipv4Hdr buf ↔ i.CanProceed active hdr payload := by
  have hrefused : ∀ cause, active.processPacket hdr payload = some (active.badMessage cause) →
      i.Withstands ipv4Hdr buf :=
    fun _ hpacket => withstands_refused hp hbeat hprepare hget hpacket
  have hpanics : active.processPacket hdr payload = none → ¬i.Withstands ipv4Hdr buf :=
    fun hpacket => not_withstands (receiveTcpmig_panics hp hbeat hprepare hget hpacket)
  have hmatched : ¬i.Unmatched hdr := fun hm => by cases hm.2.symm.trans hget
  cases hlast : active.lastSentStage with
  | none =>
    have hpacket : active.processPacket hdr payload = some (active.badMessage "expected PREPARE_MIGRATION") := by
      simp only [ActiveMigration.processPacket, hlast]
    have hproceed : i.CanProceed active hdr payload := by simp only [CanProceed, hlast]
    exact iff_of_true (hrefused _ hpacket) hproceed
  | prepareMigration =>
    by_cases hack : hdr.stage = .prepareMigrationAck
    · rw [ack_withstands hp hack hget hlast]
      simp only [CanProceed, hlast, hack]
    · by_cases hrejected : hdr.stage = .rejected
      · rw [rejected_withstands hp hrejected hget hlast]
        simp only [CanProceed, hlast, hrejected]
      · have hpacket : active.processPacket hdr payload =
            some (active.badMessage "expected PREPARE_MIGRATION_ACK or REJECTED") := by
          simp only [ActiveMigration.processPacket, hlast]
        have hproceed : i.CanProceed active hdr payload := by simp only [CanProceed, hlast]
        exact iff_of_true (hrefused _ hpacket) hproceed
  | prepareMigrationAck =>
    by_cases hstate : hdr.stage = .connectionState
    · rw [state_withstands hp hstate hget hlast]
      simp only [CanProceed, hlast, hstate]
    · have hpacket : active.processPacket hdr payload = some (active.badMessage "expected CONNECTION_STATE") := by
        simp only [ActiveMigration.processPacket, hlast]
      have hproceed : i.CanProceed active hdr payload := by simp only [CanProceed, hlast]
      exact iff_of_true (hrefused _ hpacket) hproceed
  | connectionState =>
    have hproceed : i.CanProceed active hdr payload := by simp only [CanProceed, hlast]
    by_cases hack : hdr.stage = .connectionStateAck
    · have hpacket : active.processPacket hdr payload = some (.ok .migrationCompleted, active, []) := by
        simp only [ActiveMigration.processPacket, hlast, hack]
      have hr := receiveTcpmig_taken hp hbeat hprepare hget hpacket rfl
      refine iff_of_true ?_ hproceed
      rw [withstands_matched hp hmatched, hr]
      exact ⟨_, _, rfl, fun e he => (by cases he)⟩
    · have hpacket : active.processPacket hdr payload = some (active.badMessage "expected CONNECTION_STATE_ACK") := by
        simp only [ActiveMigration.processPacket, hlast]
      exact iff_of_true (hrefused _ hpacket) hproceed
  | connectionStateAck =>
    have hpacket : active.processPacket hdr payload = some (.ok .ok, active, []) := by
      simp only [ActiveMigration.processPacket, hlast]
    have hr := receiveTcpmig_taken hp hbeat hprepare hget hpacket rfl
    have hproceed : i.CanProceed active hdr payload := by simp only [CanProceed, hlast]
    refine iff_of_true ?_ hproceed
    rw [withstands_matched hp hmatched, hr]
    exact ⟨_, _, rfl, fun e he => (by cases he)⟩
  | rejected | heartbeatUpdate | heartbeatResponse =>
    have hpacket : active.processPacket hdr payload = none := by
      simp only [ActiveMigration.processPacket, hlast]
    have hproceed : ¬i.CanProceed active hdr payload := by simp only [CanProceed, hlast, not_false_eq_true]
    exact iff_of_false (hpanics hpacket) hproceed

theorem packet_withstands (hp : TcpMigHeader.parse ipv4Hdr buf = .ok (hdr, payload))
    (hbeat : hdr.stage ≠ .heartbeatResponse) (hprepare : hdr.stage ≠ .prepareMigration) :
    i.Withstands ipv4Hdr buf ↔
      ∃ active, i.tcpmig.activeMigrations.get hdr.client = some active ∧ i.CanProceed active hdr payload := by
  cases hget : i.tcpmig.activeMigrations.get hdr.client with
  | none =>
    have hnone : i.receiveTcpmig ipv4Hdr buf = none := by
      rw [receiveTcpmig_of_parse hp, TcpMigPeer.receiveMessage_packet hbeat hprepare, TcpMigPeer.processPacket, hget]
      rfl
    refine iff_of_false (not_withstands hnone) ?_
    rintro ⟨_, ⟨⟩, -⟩
  | some active =>
    rw [proceed_withstands hp hbeat hprepare hget]
    refine ⟨fun h => ⟨active, rfl, h⟩, ?_⟩
    rintro ⟨_, ⟨⟩, hproceed⟩
    exact hproceed

theorem withstands_iff_handles (hp : TcpMigHeader.parse ipv4Hdr buf = .ok (hdr, payload)) :
    i.Withstands ipv4Hdr buf ↔ i.Handles hdr payload := by
  by_cases hbeat : hdr.stage = .heartbeatResponse
  · rw [heartbeat_withstands hp hbeat]
    simp only [Handles, hbeat]
  · by_cases hprepare : hdr.stage = .prepareMigration
    · rw [prepare_withstands hp hprepare]
      simp only [Handles, hprepare]
    · rw [packet_withstands hp hbeat hprepare]
      simp only [Handles]

end

/-- What is asked of the handling of a datagram, with any other events between the datagrams. -/
def WithstandsEvent (i : Inner) : InnerEvent → Prop
  | .tcpmig ipv4Hdr buf => i.Withstands ipv4Hdr buf
  | _ => True

/-- A datagram that parses meets the condition. -/
def HandlesEvent (i : Inner) : InnerEvent → Prop
  | .tcpmig ipv4Hdr buf => ∀ hdr payload, TcpMigHeader.parse ipv4Hdr buf = .ok (hdr, payload) → i.Handles hdr payload
  | _ => True

theorem withstandsEvent_iff (i : Inner) (e : InnerEvent) : i.WithstandsEvent e ↔ i.HandlesEvent e := by
  cases e with
  | tcpmig ipv4Hdr buf =>
    show i.Withstands ipv4Hdr buf ↔ ∀ hdr payload, _ → _
    cases hp : TcpMigHeader.parse ipv4Hdr buf with
    | error e => exact iff_of_true (withstands_of_error hp) fun _ _ h => (by cases h)
    | ok parsed =>
      obtain ⟨hdr, payload⟩ := parsed
      rw [withstands_iff_handles hp]
      exact ⟨fun h _ _ heq => by cases heq; exact h, fun h => h hdr payload rfl⟩
  | _ => exact Iff.rfl

end Inner

/-- No datagram of a run makes the server panic, and those that are refused or match no migration change no table,
exactly if the server meets the condition for each of them when it comes. -/
theorem tcpmigDatagrams_withstand_iff (i : Inner) (events : List InnerEvent) :
    Admits Inner.step Inner.WithstandsEvent i events ↔ Admits Inner.step Inner.HandlesEvent i events :=
  admits_congr Inner.withstandsEvent_iff

/-- PREPARE_MIGRATION from the other server. -/
def samplePrepare : TcpMigHeader :=
  ⟨⟨⟨10, 0, 1, 9⟩, 10000⟩, ⟨⟨10, 0, 1, 7⟩, 201⟩, 28, 0, false, false, .prepareMigration, 10000, 10001⟩

/-- A target accepts PREPARE_MIGRATION, and panics when the datagram comes a second time. -/
theorem tcpmigDatagrams_withstand_iff_twice : ∃ ipv4Hdr buf i,
    TcpMigHeader.parse ipv4Hdr buf = .ok (samplePrepare, []) ∧
    Inner.step (sampleServer [50000]) (.tcpmig ipv4Hdr buf) = some i ∧ i.receiveTcpmig ipv4Hdr buf = none ∧
    ¬Admits Inner.step Inner.WithstandsEvent (sampleServer [50000]) [.tcpmig ipv4Hdr buf, .tcpmig ipv4Hdr buf] := by
  obtain ⟨ipv4Hdr, hipv4⟩ : ∃ ipv4Hdr, ipv4Hdr = Ipv4Header.new ⟨10, 0, 1, 9⟩ ⟨10, 0, 1, 8⟩ .udp := ⟨_, rfl⟩
  obtain ⟨buf, hbuf⟩ : ∃ buf, buf = samplePrepare.serialize ipv4Hdr [] := ⟨_, rfl⟩
  have hfirst : (Inner.step (sampleServer [50000]) (.tcpmig ipv4Hdr buf)).isSome = true := by
    subst hbuf hipv4
    rfl
  have htwice : (Inner.step (sampleServer [50000]) (.tcpmig ipv4Hdr buf)).bind
      (fun i => i.receiveTcpmig ipv4Hdr buf) = none := by
    subst hbuf hipv4
    rfl
  obtain ⟨i, hi⟩ := Option.isSome_iff_exists.mp hfirst
  rw [hi, Option.bind_some] at htwice
  refine ⟨ipv4Hdr, buf, i, ?_, hi, htwice, fun h => ?_⟩
  · have hparse := TcpMigHeader.parse_serialize samplePrepare ipv4Hdr []
    rwa [List.append_nil, ← hbuf] at hparse
  · exact Inner.not_withstands htwice (h.2 i hi).1

end Capybara
