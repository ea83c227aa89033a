import Capybara.Defragmenter
import Capybara.Migration

namespace Capybara

inductive TcpmigReceiveStatus
  | ok
  | sentReject
  | rejected (local_ remote : SocketAddrV4)
  | returnedBySwitch (local_ remote : SocketAddrV4)
  | prepareMigrationAcked (qd : QDesc)
  | stateReceived (state : TcpState)
  | migrationCompleted
  | heartbeatResponse (globalQueueLenSum : Nat)
  deriving DecidableEq, Repr

def TcpState.setLocal (s : TcpState) (local_ : SocketAddrV4) : TcpState := { s with cb := s.cb.setLocal local_ }

/-- The header of an answer. -/
def nextHeader (hdr : TcpMigHeader) (nextStage : MigrationStage) : TcpMigHeader :=
  { hdr with stage := nextStage }.swapSrcDstPort

structure ActiveMigration where
  localIpv4Addr : Ipv4Addr
  localLinkAddr : MacAddress
  remoteIpv4Addr : Ipv4Addr
  remoteLinkAddr : MacAddress
  selfUdpPort : UInt16
  destUdpPort : UInt16
  origin : SocketAddrV4
  client : SocketAddrV4
  lastSentStage : MigrationStage
  /-- The connection, only on the origin side. -/
  qd : Option QDesc
  recvQueue : List (TcpHeader × Buffer)
  defragmenter : TcpMigDefragmenter
  deriving DecidableEq, Repr

namespace ActiveMigration

def new (localIpv4Addr : Ipv4Addr) (localLinkAddr : MacAddress) (remoteIpv4Addr : Ipv4Addr)
    (remoteLinkAddr : MacAddress) (selfUdpPort destUdpPort : UInt16) (origin client : SocketAddrV4)
    (qd : Option QDesc) : ActiveMigration where
  localIpv4Addr := localIpv4Addr
  localLinkAddr := localLinkAddr
  remoteIpv4Addr := remoteIpv4Addr
  remoteLinkAddr := remoteLinkAddr
  selfUdpPort := selfUdpPort
  destUdpPort := destUdpPort
  origin := origin
  client := client
  lastSentStage := .none
  qd := qd
  recvQueue := []
  defragmenter := .new

/-- A message to the other server, before it is cut into fragments. -/
def message (a : ActiveMigration) (tcpmigHdr : TcpMigHeader) (buf : Buffer) : TcpMigSegment where
  ethernet2Hdr := ⟨a.remoteLinkAddr, a.localLinkAddr, .ipv4⟩
  ipv4Hdr := .new a.localIpv4Addr a.remoteIpv4Addr .udp
  tcpmigHdr := tcpmigHdr
  data := buf

/-- What is handed to the runtime. -/
def send (a : ActiveMigration) (tcpmigHdr : TcpMigHeader) (buf : Buffer) : Option (List TcpMigSegment) :=
  if buf.length / maxFragmentSize > 65535 then none else (a.message tcpmigHdr buf).fragments

/-- What `process_packet` returns, the migration after it, and what it sends. -/
abbrev Outcome := Except Fail TcpmigReceiveStatus × ActiveMigration × List TcpMigSegment

def badMessage (a : ActiveMigration) (cause : String) : Outcome := (.error ⟨.EBADMSG, cause⟩, a, [])

/-- The answer to PREPARE_MIGRATION. -/
def acceptMigration (a : ActiveMigration) (hdr : TcpMigHeader) : Option Outcome := do
  let hdr := { nextHeader hdr .prepareMigrationAck with flagLoad := true }
  let a := { a with lastSentStage := .prepareMigrationAck }
  let out ← a.send hdr []
  some (.ok .ok, a, out)

/-- One fragment of the connection state; the last one to come completes it. -/
def receiveState (a : ActiveMigration) (hdr : TcpMigHeader) (buf : Buffer) : Option Outcome := do
  match ← a.defragmenter.defragment hdr buf with
  | (none, defragmenter) => some (.ok .ok, { a with defragmenter := defragmenter }, [])
  | (some (hdr, buf), defragmenter) =>
    let state ← TcpState.deserialize buf
    let state := state.setLocal ⟨a.localIpv4Addr, a.selfUdpPort⟩
    let a := { a with defragmenter := defragmenter, lastSentStage := .connectionStateAck }
    let out ← a.send (nextHeader hdr .connectionStateAck) []
    some (.ok (.stateReceived state), a, out)

def processPacket (a : ActiveMigration) (hdr : TcpMigHeader) (buf : Buffer) : Option Outcome :=
  match a.lastSentStage with
  | .none =>
    match hdr.stage with
    | .prepareMigration => a.acceptMigration hdr
    | _ => some (a.badMessage "expected PREPARE_MIGRATION")
  | .prepareMigration =>
    match hdr.stage with
    | .prepareMigrationAck => do
      let qd ← a.qd
      some (.ok (.prepareMigrationAcked qd), { a with destUdpPort := hdr.sourceUdpPort }, [])
    | .rejected => some (.ok (.rejected hdr.origin hdr.client), a, [])
    | _ => some (a.badMessage "expected PREPARE_MIGRATION_ACK or REJECTED")
  | .prepareMigrationAck =>
    match hdr.stage with
    | .connectionState => a.receiveState hdr buf
    | _ => some (a.badMessage "expected CONNECTION_STATE")
  | .connectionState =>
    match hdr.stage with
    | .connectionStateAck => some (.ok .migrationCompleted, a, [])
    | _ => some (a.badMessage "expected CONNECTION_STATE_ACK")
  | .connectionStateAck => some (.ok .ok, a, [])
  | .rejected | .heartbeatUpdate | .heartbeatResponse => none

def initiateMigration (a : ActiveMigration) : Option (ActiveMigration × List TcpMigSegment) :=
  if a.lastSentStage = .none then do
    let hdr ← TcpMigHeader.new a.origin a.client 0 .prepareMigration a.selfUdpPort
      (if a.selfUdpPort = 10001 then 10000 else 10001)
    let a := { a with lastSentStage := .prepareMigration }
    let out ← a.send hdr []
    some (a, out)
  else none

def sendConnectionState (a : ActiveMigration) (state : TcpState) : Option (ActiveMigration × List TcpMigSegment) :=
  if a.lastSentStage = .prepareMigration then do
    let buf ← state.serialize
    let hdr ← TcpMigHeader.new a.origin a.client 0 .connectionState a.selfUdpPort a.destUdpPort
    let a := { a with lastSentStage := .connectionState }
    let out ← a.send hdr buf
    some (a, out)
  else none

def bufferPacket (a : ActiveMigration) (tcpHdr : TcpHeader) (data : Buffer) : ActiveMigration :=
  { a with recvQueue := a.recvQueue ++ [(tcpHdr, data)] }

/-- Messages without payload go out as a single fragment. -/
theorem send_empty (a : ActiveMigration) (hdr : TcpMigHeader) :
    a.send hdr [] = some [(a.message hdr []).fragment 0] := by
  have hc : (a.message hdr []).fragmentCount = 1 := by simp [TcpMigSegment.fragmentCount, message, Pieces.count]
  have hf := TcpMigSegment.fragments_eq (s := a.message hdr []) (by rw [hc]; decide)
  rw [hc] at hf
  exact hf

/-- A payload goes out if it is cut into less than `2 ^ 16` fragments. -/
theorem send_isSome_iff (a : ActiveMigration) (hdr : TcpMigHeader) (buf : Buffer) :
    (a.send hdr buf).isSome = true ↔ Pieces.count maxFragmentSize buf.length < 2 ^ 16 := by
  have hfragments := (a.message hdr buf).fragments_isSome_iff
  unfold send
  split
  next hlarge =>
    have hmany : 65535 * maxFragmentSize < buf.length := by
      have hdiv := Nat.div_mul_le_self buf.length maxFragmentSize
      have hpos := TcpMigSegment.maxFragmentSize_pos
      have hstep := Nat.mul_lt_mul_of_pos_right hlarge hpos
      omega
    have hlast := (Pieces.lt_count_iff TcpMigSegment.maxFragmentSize_pos (show 0 < 65535 by omega)).mpr hmany
    constructor
    · intro h
      cases h
    · intro h
      omega
  next => exact hfragments

/-- The fragments that go out make up the payload again. -/
theorem send_data {a : ActiveMigration} {hdr : TcpMigHeader} {buf : Buffer} {out : List TcpMigSegment}
    (h : a.send hdr buf = some out) : (out.map TcpMigSegment.data).flatten = buf := by
  unfold send at h
  split at h
  next => cases h
  next =>
    have hcount := ((a.message hdr buf).fragments_isSome_iff).mp (by rw [h]; rfl)
    rw [TcpMigSegment.fragments_eq hcount] at h
    cases h
    rw [List.map_map]
    exact Pieces.flatten_all TcpMigSegment.maxFragmentSize_pos buf

theorem sendConnectionState_isSome_iff (a : ActiveMigration) (state : TcpState) :
    (a.sendConnectionState state).isSome = true ↔ a.lastSentStage = .prepareMigration ∧ state.cb.Fits ∧
      Pieces.count maxFragmentSize state.serializedSize < 2 ^ 16 := by
  unfold sendConnectionState
  by_cases hstage : a.lastSentStage = .prepareMigration
  swap
  · rw [if_neg hstage]
    exact ⟨fun h => (by cases h), fun h => absurd h.1 hstage⟩
  rw [if_pos hstage]
  by_cases hfits : state.cb.Fits
  swap
  · rw [TcpState.serialize_of_not_fits hfits]
    exact ⟨fun h => (by cases h), fun h => absurd h.2.1 hfits⟩
  rw [TcpState.serialize_of_fits hfits, ← TcpState.length_encode]
  obtain ⟨hdr, hhdr⟩ : ∃ hdr, TcpMigHeader.new a.origin a.client 0 .connectionState a.selfUdpPort a.destUdpPort =
      some hdr := ⟨_, rfl⟩
  have hsend := ({ a with lastSentStage := .connectionState } : ActiveMigration).send_isSome_iff hdr state.encode
  rw [hhdr, Option.bind_eq_bind, Option.bind_some, Option.bind_eq_bind, Option.bind_some, ← hsend]
  dsimp only
  cases ({ a with lastSentStage := .connectionState } : ActiveMigration).send hdr state.encode with
  | none => exact ⟨fun h => (by cases h), fun h => (by cases h.2.2)⟩
  | some out => exact ⟨fun _ => ⟨hstage, hfits, rfl⟩, fun _ => rfl⟩

theorem sendConnectionState_data {a a' : ActiveMigration} {state : TcpState} {out : List TcpMigSegment}
    (h : a.sendConnectionState state = some (a', out)) :
    state.serialize = some (out.map TcpMigSegment.data).flatten := by
  unfold sendConnectionState at h
  split at h
  next =>
    obtain ⟨buf, hbuf, h⟩ := Option.bind_eq_some_iff.mp h
    obtain ⟨hdr, -, h⟩ := Option.bind_eq_some_iff.mp h
    obtain ⟨fragments, hout, h⟩ := Option.bind_eq_some_iff.mp h
    cases h
    rw [hbuf, send_data hout]
  next => cases h

end ActiveMigration

end Capybara
