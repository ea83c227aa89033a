import Capybara.ActiveMigration

namespace Capybara

open Wire

/-- The port before a socket is bound. -/
def defaultUdpPort : UInt16 := 10000

def frontendMac : MacAddress := ⟨0x08, 0xc0, 0xeb, 0xb6, 0xe8, 0x05⟩

def frontendIp : Ipv4Addr := ⟨10, 0, 1, 8⟩

def backendMac : MacAddress := ⟨0x08, 0xc0, 0xeb, 0xb6, 0xc5, 0xad⟩

def backendIp : Ipv4Addr := ⟨10, 0, 1, 9⟩

/-- `rt` keeps what was passed to `rt.transmit`, oldest first. Active migrations and application states are found
by the address of the client. -/
structure TcpMigPeer where
  localLinkAddr : MacAddress
  localIpv4Addr : Ipv4Addr
  activeMigrations : HashMap SocketAddrV4 ActiveMigration
  selfUdpPort : UInt16
  applicationState : HashMap SocketAddrV4 MigratedApplicationState
  rt : List TcpMigSegment

namespace TcpMigPeer

def new (localLinkAddr : MacAddress) (localIpv4Addr : Ipv4Addr) : TcpMigPeer where
  localLinkAddr := localLinkAddr
  localIpv4Addr := localIpv4Addr
  activeMigrations := ∅
  selfUdpPort := defaultUdpPort
  applicationState := ∅
  rt := []

def setPort (p : TcpMigPeer) (port : UInt16) : TcpMigPeer := { p with selfUdpPort := port }

/-- A new active migration, which talks to the other side by way of the switch. -/
def newActive (p : TcpMigPeer) (destUdpPort : UInt16) (origin client : SocketAddrV4) (qd : Option QDesc) :
    ActiveMigration :=
  .new p.localIpv4Addr p.localLinkAddr (if p.localIpv4Addr = frontendIp then backendIp else frontendIp)
    (if p.localLinkAddr = frontendMac then backendMac else frontendMac) p.selfUdpPort destUdpPort origin client qd

def setActive (p : TcpMigPeer) (client : SocketAddrV4) (active : ActiveMigration) (out : List TcpMigSegment) :
    TcpMigPeer :=
  { p with activeMigrations := p.activeMigrations.insert client active, rt := p.rt ++ out }

def removeActive (p : TcpMigPeer) (client : SocketAddrV4) : TcpMigPeer :=
  { p with activeMigrations := p.activeMigrations.remove client }

/-- Application state that came with a connection is kept for the application. -/
def takeAppState (p : TcpMigPeer) (state : TcpState) : TcpState × TcpMigPeer :=
  match state.appState with
  | .migratedIn _ =>
    ({ state with appState := .none },
      { p with applicationState := p.applicationState.insert state.cb.remote state.appState })
  | _ => (state, p)

/-- What follows on the handling of a message by the active migration. -/
def finishPacket (p : TcpMigPeer) (remote : SocketAddrV4) (status : TcpmigReceiveStatus) :
    Option (Except Fail TcpmigReceiveStatus × TcpMigPeer) :=
  match status with
  | .ok | .prepareMigrationAcked _ => some (.ok status, p)
  | .stateReceived state =>
    let (state, p) := p.takeAppState state
    some (.ok (.stateReceived state), p)
  | .migrationCompleted | .rejected _ _ | .sentReject => some (.ok status, p.removeActive remote)
  | .heartbeatResponse _ | .returnedBySwitch _ _ => none

/-- A message for an active migration, which must be there. -/
def processPacket (p : TcpMigPeer) (hdr : TcpMigHeader) (buf : Buffer) :
    Option (Except Fail TcpmigReceiveStatus × TcpMigPeer) := do
  let active ← p.activeMigrations.get hdr.client
  let (result, active, out) ← active.processPacket hdr buf
  let p := p.setActive hdr.client active out
  match result with
  | .error e => some (.error e, p)
  | .ok status => p.finishPacket hdr.client status

/-- The first message that a target receives. An origin gets its own one back from the switch when it is the best
target itself. -/
def receivePrepare (p : TcpMigPeer) (hdr : TcpMigHeader) (buf : Buffer) :
    Option (Except Fail TcpmigReceiveStatus × TcpMigPeer) :=
  let inserted := p.setActive hdr.client (p.newActive hdr.origin.port hdr.origin hdr.client none) []
  match p.activeMigrations.get hdr.client with
  | some _ => some (.ok (.returnedBySwitch hdr.origin hdr.client), inserted.removeActive hdr.client)
  | none => inserted.processPacket hdr buf

def receiveMessage (p : TcpMigPeer) (hdr : TcpMigHeader) (buf : Buffer) :
    Option (Except Fail TcpmigReceiveStatus × TcpMigPeer) :=
  match hdr.stage with
  | .heartbeatResponse =>
    if buf.length < 4 then none else some (.ok (.heartbeatResponse (u32At buf 0).toNat), p)
  | .prepareMigration => p.receivePrepare hdr buf
  | _ => p.processPacket hdr buf

/-- Consumes a datagram. -/
def receive (p : TcpMigPeer) (ipv4Hdr : Ipv4Header) (buf : Buffer) :
    Option (Except Fail TcpmigReceiveStatus × TcpMigPeer) :=
  match TcpMigHeader.parse ipv4Hdr buf with
  | .error e => some (.error e, p)
  | .ok (hdr, buf) => p.receiveMessage hdr buf

def initiateMigration (p : TcpMigPeer) (conn : Endpoints) (qd : QDesc) : Option TcpMigPeer :=
  match p.activeMigrations.get conn.2 with
  | some _ => none
  | none => do
    let active := p.newActive (if p.selfUdpPort = 10001 then 10000 else 10001) conn.1 conn.2 (some qd)
    let (active, out) ← active.initiateMigration
    some (p.setActive conn.2 active out)

/-- A registered application state goes with the connection. -/
def addAppState (p : TcpMigPeer) (state : TcpState) : TcpState :=
  match p.applicationState.get state.cb.remote with
  | some (.registered appState) => { state with appState := .registered appState }
  | _ => state

def sendTcpState (p : TcpMigPeer) (state : TcpState) : Option TcpMigPeer := do
  let remote := state.cb.remote
  let state := p.addAppState state
  let p := { p with applicationState := p.applicationState.remove remote }
  let active ← p.activeMigrations.get remote
  let (active, out) ← active.sendConnectionState state
  some (p.setActive remote active out)

/-- `none` if the segment is not for a migrating client and was not buffered. -/
def tryBufferPacket (p : TcpMigPeer) (remote : SocketAddrV4) (tcpHdr : TcpHeader) (data : Buffer) :
    Option TcpMigPeer :=
  (p.activeMigrations.get remote).map fun active => p.setActive remote (active.bufferPacket tcpHdr data) []

/-- The segments buffered for the migrated connection, if it is one. -/
def closeActiveMigration (p : TcpMigPeer) (remote : SocketAddrV4) :
    Option (List (TcpHeader × Buffer)) × TcpMigPeer :=
  ((p.activeMigrations.get remote).map ActiveMigration.recvQueue, p.removeActive remote)

def registerApplicationState (p : TcpMigPeer) (remote : SocketAddrV4) (state : ApplicationState) : TcpMigPeer :=
  { p with applicationState := p.applicationState.insert remote (.registered state) }

/-- Takes the entry out, and puts it back as registered if it was migrated in. -/
def getMigratedApplicationState (p : TcpMigPeer) (decode : Buffer → ApplicationState) (remote : SocketAddrV4) :
    Option ApplicationState × TcpMigPeer :=
  let taken := { p with applicationState := p.applicationState.remove remote }
  match p.applicationState.get remote with
  | some (.migratedIn buf) => (some (decode buf), taken.registerApplicationState remote (decode buf))
  | _ => (none, taken)

end TcpMigPeer

end Capybara
