import Capybara.Peer

namespace Capybara

namespace Inner

/-- Takes a connection out of all tables; its descriptor stays, marked as migrated out. -/
def migrateOutConnection (i : Inner) (qd : QDesc) : Option (TcpState × Inner) :=
  match i.sockets.get qd with
  | some (.established local_ remote) => do
    let _ ← i.qds.get (local_, remote)
    let s ← i.established.get (local_, remote)
    let cb ← s.cb.toState
    some (⟨cb, .none⟩, { i with
      sockets := i.sockets.insert qd (.migratedOut local_ remote)
      qds := i.qds.remove (local_, remote)
      established := i.established.remove (local_, remote) })
  | _ => none

def migrateInConnection (i : Inner) (state : TcpState) : Option (Except Fail Unit × Inner) :=
  let cb := ControlBlock.fromState i.tcpConfig.ackDelayTimeout state.cb
  match i.passive.get cb.local_ with
  | some passive => do
    let passive ← passive.pushMigratedIn cb
    some (.ok (), { i with passive := i.passive.insert cb.local_ passive })
  | none => some (.error ⟨.EBADF, "socket not listening"⟩, i)

/-- A migration begins: the statistics of the connection stop and PREPARE_MIGRATION goes out. -/
def startMigration (i : Inner) (conn : Endpoints) (qd : QDesc) : Option Inner := do
  let s ← i.established.get conn
  let tcpmig ← i.tcpmig.initiateMigration conn qd
  some { i.setEstablished conn { s with cb := s.cb.disableStats } with tcpmig := tcpmig }

def initiateMigrationByAddr (i : Inner) (conn : Endpoints) : Option Inner := do
  let qd ← i.qds.get conn
  i.startMigration conn qd

def initiateMigrationByQd (i : Inner) (qd : QDesc) : Option (Except Fail Unit × Inner) :=
  match i.sockets.get qd with
  | none => some (.error ⟨.EBADF, "socket does not exist"⟩, i)
  | some (.established local_ remote) => do
    let i ← i.startMigration (local_, remote) qd
    some (.ok (), i)
  | some _ => some (.error ⟨.EBADF, "unsupported socket variant for migrating out"⟩, i)

/-- The statistics of a connection whose migration was rejected go on. -/
def resumeStats (i : Inner) (conn : Endpoints) : Option Inner := do
  let s ← i.established.get conn
  let cb ← s.cb.enableStats
  some (i.setEstablished conn { s with cb := cb })

def updateThreshold (i : Inner) (globalQueueLenSum : Nat) : Inner :=
  let avg := globalQueueLenSum / 2
  { i with recvQueueThreshold := avg + avg >>> 3 }

/-- What a server does on the outcome of a datagram. -/
def actOnStatus (i : Inner) : TcpmigReceiveStatus → Option (Except Fail Unit × Inner)
  | .ok | .migrationCompleted | .sentReject => some (.ok (), i)
  | .rejected local_ remote => (i.resumeStats (local_, remote)).map fun i => (.ok (), i)
  | .returnedBySwitch local_ remote => (i.initiateMigrationByAddr (local_, remote)).map fun i => (.ok (), i)
  | .prepareMigrationAcked qd => do
    let (state, i) ← i.migrateOutConnection qd
    let tcpmig ← i.tcpmig.sendTcpState state
    some (.ok (), { i with tcpmig := tcpmig })
  | .stateReceived state => i.migrateInConnection state
  | .heartbeatResponse globalQueueLenSum => some (.ok (), i.updateThreshold globalQueueLenSum)

def receiveTcpmig (i : Inner) (ipv4Hdr : Ipv4Header) (buf : Buffer) : Option (Except Fail Unit × Inner) := do
  let (result, tcpmig) ← i.tcpmig.receive ipv4Hdr buf
  let i := { i with tcpmig := tcpmig }
  match result with
  | .error e => some (.error e, i)
  | .ok status => i.actOnStatus status

/-- The remote end of an established socket; any other descriptor is a panic. -/
def remoteOf (i : Inner) (qd : QDesc) : Option SocketAddrV4 :=
  match i.sockets.get qd with
  | some (.established _ remote) => some remote
  | _ => none

def registerApplicationState (i : Inner) (qd : QDesc) (state : ApplicationState) : Option Inner := do
  let remote ← i.remoteOf qd
  some { i with tcpmig := i.tcpmig.registerApplicationState remote state }

def getMigratedApplicationState (i : Inner) (decode : Buffer → ApplicationState) (qd : QDesc) :
    Option (Option ApplicationState × Inner) := do
  let remote ← i.remoteOf qd
  let (state, tcpmig) := i.tcpmig.getMigratedApplicationState decode remote
  some (state, { i with tcpmig := tcpmig })

end Inner

/-- The calls, datagrams and tasks that a server handles one after the other. -/
inductive InnerEvent
  | doSocket (qd : QDesc)
  | bind (qd : QDesc) (addr : SocketAddrV4)
  | listen (qd : QDesc) (backlog : Nat) (nonce : UInt32)
  | pollAccept (qd newQd : QDesc) (env : Nat → Env)
  | connect (qd : QDesc) (remote : SocketAddrV4)
  | pollConnectFinished (qd : QDesc)
  | pollRecv (qd : QDesc)
  | send (qd : QDesc) (buf : Buffer) (env : Env)
  | doClose (qd : QDesc) (env : Env)
  | segment (srcAddr dstAddr : Ipv4Addr) (header : TcpHeader) (data : Buffer) (env : Env)
  | task (key : Endpoints) (task : SocketTask) (env : Env)
  | handshakeTimeout (key : Endpoints)
  | tcpmig (ipv4Hdr : Ipv4Header) (buf : Buffer)
  | initiateByAddr (conn : Endpoints)
  | initiateByQd (qd : QDesc)
  | registerState (qd : QDesc) (state : ApplicationState)
  | takeState (decode : Buffer → ApplicationState) (qd : QDesc)

/-- The server after an event; `none` is a panic, after which there is no server. -/
def Inner.step (i : Inner) : InnerEvent → Option Inner
  | .doSocket qd => some (i.doSocket qd).2
  | .bind qd addr => some (i.bind qd addr).2
  | .listen qd backlog nonce => some (i.listen qd backlog nonce).2
  | .pollAccept qd newQd env => (i.pollAccept qd newQd env).map Prod.snd
  | .connect qd remote => (i.connect qd remote).map Prod.snd
  | .pollConnectFinished qd => (i.pollConnectFinished qd).map Prod.snd
  | .pollRecv qd => some (i.pollRecv qd).2
  | .send qd buf env => (i.send qd buf env).map Prod.snd
  | .doClose qd env => (i.doClose qd env).map Prod.snd
  | .segment srcAddr dstAddr header data env => (i.receive srcAddr dstAddr header data env).map Prod.snd
  | .task key task env => i.runTask key task env
  | .handshakeTimeout key => some (i.handshakeTimeout key)
  | .tcpmig ipv4Hdr buf => (i.receiveTcpmig ipv4Hdr buf).map Prod.snd
  | .initiateByAddr conn => i.initiateMigrationByAddr conn
  | .initiateByQd qd => (i.initiateMigrationByQd qd).map Prod.snd
  | .registerState qd state => i.registerApplicationState qd state
  | .takeState decode qd => (i.getMigratedApplicationState decode qd).map Prod.snd

end Capybara
