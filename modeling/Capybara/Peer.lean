import Capybara.ActiveOpen
import Capybara.TcpMigPeer

namespace Capybara

def Ipv4Addr.isBroadcast (addr : Ipv4Addr) : Bool := addr = ⟨255, 255, 255, 255⟩

def Ipv4Addr.isMulticast (addr : Ipv4Addr) : Bool := 224 ≤ addr.a ∧ addr.a ≤ 239

def Ipv4Addr.isUnspecified (addr : Ipv4Addr) : Bool := addr = ⟨0, 0, 0, 0⟩

def firstPrivatePort : UInt16 := 49152

def lastPrivatePort : UInt16 := 65535

/-- The pool of free ports; ports are taken from its end. -/
structure EphemeralPorts where
  ports : List UInt16
  deriving DecidableEq, Repr

namespace EphemeralPorts

/-- The private ports in their order; the last one is left out. -/
def privatePorts : List UInt16 :=
  (List.range' firstPrivatePort.toNat (lastPrivatePort.toNat - firstPrivatePort.toNat)).map .ofNat

/-- The pool that a peer starts with; `coreId` is the number in the environment variable CORE_ID, if it is set. -/
def new (shuffle : List UInt16 → List UInt16) (coreId : Option UInt16) : Option EphemeralPorts :=
  match coreId with
  | none => some ⟨shuffle privatePorts⟩
  | some id => if 9999 + id.toNat < 2 ^ 16 then some ⟨shuffle privatePorts ++ [9999 + id]⟩ else none

def isPrivate (port : UInt16) : Bool := firstPrivatePort ≤ port

def allocAny (p : EphemeralPorts) : Except Fail (UInt16 × EphemeralPorts) :=
  match p.ports.getLast? with
  | some port => .ok (port, ⟨p.ports.dropLast⟩)
  | none => .error ⟨.EADDRINUSE, "all port numbers in the ephemeral port range are currently in use"⟩

def allocPort (p : EphemeralPorts) (port : UInt16) : Except Fail EphemeralPorts :=
  if port ∈ p.ports then .ok ⟨p.ports.filter (· ≠ port)⟩ else .error ⟨.ENOENT, "port number not found"⟩

def free (p : EphemeralPorts) (port : UInt16) : EphemeralPorts := ⟨p.ports ++ [port]⟩

end EphemeralPorts

inductive Socket
  | inactive (local_ : Option SocketAddrV4)
  | listening (local_ : SocketAddrV4)
  | connecting (local_ remote : SocketAddrV4)
  | established (local_ remote : SocketAddrV4)
  | migratedOut (local_ remote : SocketAddrV4)
  deriving DecidableEq, Repr

/-- The address that a socket keeps others from binding to. -/
def Socket.bound : Socket → Option SocketAddrV4
  | .inactive local_ => local_
  | .listening local_ | .connecting local_ _ | .established local_ _ => some local_
  | .migratedOut _ _ => none

/-- The TCP state of one server. `rt` keeps the segments that it sends itself; those of a connection are kept in its
control block. -/
structure Inner where
  isnGenerator : IsnGenerator
  ephemeralPorts : EphemeralPorts
  sockets : HashMap QDesc Socket
  qds : HashMap Endpoints QDesc
  passive : HashMap SocketAddrV4 PassiveSocket
  connecting : HashMap Endpoints ActiveOpenSocket
  established : HashMap Endpoints EstablishedSocket
  localIpv4Addr : Ipv4Addr
  tcpConfig : TcpConfig
  tcpmig : TcpMigPeer
  recvQueueThreshold : Nat
  rt : List TcpSegment

/-- The background tasks of an established connection. -/
inductive SocketTask
  | background
  | retransmitTimer
  | fastRetransmit
  | ackTimer
  | persistTimer
  deriving DecidableEq, Repr

def EstablishedSocket.runTask (s : EstablishedSocket) (task : SocketTask) (env : Env) : Option EstablishedSocket :=
  match task with
  | .background => s.background env
  | .retransmitTimer => s.retransmitTimer env
  | .fastRetransmit => s.fastRetransmit env
  | .ackTimer => s.ackTimer env
  | .persistTimer => s.persistTimer

/-- Receives buffered segments in their order; `env n` is what the n-th one meets. -/
def ControlBlock.receiveAll : ControlBlock → List (TcpHeader × Buffer) → (Nat → Env) → Option ControlBlock
  | cb, [], _ => some cb
  | cb, (header, data) :: rest, env => do
    let cb ← cb.receive header data (env 0)
    cb.receiveAll rest fun n => env (n + 1)

namespace Inner

def new (crc : Buffer → UInt32) (nonce : UInt32) (ephemeralPorts : EphemeralPorts) (localLinkAddr : MacAddress)
    (localIpv4Addr : Ipv4Addr) (tcpConfig : TcpConfig) (recvQueueThreshold : Nat) : Inner where
  isnGenerator := .new crc nonce
  ephemeralPorts := ephemeralPorts
  sockets := ∅
  qds := ∅
  passive := ∅
  connecting := ∅
  established := ∅
  localIpv4Addr := localIpv4Addr
  tcpConfig := tcpConfig
  tcpmig := .new localLinkAddr localIpv4Addr
  recvQueueThreshold := recvQueueThreshold
  rt := []

def setSocket (i : Inner) (qd : QDesc) (socket : Socket) : Inner := { i with sockets := i.sockets.insert qd socket }

def setEstablished (i : Inner) (key : Endpoints) (s : EstablishedSocket) : Inner :=
  { i with established := i.established.insert key s }

def doSocket (i : Inner) (qd : QDesc) : Except Fail Unit × Inner :=
  match i.sockets.get qd with
  | none => (.ok (), i.setSocket qd (.inactive none))
  | some _ => (.error ⟨.EBUSY, "queue descriptor in use"⟩, i)

/-- The port of a bind, taken from the pool if it is a private one or a wildcard. -/
def bindPort (i : Inner) (addr : SocketAddrV4) : Except Fail (SocketAddrV4 × EphemeralPorts) := do
  let ports ← if EphemeralPorts.isPrivate addr.port then i.ephemeralPorts.allocPort addr.port else .ok i.ephemeralPorts
  if addr.port = 0 then
    let (port, ports) ← ports.allocAny
    return ({ addr with port := port }, ports)
  return (addr, ports)

/-- Gives the port of a failed bind back to the pool if it is a private one. -/
def rollbackPort (i : Inner) (addr : SocketAddrV4) : Inner :=
  if EphemeralPorts.isPrivate addr.port then { i with ephemeralPorts := i.ephemeralPorts.free addr.port } else i

def bind (i : Inner) (qd : QDesc) (addr : SocketAddrV4) : Except Fail Unit × Inner :=
  if i.sockets.any fun socket => socket.bound = some addr then
    (.error ⟨.EADDRINUSE, "address already in use"⟩, i)
  else
    match i.bindPort addr with
    | .error e => (.error e, i)
    | .ok (addr, ports) =>
      let i := { i with ephemeralPorts := ports, tcpmig := i.tcpmig.setPort addr.port }
      match i.sockets.get qd with
      | some (.inactive none) => (.ok (), i.setSocket qd (.inactive (some addr)))
      | some (.inactive (some _)) =>
        (.error ⟨.EINVAL, "socket is already bound to an address"⟩, i.rollbackPort addr)
      | _ => (.error ⟨.EBADF, "invalid queue descriptor"⟩, i.rollbackPort addr)

def listen (i : Inner) (qd : QDesc) (backlog : Nat) (nonce : UInt32) : Except Fail Unit × Inner :=
  match i.sockets.get qd with
  | some (.inactive (some local_)) =>
    match i.passive.get local_ with
    | some _ =>
      (.error ⟨.EADDRINUSE, "another socket is already listening on the same address/port pair"⟩, i)
    | none =>
      let socket := PassiveSocket.new local_ backlog i.tcpConfig i.isnGenerator.crc nonce
      (.ok (), { i with passive := i.passive.insert local_ socket }.setSocket qd (.listening local_))
  | some (.listening _) => (.error ⟨.EINVAL, "socket is already listening"⟩, i)
  | some (.inactive none) => (.error ⟨.EDESTADDRREQ, "socket is not bound to a local address"⟩, i)
  | some (.connecting _ _) => (.error ⟨.EINVAL, "socket is connecting"⟩, i)
  | some (.established _ _) => (.error ⟨.EINVAL, "socket is connected"⟩, i)
  | some (.migratedOut _ _) | none => (.error ⟨.EBADF, "invalid queue descriptor"⟩, i)

/-- A connection gets its descriptor in all tables; the descriptor may be one of a connection that migrated out. -/
def installAccepted (i : Inner) (key : Endpoints) (newQd : QDesc) (cb : ControlBlock) : Option Inner :=
  match i.sockets.get newQd, i.qds.get key, i.established.get key with
  | none, none, none | some (.migratedOut _ _), none, none =>
    some ({ i with qds := i.qds.insert key newQd }.setSocket newQd (.established key.1 key.2)
      |>.setEstablished key ⟨cb, .top⟩)
  | _, _, _ => none

/-- The rest of an accept, from the control block on: the buffered segments, the statistics and the tables. -/
def accept (i : Inner) (local_ : SocketAddrV4) (newQd : QDesc) (cb : ControlBlock) (env : Nat → Env) :
    Option Inner := do
  let remote := cb.remote
  let (buffered, tcpmig) := i.tcpmig.closeActiveMigration remote
  let cb ← cb.receiveAll (buffered.getD []) env
  let cb ← cb.enableStats
  { i with tcpmig := tcpmig }.installAccepted (local_, remote) newQd cb

/-- The outer `none` is a panic, the inner one a poll that is still pending. -/
def pollAccept (i : Inner) (qd newQd : QDesc) (env : Nat → Env) : Option (Option (Except Fail QDesc) × Inner) :=
  match i.sockets.get qd with
  | some (.listening local_) => do
    let passive ← i.passive.get local_
    let (r, passive) ← passive.pollAccept
    let i := { i with passive := i.passive.insert local_ passive }
    match r with
    | none => some (none, i)
    | some (.error e) => some (some (.error e), i)
    | some (.ok cb) =>
      let i ← i.accept local_ newQd cb env
      some (some (.ok newQd), i)
  | some _ => some (some (.error ⟨.EOPNOTSUPP, "socket not listening"⟩), i)
  | none => some (some (.error ⟨.EBADF, "bad file descriptor"⟩), i)

/-- A second connection attempt for the same pair replaces the first one before it is refused. -/
def startConnecting (i : Inner) (qd : QDesc) (local_ remote : SocketAddrV4) : Option (Except Fail Unit × Inner) := do
  let i := i.setSocket qd (.connecting local_ remote)
  let (localIsn, isnGenerator) ← i.isnGenerator.generate local_ remote
  let socket := ActiveOpenSocket.new localIsn local_ remote i.tcpConfig
  let old := i.connecting.get (local_, remote)
  let i := { i with
    isnGenerator := isnGenerator
    connecting := i.connecting.insert (local_, remote) socket }
  match old with
  | some _ => some (.error ⟨.EALREADY, "socket is connecting"⟩, i)
  | none => some (.ok (), i)

def connect (i : Inner) (qd : QDesc) (remote : SocketAddrV4) : Option (Except Fail Unit × Inner) :=
  match i.sockets.get qd with
  | some (.inactive none) =>
    match i.ephemeralPorts.allocAny with
    | .error e => some (.error e, i)
    | .ok (port, ports) => { i with ephemeralPorts := ports }.startConnecting qd ⟨i.localIpv4Addr, port⟩ remote
  | some (.inactive (some local_)) => i.startConnecting qd local_ remote
  | some (.connecting _ _) => some (.error ⟨.EALREADY, "socket is connecting"⟩, i)
  | some (.established _ _) => some (.error ⟨.EISCONN, "socket is connected"⟩, i)
  | _ => some (.error ⟨.EBADF, "invalid queue descriptor"⟩, i)

/-- A finished handshake fills `established` and `sockets`, but not `qds`. -/
def installConnected (i : Inner) (key : Endpoints) (qd : QDesc) (cb : ControlBlock) : Option Inner :=
  match i.established.get key with
  | some _ => none
  | none => some ((i.setEstablished key ⟨cb, .top⟩).setSocket qd (.established key.1 key.2))

/-- The outer `none` is a panic, the inner one a poll that is still pending. -/
def pollConnectFinished (i : Inner) (qd : QDesc) : Option (Option (Except Fail Unit) × Inner) :=
  match i.sockets.get qd with
  | some (.connecting local_ remote) =>
    match i.connecting.get (local_, remote) with
    | none => some (some (.error ⟨.EAGAIN, "socket not connecting"⟩), i)
    | some socket =>
      match socket.pollResult with
      | (none, socket) => some (none, { i with connecting := i.connecting.insert (local_, remote) socket })
      | (some r, _) =>
        let i := { i with connecting := i.connecting.remove (local_, remote) }
        match r with
        | .error e => some (some (.error e), i)
        | .ok cb => do
          let i ← i.installConnected (local_, remote) qd cb
          some (some (.ok ()), i)
  | some _ => some (some (.error ⟨.EAGAIN, "socket not connecting"⟩), i)
  | none => some (some (.error ⟨.EBADF, "bad queue descriptor"⟩), i)

def pollRecv (i : Inner) (qd : QDesc) : Option (Except Fail Buffer) × Inner :=
  match i.sockets.get qd with
  | some (.established local_ remote) =>
    match i.established.get (local_, remote) with
    | some s =>
      let (buf, cb) := s.cb.pollRecv
      (buf.map .ok, i.setEstablished (local_, remote) { s with cb := cb })
    | none => (some (.error ⟨.ENOTCONN, "connection not established"⟩), i)
  | some (.connecting _ _) => (some (.error ⟨.EINPROGRESS, "socket connecting"⟩), i)
  | some (.inactive _) => (some (.error ⟨.EBADF, "socket inactive"⟩), i)
  | some (.listening _) => (some (.error ⟨.ENOTCONN, "socket listening"⟩), i)
  | some (.migratedOut _ _) => (some (.error ⟨.ETCPMIG, "socket migrated out"⟩), i)
  | none => (some (.error ⟨.EBADF, "bad queue descriptor"⟩), i)

def send (i : Inner) (qd : QDesc) (buf : Buffer) (env : Env) : Option (Except Fail Unit × Inner) :=
  match i.sockets.get qd with
  | some (.established local_ remote) =>
    match i.established.get (local_, remote) with
    | some s => do
      let (result, cb) ← s.cb.send buf env
      some (result, i.setEstablished (local_, remote) { s with cb := cb })
    | none => some (.error ⟨.ENOTCONN, "connection not established"⟩, i)
  | some (.migratedOut _ _) => some (.error ⟨.ETCPMIG, "socket migrated out"⟩, i)
  | some _ => some (.error ⟨.ENOTCONN, "connection not established"⟩, i)
  | none => some (.error ⟨.EBADF, "bad queue descriptor"⟩, i)

/-- Only the descriptor goes away; the connection stays in `established` and `qds`. -/
def doClose (i : Inner) (qd : QDesc) (env : Env) : Option (Except Fail Unit × Inner) :=
  let removed := { i with sockets := i.sockets.remove qd }
  match i.sockets.get qd with
  | some (.established local_ remote) =>
    match i.established.get (local_, remote) with
    | some s => do
      let (result, cb) ← s.cb.close env
      some (result, removed.setEstablished (local_, remote) { s with cb := cb })
    | none => some (.error ⟨.ENOTCONN, "connection not established"⟩, removed)
  | some _ => some (.error ⟨.ENOTSUP, "close not implemented for listening sockets"⟩, removed)
  | none => some (.error ⟨.EBADF, "bad queue descriptor"⟩, i)

def sendRst (i : Inner) (local_ remote : SocketAddrV4) (remoteLinkAddr : Option MacAddress) :
    Except Fail Unit × Inner :=
  match remoteLinkAddr with
  | none => (.error ⟨.EINVAL, "detination not in ARP cache"⟩, i)
  | some remoteLinkAddr =>
    let tcpHdr := { TcpHeader.new local_.port remote.port with rst := true }
    (.ok (), { i with rt := i.rt ++ [⟨remoteLinkAddr, local_.ip, remote.ip, tcpHdr, none⟩] })

/-- A segment that is for no connection yet. -/
def receiveUnknown (i : Inner) (local_ remote : SocketAddrV4) (header : TcpHeader) (data : Buffer) (env : Env) :
    Option (Except Fail Unit × Inner) :=
  match i.tcpmig.tryBufferPacket remote header data with
  | some tcpmig => some (.ok (), { i with tcpmig := tcpmig })
  | none =>
    match i.passive.get local_ with
    | some passive => do
      let (result, passive) ← passive.receive remote.ip header
      some (result, { i with passive := i.passive.insert local_ passive })
    | none => some (i.sendRst local_ remote env.arp)

/-- A segment whose header is parsed already, with the addresses of its datagram. -/
def receive (i : Inner) (srcAddr dstAddr : Ipv4Addr) (header : TcpHeader) (data : Buffer) (env : Env) :
    Option (Except Fail Unit × Inner) :=
  let local_ : SocketAddrV4 := ⟨dstAddr, header.dstPort⟩
  let remote : SocketAddrV4 := ⟨srcAddr, header.srcPort⟩
  if srcAddr.isBroadcast ∨ srcAddr.isMulticast ∨ srcAddr.isUnspecified then
    some (.error ⟨.EINVAL, "invalid address type"⟩, i)
  else
    match i.established.get (local_, remote) with
    | some s => do
      let s ← s.receive header data env
      some (.ok (), i.setEstablished (local_, remote) s)
    | none =>
      match i.connecting.get (local_, remote) with
      | some s => do
        let s ← s.receive header env.arp
        some (.ok (), { i with connecting := i.connecting.insert (local_, remote) s })
      | none => i.receiveUnknown local_ remote header data env

/-- A background task of a connection runs. The scheduler keeps some tasks when their connection has left the tables (those
at the first key of a page); such a task works on a block that no table holds any more, and is not a step of the peer. -/
def runTask (i : Inner) (key : Endpoints) (task : SocketTask) (env : Env) : Option Inner :=
  match i.established.get key with
  | none => some i
  | some s => do
    let s ← s.runTask task env
    some (i.setEstablished key s)

/-- The task that sends the SYNs of a connection attempt gives up. -/
def handshakeTimeout (i : Inner) (key : Endpoints) : Inner :=
  match i.connecting.get key with
  | none => i
  | some s => { i with connecting := i.connecting.insert key s.timeOut }

end Inner

end Capybara
