import Capybara.PortRuns
import Capybara.SharedQueue
import Capybara.UdpDatagrams

namespace Capybara

def Ipv4Addr.unspecified : Ipv4Addr := ⟨0, 0, 0, 0⟩

def sendQueueMaxSize : Nat := 1024

/-- A channel has one more place than its size for each of its senders, and a shared queue has one sender. -/
def SharedQueueEnds.sized {T : Type} (size : Nat) : SharedQueueEnds T := .new size (size + 1)

/-- Where the background coroutine stands: it waits for a datagram, or for the link address for one. -/
inductive UdpSender
  | popping (state : PopState)
  | resolving (slot : SharedQueueSlot Buffer)
  deriving DecidableEq

structure UdpPopFuture where
  qd : QDesc
  recvQueue : Nat
  deriving DecidableEq, Repr

/-- The UDP peer with the queues that its table of bound addresses shares with the futures of `pop`, and what it has
put on the link. -/
structure UdpHost where
  localLinkAddr : MacAddress
  localIpv4Addr : Ipv4Addr
  checksumOffload : Bool
  ephemeralPorts : EphemeralPorts
  sockets : HashMap QDesc (Option SocketAddrV4)
  bound : HashMap SocketAddrV4 Nat
  queues : List (SharedQueueEnds (SharedQueueSlot Buffer))
  sendQueue : SharedQueueEnds (SharedQueueSlot Buffer)
  background : UdpSender
  transmitted : List Buffer

structure UdpSetup where
  localLinkAddr : MacAddress
  localIpv4Addr : Ipv4Addr
  checksumOffload : Bool
  ephemeralPorts : EphemeralPorts

namespace UdpHost

def new (setup : UdpSetup) : UdpHost where
  localLinkAddr := setup.localLinkAddr
  localIpv4Addr := setup.localIpv4Addr
  checksumOffload := setup.checksumOffload
  ephemeralPorts := setup.ephemeralPorts
  sockets := ∅
  bound := ∅
  queues := []
  sendQueue := .sized sendQueueMaxSize
  background := .popping .created
  transmitted := []

def doSocket (h : UdpHost) (qd : QDesc) : Except Fail Unit × UdpHost :=
  match h.sockets.get qd with
  | none => (.ok (), { h with sockets := h.sockets.insert qd none })
  | some _ => (.error ⟨.EEXIST, "queue descriptor in use"⟩, h)

def registerAddr (h : UdpHost) (qd : QDesc) (addr : SocketAddrV4) : Except Fail Unit × UdpHost :=
  match h.sockets.get qd with
  | some none =>
    let registered := { h with
      sockets := h.sockets.insert qd (some addr)
      bound := h.bound.insert addr h.queues.length
      queues := h.queues ++ [.sized recvQueueMaxSize] }
    if (h.bound.get addr).isSome then (.error ⟨.EADDRINUSE, "address in use"⟩, registered) else (.ok (), registered)
  | _ => (.error ⟨.EBADF, "invalid queue descriptor"⟩, h)

def rollbackPort (h : UdpHost) (addr : SocketAddrV4) : UdpHost :=
  if EphemeralPorts.isPrivate addr.port then { h with ephemeralPorts := h.ephemeralPorts.free addr.port } else h

def doBind (h : UdpHost) (qd : QDesc) (addr : SocketAddrV4) : Except Fail Unit × UdpHost :=
  if (h.bound.get addr).isSome then (.error ⟨.EADDRINUSE, "address in use"⟩, h)
  else
    match (UdpPeer.new h.ephemeralPorts).bindPort addr with
    | .error e => (.error e, h)
    | .ok (addr, ports) =>
      match { h with ephemeralPorts := ports }.registerAddr qd addr with
      | (.ok (), h) => (.ok (), h)
      | (.error e, h) => (.error e, h.rollbackPort addr)

def doClose (h : UdpHost) (qd : QDesc) : Except Fail Unit × UdpHost :=
  match h.sockets.get qd with
  | none => (.error ⟨.EBADF, "invalid queue descriptor"⟩, h)
  | some socket =>
    let h := { h with sockets := h.sockets.remove qd }
    match socket with
    | some local_ =>
      match h.bound.get local_ with
      | some _ => (.ok (), { h with bound := h.bound.remove local_ })
      | none => (.error ⟨.EBADF, "invalid queue descriptor"⟩, h)
    | none => (.error ⟨.EBADF, "invalid queue descriptor"⟩, h)

def datagram (h : UdpHost) (linkAddr : MacAddress) (slot : SharedQueueSlot Buffer) : UdpDatagram :=
  .sent h.localIpv4Addr h.localLinkAddr linkAddr slot.local_ slot.remote slot.data h.checksumOffload

/-- The headers are written when the datagram goes out. -/
def doSend (h : UdpHost) (linkAddr : MacAddress) (slot : SharedQueueSlot Buffer) : Option UdpHost := do
  let bytes ← (h.datagram linkAddr slot).frame
  some { h with transmitted := h.transmitted ++ [bytes] }

/-- `linkAddr` is what `try_query` finds in the ARP cache. -/
def doPushto (h : UdpHost) (qd : QDesc) (data : Buffer) (remote : SocketAddrV4) (linkAddr : Option MacAddress) :
    Option (Except Fail Unit × UdpHost) :=
  match h.sockets.get qd with
  | some (some local_) =>
    match linkAddr with
    | some linkAddr => (h.doSend linkAddr ⟨local_, remote, data⟩).map fun h => (.ok (), h)
    | none => (h.sendQueue.push ⟨local_, remote, data⟩).map fun r => (r.1, { h with sendQueue := r.2 })
  | _ => some (.error ⟨.EBADF, "invalid queue descriptor"⟩, h)

/-- A poll of the `pop` of the background coroutine; the loop does not end on a closed channel. -/
def popUnsent (h : UdpHost) (state : PopState) : Option (Option (SharedQueueSlot Buffer) × UdpHost) :=
  match h.sendQueue.pop state with
  | none => none
  | some (none, state, sendQueue) => some (none, { h with sendQueue, background := .popping state })
  | some (some (.ok slot), _, sendQueue) => some (some slot, { h with sendQueue, background := .resolving slot })
  | some (some (.error _), _, _) => none

/-- A datagram whose link address is not found is lost. -/
def resolve (h : UdpHost) (slot : SharedQueueSlot Buffer) : Except Fail MacAddress → Option UdpHost
  | .ok linkAddr => h.doSend linkAddr slot
  | .error _ => some h

/-- The loop of `background_sender`; `answers` is what the ARP peer has ready for the addresses that are looked up in
one poll. -/
def sendLoop : List (Except Fail MacAddress) → PopState → UdpHost → Option UdpHost
  | [], state, h => (h.popUnsent state).map fun r => r.2
  | answer :: answers, state, h =>
    match h.popUnsent state with
    | none => none
    | some (none, h) => some h
    | some (some slot, h) => (h.resolve slot answer).bind (sendLoop answers .created)

def pollBackground (h : UdpHost) (answers : List (Except Fail MacAddress)) : Option UdpHost :=
  match h.background, answers with
  | .popping state, answers => sendLoop answers state h
  | .resolving _, [] => some h
  | .resolving slot, answer :: answers => (h.resolve slot answer).bind (sendLoop answers .created)

/-- The socket has to be bound, and the bound address to have a queue. -/
def doPop (h : UdpHost) (qd : QDesc) : Option UdpPopFuture :=
  match h.sockets.get qd with
  | some (some local_) => (h.bound.get local_).map (UdpPopFuture.mk qd)
  | _ => none

/-- A poll of a future of `pop`. -/
def pollPop (h : UdpHost) (f : UdpPopFuture) : Option (Option (Except Fail (SocketAddrV4 × Buffer)) × UdpHost) := do
  let queue ← h.queues[f.recvQueue]?
  let (result, queue) ← queue.tryPop
  let h := { h with queues := h.queues.set f.recvQueue queue }
  match result with
  | .ok (some msg) => some (some (.ok (msg.remote, msg.data)), h)
  | .ok none => some (none, h)
  | .error e => some (some (.error e), h)

/-- The queue of the address or else of the wildcard address with its port. -/
def recvQueue (h : UdpHost) (local_ : SocketAddrV4) : Option Nat :=
  (h.bound.get local_).orElse fun _ => h.bound.get ⟨.unspecified, local_.port⟩

/-- A refused push fails the `unwrap`. -/
def enqueue (h : UdpHost) (id : Nat) (slot : SharedQueueSlot Buffer) : Option UdpHost := do
  let queue ← h.queues[id]?
  match ← queue.push slot with
  | (.ok (), queue) => some { h with queues := h.queues.set id queue }
  | (.error _, _) => none

def doReceive (h : UdpHost) (ipv4Hdr : Ipv4Header) (buf : Buffer) : Option (Except Fail Unit × UdpHost) := do
  match ← UdpHeader.parse ipv4Hdr buf h.checksumOffload with
  | .error e => some (.error e, h)
  | .ok (hdr, data) =>
    let local_ : SocketAddrV4 := ⟨ipv4Hdr.dstAddr, hdr.destPort⟩
    match h.recvQueue local_ with
    | some id => (h.enqueue id ⟨local_, ⟨ipv4Hdr.srcAddr, hdr.srcPort⟩, data⟩).map fun h => (.ok (), h)
    | none => some (.error ⟨.ENOTCONN, "port not bound"⟩, h)

/-- A frame comes in; what is not for the UDP peer leaves it alone. -/
def arrive (h : UdpHost) (bytes : Buffer) : Option UdpHost :=
  match udpPart bytes with
  | none => some h
  | some (ipv4Hdr, buf) => (h.doReceive ipv4Hdr buf).map fun r => r.2

/-- The address that a socket is bound to. -/
def localAddr (h : UdpHost) (qd : QDesc) : Option SocketAddrV4 := (h.sockets.get qd).bind id

/-- What a bound socket is asked to send. -/
def asked (h : UdpHost) (qd : QDesc) (data : Buffer) (remote : SocketAddrV4) : List (SharedQueueSlot Buffer) :=
  match h.localAddr qd with
  | some local_ => [⟨local_, remote, data⟩]
  | none => []

end UdpHost

/-- A UDP peer with the application on top of it: the futures of `pop`, with the address that the socket was bound to, the
datagrams that bound sockets were asked to send, and what came out of the futures. -/
structure UdpNode where
  host : UdpHost
  pops : List (SocketAddrV4 × Option UdpPopFuture)
  pushed : List (SharedQueueSlot Buffer)
  popped : List (SharedQueueSlot Buffer)

namespace UdpNode

inductive Event
  | doSocket (qd : QDesc)
  | doBind (qd : QDesc) (addr : SocketAddrV4)
  | doClose (qd : QDesc)
  | doPushto (qd : QDesc) (data : Buffer) (remote : SocketAddrV4) (linkAddr : Option MacAddress)
  | pollBackground (answers : List (Except Fail MacAddress))
  | doPop (qd : QDesc)
  | poll (id : Nat)
  | arrive (bytes : Buffer)

def new (setup : UdpSetup) : UdpNode := ⟨.new setup, [], [], []⟩

def doPop (n : UdpNode) (qd : QDesc) : Option UdpNode := do
  let local_ ← n.host.localAddr qd
  let f ← n.host.doPop qd
  some { n with pops := n.pops ++ [(local_, some f)] }

/-- A future is dropped when it has returned. -/
def poll (n : UdpNode) (id : Nat) : Option UdpNode :=
  match n.pops[id]? with
  | some (local_, some f) =>
    match n.host.pollPop f with
    | none => none
    | some (none, host) => some { n with host }
    | some (some (.ok (remote, data)), host) =>
      some { n with host, pops := n.pops.set id (local_, none), popped := n.popped ++ [⟨local_, remote, data⟩] }
    | some (some (.error _), host) => some { n with host, pops := n.pops.set id (local_, none) }
  | _ => some n

def step (n : UdpNode) : Event → Option UdpNode
  | .doSocket qd => some { n with host := (n.host.doSocket qd).2 }
  | .doBind qd addr => some { n with host := (n.host.doBind qd addr).2 }
  | .doClose qd => some { n with host := (n.host.doClose qd).2 }
  | .doPushto qd data remote linkAddr =>
    (n.host.doPushto qd data remote linkAddr).map fun r =>
      { n with host := r.2, pushed := n.pushed ++ n.host.asked qd data remote }
  | .pollBackground answers => (n.host.pollBackground answers).map fun host => { n with host }
  | .doPop qd => n.doPop qd
  | .poll id => n.poll id
  | .arrive bytes => (n.host.arrive bytes).map fun host => { n with host }

end UdpNode

end Capybara
