import Capybara.Peer

namespace Capybara

structure SharedQueueSlot (T : Type) where
  local_ : SocketAddrV4
  remote : SocketAddrV4
  data : T
  deriving DecidableEq, Repr

/-- A queue whose two ends are shared; `channel` holds what is between them, the oldest first. -/
structure SharedQueue (T : Type) where
  channel : List T
  length : Nat
  capacity : Nat
  deriving DecidableEq, Repr

def SharedQueue.new {T : Type} (size : Nat) : SharedQueue T := ⟨[], 0, size⟩

def recvQueueMaxSize : Nat := 1024

/-- The sockets of the UDP peer with their addresses, and the receive queues of the bound addresses. -/
structure UdpPeer where
  ephemeralPorts : EphemeralPorts
  sockets : HashMap QDesc (Option SocketAddrV4)
  bound : HashMap SocketAddrV4 (SharedQueue (SharedQueueSlot Buffer))
  deriving DecidableEq

namespace UdpPeer

def new (ephemeralPorts : EphemeralPorts) : UdpPeer := ⟨ephemeralPorts, ∅, ∅⟩

def doSocket (p : UdpPeer) (qd : QDesc) : Except Fail Unit × UdpPeer :=
  match p.sockets.get qd with
  | none => (.ok (), { p with sockets := p.sockets.insert qd none })
  | some _ => (.error ⟨.EEXIST, "queue descriptor in use"⟩, p)

/-- The port of a bind, taken from the pool if it is a private one or a wildcard. -/
def bindPort (p : UdpPeer) (addr : SocketAddrV4) : Except Fail (SocketAddrV4 × EphemeralPorts) := do
  if EphemeralPorts.isPrivate addr.port then
    return (addr, ← p.ephemeralPorts.allocPort addr.port)
  else if addr.port = 0 then
    let (port, ports) ← p.ephemeralPorts.allocAny
    return ({ addr with port := port }, ports)
  else
    return (addr, p.ephemeralPorts)

/-- An address that turns out to be in use keeps the new queue and the socket its new address. -/
def registerAddr (p : UdpPeer) (qd : QDesc) (addr : SocketAddrV4) : Except Fail Unit × UdpPeer :=
  match p.sockets.get qd with
  | some none =>
    let registered := { p with
      sockets := p.sockets.insert qd (some addr)
      bound := p.bound.insert addr (.new recvQueueMaxSize) }
    if (p.bound.get addr).isSome then (.error ⟨.EADDRINUSE, "address in use"⟩, registered) else (.ok (), registered)
  | _ => (.error ⟨.EBADF, "invalid queue descriptor"⟩, p)

/-- Gives the port of a failed bind back to the pool if it is a private one. -/
def rollbackPort (p : UdpPeer) (addr : SocketAddrV4) : UdpPeer :=
  if EphemeralPorts.isPrivate addr.port then { p with ephemeralPorts := p.ephemeralPorts.free addr.port } else p

def doBind (p : UdpPeer) (qd : QDesc) (addr : SocketAddrV4) : Except Fail Unit × UdpPeer :=
  if (p.bound.get addr).isSome then (.error ⟨.EADDRINUSE, "address in use"⟩, p)
  else
    match p.bindPort addr with
    | .error e => (.error e, p)
    | .ok (addr, ports) =>
      match { p with ephemeralPorts := ports }.registerAddr qd addr with
      | (.ok (), p) => (.ok (), p)
      | (.error e, p) => (.error e, p.rollbackPort addr)

/-- The descriptor is gone whether the call fails or not; a port of the pool does not come back. -/
def doClose (p : UdpPeer) (qd : QDesc) : Except Fail Unit × UdpPeer :=
  match p.sockets.get qd with
  | none => (.error ⟨.EBADF, "invalid queue descriptor"⟩, p)
  | some socket =>
    let p := { p with sockets := p.sockets.remove qd }
    match socket with
    | some local_ =>
      match p.bound.get local_ with
      | some _ => (.ok (), { p with bound := p.bound.remove local_ })
      | none => (.error ⟨.EBADF, "invalid queue descriptor"⟩, p)
    | none => (.error ⟨.EBADF, "invalid queue descriptor"⟩, p)

end UdpPeer

end Capybara
