import Capybara.ControlBlock
import Capybara.Frames

namespace Capybara

open Wire

def fallbackMss : Nat := 536

structure TcpConfig where
  receiveWindowSize : UInt16
  windowScale : UInt8
  ackDelayTimeout : Duration
  deriving DecidableEq, Repr

/-- `checked_shl` on an unsigned type of the given width; bits shifted out are lost. -/
def checkedShl (width value shift : Nat) : Option Nat :=
  if shift < width then some (value * 2 ^ shift % 2 ^ width) else none

/-- The window scale and the MSS among the options of a header; the last one of a kind counts. -/
def TcpHeader.announced (header : TcpHeader) : Option UInt8 × Nat :=
  header.optionList.foldl (fun found option =>
    match option with
    | .windowScale w => (some w, found.2)
    | .maximumSegmentSize m => (found.1, m.toNat)
    | _ => found) (none, fallbackMss)

/-- `crc` is the CRC-32/CKSUM digest of the bytes it is given. -/
structure IsnGenerator where
  crc : Buffer → UInt32
  nonce : UInt32
  counter : UInt16

namespace IsnGenerator

def new (crc : Buffer → UInt32) (nonce : UInt32) : IsnGenerator := ⟨crc, nonce, 0⟩

def generate (g : IsnGenerator) (local_ remote : SocketAddrV4) : Option (SeqNumber × IsnGenerator) := do
  let digest := g.crc (remote.ip.octets ++ be16 remote.port ++ local_.ip.octets ++ be16 local_.port ++ be32 g.nonce)
  let isn ← addU32 digest.toNat g.counter.toNat
  some (.ofNat isn, { g with counter := g.counter + 1 })

end IsnGenerator

structure InflightAccept where
  localIsn : SeqNumber
  remoteIsn : SeqNumber
  headerWindowSize : UInt16
  remoteWindowScale : Option UInt8
  mss : Nat
  deriving DecidableEq, Repr

/-- The control block at the end of the handshake. The peer's window is shifted as a `u16`. -/
def InflightAccept.controlBlock (accept : InflightAccept) (config : TcpConfig) (local_ remote : SocketAddrV4) :
    Option ControlBlock := do
  let (localWindowScale, remoteWindowScale) := match accept.remoteWindowScale with
    | some w => (config.windowScale.toNat, w)
    | none => (0, 0)
  let remoteWindowSize ← checkedShl 16 accept.headerWindowSize.toNat remoteWindowScale.toNat
  let localWindowSize ← checkedShl 32 config.receiveWindowSize.toNat localWindowScale
  some (.new local_ remote (accept.remoteIsn + .ofNat 1) config.ackDelayTimeout (.ofNat localWindowSize)
    (.ofNat localWindowScale) (accept.localIsn + .ofNat 1) (.ofNat remoteWindowSize) remoteWindowScale accept.mss)

structure ReadySockets where
  ready : List (Except Fail ControlBlock)
  endpoints : Finset SocketAddrV4

namespace ReadySockets

def new : ReadySockets := ⟨[], ∅⟩

def pushOk (r : ReadySockets) (cb : ControlBlock) : Option ReadySockets :=
  if cb.remote ∈ r.endpoints then none
  else some ⟨r.ready ++ [.ok cb], insert cb.remote r.endpoints⟩

/-- The outer `none` is a panic, the inner one a poll that is still pending. -/
def poll (r : ReadySockets) : Option (Option (Except Fail ControlBlock) × ReadySockets) :=
  match r.ready with
  | [] => some (none, r)
  | .ok cb :: ready =>
    if cb.remote ∈ r.endpoints then some (some (.ok cb), ⟨ready, r.endpoints.erase cb.remote⟩) else none
  | .error e :: ready => some (some (.error e), { r with ready := ready })

end ReadySockets

/-- The tasks that send the SYN+ACKs are left to the scheduler; they do not write to the socket. -/
structure PassiveSocket where
  inflight : HashMap SocketAddrV4 InflightAccept
  ready : ReadySockets
  maxBacklog : Nat
  isnGenerator : IsnGenerator
  local_ : SocketAddrV4
  tcpConfig : TcpConfig

namespace PassiveSocket

def new (local_ : SocketAddrV4) (maxBacklog : Nat) (tcpConfig : TcpConfig) (crc : Buffer → UInt32) (nonce : UInt32) :
    PassiveSocket where
  inflight := ∅
  ready := .new
  maxBacklog := maxBacklog
  isnGenerator := .new crc nonce
  local_ := local_
  tcpConfig := tcpConfig

def pollAccept (p : PassiveSocket) : Option (Option (Except Fail ControlBlock) × PassiveSocket) := do
  let (r, ready) ← p.ready.poll
  some (r, { p with ready := ready })

def pushMigratedIn (p : PassiveSocket) (cb : ControlBlock) : Option PassiveSocket := do
  let ready ← p.ready.pushOk cb
  some { p with ready := ready }

/-- A segment for a connection whose handshake has begun. -/
def receiveInflight (p : PassiveSocket) (accept : InflightAccept) (remote : SocketAddrV4) (header : TcpHeader) :
    Option (Except Fail Unit × PassiveSocket) :=
  if header.ack = false then some (.error ⟨.EBADMSG, "expeting ACK"⟩, p)
  else if header.ackNum ≠ accept.localIsn + .ofNat 1 then some (.error ⟨.EBADMSG, "invalid SYN+ACK seq num"⟩, p)
  else do
    let cb ← accept.controlBlock p.tcpConfig p.local_ remote
    let ready ← p.ready.pushOk cb
    some (.ok (), { p with inflight := p.inflight.remove remote, ready := ready })

/-- A segment from an endpoint that is not known yet. -/
def receiveSyn (p : PassiveSocket) (remote : SocketAddrV4) (header : TcpHeader) :
    Option (Except Fail Unit × PassiveSocket) :=
  if header.syn = false ∨ header.ack ∨ header.rst then some (.error ⟨.EBADMSG, "invalid flags"⟩, p)
  else if p.inflight.size + p.ready.ready.length ≥ p.maxBacklog then
    some (.error ⟨.ECONNREFUSED, "connection refused"⟩, p)
  else do
    let (localIsn, isnGenerator) ← p.isnGenerator.generate p.local_ remote
    let (remoteWindowScale, mss) := header.announced
    let accept := ⟨localIsn, header.seqNum, header.windowSize, remoteWindowScale, mss⟩
    some (.ok (), { p with inflight := p.inflight.insert remote accept, isnGenerator := isnGenerator })

def receive (p : PassiveSocket) (srcAddr : Ipv4Addr) (header : TcpHeader) :
    Option (Except Fail Unit × PassiveSocket) :=
  let remote : SocketAddrV4 := ⟨srcAddr, header.srcPort⟩
  if remote ∈ p.ready.endpoints then some (.ok (), p)
  else
    match p.inflight.get remote with
    | some accept => p.receiveInflight accept remote header
    | none => p.receiveSyn remote header

end PassiveSocket

end Capybara
