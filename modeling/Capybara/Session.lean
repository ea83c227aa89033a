import Capybara.ActiveOpen
import Capybara.TcpLink

namespace Capybara

/-- The SYN that the background task of a connection attempt sends. -/
def ActiveOpenSocket.syn (s : ActiveOpenSocket) (advertisedMss : UInt16) : TcpHeader :=
  { TcpHeader.new s.local_.port s.remote.port with
    syn := true
    seqNum := s.localIsn
    windowSize := s.tcpConfig.receiveWindowSize
    optionList := [.maximumSegmentSize advertisedMss, .windowScale s.tcpConfig.windowScale] }

/-- The SYN+ACK that the background task of a handshake sends. -/
def PassiveSocket.synAck (p : PassiveSocket) (accept : InflightAccept) (remote : SocketAddrV4)
    (advertisedMss : UInt16) : TcpHeader :=
  { TcpHeader.new p.local_.port remote.port with
    syn := true
    seqNum := accept.localIsn
    ack := true
    ackNum := accept.remoteIsn + SeqNumber.ofNat 1
    windowSize := p.tcpConfig.receiveWindowSize
    optionList := [.maximumSegmentSize advertisedMss, .windowScale p.tcpConfig.windowScale] }

/-- A connection from its first SYN on: the attempt at the client, the listener at the server, which serves others too,
and each end once `connect` or `accept` returned it. `handshakes` keeps the headers of the SYNs, the SYN+ACKs and the
ACKs for these; `past` is what an end has sent from servers it has left. -/
structure Session where
  client : SocketAddrV4
  advertisedMss : UInt16
  opener : Option ActiveOpenSocket
  listener : PassiveSocket
  ends : Side → Option StreamRun
  handshakes : Side → List TcpHeader
  past : Side → List Transmission

inductive SessionEvent
  | sendSyn
  | timeOut
  | pollConnect
  | sendSynAck
  | stranger (srcAddr : Ipv4Addr) (header : TcpHeader)
  | pollAccept
  | arrive (side : Side) (index : Nat) (env : Env)
  | call (side : Side) (e : SocketEvent) (env : Env)
  | migrate (side : Side) (appState : MigratedApplicationState) (local_ : SocketAddrV4) (ackDelayTimeout : Duration)

namespace Session

def start (opener : ActiveOpenSocket) (listener : PassiveSocket) (advertisedMss : UInt16) : Session where
  client := opener.local_
  advertisedMss := advertisedMss
  opener := some opener
  listener := listener
  ends _ := none
  handshakes _ := []
  past _ := []

def sent (s : Session) (side : Side) : List Transmission :=
  s.past side ++ (s.ends side).elim [] fun r => r.cb.rt

/-- All that a side has sent to the other. -/
def segments (s : Session) (side : Side) : List (TcpHeader × Buffer) :=
  (s.handshakes side).map (fun header => (header, [])) ++
    (s.sent side).map fun t => (t.segment.tcpHdr, t.segment.data.getD [])

def say (s : Session) (side : Side) (headers : List TcpHeader) : Session :=
  { s with handshakes := fun other => if other = side then s.handshakes side ++ headers else s.handshakes other }

def set (s : Session) (side : Side) (r : StreamRun) (past : List Transmission) : Session :=
  { s with
    ends := fun other => if other = side then some r else s.ends other
    past := fun other => if other = side then past else s.past other }

/-- The connection of a finished handshake. -/
def open_ (s : Session) (side : Side) (cb : ControlBlock) : Session := s.set side (.start ⟨cb, .top⟩) (s.past side)

/-- `poll_connect_finished` with what the attempt has come to. -/
def finishConnect (s : Session) : Option (Except Fail ControlBlock) × ActiveOpenSocket → Option Session
  | (none, opener) => some { s with opener := some opener }
  | (some (.error _), _) => some { s with opener := none }
  | (some (.ok cb), _) => if (s.ends .client).isSome then none else some ({ s with opener := none }.open_ .client cb)

/-- `poll_accept` with the connection that was ready; it may be one of another client. -/
def finishAccept (s : Session) (cb : ControlBlock) : Option Session := do
  let cb ← cb.enableStats
  if cb.remote ≠ s.client then some s
  else if (s.ends .server).isSome then none
  else some (s.open_ .server cb)

def accepted (s : Session) : Option (Except Fail ControlBlock) → Option Session
  | some (.ok cb) => s.finishAccept cb
  | _ => some s

/-- A segment for the connection attempt, if there still is one. -/
def arriveOpener (s : Session) (header : TcpHeader) (env : Env) : Option Session :=
  match s.opener with
  | none => some s
  | some opener => do
    let opener' ← opener.receive header env.arp
    some ({ s with opener := some opener' }.say .client ((opener'.rt.drop opener.rt.length).map TcpSegment.tcpHdr))

def arriveListener (s : Session) (srcAddr : Ipv4Addr) (header : TcpHeader) : Option Session := do
  let (_, listener) ← s.listener.receive srcAddr header
  some { s with listener := listener }

/-- A segment goes to the open connection, else to the attempt or the listener. -/
def arrive (s : Session) (side : Side) (header : TcpHeader) (data : Buffer) (env : Env) : Option Session :=
  match s.ends side with
  | some r => (r.step (.segment header data, env)).map fun r => s.set side r (s.past side)
  | none =>
    match side with
    | .client => s.arriveOpener header env
    | .server => s.arriveListener s.client.ip header

def call (s : Session) (side : Side) (e : SocketEvent) (env : Env) : Option Session :=
  match e with
  | .segment _ _ => none
  | e => do
    let r ← s.ends side
    let r ← r.step (e, env)
    some (s.set side r (s.past side))

def step (s : Session) : SessionEvent → Option Session
  | .sendSyn => s.opener.map fun opener => s.say .client [opener.syn s.advertisedMss]
  | .timeOut => s.opener.map fun opener => { s with opener := some opener.timeOut }
  | .pollConnect => s.opener.bind fun opener => s.finishConnect opener.pollResult
  | .sendSynAck => (s.listener.inflight.get s.client).map fun accept =>
    s.say .server [s.listener.synAck accept s.client s.advertisedMss]
  | .stranger srcAddr header =>
    if (⟨srcAddr, header.srcPort⟩ : SocketAddrV4) = s.client then none else s.arriveListener srcAddr header
  | .pollAccept => do
    let (result, listener) ← s.listener.pollAccept
    { s with listener := listener }.accepted result
  | .arrive side index env => do
    let segment ← (s.segments side.peer)[index]?
    s.arrive side segment.1 segment.2 env
  | .call side e env => s.call side e env
  | .migrate side appState local_ ackDelayTimeout => do
    let r ← s.ends side
    let socket ← r.conn.socket.migrate appState local_ ackDelayTimeout
    some (s.set side { r with conn := { r.conn with socket := socket } } (s.sent side))

/-- Segments of an open end fit a packet, the end-of-send marker goes out last, and only open connections move. -/
def Sound (s : Session) : SessionEvent → Prop
  | .arrive side index env => ∀ r, s.ends side = some r → ∀ segment, (s.segments side.peer)[index]? = some segment →
    r.conn.FitsPacket (.segment segment.1 segment.2, env) ∧ r.conn.SendsFinLast (.segment segment.1 segment.2, env)
  | .call side e env => ∀ r, s.ends side = some r → r.conn.FitsPacket (e, env) ∧ r.conn.SendsFinLast (e, env)
  | .migrate side _ _ _ => ∀ r, s.ends side = some r → Link.Movable r.conn.socket
  | _ => True

instance : (s : Session) → (e : SessionEvent) → Decidable (s.Sound e)
  | s, .arrive side index _ => inferInstanceAs (Decidable (∀ r, s.ends side = some r →
      ∀ segment, (s.segments side.peer)[index]? = some segment → _))
  | s, .call side _ _ => inferInstanceAs (Decidable (∀ r, s.ends side = some r → _))
  | s, .migrate side _ _ _ => inferInstanceAs (Decidable (∀ r, s.ends side = some r → Link.Movable r.conn.socket))
  | _, .sendSyn | _, .timeOut | _, .pollConnect | _, .sendSynAck | _, .stranger _ _ | _, .pollAccept =>
    inferInstanceAs (Decidable True)

def pushed (s : Session) (side : Side) : Buffer := (s.ends side).elim [] StreamRun.pushed

/-- The text taken from the applications is short enough for each byte to have a number of its own. -/
def Short (s : Session) : Prop := ∀ side, (s.pushed side).length + 1 < 2 ^ 32

instance (s : Session) : Decidable s.Short :=
  decidable_of_iff ((s.pushed .client).length + 1 < 2 ^ 32 ∧ (s.pushed .server).length + 1 < 2 ^ 32)
    ⟨fun h side => by cases side; exacts [h.1, h.2], fun h => ⟨h .client, h .server⟩⟩

end Session

end Capybara
