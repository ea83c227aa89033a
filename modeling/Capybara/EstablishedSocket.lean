import Capybara.Lib.Runs
import Capybara.Receive

namespace Capybara

/-- What the background sender holds while it waits for the link address of the peer. -/
inductive Awaiting
  | probe (sendNext : SeqNumber)
  | segment (sendNext : SeqNumber) (winSz sentData effectiveCwnd : Nat)
  deriving DecidableEq, Repr

/-- Where the background sender waits: at the top of its loop, for a link address, or between two window probes. -/
inductive SenderTask
  | top
  | awaiting (awaiting : Awaiting)
  | probing (buf : Buffer) (sendNext : SeqNumber) (remoteLinkAddr : MacAddress)
  deriving DecidableEq, Repr

structure EstablishedSocket where
  cb : ControlBlock
  sender : SenderTask
  deriving DecidableEq, Repr

namespace ControlBlock

def emitProbe (cb : ControlBlock) (buf : Buffer) (sendNext : SeqNumber) (remoteLinkAddr : MacAddress) :
    Option ControlBlock := do
  let header ← cb.tcpHeader
  cb.emit false { header with seqNum := sendNext } (some buf) remoteLinkAddr

/-- Sends one byte into a closed window. -/
def sendProbe (cb : ControlBlock) (sendNext : SeqNumber) (remoteLinkAddr : MacAddress) (now : Instant) :
    Option EstablishedSocket := do
  match ← cb.sender.popOneUnsentByte with
  | none => none
  | some (buf, sender) =>
    let cb : ControlBlock := { cb with sender := { sender with
      sendNext := sender.sendNext + SeqNumber.ofNat 1
      unackedQueue := sender.unackedQueue ++ [⟨buf, some now⟩] } }
    let cb ← cb.emitProbe buf sendNext remoteLinkAddr
    -- Only from here on is a change of the send window noticed.
    some ⟨{ cb with sender := { cb.sender with sendWindowChanged := false } }, .probing buf sendNext remoteLinkAddr⟩

/-- Sends one segment from the unsent queue. -/
def sendUnsent (cb : ControlBlock) (sendNext : SeqNumber) (maxSize : Nat) (remoteLinkAddr : MacAddress) (env : Env) :
    Option EstablishedSocket := do
  match ← cb.sender.popUnsent maxSize with
  | none => none
  | some ((segmentData, doPush), sender) =>
    let cb := { cb with sender := sender }
    let header ← cb.tcpHeader
    debugAssert (segmentData.length ≠ 0 ∨ cb.userIsDoneSending)
    let header := markHeader { header with seqNum := sendNext } segmentData doPush
    let cb ← cb.emit false header (some segmentData) remoteLinkAddr
    some ⟨(cb.noteSent segmentData env.now).startRetransmitTimer env, .top⟩

/-- The loop of the background sender up to its ARP query; `none` waits for a change and starts again. -/
def senderReads (cb : ControlBlock) (env : Env) : Option (Option Awaiting) :=
  if cb.sender.sendNext = cb.sender.unsentSeqNo then some none
  else if cb.sender.sendWindow = 0 then some (some (.probe cb.sender.sendNext))
  else do
    let effectiveCwnd ← addU32 env.cwnd.toNat env.limitedTransmitCwndIncrease.toNat
    let nextBufSize ← cb.sender.topSizeUnsent
    let sentData := (cb.sender.sendNext - cb.sender.sendUnacked).toNat
    let winSz := cb.sender.sendWindow.toNat
    let needed ← addU32 sentData (nextBufSize % 2 ^ 32)
    if winSz ≤ needed ∨ effectiveCwnd ≤ sentData ∨ effectiveCwnd - sentData ≤ cb.sender.mss % 2 ^ 32 then some none
    else some (some (.segment cb.sender.sendNext winSz sentData effectiveCwnd))

/-- The loop from the ARP reply on, with what was read before the query. -/
def senderSends (cb : ControlBlock) (remoteLinkAddr : MacAddress) (env : Env) : Awaiting → Option EstablishedSocket
  | .probe sendNext => cb.sendProbe sendNext remoteLinkAddr env.now
  | .segment sendNext winSz sentData effectiveCwnd =>
    cb.sendUnsent sendNext (min (min (winSz - sentData) cb.sender.mss) (effectiveCwnd - sentData)) remoteLinkAddr env

/-- The ARP query of the background sender. -/
def senderQueries (cb : ControlBlock) (env : Env) (awaiting : Awaiting) : Option EstablishedSocket :=
  match env.arp with
  | none => some ⟨cb, .awaiting awaiting⟩
  | some remoteLinkAddr => cb.senderSends remoteLinkAddr env awaiting

end ControlBlock

inductive SocketEvent
  | segment (header : TcpHeader) (data : Buffer)
  | pop
  | push (buf : Buffer)
  | close
  | background
  | retransmitTimer
  | fastRetransmit
  | ackTimer
  | persistTimer
  deriving DecidableEq, Repr

/-- A socket, what the application has popped from it, and what its pushes and closes returned. -/
structure SocketRun where
  socket : EstablishedSocket
  popped : List Buffer
  results : List (Except Fail Unit)

namespace EstablishedSocket

/-- A change of the send window takes the sender out of its probing. -/
def taskAfter (s : EstablishedSocket) (cb : ControlBlock) : SenderTask :=
  match s.sender with
  | .probing buf sendNext remoteLinkAddr =>
    if cb.sender.sendWindowChanged then .top else .probing buf sendNext remoteLinkAddr
  | task => task

def receive (s : EstablishedSocket) (header : TcpHeader) (data : Buffer) (env : Env) : Option EstablishedSocket := do
  let cb ← s.cb.receive header data env
  some ⟨cb, s.taskAfter cb⟩

def background (s : EstablishedSocket) (env : Env) : Option EstablishedSocket :=
  match s.sender with
  | .top => do
    match ← s.cb.senderReads env with
    | none => some s
    | some awaiting => s.cb.senderQueries env awaiting
  | .awaiting awaiting => s.cb.senderQueries env awaiting
  | .probing _ _ _ => some s

def retransmitTimer (s : EstablishedSocket) (env : Env) : Option EstablishedSocket :=
  match s.cb.retransmitDeadline with
  | none => some s
  | some _ => do
    let cb ← s.cb.retransmit env
    some { s with cb := { cb with retransmitDeadline := some (env.now + env.rto) } }

def fastRetransmit (s : EstablishedSocket) (env : Env) : Option EstablishedSocket := do
  let cb ← s.cb.retransmit env
  some { s with cb := cb }

def ackTimer (s : EstablishedSocket) (env : Env) : Option EstablishedSocket :=
  match s.cb.ackDeadline with
  | none => some s
  | some _ => do
    let cb ← s.cb.sendAck true env
    some { s with cb := cb }

def persistTimer (s : EstablishedSocket) : Option EstablishedSocket :=
  match s.sender with
  | .top | .awaiting _ => some s
  | .probing buf sendNext remoteLinkAddr => do
    let cb ← s.cb.emitProbe buf sendNext remoteLinkAddr
    some { s with cb := cb }

end EstablishedSocket

namespace SocketRun

def start (s : EstablishedSocket) : SocketRun := ⟨s, [], []⟩

def withSocket (r : SocketRun) (s : Option EstablishedSocket) : Option SocketRun :=
  s.map fun s => { r with socket := s }

def step (r : SocketRun) (e : SocketEvent × Env) : Option SocketRun :=
  match e.1 with
  | .segment header data => r.withSocket (r.socket.receive header data e.2)
  | .pop =>
    let (buf, cb) := r.socket.cb.pollRecv
    some { r with socket := { r.socket with cb := cb }, popped := r.popped ++ buf.toList }
  | .push buf => do
    let (result, cb) ← r.socket.cb.send buf e.2
    some { r with socket := { r.socket with cb := cb }, results := r.results ++ [result] }
  | .close => do
    let (result, cb) ← r.socket.cb.close e.2
    some { r with socket := { r.socket with cb := cb }, results := r.results ++ [result] }
  | .background => r.withSocket (r.socket.background e.2)
  | .retransmitTimer => r.withSocket (r.socket.retransmitTimer e.2)
  | .fastRetransmit => r.withSocket (r.socket.fastRetransmit e.2)
  | .ackTimer => r.withSocket (r.socket.ackTimer e.2)
  | .persistTimer => r.withSocket r.socket.persistTimer

end SocketRun

end Capybara
