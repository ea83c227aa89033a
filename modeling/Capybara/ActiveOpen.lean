import Capybara.PassiveOpen

namespace Capybara

/-- `rt` keeps what was passed to `rt.transmit`. -/
structure ActiveOpenSocket where
  localIsn : SeqNumber
  local_ : SocketAddrV4
  remote : SocketAddrV4
  tcpConfig : TcpConfig
  result : Option (Except Fail ControlBlock)
  rt : List TcpSegment
  deriving DecidableEq, Repr

namespace ActiveOpenSocket

def new (localIsn : SeqNumber) (local_ remote : SocketAddrV4) (tcpConfig : TcpConfig) : ActiveOpenSocket where
  localIsn := localIsn
  local_ := local_
  remote := remote
  tcpConfig := tcpConfig
  result := none
  rt := []

/-- `none` of the result is a poll that is still pending. -/
def pollResult (s : ActiveOpenSocket) : Option (Except Fail ControlBlock) × ActiveOpenSocket :=
  (s.result, { s with result := none })

def setResult (s : ActiveOpenSocket) (result : Except Fail ControlBlock) : ActiveOpenSocket :=
  { s with result := some result }

/-- The last action of the task that sends the SYNs. -/
def timeOut (s : ActiveOpenSocket) : ActiveOpenSocket := s.setResult (.error ⟨.ETIMEDOUT, "handshake timeout"⟩)

/-- The control block that a SYN+ACK completes. Both windows are shifted as a `u16`. -/
def controlBlock (s : ActiveOpenSocket) (header : TcpHeader) : Option ControlBlock := do
  let (remoteWindowScale, mss) := header.announced
  let (localWindowScale, remoteWindowScale) := match remoteWindowScale with
    | some w => (s.tcpConfig.windowScale.toNat, w)
    | none => (0, 0)
  if localWindowScale ≤ 14 ∧ remoteWindowScale.toNat ≤ 14 then
    let rxWindowSize ← checkedShl 16 s.tcpConfig.receiveWindowSize.toNat localWindowScale
    let txWindowSize ← checkedShl 16 header.windowSize.toNat remoteWindowScale.toNat
    some (.new s.local_ s.remote (header.seqNum + .ofNat 1) s.tcpConfig.ackDelayTimeout (.ofNat rxWindowSize)
      (.ofNat localWindowScale) (s.localIsn + .ofNat 1) (.ofNat txWindowSize) remoteWindowScale mss)
  else none

/-- `remoteLinkAddr` is what the ARP cache answers for the peer. -/
def receive (s : ActiveOpenSocket) (header : TcpHeader) (remoteLinkAddr : Option MacAddress) :
    Option ActiveOpenSocket :=
  let expectedSeq := s.localIsn + SeqNumber.ofNat 1
  if ¬(header.ack ∧ header.ackNum = expectedSeq) then some s
  else if header.rst then some (s.setResult (.error ⟨.ECONNREFUSED, "connection refused"⟩))
  else if header.syn = false then some s
  else do
    let remoteLinkAddr ← remoteLinkAddr
    let tcpHdr : TcpHeader := { TcpHeader.new s.local_.port s.remote.port with
      ack := true
      ackNum := header.seqNum + .ofNat 1
      windowSize := s.tcpConfig.receiveWindowSize
      seqNum := expectedSeq }
    let segment : TcpSegment := ⟨remoteLinkAddr, s.local_.ip, s.remote.ip, tcpHdr, none⟩
    let cb ← s.controlBlock header
    some ({ s with rt := s.rt ++ [segment] }.setResult (.ok cb))

end ActiveOpenSocket

end Capybara
