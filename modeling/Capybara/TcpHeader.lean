import Capybara.Basics
import Capybara.SeqNumber

namespace Capybara

structure SelectiveAcknowlegement where
  begin : SeqNumber
  end_ : SeqNumber
  deriving DecidableEq, Repr

inductive TcpOption
  | noOperation
  | maximumSegmentSize (mss : UInt16)
  | windowScale (scale : UInt8)
  | selectiveAcknowlegementPermitted
  | selectiveAcknowlegement (numSacks : Nat) (sacks : List SelectiveAcknowlegement)
  | timestamp (senderTimestamp echoTimestamp : UInt32)
  deriving DecidableEq, Repr

structure TcpHeader where
  srcPort : UInt16
  dstPort : UInt16
  seqNum : SeqNumber
  ackNum : SeqNumber
  ns : Bool
  cwr : Bool
  ece : Bool
  urg : Bool
  ack : Bool
  psh : Bool
  rst : Bool
  syn : Bool
  fin : Bool
  windowSize : UInt16
  urgentPointer : UInt16
  optionList : List TcpOption
  deriving DecidableEq, Repr

def TcpHeader.new (srcPort dstPort : UInt16) : TcpHeader where
  srcPort := srcPort
  dstPort := dstPort
  seqNum := .ofNat 0
  ackNum := .ofNat 0
  ns := false
  cwr := false
  ece := false
  urg := false
  ack := false
  psh := false
  rst := false
  syn := false
  fin := false
  windowSize := 0
  urgentPointer := 0
  optionList := []

/-- A segment as `rt.transmit` gets it. -/
structure TcpSegment where
  remoteLinkAddr : MacAddress
  localIp : Ipv4Addr
  remoteIp : Ipv4Addr
  tcpHdr : TcpHeader
  data : Option Buffer
  deriving DecidableEq, Repr

end Capybara
