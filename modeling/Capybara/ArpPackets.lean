import Capybara.ArpPeer
import Capybara.Ipv4Datagrams

namespace Capybara

open Wire

def arpHtypeEther2 : UInt16 := 1

def arpHlenEther2 : UInt8 := 6

def arpPtypeIpv4 : UInt16 := 0x800

def arpPlenIpv4 : UInt8 := 4

def arpMessageSize : Nat := 28

def ArpOperation.code : ArpOperation → UInt16
  | .request => 1
  | .reply => 2

def ArpOperation.fromU16 (n : UInt16) : Except Fail ArpOperation :=
  if n = 1 then .ok .request
  else if n = 2 then .ok .reply
  else .error ⟨.ENOTSUP, "unsupported OPER"⟩

theorem ArpOperation.fromU16_code (op : ArpOperation) : fromU16 op.code = .ok op := by
  cases op with
  | request => rfl
  | reply => rfl

namespace ArpHeader

def serialize (h : ArpHeader) : Buffer :=
  be16 arpHtypeEther2 ++ be16 arpPtypeIpv4 ++ [arpHlenEther2, arpPlenIpv4] ++ be16 h.operation.code ++
    h.senderHardwareAddr.octets ++ h.senderProtocolAddr.octets ++ h.targetHardwareAddr.octets ++
    h.targetProtocolAddr.octets

def parse (buf : Buffer) : Except Fail ArpHeader := do
  refuse (buf.length < arpMessageSize) ⟨.EBADMSG, "ARP message too short"⟩
  refuse (u16At buf 0 ≠ arpHtypeEther2) ⟨.ENOTSUP, "unsupported HTYPE"⟩
  refuse (u16At buf 2 ≠ arpPtypeIpv4) ⟨.ENOTSUP, "unsupported PTYPE"⟩
  refuse (byteAt buf 4 ≠ arpHlenEther2) ⟨.ENOTSUP, "unsupported HLEN"⟩
  refuse (byteAt buf 5 ≠ arpPlenIpv4) ⟨.ENOTSUP, "unsupported PLEN"⟩
  let operation ← ArpOperation.fromU16 (u16At buf 6)
  return ⟨operation, macAt buf 8, ipv4At buf 14, macAt buf 18, ipv4At buf 24⟩

theorem length_serialize (h : ArpHeader) : h.serialize.length = arpMessageSize := rfl

theorem parse_serialize (h : ArpHeader) (rest : Buffer) : parse (h.serialize ++ rest) = .ok h := by
  have hlen : ¬(h.serialize ++ rest).length < arpMessageSize := by
    rw [List.length_append, h.length_serialize]
    omega
  have htype : u16At (h.serialize ++ rest) 0 = arpHtypeEther2 := ofBe16_be16 _
  have hptype : u16At (h.serialize ++ rest) 2 = arpPtypeIpv4 := ofBe16_be16 _
  have hop : u16At (h.serialize ++ rest) 6 = h.operation.code := ofBe16_be16 _
  rw [parse, refuse_of_not hlen, htype, hptype, hop, ArpOperation.fromU16_code]
  rfl

end ArpHeader

/-- The bytes of a message on the link. -/
def ArpMessage.frame (m : ArpMessage) : Buffer := m.ethernet2Hdr.serialize ++ m.header.serialize

/-- `receive` with the parsing of the message. -/
def ArpPeer.receiveBuf (p : ArpPeer) (buf : Buffer) : Option (Except Fail Unit × ArpPeer) :=
  match ArpHeader.parse buf with
  | .error e => some (.error e, p)
  | .ok header => p.receive header

/-- A frame comes in; other protocols leave the ARP peer alone. -/
def ArpQueries.arrive (s : ArpQueries) (bytes : Buffer) : Option ArpQueries :=
  match Ethernet2Header.parse bytes with
  | .error _ => some s
  | .ok (header, payload) =>
    match header.etherType with
    | .arp => (s.peer.receiveBuf payload).map fun r => { s with peer := r.2 }
    | .ipv4 | .ipv6 => some s

theorem ArpQueries.arrive_frame (s : ArpQueries) {m : ArpMessage} (h : m.ethernet2Hdr.etherType = .arp) :
    s.arrive m.frame = s.step (.receive m.header) := by
  have hparse := ArpHeader.parse_serialize m.header []
  rw [List.append_nil] at hparse
  simp only [arrive, ArpMessage.frame, Ethernet2Header.parse_serialize, h, ArpPeer.receiveBuf, hparse]
  rfl

end Capybara
