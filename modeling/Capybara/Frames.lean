import Capybara.Basics
import Capybara.Lib.Wire

namespace Capybara

open Wire

def ethernet2HeaderSize : Nat := 14

def ipv4HeaderMinSize : Nat := 20

inductive EtherType2
  | arp | ipv4 | ipv6
  deriving DecidableEq, Repr

def EtherType2.code : EtherType2 → UInt16
  | .arp => 0x806
  | .ipv4 => 0x800
  | .ipv6 => 0x86dd

def EtherType2.tryFrom (n : UInt16) : Except Fail EtherType2 :=
  if n = 0x806 then .ok .arp
  else if n = 0x800 then .ok .ipv4
  else if n = 0x86dd then .ok .ipv6
  else .error ⟨.ENOTSUP, "unsupported ETHERTYPE"⟩

structure Ethernet2Header where
  dstAddr : MacAddress
  srcAddr : MacAddress
  etherType : EtherType2
  deriving DecidableEq, Repr

def MacAddress.octets (m : MacAddress) : Buffer := [m.o0, m.o1, m.o2, m.o3, m.o4, m.o5]

def macAt (buf : Buffer) (i : Nat) : MacAddress :=
  ⟨byteAt buf i, byteAt buf (i + 1), byteAt buf (i + 2), byteAt buf (i + 3), byteAt buf (i + 4), byteAt buf (i + 5)⟩

namespace Ethernet2Header

def serialize (h : Ethernet2Header) : Buffer := h.dstAddr.octets ++ h.srcAddr.octets ++ be16 h.etherType.code

def parse (buf : Buffer) : Except Fail (Ethernet2Header × Buffer) := do
  refuse (buf.length < ethernet2HeaderSize) ⟨.EBADMSG, "frame too small"⟩
  let etherType ← EtherType2.tryFrom (u16At buf 12)
  return (⟨macAt buf 0, macAt buf 6, etherType⟩, buf.drop ethernet2HeaderSize)

theorem length_serialize (h : Ethernet2Header) : h.serialize.length = ethernet2HeaderSize := rfl

theorem parse_serialize (h : Ethernet2Header) (buf : Buffer) : parse (h.serialize ++ buf) = .ok (h, buf) := by
  have hl : ¬(h.serialize ++ buf).length < ethernet2HeaderSize := by
    rw [List.length_append, h.length_serialize]
    omega
  have hc : u16At (h.serialize ++ buf) 12 = h.etherType.code := ofBe16_be16 _
  have ht : EtherType2.tryFrom h.etherType.code = .ok h.etherType := by cases h.etherType <;> rfl
  simp only [parse, hl, hc, ht, refuse_of_not, not_false_eq_true]
  rfl

end Ethernet2Header

inductive IpProtocol
  | icmpv4 | tcp | udp
  deriving DecidableEq, Repr

def IpProtocol.code : IpProtocol → UInt8
  | .icmpv4 => 0x01
  | .tcp => 0x06
  | .udp => 0x11

def IpProtocol.tryFrom (n : UInt8) : Except Fail IpProtocol :=
  if n = 0x01 then .ok .icmpv4
  else if n = 0x06 then .ok .tcp
  else if n = 0x11 then .ok .udp
  else .error ⟨.ENOTSUP, "unsupported IPv4 protocol"⟩

structure Ipv4Header where
  version : UInt8
  ihl : UInt8
  dscp : UInt8
  ecn : UInt8
  totalLength : UInt16
  identification : UInt16
  flags : UInt8
  fragmentOffset : UInt16
  ttl : UInt8
  protocol : IpProtocol
  headerChecksum : UInt16
  srcAddr : Ipv4Addr
  dstAddr : Ipv4Addr
  deriving DecidableEq, Repr

def Ipv4Addr.octets (addr : Ipv4Addr) : Buffer := [addr.a, addr.b, addr.c, addr.d]

def ipv4At (buf : Buffer) (i : Nat) : Ipv4Addr :=
  ⟨byteAt buf i, byteAt buf (i + 1), byteAt buf (i + 2), byteAt buf (i + 3)⟩

namespace Ipv4Header

def new (srcAddr dstAddr : Ipv4Addr) (protocol : IpProtocol) : Ipv4Header where
  version := 4
  ihl := 5
  dscp := 0
  ecn := 0
  totalLength := 20
  identification := 0
  flags := 2
  fragmentOffset := 0
  ttl := 255
  protocol := protocol
  headerChecksum := 0
  srcAddr := srcAddr
  dstAddr := dstAddr

/-- `while state > 0xffff`. -/
def foldCarry (state : Nat) : Nat := if 0xffff < state then foldCarry (state - 0xffff) else state
termination_by state
decreasing_by omega

/-- The byte offsets of the words that the sum runs over. -/
def summedOffsets : List Nat := [0, 2, 4, 6, 8, 12, 14, 16, 18]

/-- The sum skips the checksum field at bytes 10 and 11. -/
def computeChecksum (buf : Buffer) : UInt16 :=
  let state := (summedOffsets.map fun i => (u16At buf i).toNat).foldl (· + ·) 0xffff
  UInt16.ofNat (2 ^ 32 - 1 - foldCarry state)

/-- The header with the given bytes in the place of the checksum. -/
def serializeWith (h : Ipv4Header) (payloadLen : Nat) (checksum : UInt16) : Buffer :=
  [(h.version <<< 4) ||| h.ihl, (h.dscp <<< 2) ||| (h.ecn &&& 3)]
    ++ be16 (20 + UInt16.ofNat payloadLen) ++ be16 h.identification
    ++ be16 ((h.flags.toUInt16 <<< 13) ||| (h.fragmentOffset &&& 0x1fff)) ++ [h.ttl, h.protocol.code]
    ++ be16 checksum ++ h.srcAddr.octets ++ h.dstAddr.octets

/-- The sum of the header size and the payload length on `u16` panics on overflow. -/
def serialize (h : Ipv4Header) (payloadLen : Nat) : Option Buffer :=
  if 20 + payloadLen % 2 ^ 16 < 2 ^ 16 then
    some (h.serializeWith payloadLen (computeChecksum (h.serializeWith payloadLen 0)))
  else none

def parse (buf : Buffer) : Except Fail (Ipv4Header × Buffer) := do
  refuse (buf.length < ipv4HeaderMinSize) ⟨.EBADMSG, "ipv4 datagram too small"⟩
  let version := byteAt buf 0 >>> 4
  refuse (version ≠ 4) ⟨.ENOTSUP, "unsupported IP version"⟩
  let ihl := byteAt buf 0 &&& 0xF
  let hdrSize := ihl.toNat * 4
  refuse (hdrSize < ipv4HeaderMinSize) ⟨.EBADMSG, "ipv4 IHL is too small"⟩
  refuse (buf.length < hdrSize) ⟨.EBADMSG, "ipv4 datagram too small to fit in header"⟩
  let dscp := byteAt buf 1 >>> 2
  let ecn := byteAt buf 1 &&& 3
  let totalLength := u16At buf 2
  refuse (totalLength.toNat < hdrSize) ⟨.EBADMSG, "ipv4 datagram smaller than header"⟩
  refuse (totalLength.toNat > buf.length) ⟨.EBADMSG, "ipv4 datagram size mismatch"⟩
  let identification := u16At buf 4
  let flags := byteAt buf 6 >>> 5
  refuse (flags &&& 4 ≠ 0) ⟨.EBADMSG, "ipv4 datagram is marked as evil"⟩
  refuse (flags &&& 1 ≠ 0) ⟨.ENOTSUP, "ipv4 fragmentation is not supported"⟩
  let fragmentOffset := u16At buf 6 &&& 0x1fff
  refuse (fragmentOffset ≠ 0) ⟨.ENOTSUP, "ipv4 fragmentation is not supported"⟩
  let timeToLive := byteAt buf 8
  refuse (timeToLive = 0) ⟨.EBADMSG, "ipv4 datagram too old"⟩
  let protocol ← IpProtocol.tryFrom (byteAt buf 9)
  let headerChecksum := u16At buf 10
  refuse (headerChecksum = 0xffff) ⟨.EBADMSG, "ipv4 checksum invalid"⟩
  refuse (headerChecksum ≠ computeChecksum buf) ⟨.EBADMSG, "ipv4 checksum mismatch"⟩
  let body := (buf.drop hdrSize).take (totalLength.toNat - hdrSize)
  return (⟨version, ihl, dscp, ecn, totalLength, identification, flags, fragmentOffset, timeToLive, protocol,
    headerChecksum, ipv4At buf 12, ipv4At buf 16⟩, body)

theorem foldCarry_le (state : Nat) : foldCarry state ≤ 0xffff := by
  fun_induction foldCarry state with
  | case1 state h ih => exact ih
  | case2 state h => omega

theorem foldCarry_pos {state : Nat} (h : 0 < state) : 0 < foldCarry state := by
  fun_induction foldCarry state with
  | case1 state hs ih => exact ih (by omega)
  | case2 state hs => exact h

/-- The one value that a receiver refuses is never computed. -/
theorem computeChecksum_ne (buf : Buffer) : computeChecksum buf ≠ 0xffff := by
  intro h
  have hs : ∀ (ns : List Nat) (n : Nat), n ≤ ns.foldl (· + ·) n := by
    intro ns
    induction ns with
    | nil => exact fun n => Nat.le_refl n
    | cons a as ih => exact fun n => Nat.le_trans (Nat.le_add_right n a) (ih (n + a))
  have hn := congrArg UInt16.toNat h
  have hpos := foldCarry_pos (Nat.lt_of_lt_of_le (by decide)
    (hs (summedOffsets.map fun i => (u16At buf i).toNat) 0xffff))
  have hle := foldCarry_le ((summedOffsets.map fun i => (u16At buf i).toNat).foldl (· + ·) 0xffff)
  rw [computeChecksum, UInt16.toNat_ofNat'] at hn
  change _ = 65535 at hn
  omega

theorem u16At_serializeWith (h : Ipv4Header) (payloadLen : Nat) (checksum : UInt16) (payload : Buffer) {i : Nat}
    (hi : i ∈ summedOffsets) :
    u16At (h.serializeWith payloadLen checksum ++ payload) i = u16At (h.serializeWith payloadLen 0) i := by
  simp only [summedOffsets, List.mem_cons, List.not_mem_nil, or_false] at hi
  rcases hi with rfl | rfl | rfl | rfl | rfl | rfl | rfl | rfl | rfl <;> rfl

theorem computeChecksum_serializeWith (h : Ipv4Header) (payloadLen : Nat) (checksum : UInt16) (payload : Buffer) :
    computeChecksum (h.serializeWith payloadLen checksum ++ payload) =
      computeChecksum (h.serializeWith payloadLen 0) := by
  have hm := List.map_congr_left fun i hi =>
    congrArg UInt16.toNat (u16At_serializeWith h payloadLen checksum payload hi)
  simp only [computeChecksum, hm]

theorem length_serializeWith (h : Ipv4Header) (payloadLen : Nat) (checksum : UInt16) :
    (h.serializeWith payloadLen checksum).length = ipv4HeaderMinSize := rfl

/-- The header that a datagram with a payload of the given size carries. -/
def sent (h : Ipv4Header) (payloadLen : Nat) : Ipv4Header :=
  { h with
    totalLength := 20 + UInt16.ofNat payloadLen
    headerChecksum := computeChecksum (h.serializeWith payloadLen 0) }

theorem parse_serialize (src dst : Ipv4Addr) (protocol : IpProtocol) (payload : Buffer)
    (hp : 20 + payload.length < 2 ^ 16) :
    ∃ hdr, (new src dst protocol).serialize payload.length = some hdr ∧
      parse (hdr ++ payload) = .ok ((new src dst protocol).sent payload.length, payload) := by
  have hm : payload.length % 2 ^ 16 = payload.length := Nat.mod_eq_of_lt (by omega)
  refine ⟨_, if_pos (by omega), ?_⟩
  generalize hc : computeChecksum ((new src dst protocol).serializeWith payload.length 0) = c
  generalize hb : (new src dst protocol).serializeWith payload.length c ++ payload = buf
  have hl : buf.length = ipv4HeaderMinSize + payload.length := by rw [← hb, List.length_append, length_serializeWith]
  have h0 : byteAt buf 0 = 0x45 := by
    rw [← hb]
    exact (by decide : ((4 : UInt8) <<< (4 : UInt8)) ||| (5 : UInt8) = 0x45)
  have h1 : byteAt buf 1 = 0 := by
    rw [← hb]
    exact (by decide : ((0 : UInt8) <<< (2 : UInt8)) ||| ((0 : UInt8) &&& (3 : UInt8)) = 0)
  have h2 : u16At buf 2 = 20 + UInt16.ofNat payload.length := by rw [← hb]; exact ofBe16_be16 _
  have h4 : u16At buf 4 = 0 := by rw [← hb]; exact ofBe16_be16 _
  have hf : ((2 : UInt8).toUInt16 <<< (13 : UInt16)) ||| ((0 : UInt16) &&& (0x1fff : UInt16)) = 0x4000 := by decide
  have h6 : u16At buf 6 = 0x4000 := by
    rw [← hb, ← hf]
    exact ofBe16_be16 _
  have h6' : byteAt buf 6 = 0x40 := by
    rw [← hb]
    exact congrArg (fun x : UInt16 => UInt8.ofNat (x.toNat / 2 ^ 8)) hf
  have h8 : byteAt buf 8 = 255 := by rw [← hb]; rfl
  have h9 : byteAt buf 9 = protocol.code := by rw [← hb]; rfl
  have h10 : u16At buf 10 = c := by rw [← hb]; exact ofBe16_be16 _
  have hsum : computeChecksum buf = c := by rw [← hb, computeChecksum_serializeWith, hc]
  have hp' : IpProtocol.tryFrom protocol.code = .ok protocol := by cases protocol <;> rfl
  have hsrc : ipv4At buf 12 = src := by rw [← hb]; rfl
  have hdst : ipv4At buf 16 = dst := by rw [← hb]; rfl
  have hlen : (20 + UInt16.ofNat payload.length).toNat = 20 + payload.length := by
    rw [UInt16.toNat_add, UInt16.toNat_ofNat']
    change (20 + payload.length % 65536) % 65536 = _
    omega
  have hne : c ≠ 0xffff := hc ▸ computeChecksum_ne _
  have hbody : (buf.drop ipv4HeaderMinSize).take payload.length = payload := by
    rw [← hb, List.drop_left' (length_serializeWith _ _ _), List.take_length]
  have hv : (0x45 : UInt8) >>> 4 = 4 := by decide
  have hi : (0x45 : UInt8) &&& 0xF = 5 := by decide
  have hg : (0x40 : UInt8) >>> 5 = 2 := by decide
  have ho : (0x4000 : UInt16) &&& 0x1fff = 0 := by decide
  have hevil : (2 : UInt8) &&& 4 = 0 := by decide
  have hmore : (2 : UInt8) &&& 1 = 0 := by decide
  have hsize : ¬20 + payload.length < 20 := by omega
  have hsent : (new src dst protocol).sent payload.length =
      { new src dst protocol with totalLength := 20 + UInt16.ofNat payload.length, headerChecksum := c } := by
    rw [sent, hc]
  simp only [ipv4HeaderMinSize] at hbody hl
  simp only [parse, hl, h0, h1, h2, h4, h6, h6', h8, h9, h10, hsum, hp', hsrc, hdst, hlen, hv, hi, hg, ho, hsent]
  simp [refuse, ipv4HeaderMinSize, hevil, hmore, hsize, hne, hbody, new]
  rfl

end Ipv4Header

end Capybara
