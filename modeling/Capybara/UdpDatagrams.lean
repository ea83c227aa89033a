import Capybara.Ipv4Datagrams
import Capybara.TcpMigCodec
import Capybara.UdpHeader
import Capybara.UdpPeer

namespace Capybara

open Wire

def rpsSignalHeaderSize : Nat := 20

def rpsSignalSignature : UInt32 := 0xABCDABCD

def TcpMigHeader.isRpsSignal (buf : Buffer) : Bool :=
  rpsSignalHeaderSize ≤ buf.length ∧ u32At buf 8 = rpsSignalSignature

structure UdpDatagram where
  ethernet2Hdr : Ethernet2Header
  ipv4Hdr : Ipv4Header
  udpHdr : UdpHeader
  data : Buffer
  checksumOffload : Bool
  deriving DecidableEq, Repr

/-- The bytes on the link: the three headers and the body. -/
def UdpDatagram.frame (d : UdpDatagram) : Option Buffer := do
  let ipv4 ← d.ipv4Hdr.serialize (udpHeaderSize + d.data.length)
  let udp ← d.udpHdr.serialize (List.replicate udpHeaderSize 0) d.ipv4Hdr d.data d.checksumOffload
  some (d.ethernet2Hdr.serialize ++ ipv4 ++ udp ++ d.data)

/-- Messages of the migration protocol and signals of the switch go to the TCP peer. -/
def divertsToTcp (payload : Buffer) : Bool := TcpMigHeader.isTcpmig payload || TcpMigHeader.isRpsSignal payload

/-- The part of a frame that the UDP peer is given. -/
def udpPart (bytes : Buffer) : Option (Ipv4Header × Buffer) :=
  match Ethernet2Header.parse bytes with
  | .error _ => none
  | .ok (header, buf) =>
    match header.etherType with
    | .arp | .ipv6 => none
    | .ipv4 =>
      match Ipv4Header.parse buf with
      | .error _ => none
      | .ok (ipv4Hdr, payload) =>
        match ipv4Hdr.protocol with
        | .icmpv4 | .tcp => none
        | .udp => if divertsToTcp payload then none else some (ipv4Hdr, payload)

/-- The data that a receiver finds, as the length fields have sixteen bits. -/
def carriedData (data : Buffer) : Buffer := data.take ((udpHeaderSize + data.length) % 2 ^ 16 - udpHeaderSize)

/-- Data that a TCP peer takes for one of its own messages. -/
def divertedData (data : Buffer) : Bool :=
  (tcpmigHeaderSize - udpHeaderSize ≤ data.length ∧ u32At data 0 = magicNumber) ∨
    (rpsSignalHeaderSize - udpHeaderSize ≤ data.length ∧ u32At data 0 = rpsSignalSignature)

namespace UdpHeader

theorem layout_mod (h : UdpHeader) (length : Nat) (checksum : UInt16) :
    h.layout (length % 2 ^ 16) checksum = h.layout length checksum := by
  have hword : UInt16.ofNat (length % 2 ^ 16) = UInt16.ofNat length := by
    rw [← UInt16.toNat_inj, UInt16.toNat_ofNat', UInt16.toNat_ofNat', Nat.mod_mod]
  rw [layout, layout, hword]

/-- The checksum of a sender that computes none is zero. -/
def Checks (ipv4Hdr : Ipv4Header) (h : UdpHeader) (data : Buffer) (checksum : UInt16) : Prop :=
  checksum = 0 ∨ udpChecksum ipv4Hdr (h.layout (udpHeaderSize + data.length) 0) data = some checksum

theorem serialize_eq {h : UdpHeader} {ipv4Hdr : Ipv4Header} {buf data header : Buffer} {offload : Bool}
    (hb : buf.length = udpHeaderSize) (hs : h.serialize buf ipv4Hdr data offload = some header) :
    ∃ checksum, h.Checks ipv4Hdr data checksum ∧ header = h.layout (udpHeaderSize + data.length) checksum := by
  have hput : put (h.layout (udpHeaderSize + data.length) (u16At buf 6)) buf =
      some (h.layout (udpHeaderSize + data.length) (u16At buf 6), []) := by
    have hlen : (h.layout (udpHeaderSize + data.length) (u16At buf 6)).length = udpHeaderSize := rfl
    rw [put, hlen, if_pos (Nat.le_of_eq hb.symm), List.drop_eq_nil_of_le (Nat.le_of_eq hb)]
  rw [serialize, hput] at hs
  cases offload with
  | true =>
    refine ⟨0, .inl rfl, ?_⟩
    rw [← Option.some.inj hs, List.append_nil]
  | false =>
    change (udpChecksum ipv4Hdr (h.layout (udpHeaderSize + data.length) (u16At buf 6)) data).bind _ = _ at hs
    obtain ⟨checksum, hsum, heq⟩ := Option.bind_eq_some_iff.mp hs
    refine ⟨checksum, .inr hsum, ?_⟩
    rw [← Option.some.inj heq, List.append_nil]

theorem serialize_of_fits (h : UdpHeader) (ipv4Hdr : Ipv4Header) {buf data : Buffer} (hb : buf.length = udpHeaderSize)
    (hl : udpHeaderSize + data.length < 2 ^ 16) (offload : Bool) :
    ∃ checksum, h.serialize buf ipv4Hdr data offload = some (h.layout (udpHeaderSize + data.length) checksum) := by
  obtain ⟨header, hs, -⟩ := h.datagram_roundTrip ipv4Hdr hl hb offload
  obtain ⟨checksum, -, rfl⟩ := serialize_eq hb hs
  exact ⟨checksum, hs⟩

/-- What is left of a datagram that was cut to its length field: a datagram with less data, if the header is whole. -/
theorem layout_cut (h : UdpHeader) (data : Buffer) (checksum : UInt16)
    (hlower : udpHeaderSize ≤ (udpHeaderSize + data.length) % 2 ^ 16) :
    udpHeaderSize + (carriedData data).length < 2 ^ 16 ∧
      (h.layout (udpHeaderSize + data.length) checksum ++ data).take ((udpHeaderSize + data.length) % 2 ^ 16) =
        h.layout (udpHeaderSize + (carriedData data).length) checksum ++ carriedData data := by
  generalize hm : (udpHeaderSize + data.length) % 2 ^ 16 = m at hlower
  have hlen : (h.layout (udpHeaderSize + data.length) checksum).length = udpHeaderSize := rfl
  have hle : m ≤ udpHeaderSize + data.length := hm ▸ Nat.mod_le _ _
  have hcarried : carriedData data = data.take (m - udpHeaderSize) := by rw [carriedData, hm]
  have hn : udpHeaderSize + (data.take (m - udpHeaderSize)).length = m := by
    rw [List.length_take]
    omega
  rw [hcarried, hn]
  refine ⟨hm ▸ Nat.mod_lt _ (by decide), ?_⟩
  rw [← hm, layout_mod, hm, List.take_append, hlen, List.take_of_length_le (by rw [hlen]; exact hlower)]

/-- The parser does not panic. -/
theorem parse_total (ipv4Hdr : Ipv4Header) (buf : Buffer) (offload : Bool) : ∃ r, parse ipv4Hdr buf offload = some r := by
  by_cases hframed : Framed buf
  · exact ⟨_, parse_of_framed hframed offload⟩
  · unfold parse
    split
    next => exact ⟨_, rfl⟩
    next hlower =>
      have hlower : udpHeaderSize ≤ buf.length := Nat.le_of_not_lt hlower
      have htake : (buf.take udpHeaderSize).length = 8 := by
        rw [List.length_take, Nat.min_eq_left hlower]
        rfl
      have hword : ∀ i, i + 2 ≤ udpHeaderSize → sliceU16 (buf.take udpHeaderSize) i = some (u16At buf i) := by
        intro i hi
        rw [sliceU16_of_le (by rw [htake]; exact hi), u16At_take hi]
      have hlength : (u16At buf 4).toNat ≠ buf.length := fun hlength => hframed ⟨hlower, hlength⟩
      refine ⟨.error ⟨.EBADMSG, "UDP length mismatch"⟩, ?_⟩
      simp only [splitAt_of_le hlower, Option.bind_eq_bind, Option.bind_some, hword 0 (by decide),
        hword 2 (by decide), hword 4 (by decide)]
      exact if_pos hlength

theorem parse_short (ipv4Hdr : Ipv4Header) {buf : Buffer} (h : buf.length < udpHeaderSize) (offload : Bool) :
    parse ipv4Hdr buf offload = some (.error ⟨.EBADMSG, "UDP segment too small"⟩) := if_pos h

/-- What is accepted of a datagram that was cut to its length field. -/
theorem parse_cut {h hdr : UdpHeader} {ipv4Hdr : Ipv4Header} {data data' : Buffer} {checksum : UInt16}
    {offload : Bool} (hp : parse ipv4Hdr ((h.layout (udpHeaderSize + data.length) checksum ++ data).take
      ((udpHeaderSize + data.length) % 2 ^ 16)) offload = some (.ok (hdr, data'))) :
    udpHeaderSize ≤ (udpHeaderSize + data.length) % 2 ^ 16 ∧ hdr = h ∧ data' = carriedData data := by
  by_cases hsmall : (udpHeaderSize + data.length) % 2 ^ 16 < udpHeaderSize
  · rw [parse_short ipv4Hdr (Nat.lt_of_le_of_lt (List.length_take_le _ _) hsmall)] at hp
    cases hp
  · have hlower := Nat.le_of_not_lt hsmall
    obtain ⟨hlt, hcut⟩ := h.layout_cut data checksum hlower
    have hsrc : u16At (h.layout (udpHeaderSize + (carriedData data).length) checksum ++ carriedData data) 0 =
      h.srcPort := ofBe16_be16 _
    have hdest : u16At (h.layout (udpHeaderSize + (carriedData data).length) checksum ++ carriedData data) 2 =
      h.destPort := ofBe16_be16 _
    rw [hcut, parse_of_framed (framed_layout h checksum hlt), hsrc, hdest] at hp
    split at hp
    next =>
      obtain ⟨rfl, rfl⟩ := Prod.mk.inj (Except.ok.inj (Option.some.inj hp))
      exact ⟨hlower, rfl, rfl⟩
    next => cases hp

theorem diverts_layout (h : UdpHeader) (length : Nat) (checksum : UInt16) (data : Buffer) :
    divertsToTcp (h.layout length checksum ++ data) = divertedData data := by
  have hlen : (h.layout length checksum ++ data).length = udpHeaderSize + data.length := by
    rw [List.length_append]
    rfl
  have hword : u32At (h.layout length checksum ++ data) 8 = u32At data 0 := rfl
  have hmig : tcpmigHeaderSize ≤ udpHeaderSize + data.length ↔ tcpmigHeaderSize - udpHeaderSize ≤ data.length := by
    omega
  have hrps : rpsSignalHeaderSize ≤ udpHeaderSize + data.length ↔
      rpsSignalHeaderSize - udpHeaderSize ≤ data.length := by omega
  simp only [divertsToTcp, TcpMigHeader.isTcpmig, TcpMigHeader.isRpsSignal, divertedData, hlen, hword, hmig, hrps,
    Bool.decide_or]

/-- A receiver takes the datagram whether or not its sender has computed a checksum. -/
theorem parse_of_checks {h : UdpHeader} {ipv4Hdr : Ipv4Header} {data : Buffer} {checksum : UInt16}
    (hl : udpHeaderSize + data.length < 2 ^ 16) (hc : h.Checks ipv4Hdr data checksum) (offload : Bool) :
    parse ipv4Hdr (h.layout (udpHeaderSize + data.length) checksum ++ data) offload = some (.ok (h, data)) := by
  have hstored : u16At (h.layout (udpHeaderSize + data.length) checksum ++ data) 6 = checksum := ofBe16_be16 _
  have hsum := @udpChecksum_eq_internetChecksum ipv4Hdr (h.layout (udpHeaderSize + data.length) checksum) data rfl hl
  have hzero : zeroWordAt (h.layout (udpHeaderSize + data.length) checksum ++ data) 6 =
      zeroWordAt (h.layout (udpHeaderSize + data.length) checksum) 6 ++ data := rfl
  have hsrc : u16At (h.layout (udpHeaderSize + data.length) checksum ++ data) 0 = h.srcPort := ofBe16_be16 _
  have hdest : u16At (h.layout (udpHeaderSize + data.length) checksum ++ data) 2 = h.destPort := ofBe16_be16 _
  rw [parse_of_framed (framed_layout h checksum hl), if_pos, hsrc, hdest]
  · rfl
  · right
    intro hne
    rw [hstored] at hne ⊢
    rcases hc with rfl | hc
    · exact absurd rfl hne
    · rw [hzero]
      exact Option.some.inj (hc.symm.trans ((udpChecksum_layout h ipv4Hdr _ checksum data).symm.trans hsum))

theorem Checks.congr {h : UdpHeader} {ipv4Hdr ipv4Hdr' : Ipv4Header} {data : Buffer} {checksum : UInt16}
    (hc : h.Checks ipv4Hdr data checksum) (hsrc : ipv4Hdr'.srcAddr = ipv4Hdr.srcAddr)
    (hdst : ipv4Hdr'.dstAddr = ipv4Hdr.dstAddr) : h.Checks ipv4Hdr' data checksum := by
  have hpseudo : pseudoHeader ipv4Hdr' .udp = pseudoHeader ipv4Hdr .udp := by
    rw [pseudoHeader, pseudoHeader, hsrc, hdst]
  have hsum : ∀ header, udpChecksum ipv4Hdr' header data = udpChecksum ipv4Hdr header data := by
    intro header
    simp only [udpChecksum, segmentChecksum, summands, hpseudo]
  rw [Checks, hsum]
  exact hc

end UdpHeader

theorem Ipv4Header.serialize_mod (h : Ipv4Header) (payloadLen : Nat) :
    h.serialize (payloadLen % 2 ^ 16) = h.serialize payloadLen := by
  have hword : UInt16.ofNat (payloadLen % 2 ^ 16) = UInt16.ofNat payloadLen := by
    rw [← UInt16.toNat_inj, UInt16.toNat_ofNat', UInt16.toNat_ofNat', Nat.mod_mod]
  have hbytes : ∀ checksum, h.serializeWith (payloadLen % 2 ^ 16) checksum = h.serializeWith payloadLen checksum := by
    intro checksum
    rw [serializeWith, serializeWith, hword]
  rw [serialize, serialize, Nat.mod_mod, hbytes 0, hbytes]

namespace UdpDatagram

/-- The datagram of `do_send`. -/
def sent (localIpv4Addr : Ipv4Addr) (localLinkAddr remoteLinkAddr : MacAddress) (local_ remote : SocketAddrV4)
    (data : Buffer) (checksumOffload : Bool) : UdpDatagram :=
  ⟨⟨remoteLinkAddr, localLinkAddr, .ipv4⟩, .new localIpv4Addr remote.ip .udp, ⟨local_.port, remote.port⟩, data,
    checksumOffload⟩

section

variable {localIpv4Addr : Ipv4Addr} {localLinkAddr remoteLinkAddr : MacAddress} {local_ remote : SocketAddrV4}
  {data bytes : Buffer} {checksumOffload : Bool}

/-- The UDP peer is given what was sent up to the length field, or nothing if the TCP peer takes it. -/
theorem udpPart_frame
    (hf : (sent localIpv4Addr localLinkAddr remoteLinkAddr local_ remote data checksumOffload).frame = some bytes) :
    ∃ ipv4Hdr checksum, ipv4Hdr.srcAddr = localIpv4Addr ∧ ipv4Hdr.dstAddr = remote.ip ∧
      UdpHeader.Checks ipv4Hdr ⟨local_.port, remote.port⟩ data checksum ∧
      udpPart bytes =
        let payload := ((⟨local_.port, remote.port⟩ : UdpHeader).layout (udpHeaderSize + data.length) checksum ++
          data).take ((udpHeaderSize + data.length) % 2 ^ 16)
        if divertsToTcp payload then none else some (ipv4Hdr, payload) := by
  obtain ⟨ipv4, hipv4, hf⟩ := Option.bind_eq_some_iff.mp hf
  obtain ⟨udp, hudp, hf⟩ := Option.bind_eq_some_iff.mp hf
  obtain ⟨checksum, hcheck, rfl⟩ := UdpHeader.serialize_eq List.length_replicate hudp
  obtain rfl := Option.some.inj hf
  generalize hpayload : (UdpHeader.layout ⟨local_.port, remote.port⟩ (udpHeaderSize + data.length) checksum ++ data) =
    payload
  generalize hm : (udpHeaderSize + data.length) % 2 ^ 16 = m
  change (Ipv4Header.new localIpv4Addr remote.ip .udp).serialize (udpHeaderSize + data.length) = some ipv4 at hipv4
  have hfits : 20 + m < 2 ^ 16 := by
    rw [← hm]
    by_contra hnot
    rw [Ipv4Header.serialize, if_neg hnot] at hipv4
    cases hipv4
  have htake : (payload.take m).length = m := by
    have hle : m ≤ udpHeaderSize + data.length := hm ▸ Nat.mod_le _ _
    have hlen : payload.length = udpHeaderSize + data.length := by
      rw [← hpayload, List.length_append]
      rfl
    rw [List.length_take, hlen, Nat.min_eq_left hle]
  obtain ⟨out, hout, -, hparse⟩ := Ipv4Header.parse_serializeWith
    (.new localIpv4Addr remote.ip .udp : Ipv4Header.Made (.new localIpv4Addr remote.ip .udp)) rfl
    (show (payload.take m).length ≤ 65515 by omega) (payload.drop m)
  have hsame : ipv4 = out := by
    rw [htake, ← hm, Ipv4Header.serialize_mod, hipv4] at hout
    exact Option.some.inj hout
  subst hsame
  rw [List.append_assoc, List.take_append_drop] at hparse
  refine ⟨{ Ipv4Header.headerAt (ipv4 ++ payload) .udp with
    flags := 2, srcAddr := localIpv4Addr, dstAddr := remote.ip }, checksum, rfl, rfl, hcheck.congr rfl rfl, ?_⟩
  have heth := Ethernet2Header.parse_serialize ⟨remoteLinkAddr, localLinkAddr, .ipv4⟩ (ipv4 ++ payload)
  have hbytes : ∀ header : Buffer, header ++ ipv4 ++
      UdpHeader.layout ⟨local_.port, remote.port⟩ (udpHeaderSize + data.length) checksum ++ data =
        header ++ (ipv4 ++ payload) := by
    intro header
    rw [← hpayload]
    simp only [List.append_assoc]
  show udpPart ((⟨remoteLinkAddr, localLinkAddr, .ipv4⟩ : Ethernet2Header).serialize ++ ipv4 ++
    UdpHeader.layout ⟨local_.port, remote.port⟩ (udpHeaderSize + data.length) checksum ++ data) = _
  rw [hbytes, udpPart, heth]
  dsimp only
  rw [hparse, hpayload]
  rfl

/-- The receiver of a frame puts this into a queue. -/
def Carries (bytes : Buffer) (slot : SharedQueueSlot Buffer) : Prop :=
  ∃ ipv4Hdr buf offload hdr, udpPart bytes = some (ipv4Hdr, buf) ∧
    UdpHeader.parse ipv4Hdr buf offload = some (.ok (hdr, slot.data)) ∧
    slot.local_ = ⟨ipv4Hdr.dstAddr, hdr.destPort⟩ ∧ slot.remote = ⟨ipv4Hdr.srcAddr, hdr.srcPort⟩

theorem carries_frame
    (hf : (sent localIpv4Addr localLinkAddr remoteLinkAddr local_ remote data checksumOffload).frame = some bytes)
    {slot : SharedQueueSlot Buffer} (hc : Carries bytes slot) :
    slot = ⟨remote, ⟨localIpv4Addr, local_.port⟩, carriedData data⟩ ∧ divertedData slot.data = false := by
  obtain ⟨ipv4Hdr, checksum, hsrc, hdst, -, hpart⟩ := udpPart_frame hf
  obtain ⟨ipv4Hdr', buf, offload, hdr, hpart', hparse, hlocal, hremote⟩ := hc
  rw [hpart] at hpart'
  dsimp only at hpart'
  split at hpart'
  next => cases hpart'
  next hdiv =>
    obtain ⟨rfl, rfl⟩ := Prod.mk.inj (Option.some.inj hpart')
    obtain ⟨hlower, rfl, hdata⟩ := UdpHeader.parse_cut hparse
    rw [hsrc] at hremote
    rw [hdst] at hlocal
    rw [(UdpHeader.layout_cut _ data checksum hlower).2, UdpHeader.diverts_layout, ← hdata, Bool.not_eq_true] at hdiv
    refine ⟨?_, hdiv⟩
    obtain ⟨slotLocal, slotRemote, slotData⟩ := slot
    dsimp only at hlocal hremote hdata
    rw [hlocal, hremote, hdata]

/-- A datagram that fits the length field of the IPv4 header can be sent. -/
theorem frame_of_fits (localIpv4Addr : Ipv4Addr) (localLinkAddr remoteLinkAddr : MacAddress)
    (local_ remote : SocketAddrV4) (checksumOffload : Bool)
    (hfits : ipv4HeaderMinSize + udpHeaderSize + data.length < 2 ^ 16) :
    ∃ bytes, (sent localIpv4Addr localLinkAddr remoteLinkAddr local_ remote data checksumOffload).frame =
      some bytes := by
  have h28 : 20 + 8 + data.length < 65536 := hfits
  have hlt : udpHeaderSize + data.length < 2 ^ 16 := by
    show 8 + data.length < 65536
    omega
  have hipv4 : (Ipv4Header.new localIpv4Addr remote.ip .udp).serialize (udpHeaderSize + data.length) = some _ :=
    if_pos (by rw [Nat.mod_eq_of_lt hlt]; show 20 + (8 + data.length) < 65536; omega)
  obtain ⟨checksum, hudp⟩ := UdpHeader.serialize_of_fits ⟨local_.port, remote.port⟩
    (.new localIpv4Addr remote.ip .udp) (List.length_replicate (n := udpHeaderSize) (a := (0 : UInt8))) hlt
    checksumOffload
  refine Option.isSome_iff_exists.mp ?_
  show (Option.bind ((Ipv4Header.new localIpv4Addr remote.ip .udp).serialize (udpHeaderSize + data.length))
    _).isSome = true
  rw [hipv4, Option.bind_some]
  show (Option.bind (UdpHeader.serialize ⟨local_.port, remote.port⟩ _ (.new localIpv4Addr remote.ip .udp) data
    checksumOffload) _).isSome = true
  rw [hudp]
  rfl

/-- Every receiver finds the data in the frame unless the TCP peer takes them. -/
theorem udpPart_of_fits
    (hf : (sent localIpv4Addr localLinkAddr remoteLinkAddr local_ remote data checksumOffload).frame = some bytes)
    (hfits : udpHeaderSize + data.length < 2 ^ 16) (hdata : divertedData data = false) :
    ∃ ipv4Hdr buf, udpPart bytes = some (ipv4Hdr, buf) ∧ ipv4Hdr.srcAddr = localIpv4Addr ∧
      ipv4Hdr.dstAddr = remote.ip ∧ ∀ offload, UdpHeader.parse ipv4Hdr buf offload =
        some (.ok (⟨local_.port, remote.port⟩, data)) := by
  obtain ⟨ipv4Hdr, checksum, hsrc, hdst, hcheck, hpart⟩ := udpPart_frame hf
  have hlen : ∀ h : UdpHeader, (h.layout (udpHeaderSize + data.length) checksum ++ data).length =
      udpHeaderSize + data.length := by
    intro h
    rw [List.length_append]
    rfl
  rw [Nat.mod_eq_of_lt hfits, List.take_of_length_le (Nat.le_of_eq (hlen _))] at hpart
  dsimp only at hpart
  rw [UdpHeader.diverts_layout, hdata, if_neg Bool.false_ne_true] at hpart
  exact ⟨ipv4Hdr, _, hpart, hsrc, hdst, UdpHeader.parse_of_checks hfits hcheck⟩

end

end UdpDatagram

end Capybara
