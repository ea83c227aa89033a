import Capybara.Checksums

namespace Capybara

open Wire

structure UdpHeader where
  srcPort : UInt16
  destPort : UInt16
  deriving DecidableEq, Repr

namespace UdpHeader

def checksumMismatch : Fail := ⟨.EBADMSG, "UDP checksum mismatch"⟩

/-- Zero stands for a checksum that was not computed. -/
def checksumMatches (ipv4Hdr : Ipv4Header) (hdrBuf payloadBuf : Buffer) : Option Bool := do
  let checksum ← sliceU16 hdrBuf 6
  if checksum ≠ 0 then
    let computed ← udpChecksum ipv4Hdr hdrBuf payloadBuf
    some (checksum = computed)
  else some true

def parse (ipv4Hdr : Ipv4Header) (buf : Buffer) (checksumOffload : Bool) :
    Option (Except Fail (UdpHeader × Buffer)) :=
  if buf.length < udpHeaderSize then some (.error ⟨.EBADMSG, "UDP segment too small"⟩)
  else do
    let (hdrBuf, payloadBuf) ← splitAt buf udpHeaderSize
    let srcPort ← sliceU16 hdrBuf 0
    let destPort ← sliceU16 hdrBuf 2
    let length ← sliceU16 hdrBuf 4
    if length.toNat ≠ buf.length then some (.error ⟨.EBADMSG, "UDP length mismatch"⟩)
    else
      let verified ← (if checksumOffload then some true else checksumMatches ipv4Hdr hdrBuf payloadBuf : Option Bool)
      if verified then some (.ok (⟨srcPort, destPort⟩, payloadBuf)) else some (.error checksumMismatch)

/-- The header with the given word in the checksum field. -/
def layout (h : UdpHeader) (length : Nat) (checksum : UInt16) : Buffer :=
  be16 h.srcPort ++ be16 h.destPort ++ be16 (UInt16.ofNat length) ++ be16 checksum

/-- The checksum field keeps what the buffer held until the rest is written. -/
def serialize (h : UdpHeader) (buf : Buffer) (ipv4Hdr : Ipv4Header) (data : Buffer) (checksumOffload : Bool) :
    Option Buffer := do
  let length := udpHeaderSize + data.length
  let (fixed, rest) ← put (h.layout length (u16At buf 6)) buf
  let checksum ← (if checksumOffload then some 0 else udpChecksum ipv4Hdr fixed data : Option UInt16)
  some (h.layout length checksum ++ rest)

/-- A datagram whose length field is the length of the buffer. -/
structure Framed (buf : Buffer) : Prop where
  lower : udpHeaderSize ≤ buf.length
  length : (u16At buf 4).toNat = buf.length

theorem Framed.lt {buf : Buffer} (h : Framed buf) : buf.length < 2 ^ 16 := h.length ▸ UInt16.toNat_lt _

/-- The stored checksum is absent, or the computed one. -/
theorem checksumMatches_eq {ipv4Hdr : Ipv4Header} {buf : Buffer} (h : Framed buf) :
    checksumMatches ipv4Hdr (buf.take udpHeaderSize) (buf.drop udpHeaderSize) =
      some (decide (u16At buf 6 ≠ 0 →
        u16At buf 6 = internetChecksum (checkedWords ipv4Hdr .udp (zeroWordAt buf 6)))) := by
  have hlower : 8 ≤ buf.length := h.lower
  have hlt := h.lt
  have htake : (buf.take udpHeaderSize).length = udpHeaderSize := by
    rw [List.length_take, Nat.min_eq_left h.lower]
  have hdrop : (buf.drop udpHeaderSize).length = buf.length - 8 := List.length_drop
  have hzero : zeroWordAt (buf.take udpHeaderSize) 6 ++ buf.drop udpHeaderSize = zeroWordAt buf 6 := by
    rw [zeroWordAt, zeroWordAt, List.take_take, List.drop_take, udpHeaderSize]
    simp
  have hstored : sliceU16 (buf.take udpHeaderSize) 6 = some (u16At buf 6) := by
    rw [sliceU16_of_le (by rw [htake]; decide), u16At_take (by decide)]
  have hsum := @udpChecksum_eq_internetChecksum ipv4Hdr (buf.take udpHeaderSize) (buf.drop udpHeaderSize) htake
    (by rw [htake, hdrop, udpHeaderSize]; omega)
  rw [hzero] at hsum
  rw [checksumMatches, hstored, Option.bind_eq_bind, Option.bind_some]
  split
  next hne =>
    rw [hsum]
    simp [hne]
  next he => simp [Decidable.not_not.mp he]

theorem parse_of_framed {ipv4Hdr : Ipv4Header} {buf : Buffer} (h : Framed buf) (offload : Bool) :
    parse ipv4Hdr buf offload =
      some (if offload = true ∨ (u16At buf 6 ≠ 0 →
          u16At buf 6 = internetChecksum (checkedWords ipv4Hdr .udp (zeroWordAt buf 6))) then
        .ok (⟨u16At buf 0, u16At buf 2⟩, buf.drop udpHeaderSize)
      else .error checksumMismatch) := by
  have hlower : 8 ≤ buf.length := h.lower
  have htake : (buf.take udpHeaderSize).length = 8 := by
    rw [List.length_take, Nat.min_eq_left h.lower]
    rfl
  have h0 := @sliceU16_of_le (buf.take udpHeaderSize) 0 (by omega)
  have h2 := @sliceU16_of_le (buf.take udpHeaderSize) 2 (by omega)
  have h4 := @sliceU16_of_le (buf.take udpHeaderSize) 4 (by omega)
  rw [u16At_take (by decide)] at h0 h2 h4
  rw [parse, if_neg (Nat.not_lt.mpr h.lower), splitAt_of_le h.lower, Option.bind_eq_bind, Option.bind_some]
  show (sliceU16 (buf.take udpHeaderSize) 0).bind _ = _
  rw [h0, Option.bind_some]
  show (sliceU16 (buf.take udpHeaderSize) 2).bind _ = _
  rw [h2, Option.bind_some]
  show (sliceU16 (buf.take udpHeaderSize) 4).bind _ = _
  rw [h4, Option.bind_some, if_neg (fun hne => hne h.length), checksumMatches_eq h]
  cases offload with
  | true => rfl
  | false =>
    show (if _ then _ else _) = _
    simp only [Bool.false_eq_true, false_or, decide_eq_true_eq]
    split
    next => rfl
    next => rfl

theorem framed_layout (h : UdpHeader) (checksum : UInt16) {data : Buffer} (hl : udpHeaderSize + data.length < 2 ^ 16) :
    Framed (h.layout (udpHeaderSize + data.length) checksum ++ data) := by
  have hlen : (h.layout (udpHeaderSize + data.length) checksum ++ data).length = udpHeaderSize + data.length := by
    rw [List.length_append]
    rfl
  refine ⟨by rw [hlen]; exact Nat.le_add_right _ _, ?_⟩
  have hword : u16At (h.layout (udpHeaderSize + data.length) checksum ++ data) 4 =
      UInt16.ofNat (udpHeaderSize + data.length) := ofBe16_be16 _
  rw [hword, hlen, UInt16.toNat_ofNat']
  exact Nat.mod_eq_of_lt hl

theorem udpChecksum_layout (h : UdpHeader) (ipv4Hdr : Ipv4Header) (length : Nat) (checksum : UInt16) (data : Buffer) :
    udpChecksum ipv4Hdr (h.layout length checksum) data = udpChecksum ipv4Hdr (h.layout length 0) data := rfl

/-- A datagram that fits the length field is parsed back; a checksum that comes out as zero is not looked at. -/
theorem datagram_roundTrip (h : UdpHeader) (ipv4Hdr : Ipv4Header) {data buf : Buffer}
    (hl : udpHeaderSize + data.length < 2 ^ 16) (hb : buf.length = udpHeaderSize) (offload : Bool) :
    ∃ header, h.serialize buf ipv4Hdr data offload = some header ∧
      parse ipv4Hdr (header ++ data) offload = some (.ok (h, data)) := by
  have hput : put (h.layout (udpHeaderSize + data.length) (u16At buf 6)) buf =
      some (h.layout (udpHeaderSize + data.length) (u16At buf 6), []) := by
    have hlen : (h.layout (udpHeaderSize + data.length) (u16At buf 6)).length = udpHeaderSize := rfl
    rw [put, hlen, if_pos (Nat.le_of_eq hb.symm), List.drop_eq_nil_of_le (Nat.le_of_eq hb)]
  have hparse : ∀ checksum, (offload = true ∨ udpChecksum ipv4Hdr (h.layout (udpHeaderSize + data.length) 0) data =
      some checksum) → parse ipv4Hdr (h.layout (udpHeaderSize + data.length) checksum ++ data) offload =
        some (.ok (h, data)) := by
    intro checksum hc
    have hframed := framed_layout h checksum hl
    have hstored : u16At (h.layout (udpHeaderSize + data.length) checksum ++ data) 6 = checksum := ofBe16_be16 _
    have hsum := @udpChecksum_eq_internetChecksum ipv4Hdr (h.layout (udpHeaderSize + data.length) checksum) data rfl hl
    have hzero : zeroWordAt (h.layout (udpHeaderSize + data.length) checksum ++ data) 6 =
        zeroWordAt (h.layout (udpHeaderSize + data.length) checksum) 6 ++ data := rfl
    have h0 : u16At (h.layout (udpHeaderSize + data.length) checksum ++ data) 0 = h.srcPort := ofBe16_be16 _
    have h2 : u16At (h.layout (udpHeaderSize + data.length) checksum ++ data) 2 = h.destPort := ofBe16_be16 _
    rw [parse_of_framed hframed, if_pos, h0, h2]
    · rfl
    · rcases hc with rfl | hc
      · exact .inl rfl
      · right
        intro _
        rw [hstored, hzero]
        exact Option.some.inj (hc.symm.trans ((udpChecksum_layout h ipv4Hdr _ checksum data).symm.trans hsum))
  rw [serialize, hput]
  cases offload with
  | true => exact ⟨_, rfl, by rw [List.append_nil]; exact hparse 0 (.inl rfl)⟩
  | false =>
    have hsum := @udpChecksum_eq_internetChecksum ipv4Hdr (h.layout (udpHeaderSize + data.length) 0) data rfl hl
    refine ⟨h.layout (udpHeaderSize + data.length) (internetChecksum (checkedWords ipv4Hdr .udp
      (zeroWordAt (h.layout (udpHeaderSize + data.length) 0) 6 ++ data))), ?_, hparse _ (.inr hsum)⟩
    show (udpChecksum ipv4Hdr (h.layout (udpHeaderSize + data.length) 0) data).bind _ = _
    rw [hsum, Option.bind_some, List.append_nil]

end UdpHeader

end Capybara
