import Capybara.TcpHeaderCodec
import Capybara.UdpHeader

namespace Capybara

open Wire

def TcpHeader.checksumMismatch : Fail := ⟨.EBADMSG, "TCP checksum mismatch"⟩

theorem zeroWordAt_append {front back : Buffer} {i : Nat} (h : i + 2 ≤ front.length) :
    zeroWordAt (front ++ back) i = zeroWordAt front i ++ back := by
  rw [zeroWordAt, zeroWordAt, List.take_append_of_le_length (by omega), List.drop_append_of_le_length (by omega),
    List.append_assoc]
  rfl

/-- A TCP segment of 16-bit length passes when its checksum is the computed one. -/
theorem TcpHeader.parse_mismatch_iff {ipv4Header : Ipv4Header} {buf : Buffer} {n : Nat} (h : TcpHeader.Framed buf n)
    (hl : buf.length < 2 ^ 16) :
    TcpHeader.parse ipv4Header buf false ≠ some (.error TcpHeader.checksumMismatch) ↔
      u16At buf 16 = internetChecksum (checkedWords ipv4Header .tcp (zeroWordAt buf 16)) := by
  have hlower : 20 ≤ n := h.lower
  have htake := h.length_take
  have hle := h.fits
  have hzero : zeroWordAt (buf.take n) 16 ++ buf.drop n = zeroWordAt buf 16 := by
    rw [← zeroWordAt_append (by omega), List.take_append_drop]
  have hsum := @tcpChecksum_eq_internetChecksum ipv4Header (buf.take n) (buf.drop n) (by rw [htake]; exact h.lower)
    (by rw [htake]; exact h.even) (by rw [htake, List.length_drop]; omega)
  rw [hzero] at hsum
  rw [TcpHeader.parse_of_framed ipv4Header h, hsum]
  simp only [Bool.false_eq_true, if_false, Option.map_some, Option.bind_some, decide_eq_true_eq]
  by_cases he : u16At buf 16 = internetChecksum (checkedWords ipv4Header .tcp (zeroWordAt buf 16))
  · rw [if_pos he]
    refine ⟨fun _ => he, fun _ hmismatch => ?_⟩
    cases ho : parseOptions [] ((buf.take n).drop minTcpHeaderSize) with
    | error e =>
      rw [ho] at hmismatch
      have hmem := parseOptions_error ho
      rw [Except.error.inj (Option.some.inj hmismatch)] at hmem
      exact absurd hmem (by decide)
    | ok options =>
      rw [ho] at hmismatch
      cases hmismatch
  · rw [if_neg he]
    exact ⟨fun hne => absurd rfl hne, fun heq => absurd heq he⟩

theorem UdpHeader.parse_mismatch_iff {ipv4Hdr : Ipv4Header} {buf : Buffer} (h : UdpHeader.Framed buf)
    (hz : u16At buf 6 ≠ 0) :
    UdpHeader.parse ipv4Hdr buf false ≠ some (.error UdpHeader.checksumMismatch) ↔
      u16At buf 6 = internetChecksum (checkedWords ipv4Hdr .udp (zeroWordAt buf 6)) := by
  rw [UdpHeader.parse_of_framed h]
  by_cases he : u16At buf 6 = internetChecksum (checkedWords ipv4Hdr .udp (zeroWordAt buf 6))
  · rw [if_pos (.inr fun _ => he)]
    exact ⟨fun _ => he, fun _ hmismatch => (by cases hmismatch)⟩
  · rw [if_neg]
    · exact ⟨fun hne => absurd rfl hne, fun heq => absurd heq he⟩
    · rintro (hfalse | hall)
      · cases hfalse
      · exact he (hall hz)

/-- The words with the stored checksum left out add up to the second representation of zero, and the sender stored
that representation. -/
def StoredNegativeZero (ipv4Header : Ipv4Header) (protocol : IpProtocol) (buf : Buffer) (i : Nat) : Prop :=
  u16At buf i = 0xffff ∧ onesSum (checkedWords ipv4Header protocol (zeroWordAt buf i)) = 0xffff

theorem accepts_iff_of_stored {ipv4Header : Ipv4Header} {protocol : IpProtocol} {buf : Buffer} {i : Nat}
    (he : i % 2 = 0) (hi : i + 2 ≤ buf.length) {accepts : Prop}
    (h : accepts ↔ u16At buf i = internetChecksum (checkedWords ipv4Header protocol (zeroWordAt buf i))) :
    (accepts ↔ onesSum (checkedWords ipv4Header protocol buf) = 0xffff) ↔
      ¬StoredNegativeZero ipv4Header protocol buf i := by
  rw [h, onesSum_checkedWords_iff ipv4Header protocol he hi]
  constructor
  · rintro hiff ⟨hstored, hsum⟩
    have heq := hiff.mpr (.inr ⟨hstored, hsum⟩)
    rw [hstored] at heq
    have hn := congrArg UInt16.toNat heq
    have hmax : (0xffff : UInt16).toNat = 0xffff := rfl
    rw [toNat_internetChecksum, ← toNat_onesSum, hsum, hmax] at hn
    omega
  · exact fun hnot => ⟨.inl, fun hor => hor.resolve_right hnot⟩

/-- Both checksums are the Internet checksum, and a receiver that compares misses only the second representation of
zero. -/
theorem checksums_iff (ipv4Header : Ipv4Header) :
    (∀ header data : Buffer, minTcpHeaderSize ≤ header.length → header.length % 2 = 0 →
      header.length + data.length ≤ 65535 → tcpChecksum ipv4Header header data =
        some (internetChecksum (checkedWords ipv4Header .tcp (zeroWordAt header 16 ++ data)))) ∧
    (∀ udpHdr data : Buffer, udpHdr.length = udpHeaderSize → udpHdr.length + data.length ≤ 65535 →
      udpChecksum ipv4Header udpHdr data =
        some (internetChecksum (checkedWords ipv4Header .udp (zeroWordAt udpHdr 6 ++ data)))) ∧
    (∀ buf n, TcpHeader.Framed buf n → buf.length ≤ 65535 →
      ((TcpHeader.parse ipv4Header buf false ≠ some (.error TcpHeader.checksumMismatch) ↔
        onesSum (checkedWords ipv4Header .tcp buf) = 0xffff) ↔ ¬StoredNegativeZero ipv4Header .tcp buf 16)) ∧
    ∀ buf, UdpHeader.Framed buf → u16At buf 6 ≠ 0 →
      ((UdpHeader.parse ipv4Header buf false ≠ some (.error UdpHeader.checksumMismatch) ↔
        onesSum (checkedWords ipv4Header .udp buf) = 0xffff) ↔ ¬StoredNegativeZero ipv4Header .udp buf 6) := by
  refine ⟨fun header data h he hl => ?_, fun udpHdr data h hl => ?_, fun buf n hf hl => ?_, fun buf hf hz => ?_⟩
  · exact tcpChecksum_eq_internetChecksum ipv4Header h he (by omega)
  · exact udpChecksum_eq_internetChecksum ipv4Header h (by omega)
  · have hlower : 20 ≤ n := hf.lower
    have hfits := hf.fits
    exact accepts_iff_of_stored (by decide) (by omega) (TcpHeader.parse_mismatch_iff hf (by omega))
  · exact accepts_iff_of_stored (by decide) hf.lower (UdpHeader.parse_mismatch_iff hf hz)

def negativeZeroIp : Ipv4Header := .new ⟨10, 0, 0, 1⟩ ⟨10, 0, 0, 2⟩ .udp

/-- A datagram whose computed checksum is zero and is sent as all ones. -/
def negativeZeroDatagram : Buffer := be16 0xEB00 ++ be16 0xDB ++ be16 8 ++ be16 0xffff

theorem negativeZeroDatagram_framed : UdpHeader.Framed negativeZeroDatagram := ⟨by decide, by decide⟩

def negativeZeroSegment : Buffer :=
  be16 0x9B00 ++ be16 0xE2 ++ be32 0 ++ be32 0 ++ [0x50, 0] ++ be16 0 ++ be16 0xffff ++ be16 0

theorem negativeZeroSegment_framed : TcpHeader.Framed negativeZeroSegment 20 :=
  ⟨by decide, by decide, by decide, by decide⟩

/-- The sums are right and both receivers refuse. -/
theorem negativeZero_refused :
    (onesSum (checkedWords negativeZeroIp .udp negativeZeroDatagram) = 0xffff ∧
      UdpHeader.parse negativeZeroIp negativeZeroDatagram false = some (.error UdpHeader.checksumMismatch)) ∧
    onesSum (checkedWords negativeZeroIp .tcp negativeZeroSegment) = 0xffff ∧
      TcpHeader.parse negativeZeroIp negativeZeroSegment false = some (.error TcpHeader.checksumMismatch) := by
  refine ⟨⟨by decide +kernel, ?_⟩, by decide +kernel, ?_⟩
  · have h := @UdpHeader.parse_mismatch_iff negativeZeroIp _ negativeZeroDatagram_framed (by decide)
    exact Decidable.not_not.mp fun hne => absurd (h.mp hne) (by decide +kernel)
  · have h := @TcpHeader.parse_mismatch_iff negativeZeroIp _ 20 negativeZeroSegment_framed (by decide)
    exact Decidable.not_not.mp fun hne => absurd (h.mp hne) (by decide +kernel)

theorem checksums_iff_sample :
    udpChecksum negativeZeroIp (be16 80 ++ be16 1024 ++ be16 11 ++ be16 0) [1, 2, 3] =
      some (internetChecksum (checkedWords negativeZeroIp .udp
        (be16 80 ++ be16 1024 ++ be16 11 ++ be16 0 ++ [1, 2, 3]))) ∧
    (TcpHeader.parse negativeZeroIp (be16 0x9B00 ++ be16 0xE2 ++ be32 0 ++ be32 0 ++ [0x50, 0] ++ be16 0 ++ be16 0 ++
      be16 0) false ≠ some (.error TcpHeader.checksumMismatch)) := by
  obtain ⟨-, hudp, htcp, -⟩ := checksums_iff negativeZeroIp
  refine ⟨hudp (be16 80 ++ be16 1024 ++ be16 11 ++ be16 0) [1, 2, 3] (by decide) (by decide), ?_⟩
  have h := htcp (be16 0x9B00 ++ be16 0xE2 ++ be32 0 ++ be32 0 ++ [0x50, 0] ++ be16 0 ++ be16 0 ++ be16 0) 20
    ⟨by decide, by decide, by decide, by decide⟩ (by decide)
  exact (h.mpr fun hstored => absurd hstored.1 (by decide)).mpr (by decide +kernel)

end Capybara
