import Capybara.Lib.WordSum
import Capybara.TcpMigHeader

namespace Capybara

open Wire

namespace TcpMigHeader

def isTcpmig (buf : Buffer) : Bool := tcpmigHeaderSize ≤ buf.length ∧ u32At buf 8 = magicNumber

/-- A datagram in which one aligned 16-bit word is different: of the message except for its checksum, which is the
word number 3, or of one of the addresses. -/
inductive Corrupts (ipv4Hdr : Ipv4Header) (buf : Buffer) (ipv4Hdr' : Ipv4Header) (buf' : Buffer) : Prop
  | message {k : Nat} (hk : k ≠ 3) (hbuf : ChangesWord k buf buf') (hsrc : ipv4Hdr'.srcAddr = ipv4Hdr.srcAddr)
      (hdst : ipv4Hdr'.dstAddr = ipv4Hdr.dstAddr)
  | srcAddr {k : Nat} (hbuf : buf' = buf) (hsrc : ChangesWord k ipv4Hdr.srcAddr.octets ipv4Hdr'.srcAddr.octets)
      (hdst : ipv4Hdr'.dstAddr = ipv4Hdr.dstAddr)
  | dstAddr {k : Nat} (hbuf : buf' = buf) (hsrc : ipv4Hdr'.srcAddr = ipv4Hdr.srcAddr)
      (hdst : ChangesWord k ipv4Hdr.dstAddr.octets ipv4Hdr'.dstAddr.octets)

/-- The words that the checksum of a datagram is taken over. -/
def covered (ipv4Hdr : Ipv4Header) (buf : Buffer) : UInt16 :=
  wordSum ipv4Hdr.srcAddr.octets + wordSum ipv4Hdr.dstAddr.octets + wordSum (buf.take 6) + wordSum (buf.drop 8)

section

variable {ipv4Hdr ipv4Hdr' : Ipv4Header} {buf buf' : Buffer}

theorem checksum_eq (ipv4Hdr : Ipv4Header) {buf : Buffer} (hl : tcpmigHeaderSize ≤ buf.length) :
    checksum ipv4Hdr (buf.take tcpmigHeaderSize) (buf.drop tcpmigHeaderSize) = 0 - covered ipv4Hdr buf := by
  have hsize : tcpmigHeaderSize = 28 := rfl
  have hfront : (buf.take tcpmigHeaderSize).take 6 = buf.take 6 := by
    rw [List.take_take, hsize]
    rfl
  have hback : wordSum ((buf.take tcpmigHeaderSize).drop 8) + wordSum (buf.drop tcpmigHeaderSize) =
      wordSum (buf.drop 8) := by
    have heven : ((buf.take tcpmigHeaderSize).drop 8).length % 2 = 0 := by
      rw [List.length_drop, List.length_take]
      omega
    rw [← wordSum_append heven, ← List.drop_append_of_le_length, List.take_append_drop]
    rw [List.length_take]
    omega
  have hoctets : ∀ addr : Ipv4Addr, (words addr.octets).sum = wordSum addr.octets := by
    intro addr
    apply sum_words_of_even
    have hfour : addr.octets.length = 4 := rfl
    rw [hfour]
  have hsix : (words (buf.take 6)).sum = wordSum (buf.take 6) := by
    apply sum_words_of_even
    rw [List.length_take]
    omega
  have htwenty : (words ((buf.take tcpmigHeaderSize).drop 8)).sum = wordSum ((buf.take tcpmigHeaderSize).drop 8) := by
    apply sum_words_of_even
    rw [List.length_drop, List.length_take]
    omega
  unfold checksum covered
  dsimp only
  rw [← List.sum_eq_foldl, hfront]
  simp only [List.sum_append, hoctets, hsix, htwenty]
  rw [add_assoc, sum_words_padded, add_assoc, hback]

/-- What a datagram that is parsed has gone through. -/
theorem parse_checks {parsed : TcpMigHeader × Buffer} (h : parse ipv4Hdr buf = .ok parsed) :
    tcpmigHeaderSize ≤ buf.length ∧ (u16At buf 6 = 0 ∨ u16At buf 6 = 0 - covered ipv4Hdr buf) := by
  have hlength : tcpmigHeaderSize ≤ buf.length := by
    by_contra hshort
    simp only [parse, refuse, if_pos (Nat.lt_of_not_le hshort)] at h
    cases h
  refine ⟨hlength, ?_⟩
  by_contra hno
  obtain ⟨hnonzero, hne⟩ := not_or.mp hno
  rw [← checksum_eq ipv4Hdr hlength] at hne
  have hnot : ¬buf.length < tcpmigHeaderSize := by omega
  simp only [parse, refuse, if_neg hnot] at h
  by_cases hmagic : u32At buf 8 ≠ magicNumber
  · rw [if_pos hmagic] at h
    cases h
  · rw [if_neg hmagic] at h
    cases hstage : MigrationStage.tryFrom ((byteAt buf 26 &&& 0xF0) >>> 4) with
    | error e =>
      rw [hstage] at h
      cases h
    | ok stage =>
      rw [hstage] at h
      simp only [bind, Except.bind, hnonzero, hne, ne_eq, not_false_eq_true, and_self, if_true] at h
      cases h

theorem covered_ne (h : Corrupts ipv4Hdr buf ipv4Hdr' buf') : covered ipv4Hdr' buf' ≠ covered ipv4Hdr buf := by
  unfold covered
  cases h with
  | @message k hk hbuf hsrc hdst =>
    rw [hsrc, hdst]
    by_cases hfront : k < 3
    · have htake := (hbuf.take hfront).wordSum_ne
      have hdrop : buf'.drop 8 = buf.drop 8 := hbuf.drop_eq (show k < 4 by omega)
      rw [hdrop]
      exact fun heq => htake (add_left_cancel (add_right_cancel heq))
    · obtain ⟨j, rfl⟩ : ∃ j, k = 4 + j := ⟨k - 4, by omega⟩
      have hdrop := hbuf.drop.wordSum_ne
      have htake : buf'.take 6 = buf.take 6 := hbuf.take_eq (show 3 ≤ 4 + j by omega)
      rw [htake]
      exact fun heq => hdrop (add_left_cancel heq)
  | srcAddr hbuf hsrc hdst =>
    have hne := hsrc.wordSum_ne
    rw [hbuf, hdst]
    exact fun heq => hne (add_right_cancel (add_right_cancel (add_right_cancel heq)))
  | dstAddr hbuf hsrc hdst =>
    have hne := hdst.wordSum_ne
    rw [hbuf, hsrc]
    exact fun heq => hne (add_left_cancel (add_right_cancel (add_right_cancel heq)))

theorem u16At_congr {bytes bytes' : Bytes} {i : Nat} (h₀ : bytes'[i]? = bytes[i]?)
    (h₁ : bytes'[i + 1]? = bytes[i + 1]?) : u16At bytes' i = u16At bytes i := by
  simp only [u16At, byteAt, List.getD_eq_getElem?_getD, h₀, h₁]

/-- The stored checksum itself is left alone. -/
theorem stored_eq (h : Corrupts ipv4Hdr buf ipv4Hdr' buf') : u16At buf' 6 = u16At buf 6 := by
  cases h with
  | message hk hbuf => exact u16At_congr (hbuf.same 6 (by omega)) (hbuf.same 7 (by omega))
  | srcAddr hbuf => rw [hbuf]
  | dstAddr hbuf => rw [hbuf]

theorem parse_error_of_corrupts {parsed : TcpMigHeader × Buffer} (hp : parse ipv4Hdr buf = .ok parsed)
    (hnonzero : u16At buf 6 ≠ 0) (h : Corrupts ipv4Hdr buf ipv4Hdr' buf') : ∃ e, parse ipv4Hdr' buf' = .error e := by
  cases hp' : parse ipv4Hdr' buf' with
  | error e => exact ⟨e, rfl⟩
  | ok parsed' =>
    have hsum := (parse_checks hp).2.resolve_left hnonzero
    have hstored := stored_eq h
    rw [← hstored] at hnonzero
    have hsum' := (parse_checks hp').2.resolve_left hnonzero
    rw [hstored, hsum] at hsum'
    exact absurd (sub_right_injective hsum').symm (covered_ne h)

end

/-- A serialized header with its payload is recognised and parsed back, and if its checksum is not zero, no change of a
single word goes undetected. -/
theorem parse_serialize_detects (h : TcpMigHeader) (ipv4Hdr : Ipv4Header) (data : Buffer) :
    isTcpmig (h.serialize ipv4Hdr data ++ data) = true ∧
      parse ipv4Hdr (h.serialize ipv4Hdr data ++ data) = .ok (h, data) ∧
      (u16At (h.serialize ipv4Hdr data ++ data) 6 ≠ 0 → ∀ ipv4Hdr' buf',
        Corrupts ipv4Hdr (h.serialize ipv4Hdr data ++ data) ipv4Hdr' buf' → ∃ e, parse ipv4Hdr' buf' = .error e) := by
  have hparse := parse_serialize h ipv4Hdr data
  refine ⟨?_, hparse, fun hnonzero ipv4Hdr' buf' hc => parse_error_of_corrupts hparse hnonzero hc⟩
  have hlength := (parse_checks hparse).1
  have hmagic : u32At (h.serialize ipv4Hdr data ++ data) 8 = magicNumber := ofBe32_be32 magicNumber
  exact decide_eq_true ⟨hlength, hmagic⟩

def sampleHeader : TcpMigHeader :=
  ⟨⟨⟨10, 0, 1, 8⟩, 10000⟩, ⟨⟨10, 0, 1, 7⟩, 201⟩, 29, 0, false, false, .connectionState, 10000, 10001⟩

/-- A payload of odd length, and a source address that is not the one the checksum was taken with. -/
theorem parse_serialize_detects_srcAddr :
    ∃ e, parse (.new ⟨10, 0, 1, 6⟩ ⟨10, 0, 1, 8⟩ .udp)
      (sampleHeader.serialize (.new ⟨10, 0, 1, 9⟩ ⟨10, 0, 1, 8⟩ .udp) [7] ++ [7]) = .error e := by
  obtain ⟨-, -, hdetects⟩ := parse_serialize_detects sampleHeader (.new ⟨10, 0, 1, 9⟩ ⟨10, 0, 1, 8⟩ .udp) [7]
  refine hdetects (by decide) _ _ (@Corrupts.srcAddr _ _ _ _ 1 rfl ⟨rfl, fun i hi => ?_, by decide⟩ rfl)
  match i with
  | 0 | 1 | i + 4 => rfl
  | 2 | 3 => exact absurd rfl hi

end TcpMigHeader

end Capybara
