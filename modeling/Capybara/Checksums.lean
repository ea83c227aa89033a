import Capybara.Frames
import Capybara.Lib.OnesComplement

namespace Capybara

open Wire

def minTcpHeaderSize : Nat := 20

def udpHeaderSize : Nat := 8

/-- `state += x` for one summand after the other. -/
def addAll (state : Nat) (summands : List Nat) : Option Nat := summands.foldlM addU32 state

/-- Both addresses and the protocol number. -/
def pseudoHeader (ipv4Header : Ipv4Header) (protocol : IpProtocol) : List UInt16 :=
  [u16At ipv4Header.srcAddr.octets 0, u16At ipv4Header.srcAddr.octets 2, u16At ipv4Header.dstAddr.octets 0,
    u16At ipv4Header.dstAddr.octets 2, ofBe16 0 protocol.code]

/-- The remainder of `chunks_exact(2)`. -/
def remainder (data : Buffer) : Buffer := data.drop (data.length / 2 * 2)

def payloadWords (data : Buffer) : List UInt16 :=
  words data ++ match remainder data with
    | b :: _ => [ofBe16 b 0]
    | [] => []

/-- What both protocols add up, given the words that they take from the header. -/
def summands (ipv4Header : Ipv4Header) (protocol : IpProtocol) (length : Nat) (headerWords : List UInt16)
    (data : Buffer) : List Nat :=
  (pseudoHeader ipv4Header protocol).map UInt16.toNat ++ length % 2 ^ 32 :: headerWords.map UInt16.toNat ++
    (payloadWords data).map UInt16.toNat

def segmentChecksum (ipv4Header : Ipv4Header) (protocol : IpProtocol) (length : Nat) (headerWords : List UInt16)
    (data : Buffer) : Option UInt16 := do
  let state ← addAll 0xffff (summands ipv4Header protocol length headerWords data)
  some (UInt16.ofNat (2 ^ 32 - 1 - Ipv4Header.foldCarry state))

/-- The checksum field at bytes 16 and 17 is left out. -/
def tcpFixedOffsets : List Nat := [0, 2, 4, 6, 8, 10, 12, 14, 18]

def tcpHeaderWords (header : Buffer) : List UInt16 :=
  tcpFixedOffsets.map (u16At header) ++ words (header.drop minTcpHeaderSize)

def tcpChecksum (ipv4Header : Ipv4Header) (header data : Buffer) : Option UInt16 :=
  if header.length < minTcpHeaderSize then none
  else if minTcpHeaderSize < header.length ∧ header.length % 2 ≠ 0 then none
  else segmentChecksum ipv4Header .tcp (header.length + data.length) (tcpHeaderWords header) data

def udpHeaderWords (udpHdr : Buffer) : List UInt16 := [u16At udpHdr 0, u16At udpHdr 2, u16At udpHdr 4]

def udpChecksum (ipv4Hdr : Ipv4Header) (udpHdr data : Buffer) : Option UInt16 :=
  if udpHdr.length ≠ udpHeaderSize then none
  else segmentChecksum ipv4Hdr .udp (udpHdr.length + data.length) (udpHeaderWords udpHdr) data

/-- The words that a checksum covers: the pseudo-header, and the segment padded to an even length. -/
def checkedWords (ipv4Header : Ipv4Header) (protocol : IpProtocol) (segment : Buffer) : List UInt16 :=
  pseudoHeader ipv4Header protocol ++ UInt16.ofNat segment.length :: paddedWords segment

theorem foldCarry_eq_residue (state : Nat) : Ipv4Header.foldCarry state = residue state := by
  fun_induction Ipv4Header.foldCarry state with
  | case1 state h ih => rw [ih, residue_sub h]
  | case2 state h => exact (residue_of_le (by omega)).symm

theorem addAll_of_lt {state : Nat} {ns : List Nat} (h : state + ns.sum < 2 ^ 32) :
    addAll state ns = some (state + ns.sum) := by
  induction ns generalizing state with
  | nil => rfl
  | cons n ns ih =>
    rw [List.sum_cons] at h ⊢
    have hs : addAll state (n :: ns) = (addU32 state n).bind fun s => addAll s ns := rfl
    rw [hs, addU32_of_lt (by omega), Option.bind_some, ih (by omega), Nat.add_assoc]

theorem addAll_of_le {state : Nat} {ns : List Nat} (hs : state < 2 ^ 32) (h : 2 ^ 32 ≤ state + ns.sum) :
    addAll state ns = none := by
  induction ns generalizing state with
  | nil =>
    rw [List.sum_nil] at h
    omega
  | cons n ns ih =>
    rw [List.sum_cons] at h
    have hn : addAll state (n :: ns) = (addU32 state n).bind fun s => addAll s ns := rfl
    rw [hn]
    rcases Nat.lt_or_ge (state + n) (2 ^ 32) with hlt | hge
    · rw [addU32_of_lt hlt, Option.bind_some]
      exact ih hlt (by omega)
    · rw [addU32, if_neg (by omega)]
      rfl

section Segments

variable {ipv4Header : Ipv4Header} {protocol : IpProtocol} {length : Nat} {headerWords : List UInt16} {data : Buffer}

theorem sum_summands :
    (summands ipv4Header protocol length headerWords data).sum =
      wordTotal (pseudoHeader ipv4Header protocol) + length % 2 ^ 32 + wordTotal headerWords +
        wordTotal (payloadWords data) := by
  simp only [summands, wordTotal, List.sum_append, List.sum_cons]
  omega

theorem wordTotal_pseudoHeader_pos (ipv4Header : Ipv4Header) (protocol : IpProtocol) :
    0 < wordTotal (pseudoHeader ipv4Header protocol) := by
  have hp : 0 < (ofBe16 0 protocol.code).toNat := by cases protocol <;> decide
  have hm : ofBe16 0 protocol.code ∈ pseudoHeader ipv4Header protocol := by simp [pseudoHeader]
  exact Nat.lt_of_lt_of_le hp (le_wordTotal hm)

theorem words_append_remainder (data : Buffer) : payloadWords data = paddedWords data := by
  unfold payloadWords remainder
  induction data using paddedWords.induct with
  | case1 a b data ih =>
    have hl : (a :: b :: data).length / 2 * 2 = data.length / 2 * 2 + 2 := by
      simp only [List.length_cons]
      omega
    rw [hl, List.drop_succ_cons, List.drop_succ_cons, words, paddedWords, List.cons_append, ih]
  | case2 a => simp [words, paddedWords]
  | case3 => rfl

theorem wordTotal_checkedWords (ipv4Header : Ipv4Header) (protocol : IpProtocol) {header : Buffer}
    (he : header.length % 2 = 0) (data : Buffer) (hl : header.length + data.length < 2 ^ 16) :
    wordTotal (checkedWords ipv4Header protocol (header ++ data)) =
      wordTotal (pseudoHeader ipv4Header protocol) + (header.length + data.length) +
        wordTotal (paddedWords header) + wordTotal (paddedWords data) := by
  have hlength : (UInt16.ofNat (header ++ data).length).toNat = header.length + data.length := by
    rw [UInt16.toNat_ofNat', List.length_append]
    exact Nat.mod_eq_of_lt hl
  rw [checkedWords, wordTotal_append, paddedWords_append he]
  simp only [wordTotal, List.map_cons, List.sum_cons, List.map_append, List.sum_append, hlength]
  omega

/-- A segment of 16-bit length is far from the end of the accumulator. -/
theorem wordTotal_checkedWords_lt (ipv4Header : Ipv4Header) (protocol : IpProtocol) {segment : Buffer}
    (hl : segment.length < 2 ^ 16) : 0xffff + wordTotal (checkedWords ipv4Header protocol segment) < 2 ^ 32 := by
  have hle := wordTotal_le (checkedWords ipv4Header protocol segment)
  have hwords := length_paddedWords_le segment
  have hpseudo : (pseudoHeader ipv4Header protocol).length = 5 := rfl
  rw [checkedWords, List.length_append, List.length_cons, hpseudo] at hle
  rw [checkedWords]
  omega

theorem wordTotal_checkedWords_zeroWordAt (ipv4Header : Ipv4Header) (protocol : IpProtocol) {segment : Buffer}
    {i : Nat} (he : i % 2 = 0) (h : i + 2 ≤ segment.length) :
    wordTotal (checkedWords ipv4Header protocol segment) =
      wordTotal (checkedWords ipv4Header protocol (zeroWordAt segment i)) + (u16At segment i).toNat := by
  rw [checkedWords, checkedWords, wordTotal_append, wordTotal_append, length_zeroWordAt h]
  have hz := wordTotal_zeroWordAt he h
  simp only [wordTotal, List.map_cons, List.sum_cons] at hz ⊢
  omega

theorem wordTotal_checkedWords_pos (ipv4Header : Ipv4Header) (protocol : IpProtocol) (segment : Buffer) :
    0 < wordTotal (checkedWords ipv4Header protocol segment) := by
  have hpos := wordTotal_pseudoHeader_pos ipv4Header protocol
  rw [checkedWords, wordTotal_append]
  omega

theorem segmentChecksum_of_lt (h : 0xffff + (summands ipv4Header protocol length headerWords data).sum < 2 ^ 32) :
    segmentChecksum ipv4Header protocol length headerWords data =
      some (UInt16.ofNat (0xffff - residue (summands ipv4Header protocol length headerWords data).sum)) := by
  have hpos := wordTotal_pseudoHeader_pos ipv4Header protocol
  have hle := residue_le (summands ipv4Header protocol length headerWords data).sum
  have hsum : 0 < (summands ipv4Header protocol length headerWords data).sum := by
    rw [sum_summands]
    omega
  rw [segmentChecksum, addAll_of_lt h, Option.bind_eq_bind, Option.bind_some, foldCarry_eq_residue,
    residue_add_carry hsum]
  apply congrArg some
  apply UInt16.toNat_inj.mp
  rw [UInt16.toNat_ofNat', UInt16.toNat_ofNat']
  omega

theorem segmentChecksum_of_le (h : 2 ^ 32 ≤ 0xffff + (summands ipv4Header protocol length headerWords data).sum) :
    segmentChecksum ipv4Header protocol length headerWords data = none := by
  rw [segmentChecksum, addAll_of_le (by omega) h]
  rfl

/-- The sum over the words of a header without its checksum field is that of the header with zeros in it. -/
theorem segmentChecksum_eq {header : Buffer} {i : Nat} (hi : i % 2 = 0) (hlen : i + 2 ≤ header.length)
    (he : header.length % 2 = 0) (hl : header.length + data.length < 2 ^ 16)
    (hw : wordTotal headerWords + (u16At header i).toNat = wordTotal (paddedWords header)) :
    segmentChecksum ipv4Header protocol (header.length + data.length) headerWords data =
      some (internetChecksum (checkedWords ipv4Header protocol (zeroWordAt header i ++ data))) := by
  have hz := length_zeroWordAt hlen
  have hsum : (summands ipv4Header protocol (header.length + data.length) headerWords data).sum =
      wordTotal (checkedWords ipv4Header protocol (zeroWordAt header i ++ data)) := by
    have hwords := wordTotal_zeroWordAt hi hlen
    rw [sum_summands, wordTotal_checkedWords ipv4Header protocol (by omega) data (by omega), hz,
      words_append_remainder, Nat.mod_eq_of_lt (by omega)]
    omega
  have hlt : (zeroWordAt header i ++ data).length < 2 ^ 16 := by
    rw [List.length_append]
    omega
  have hbound := wordTotal_checkedWords_lt ipv4Header protocol hlt
  rw [segmentChecksum_of_lt (by rw [hsum]; exact hbound), hsum]
  apply congrArg some
  apply UInt16.toNat_inj.mp
  rw [toNat_internetChecksum, UInt16.toNat_ofNat']
  omega

end Segments

theorem wordTotal_tcpHeaderWords {header : Buffer} (h : minTcpHeaderSize ≤ header.length)
    (he : header.length % 2 = 0) :
    wordTotal (tcpHeaderWords header) + (u16At header 16).toNat = wordTotal (paddedWords header) := by
  have hd : (header.drop minTcpHeaderSize).length % 2 = 0 := by
    rw [List.length_drop, minTcpHeaderSize]
    omega
  have hs := @paddedWords_eq_offsets header 10 h
  have hr : List.range 10 = [0, 1, 2, 3, 4, 5, 6, 7, 8, 9] := rfl
  rw [hs, tcpHeaderWords, ← paddedWords_of_even hd, hr]
  simp only [wordTotal, tcpFixedOffsets, minTcpHeaderSize, List.map_cons, List.map_nil, List.map_append,
    List.sum_append, List.sum_cons, List.sum_nil, Nat.reduceMul]
  omega

theorem wordTotal_udpHeaderWords {udpHdr : Buffer} (h : udpHdr.length = udpHeaderSize) :
    wordTotal (udpHeaderWords udpHdr) + (u16At udpHdr 6).toNat = wordTotal (paddedWords udpHdr) := by
  have hs := @paddedWords_eq_offsets udpHdr 4 (Nat.le_of_eq h.symm)
  have hd : udpHdr.drop (2 * 4) = [] := List.drop_eq_nil_of_le (Nat.le_of_eq h)
  have hr : List.range 4 = [0, 1, 2, 3] := rfl
  rw [hs, hd, hr]
  simp only [wordTotal, udpHeaderWords, paddedWords, List.map_cons, List.map_nil, List.map_append, List.sum_append,
    List.sum_cons, List.sum_nil, Nat.reduceMul]
  omega

/-- The accumulator does not overflow. -/
def TcpSumFits (ipv4Header : Ipv4Header) (header data : Buffer) : Prop :=
  0xffff + (summands ipv4Header .tcp (header.length + data.length) (tcpHeaderWords header) data).sum < 2 ^ 32

instance (ipv4Header : Ipv4Header) (header data : Buffer) : Decidable (TcpSumFits ipv4Header header data) :=
  inferInstanceAs (Decidable (_ < _))

/-- A checksum over a header of whole words fails only by an overflow. -/
theorem tcpChecksum_eq_none_iff {ipv4Header : Ipv4Header} {header data : Buffer}
    (h : minTcpHeaderSize ≤ header.length) (he : header.length % 2 = 0) :
    tcpChecksum ipv4Header header data = none ↔ ¬TcpSumFits ipv4Header header data := by
  rw [tcpChecksum, if_neg (by omega), if_neg (by omega)]
  by_cases hs : TcpSumFits ipv4Header header data
  · rw [segmentChecksum_of_lt hs]
    simp [hs]
  · rw [segmentChecksum_of_le (Nat.le_of_not_lt hs)]
    simp [hs]

/-- Twice the length of any datagram is still within the accumulator. -/
theorem tcpSumFits_of_le (ipv4Header : Ipv4Header) {header data : Buffer} (h : minTcpHeaderSize ≤ header.length)
    (he : header.length % 2 = 0) (hl : header.length + data.length ≤ 131008) :
    TcpSumFits ipv4Header header data := by
  have htotal := wordTotal_tcpHeaderWords h he
  have hpseudo := wordTotal_le (pseudoHeader ipv4Header .tcp)
  have hheader := wordTotal_le (paddedWords header)
  have hdata := wordTotal_le (paddedWords data)
  have hheaderWords := length_paddedWords_le header
  have hdataWords := length_paddedWords_le data
  have hfive : (pseudoHeader ipv4Header .tcp).length = 5 := rfl
  rw [hfive] at hpseudo
  rw [TcpSumFits, sum_summands, words_append_remainder, Nat.mod_eq_of_lt (by omega)]
  omega

/-- Some seventy thousand words are too many. -/
theorem not_tcpSumFits (ipv4Header : Ipv4Header) (header : Buffer) {n : Nat} (h : 65538 ≤ n) :
    ¬TcpSumFits ipv4Header header (List.replicate (2 * n) 0xff) := by
  rw [TcpSumFits, sum_summands, words_append_remainder, wordTotal_replicate]
  omega

theorem tcpChecksum_eq_internetChecksum (ipv4Header : Ipv4Header) {header data : Buffer}
    (h : minTcpHeaderSize ≤ header.length) (he : header.length % 2 = 0)
    (hl : header.length + data.length < 2 ^ 16) :
    tcpChecksum ipv4Header header data =
      some (internetChecksum (checkedWords ipv4Header .tcp (zeroWordAt header 16 ++ data))) := by
  have hlen : 16 + 2 ≤ header.length := Nat.le_trans (by decide) h
  rw [tcpChecksum, if_neg (by omega), if_neg (by omega)]
  exact segmentChecksum_eq (by omega) hlen he hl (wordTotal_tcpHeaderWords h he)

theorem udpChecksum_eq_internetChecksum (ipv4Hdr : Ipv4Header) {udpHdr data : Buffer}
    (h : udpHdr.length = udpHeaderSize) (hl : udpHdr.length + data.length < 2 ^ 16) :
    udpChecksum ipv4Hdr udpHdr data =
      some (internetChecksum (checkedWords ipv4Hdr .udp (zeroWordAt udpHdr 6 ++ data))) := by
  have hlen : udpHdr.length = 8 := h
  rw [udpChecksum, if_neg (by omega)]
  exact segmentChecksum_eq (by omega) (by omega) (by omega) hl (wordTotal_udpHeaderWords h)

/-- The comparison of a receiver, against adding up all words with the stored checksum. -/
theorem onesSum_checkedWords_iff (ipv4Header : Ipv4Header) (protocol : IpProtocol) {segment : Buffer} {i : Nat}
    (he : i % 2 = 0) (h : i + 2 ≤ segment.length) :
    onesSum (checkedWords ipv4Header protocol segment) = 0xffff ↔
      u16At segment i = internetChecksum (checkedWords ipv4Header protocol (zeroWordAt segment i)) ∨
        u16At segment i = 0xffff ∧ onesSum (checkedWords ipv4Header protocol (zeroWordAt segment i)) = 0xffff := by
  have hpos := wordTotal_checkedWords_pos ipv4Header protocol (zeroWordAt segment i)
  have hmax : (0xffff : UInt16).toNat = 0xffff := rfl
  rw [← UInt16.toNat_inj, ← UInt16.toNat_inj, ← UInt16.toNat_inj, ← UInt16.toNat_inj, toNat_onesSum, toNat_onesSum,
    toNat_internetChecksum, wordTotal_checkedWords_zeroWordAt ipv4Header protocol he h, hmax]
  exact residue_add_eq_max_iff (u16At segment i) hpos

end Capybara
