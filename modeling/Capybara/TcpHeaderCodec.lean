import Capybara.Checksums
import Capybara.TcpOptions

namespace Capybara

open Wire

def maxTcpHeaderSize : Nat := 60

def flagBit (flag : Bool) (i : UInt8) : UInt8 := if flag then 1 <<< i else 0

def hasBit (octet i : UInt8) : Bool := octet &&& (1 <<< i) ≠ 0

/-- Octet 13. -/
def tcpFlags (cwr ece urg ack psh rst syn fin : Bool) : UInt8 :=
  flagBit cwr 7 ||| flagBit ece 6 ||| flagBit urg 5 ||| flagBit ack 4 ||| flagBit psh 3 ||| flagBit rst 2
    ||| flagBit syn 1 ||| flagBit fin 0

/-- Octet 12, with the size of the header in 32-bit words. -/
def offsetAndNs (size : Nat) (ns : Bool) : UInt8 := (UInt8.ofNat (size / 4) <<< 4) ||| flagBit ns 0

namespace TcpHeader

def computeSize (h : TcpHeader) : Nat :=
  let size := h.optionList.foldl (fun size option => size + option.computeSize) minTcpHeaderSize
  let size := if h.optionList.length > 0 then size + 1 else size
  (size + 3) / 4 * 4

/-- The first 20 bytes, with the given word in the checksum field. -/
def fixedPart (h : TcpHeader) (checksum : UInt16) : Buffer :=
  be16 h.srcPort ++ be16 h.dstPort ++ be32 h.seqNum.value ++ be32 h.ackNum.value
    ++ [offsetAndNs h.computeSize h.ns, tcpFlags h.cwr h.ece h.urg h.ack h.psh h.rst h.syn h.fin]
    ++ be16 h.windowSize ++ be16 checksum ++ be16 h.urgentPointer

/-- The checksum field keeps what the buffer held until the rest is written. -/
def serialize (h : TcpHeader) (buf : Buffer) (ipv4Hdr : Ipv4Header) (data : Buffer) (txChecksumOffload : Bool) :
    Option Buffer := do
  let (fixed, rest) ← put (h.fixedPart (u16At buf 16)) buf
  let (options, rest) ← writeAll TcpOption.serialize h.optionList rest
  let (endMark, rest) ← (if h.optionList.length > 0 then put [0] else put []) rest
  let written := options ++ endMark ++ List.replicate rest.length 0
  let checksum ← (if txChecksumOffload then some 0 else tcpChecksum ipv4Hdr (fixed ++ written) data : Option UInt16)
  some (h.fixedPart checksum ++ written)

def checkDataOffset (buf : Buffer) : Option (Except Fail Nat) :=
  if buf.length < minTcpHeaderSize then some (.error ⟨.EBADMSG, "TCP segment too small"⟩)
  else do
    let octet ← sliceU8 buf 12
    let dataOffset := (octet >>> 4).toNat * 4
    some (do
      refuse (buf.length < dataOffset) ⟨.EBADMSG, "TCP segment smaller than data offset"⟩
      refuse (dataOffset < minTcpHeaderSize) ⟨.EBADMSG, "TCP data offset too small"⟩
      refuse (dataOffset > maxTcpHeaderSize) ⟨.EBADMSG, "TCP data offset too large"⟩
      return dataOffset)

def parseFixed (hdrBuf : Buffer) : Option TcpHeader := do
  let srcPort ← sliceU16 hdrBuf 0
  let dstPort ← sliceU16 hdrBuf 2
  let seqNum ← sliceU32 hdrBuf 4
  let ackNum ← sliceU32 hdrBuf 8
  let octet12 ← sliceU8 hdrBuf 12
  let octet13 ← sliceU8 hdrBuf 13
  let windowSize ← sliceU16 hdrBuf 14
  let urgentPointer ← sliceU16 hdrBuf 18
  some {
    srcPort := srcPort
    dstPort := dstPort
    seqNum := ⟨seqNum⟩
    ackNum := ⟨ackNum⟩
    ns := hasBit octet12 0
    cwr := hasBit octet13 7
    ece := hasBit octet13 6
    urg := hasBit octet13 5
    ack := hasBit octet13 4
    psh := hasBit octet13 3
    rst := hasBit octet13 2
    syn := hasBit octet13 1
    fin := hasBit octet13 0
    windowSize := windowSize
    urgentPointer := urgentPointer
    optionList := [] }

def checksumMatches (ipv4Header : Ipv4Header) (hdrBuf dataBuf : Buffer) : Option Bool := do
  let checksum ← sliceU16 hdrBuf 16
  let computed ← tcpChecksum ipv4Header hdrBuf dataBuf
  some (checksum = computed)

def parseOptionArea (hdrBuf : Buffer) (dataOffset : Nat) : Except Fail (List TcpOption) :=
  if dataOffset > minTcpHeaderSize then parseOptions [] (hdrBuf.drop minTcpHeaderSize) else .ok []

def parse (ipv4Header : Ipv4Header) (buf : Buffer) (rxChecksumOffload : Bool) :
    Option (Except Fail (TcpHeader × Buffer)) := do
  match ← checkDataOffset buf with
  | .error e => some (.error e)
  | .ok dataOffset =>
    let (hdrBuf, dataBuf) ← splitAt buf dataOffset
    let header ← parseFixed hdrBuf
    let verified ← (if rxChecksumOffload then some true else checksumMatches ipv4Header hdrBuf dataBuf : Option Bool)
    if verified then
      match parseOptionArea hdrBuf dataOffset with
      | .error e => some (.error e)
      | .ok optionList =>
        let rest ← adjust buf dataOffset
        some (.ok ({ header with optionList := optionList }, rest))
    else some (.error ⟨.EBADMSG, "TCP checksum mismatch"⟩)

end TcpHeader

namespace TcpHeader

/-- The buffer holds a header of `n` bytes, as its offset field says. -/
structure Framed (buf : Buffer) (n : Nat) : Prop where
  offset : n = (byteAt buf 12 >>> 4).toNat * 4
  lower : minTcpHeaderSize ≤ n
  upper : n ≤ maxTcpHeaderSize
  fits : n ≤ buf.length

theorem Framed.even {buf : Buffer} {n : Nat} (h : Framed buf n) : n % 2 = 0 := by
  have hn := h.offset
  omega

theorem Framed.length_take {buf : Buffer} {n : Nat} (h : Framed buf n) : (buf.take n).length = n := by
  rw [List.length_take, Nat.min_eq_left h.fits]

theorem offset_le (octet : UInt8) : (octet >>> 4).toNat * 4 ≤ maxTcpHeaderSize := by
  have h := UInt8.toNat_lt octet
  have hs : (octet >>> 4).toNat = octet.toNat / 16 := by
    rw [UInt8.toNat_shiftRight, Nat.shiftRight_eq_div_pow]
    rfl
  rw [hs, maxTcpHeaderSize]
  omega

theorem checkDataOffset_cases (buf : Buffer) :
    (∃ e, checkDataOffset buf = some (.error e) ∧ e ≠ ⟨.EBADMSG, "TCP checksum mismatch"⟩ ∧ ∀ n, ¬Framed buf n) ∨
      ∃ n, checkDataOffset buf = some (.ok n) ∧ Framed buf n := by
  by_cases hsmall : buf.length < minTcpHeaderSize
  · refine .inl ⟨⟨.EBADMSG, "TCP segment too small"⟩, if_pos hsmall, by simp, fun n hf => ?_⟩
    have hlower := hf.lower
    have hfits := hf.fits
    omega
  · have hlength : 20 ≤ buf.length := Nat.le_of_not_lt hsmall
    have hupper := offset_le (byteAt buf 12)
    rw [checkDataOffset, if_neg hsmall, sliceU8_of_lt (by omega), Option.bind_eq_bind, Option.bind_some]
    generalize hn : (byteAt buf 12 >>> 4).toNat * 4 = n at hupper
    by_cases hfits : buf.length < n
    · refine .inl ⟨⟨.EBADMSG, "TCP segment smaller than data offset"⟩, ?_, by simp, fun m hf => ?_⟩
      · simp only [refuse, if_pos hfits]
        rfl
      · have hm := hf.fits
        have hoffset := hf.offset
        omega
    · by_cases hlower : n < minTcpHeaderSize
      · refine .inl ⟨⟨.EBADMSG, "TCP data offset too small"⟩, ?_, by simp, fun m hf => ?_⟩
        · simp only [refuse, if_neg hfits, if_pos hlower]
          rfl
        · have hm := hf.lower
          have hoffset := hf.offset
          omega
      · refine .inr ⟨n, ?_, hn.symm, Nat.le_of_not_lt hlower, hupper, Nat.le_of_not_lt hfits⟩
        simp only [refuse, if_neg hfits, if_neg hlower, if_neg (Nat.not_lt.mpr hupper)]
        rfl

/-- The fields of a buffer that is long enough. -/
def fixedFields (buf : Buffer) : TcpHeader where
  srcPort := u16At buf 0
  dstPort := u16At buf 2
  seqNum := ⟨u32At buf 4⟩
  ackNum := ⟨u32At buf 8⟩
  ns := hasBit (byteAt buf 12) 0
  cwr := hasBit (byteAt buf 13) 7
  ece := hasBit (byteAt buf 13) 6
  urg := hasBit (byteAt buf 13) 5
  ack := hasBit (byteAt buf 13) 4
  psh := hasBit (byteAt buf 13) 3
  rst := hasBit (byteAt buf 13) 2
  syn := hasBit (byteAt buf 13) 1
  fin := hasBit (byteAt buf 13) 0
  windowSize := u16At buf 14
  urgentPointer := u16At buf 18
  optionList := []

theorem parseFixed_eq {hdrBuf : Buffer} (h : minTcpHeaderSize ≤ hdrBuf.length) :
    parseFixed hdrBuf = some (fixedFields hdrBuf) := by
  have hlength : 20 ≤ hdrBuf.length := h
  rw [parseFixed, sliceU16_of_le (by omega), sliceU16_of_le (by omega), sliceU32_of_le (by omega),
    sliceU32_of_le (by omega), sliceU8_of_lt (by omega), sliceU8_of_lt (by omega), sliceU16_of_le (by omega),
    sliceU16_of_le (by omega)]
  rfl

theorem fixedFields_take {buf : Buffer} {n : Nat} (h : minTcpHeaderSize ≤ n) :
    fixedFields (buf.take n) = fixedFields buf := by
  have hn : 20 ≤ n := h
  simp only [fixedFields, u16At_take (show 0 + 2 ≤ n by omega), u16At_take (show 2 + 2 ≤ n by omega),
    u32At_take (show 4 + 4 ≤ n by omega), u32At_take (show 8 + 4 ≤ n by omega), byteAt_take (show 12 < n by omega),
    byteAt_take (show 13 < n by omega), u16At_take (show 14 + 2 ≤ n by omega), u16At_take (show 18 + 2 ≤ n by omega)]

theorem parseOptionArea_eq {hdrBuf : Buffer} {n : Nat} (h : hdrBuf.length = n) (hn : minTcpHeaderSize ≤ n) :
    parseOptionArea hdrBuf n = parseOptions [] (hdrBuf.drop minTcpHeaderSize) := by
  unfold parseOptionArea
  split
  next => rfl
  next hle =>
    have hnil : hdrBuf.drop minTcpHeaderSize = [] := List.drop_eq_nil_of_le (by omega)
    rw [hnil, parseOptions]

/-- Whether the stored checksum is the computed one; no answer on an overflow. -/
theorem checksumMatches_eq {ipv4Header : Ipv4Header} {hdrBuf dataBuf : Buffer}
    (h : minTcpHeaderSize ≤ hdrBuf.length) :
    checksumMatches ipv4Header hdrBuf dataBuf =
      (tcpChecksum ipv4Header hdrBuf dataBuf).map fun computed => decide (u16At hdrBuf 16 = computed) := by
  have hlength : 20 ≤ hdrBuf.length := h
  rw [checksumMatches, sliceU16_of_le (by omega), Option.bind_eq_bind, Option.bind_some]
  cases tcpChecksum ipv4Header hdrBuf dataBuf <;> rfl

theorem parse_of_not_framed (ipv4Header : Ipv4Header) {buf : Buffer} (h : ∀ n, ¬Framed buf n) (offload : Bool) :
    ∃ e, parse ipv4Header buf offload = some (.error e) ∧ e ≠ ⟨.EBADMSG, "TCP checksum mismatch"⟩ := by
  obtain ⟨e, he, hne, -⟩ | ⟨n, -, hf⟩ := checkDataOffset_cases buf
  · refine ⟨e, ?_, hne⟩
    rw [parse, he]
    rfl
  · exact absurd hf (h n)

theorem parse_of_framed (ipv4Header : Ipv4Header) {buf : Buffer} {n : Nat} (h : Framed buf n) (offload : Bool) :
    parse ipv4Header buf offload =
      (if offload then some true else (tcpChecksum ipv4Header (buf.take n) (buf.drop n)).map fun computed =>
        decide (u16At buf 16 = computed)).bind fun verified =>
          some (if verified then
            (parseOptions [] ((buf.take n).drop minTcpHeaderSize)).map fun options =>
              ({ fixedFields buf with optionList := options }, buf.drop n)
          else .error ⟨.EBADMSG, "TCP checksum mismatch"⟩) := by
  obtain ⟨e, -, -, hnot⟩ | ⟨m, hm, hf⟩ := checkDataOffset_cases buf
  · exact absurd h (hnot n)
  · obtain rfl : m = n := hf.offset.trans h.offset.symm
    have hlower : 20 ≤ m := h.lower
    have htake := h.length_take
    have hfixed : parseFixed (buf.take m) = some (fixedFields buf) := by
      rw [parseFixed_eq (by rw [htake]; exact h.lower), fixedFields_take h.lower]
    rw [parse, hm, Option.bind_eq_bind, Option.bind_some]
    show (splitAt buf m).bind _ = _
    rw [splitAt_of_le h.fits, Option.bind_some]
    show (parseFixed (buf.take m)).bind _ = _
    rw [hfixed, Option.bind_some, checksumMatches_eq (by rw [htake]; exact h.lower), u16At_take (by omega),
      parseOptionArea_eq htake h.lower, adjust_of_le h.fits]
    generalize (if offload = true then some true else _) = verified
    cases verified with
    | none => rfl
    | some verified =>
      cases verified with
      | false => rfl
      | true =>
        cases parseOptions [] ((buf.take m).drop minTcpHeaderSize) <;> rfl

/-- The stored checksum is the computed one, or is not looked at. -/
def Verified (ipv4Header : Ipv4Header) (buf : Buffer) (n : Nat) (offload : Bool) : Prop :=
  offload = true ∨ tcpChecksum ipv4Header (buf.take n) (buf.drop n) = some (u16At buf 16)

theorem parse_eq_ok_iff {ipv4Header : Ipv4Header} {buf payload : Buffer} {offload : Bool} {header : TcpHeader} :
    parse ipv4Header buf offload = some (.ok (header, payload)) ↔
      ∃ n, Framed buf n ∧ Verified ipv4Header buf n offload ∧
        OptionArea ((buf.take n).drop minTcpHeaderSize) header.optionList ∧
        header = { fixedFields buf with optionList := header.optionList } ∧ payload = buf.drop n := by
  by_cases hf : ∃ n, Framed buf n
  · obtain ⟨n, hf⟩ := hf
    rw [parse_of_framed ipv4Header hf]
    constructor
    · intro h
      obtain ⟨verified, hv, h⟩ := Option.bind_eq_some_iff.mp h
      have h := Option.some.inj h
      cases verified with
      | false => cases h
      | true =>
        rw [if_pos rfl] at h
        cases ho : parseOptions [] ((buf.take n).drop minTcpHeaderSize) with
        | error e =>
          rw [ho] at h
          cases h
        | ok options =>
          rw [ho] at h
          obtain ⟨rfl, rfl⟩ := Prod.mk.inj (Except.ok.inj h)
          refine ⟨n, hf, ?_, parseOptions_eq_ok_iff.mp ho, rfl, rfl⟩
          cases offload with
          | true => exact .inl rfl
          | false =>
            obtain ⟨computed, hc, he⟩ := Option.map_eq_some_iff.mp hv
            exact .inr (hc.trans (congrArg some (of_decide_eq_true he).symm))
    · rintro ⟨m, hm, hv, ho, hh, rfl⟩
      obtain rfl : m = n := hm.offset.trans hf.offset.symm
      have hverified : (if offload = true then some true else
          (tcpChecksum ipv4Header (buf.take m) (buf.drop m)).map fun computed =>
            decide (u16At buf 16 = computed)) = some true := by
        rcases hv with rfl | hv
        · rfl
        · rw [hv]
          split
          next => rfl
          next => exact congrArg some (decide_eq_true rfl)
      rw [hverified, Option.bind_some, if_pos rfl, parseOptions_eq_ok_iff.mpr ho]
      exact congrArg (fun h => some (Except.ok (h, buf.drop m))) hh.symm
  · constructor
    · intro h
      obtain ⟨e, he, -⟩ := parse_of_not_framed ipv4Header (fun n hn => hf ⟨n, hn⟩) offload
      rw [he] at h
      cases h
    · rintro ⟨n, hn, -⟩
      exact absurd ⟨n, hn⟩ hf

/-- The parser panics only in the accumulator of the checksum. -/
theorem parse_eq_none_iff {ipv4Header : Ipv4Header} {buf : Buffer} {offload : Bool} :
    parse ipv4Header buf offload = none ↔
      offload = false ∧ ∃ n, Framed buf n ∧ ¬TcpSumFits ipv4Header (buf.take n) (buf.drop n) := by
  by_cases hf : ∃ n, Framed buf n
  · obtain ⟨n, hf⟩ := hf
    have hsum := @tcpChecksum_eq_none_iff ipv4Header (buf.take n) (buf.drop n)
      (by rw [hf.length_take]; exact hf.lower) (by rw [hf.length_take]; exact hf.even)
    rw [parse_of_framed ipv4Header hf]
    constructor
    · intro h
      cases offload with
      | true => cases h
      | false =>
        refine ⟨rfl, n, hf, hsum.mp ?_⟩
        cases hc : tcpChecksum ipv4Header (buf.take n) (buf.drop n) with
        | none => rfl
        | some computed =>
          rw [hc] at h
          cases h
    · rintro ⟨rfl, m, hm, hfits⟩
      obtain rfl : m = n := hm.offset.trans hf.offset.symm
      rw [hsum.mpr hfits]
      rfl
  · constructor
    · intro h
      obtain ⟨e, he, -⟩ := parse_of_not_framed ipv4Header (fun n hn => hf ⟨n, hn⟩) offload
      rw [he] at h
      cases h
    · rintro ⟨-, n, hn, -⟩
      exact absurd ⟨n, hn⟩ hf

end TcpHeader

theorem tcpFlags_bits (cwr ece urg ack psh rst syn fin : Bool) :
    let octet := tcpFlags cwr ece urg ack psh rst syn fin
    hasBit octet 7 = cwr ∧ hasBit octet 6 = ece ∧ hasBit octet 5 = urg ∧ hasBit octet 4 = ack ∧
      hasBit octet 3 = psh ∧ hasBit octet 2 = rst ∧ hasBit octet 1 = syn ∧ hasBit octet 0 = fin := by
  revert cwr ece urg ack psh rst syn fin
  decide

theorem offsetAndNs_spec {words : Nat} (h : words < 16) (ns : Bool) :
    (offsetAndNs (words * 4) ns >>> 4).toNat = words ∧ hasBit (offsetAndNs (words * 4) ns) 0 = ns := by
  have hall : ∀ words < 16, ∀ ns : Bool,
      (offsetAndNs (words * 4) ns >>> 4).toNat = words ∧ hasBit (offsetAndNs (words * 4) ns) 0 = ns := by decide
  exact hall words h ns

end Capybara
