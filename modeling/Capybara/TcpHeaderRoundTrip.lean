import Capybara.TcpHeaderCodec

namespace Capybara

open Wire

namespace TcpOption

def InRange : TcpOption → Prop
  | selectiveAcknowlegement numSacks sacks => numSacks ≤ sacks.length
  | _ => True

theorem WellFormed.inRange {option : TcpOption} (h : option.WellFormed) : option.InRange := by
  cases option with
  | selectiveAcknowlegement numSacks sacks =>
    obtain ⟨-, h4, hl, -⟩ := h
    show numSacks ≤ sacks.length
    rw [hl]
    exact h4
  | _ => trivial

theorem writes_serialize (option : TcpOption) : Writes option.serialize option.InRange option.bytes := by
  cases option with
  | selectiveAcknowlegement numSacks sacks => exact (writes_put _).guard.congr (by simp [InRange])
  | _ => exact writes_put _

theorem length_bytes {option : TcpOption} (h : option.WellFormed) : option.bytes.length = option.computeSize := by
  cases option with
  | selectiveAcknowlegement numSacks sacks =>
    have hblocks : ∀ blocks : List SelectiveAcknowlegement,
        (blocks.flatMap SelectiveAcknowlegement.bytes).length = 8 * blocks.length := by
      intro blocks
      induction blocks with
      | nil => rfl
      | cons block blocks ih =>
        rw [List.flatMap_cons, List.length_append, ih, List.length_cons]
        show 8 + _ = _
        omega
    have htake : (sacks.take numSacks).length = numSacks := by
      rw [List.length_take, Nat.min_eq_left h.inRange]
    rw [bytes, List.length_append, hblocks, htake]
    rfl
  | _ => rfl

end TcpOption

namespace TcpHeader

/-- What stands behind the fixed part, up to the padding. -/
def optionBytes (h : TcpHeader) : Buffer :=
  h.optionList.flatMap TcpOption.bytes ++ if h.optionList.length > 0 then [0] else []

/-- The header on the wire with the given checksum. -/
def layout (h : TcpHeader) (checksum : UInt16) : Buffer :=
  h.fixedPart checksum ++
    (h.optionBytes ++ List.replicate (h.computeSize - minTcpHeaderSize - h.optionBytes.length) 0)

def OptionsWellFormed (h : TcpHeader) : Prop := ∀ option ∈ h.optionList, option.WellFormed

@[simp] theorem length_fixedPart (h : TcpHeader) (checksum : UInt16) :
    (h.fixedPart checksum).length = minTcpHeaderSize := rfl

theorem computeSize_eq {h : TcpHeader} (hw : h.OptionsWellFormed) :
    h.computeSize = (minTcpHeaderSize + h.optionBytes.length + 3) / 4 * 4 := by
  have hfold : ∀ (options : List TcpOption) (n : Nat), (∀ option ∈ options, option.WellFormed) →
      options.foldl (fun size option => size + option.computeSize) n =
        n + (options.flatMap TcpOption.bytes).length := by
    intro options
    induction options with
    | nil => exact fun n _ => rfl
    | cons option options ih =>
      intro n hall
      have hlen := TcpOption.length_bytes (hall option List.mem_cons_self)
      rw [List.foldl_cons, ih _ fun other ho => hall other (List.mem_cons_of_mem _ ho), List.flatMap_cons,
        List.length_append]
      omega
  unfold computeSize optionBytes
  rw [hfold h.optionList minTcpHeaderSize hw]
  split
  next => simp only [List.length_append, List.length_singleton]; omega
  next => simp only [List.length_append, List.length_nil]; omega

theorem length_layout {h : TcpHeader} (hw : h.OptionsWellFormed) (checksum : UInt16) :
    (h.layout checksum).length = h.computeSize := by
  have hsize := computeSize_eq hw
  rw [layout, List.length_append, List.length_append, List.length_replicate, length_fixedPart]
  omega

theorem computeSize_mod {h : TcpHeader} (hw : h.OptionsWellFormed) : h.computeSize % 4 = 0 := by
  rw [computeSize_eq hw]
  omega

theorem le_computeSize {h : TcpHeader} (hw : h.OptionsWellFormed) : minTcpHeaderSize ≤ h.computeSize := by
  rw [computeSize_eq hw]
  omega

theorem serialize_eq {h : TcpHeader} (hw : h.OptionsWellFormed) {buf : Buffer} (hb : buf.length = h.computeSize)
    (ipv4Hdr : Ipv4Header) (data : Buffer) (offload : Bool) :
    h.serialize buf ipv4Hdr data offload =
      (if offload then some 0 else tcpChecksum ipv4Hdr (h.layout (u16At buf 16)) data).map h.layout := by
  have hsize := computeSize_eq hw
  have hle := le_computeSize hw
  have hput : put (h.fixedPart (u16At buf 16)) buf =
      some (h.fixedPart (u16At buf 16), buf.drop minTcpHeaderSize) := if_pos (by rw [length_fixedPart, hb]; exact hle)
  have hwrites := writes_writeAll TcpOption.writes_serialize h.optionList
  have hlen : h.optionBytes.length =
      (h.optionList.flatMap TcpOption.bytes).length + if h.optionList.length > 0 then 1 else 0 := by
    rw [optionBytes, List.length_append]
    split
    next => rfl
    next => rfl
  have hoptions := hwrites.fits (fun option ho => (hw option ho).inRange) (buf.drop minTcpHeaderSize)
    (by rw [List.length_drop]; omega)
  have hmark : (if h.optionList.length > 0 then put [0] else put [] : Write)
      ((buf.drop minTcpHeaderSize).drop (h.optionList.flatMap TcpOption.bytes).length) =
      some (if h.optionList.length > 0 then [0] else [],
        (buf.drop minTcpHeaderSize).drop h.optionBytes.length) := by
    rw [hlen]
    split
    next hpos =>
      rw [if_pos hpos] at hlen
      rw [put, if_pos (by rw [List.length_drop, List.length_drop, List.length_singleton]; omega), List.drop_drop]
      rfl
    next => rfl
  have hlayout : ∀ checksum, h.fixedPart checksum ++ (h.optionList.flatMap TcpOption.bytes ++
      (if h.optionList.length > 0 then [0] else []) ++
      List.replicate ((buf.drop minTcpHeaderSize).drop h.optionBytes.length).length 0) = h.layout checksum := by
    intro checksum
    rw [List.length_drop, List.length_drop, hb]
    rfl
  simp only [serialize, hput, hoptions, hmark, Option.bind_eq_bind, Option.bind_some]
  cases offload with
  | true => exact congrArg some (hlayout 0)
  | false =>
    simp only [Bool.false_eq_true, if_false, hlayout]
    cases tcpChecksum ipv4Hdr (h.layout (u16At buf 16)) data with
    | none => rfl
    | some checksum => rfl

/-- The sum skips the field that the checksum goes into. -/
theorem tcpHeaderWords_layout (h : TcpHeader) (checksum : UInt16) :
    tcpHeaderWords (h.layout checksum) = tcpHeaderWords (h.layout 0) := by
  have hfixed : tcpFixedOffsets.map (u16At (h.layout checksum)) = tcpFixedOffsets.map (u16At (h.layout 0)) := by
    simp only [layout, fixedPart, be16, be32, tcpFixedOffsets, u16At, List.map, byteAt, List.cons_append,
      List.nil_append, List.getD_cons_succ, List.getD_cons_zero, Nat.reduceAdd]
  rw [tcpHeaderWords, tcpHeaderWords, hfixed]
  rfl

theorem tcpChecksum_layout (h : TcpHeader) (ipv4Hdr : Ipv4Header) (checksum : UInt16) (data : Buffer) :
    tcpChecksum ipv4Hdr (h.layout checksum) data = tcpChecksum ipv4Hdr (h.layout 0) data := by
  have hlen : (h.layout checksum).length = (h.layout 0).length := by
    simp only [layout, List.length_append, length_fixedPart]
  rw [tcpChecksum, tcpChecksum, hlen, tcpHeaderWords_layout]

theorem byteAt_layout_offset (h : TcpHeader) (checksum : UInt16) (payload : Buffer) :
    byteAt (h.layout checksum ++ payload) 12 = offsetAndNs h.computeSize h.ns := rfl

theorem u16At_layout_checksum (h : TcpHeader) (checksum : UInt16) (payload : Buffer) :
    u16At (h.layout checksum ++ payload) 16 = checksum := ofBe16_be16 checksum

theorem fixedFields_layout {h : TcpHeader} (hw : h.OptionsWellFormed) (hs : h.computeSize ≤ maxTcpHeaderSize)
    (checksum : UInt16) (payload : Buffer) :
    fixedFields (h.layout checksum ++ payload) = { h with optionList := [] } := by
  have hmod := computeSize_mod hw
  have hsize : h.computeSize / 4 < 16 := by
    rw [maxTcpHeaderSize] at hs
    omega
  have hns := (offsetAndNs_spec hsize h.ns).2
  rw [show h.computeSize / 4 * 4 = h.computeSize by omega] at hns
  obtain ⟨hcwr, hece, hurg, hack, hpsh, hrst, hsyn, hfin⟩ :=
    tcpFlags_bits h.cwr h.ece h.urg h.ack h.psh h.rst h.syn h.fin
  have h0 : u16At (h.layout checksum ++ payload) 0 = h.srcPort := ofBe16_be16 _
  have h2 : u16At (h.layout checksum ++ payload) 2 = h.dstPort := ofBe16_be16 _
  have h4 : u32At (h.layout checksum ++ payload) 4 = h.seqNum.value := ofBe32_be32 _
  have h8 : u32At (h.layout checksum ++ payload) 8 = h.ackNum.value := ofBe32_be32 _
  have h12 := byteAt_layout_offset h checksum payload
  have h13 : byteAt (h.layout checksum ++ payload) 13 =
    tcpFlags h.cwr h.ece h.urg h.ack h.psh h.rst h.syn h.fin := rfl
  have h14 : u16At (h.layout checksum ++ payload) 14 = h.windowSize := ofBe16_be16 _
  have h18 : u16At (h.layout checksum ++ payload) 18 = h.urgentPointer := ofBe16_be16 _
  rw [fixedFields, h0, h2, h4, h8, h12, h13, h14, h18, hns, hcwr, hece, hurg, hack, hpsh, hrst, hsyn, hfin]

theorem framed_layout {h : TcpHeader} (hw : h.OptionsWellFormed) (hs : h.computeSize ≤ maxTcpHeaderSize)
    (checksum : UInt16) (payload : Buffer) : Framed (h.layout checksum ++ payload) h.computeSize := by
  have hmod := computeSize_mod hw
  have hsize : h.computeSize / 4 < 16 := by
    rw [maxTcpHeaderSize] at hs
    omega
  have hoffset := (offsetAndNs_spec hsize h.ns).1
  rw [show h.computeSize / 4 * 4 = h.computeSize by omega] at hoffset
  refine ⟨?_, le_computeSize hw, hs, ?_⟩
  · rw [byteAt_layout_offset, hoffset]
    omega
  · rw [List.length_append, length_layout hw]
    omega

def withoutNoOperation (h : TcpHeader) : TcpHeader := { h with optionList := dropNoOperation h.optionList }

/-- What a sender can put on the wire: few enough options, each in range, in a header that the offset field can
describe. -/
structure Encodable (h : TcpHeader) : Prop where
  few : h.optionList.length ≤ maxTcpOptions
  wellFormed : h.OptionsWellFormed
  small : h.computeSize ≤ maxTcpHeaderSize

theorem optionArea_layout {h : TcpHeader} (he : h.Encodable) (checksum : UInt16) :
    OptionArea ((h.layout checksum).drop minTcpHeaderSize) (dropNoOperation h.optionList) := by
  have hd : (h.layout checksum).drop minTcpHeaderSize =
      h.optionBytes ++ List.replicate (h.computeSize - minTcpHeaderSize - h.optionBytes.length) 0 :=
    List.drop_left' (length_fixedPart h checksum)
  refine ⟨h.optionList, ⟨(if h.optionList.length > 0 then [0] else []) ++
    List.replicate (h.computeSize - minTcpHeaderSize - h.optionBytes.length) 0, ?_, ?_, he.wellFormed⟩, rfl,
    Nat.le_trans (List.length_filter_le _ _) he.few⟩
  · rw [hd, optionBytes, List.append_assoc]
  · split
    next => exact .inr ⟨_, rfl⟩
    next =>
      cases h.computeSize - minTcpHeaderSize - h.optionBytes.length with
      | zero => exact .inl rfl
      | succ n => exact .inr ⟨List.replicate n 0, rfl⟩

theorem parse_layout {h : TcpHeader} (he : h.Encodable) {ipv4Hdr : Ipv4Header} {checksum : UInt16} {payload : Buffer}
    {offload : Bool} (hv : offload = true ∨ tcpChecksum ipv4Hdr (h.layout checksum) payload = some checksum) :
    parse ipv4Hdr (h.layout checksum ++ payload) offload = some (.ok (h.withoutNoOperation, payload)) := by
  have hlen := length_layout he.wellFormed checksum
  have htake : (h.layout checksum ++ payload).take h.computeSize = h.layout checksum := List.take_left' hlen
  have hdrop : (h.layout checksum ++ payload).drop h.computeSize = payload := List.drop_left' hlen
  refine parse_eq_ok_iff.mpr ⟨h.computeSize, framed_layout he.wellFormed he.small checksum payload, ?_, ?_, ?_,
    hdrop.symm⟩
  · rw [Verified, htake, hdrop, u16At_layout_checksum]
    exact hv
  · rw [htake]
    exact optionArea_layout he checksum
  · rw [fixedFields_layout he.wellFormed he.small]
    rfl

theorem tcpSumFits_layout {h : TcpHeader} (hw : h.OptionsWellFormed) (ipv4Hdr : Ipv4Header) {payload : Buffer}
    (hl : h.computeSize + payload.length ≤ 131008) : TcpSumFits ipv4Hdr (h.layout 0) payload := by
  have hlen := length_layout hw 0
  have hmod := computeSize_mod hw
  exact tcpSumFits_of_le ipv4Hdr (by rw [hlen]; exact le_computeSize hw) (by omega) (by rw [hlen]; exact hl)

theorem tcpChecksum_layout_eq_none_iff {h : TcpHeader} (hw : h.OptionsWellFormed) {ipv4Hdr : Ipv4Header}
    {checksum : UInt16} {payload : Buffer} :
    tcpChecksum ipv4Hdr (h.layout checksum) payload = none ↔ ¬TcpSumFits ipv4Hdr (h.layout 0) payload := by
  have hlen := length_layout hw 0
  have hmod := computeSize_mod hw
  rw [tcpChecksum_layout]
  exact tcpChecksum_eq_none_iff (by rw [hlen]; exact le_computeSize hw) (by omega)

theorem serialize_eq_none_iff {h : TcpHeader} (hw : h.OptionsWellFormed) {buf : Buffer}
    (hb : buf.length = h.computeSize) {ipv4Hdr : Ipv4Header} {payload : Buffer} {offload : Bool} :
    h.serialize buf ipv4Hdr payload offload = none ↔
      offload = false ∧ ¬TcpSumFits ipv4Hdr (h.layout 0) payload := by
  rw [serialize_eq hw hb, Option.map_eq_none_iff]
  cases offload with
  | true => simp
  | false => simpa using tcpChecksum_layout_eq_none_iff hw

/-- What is written carries the checksum that a receiver computes. -/
theorem serialize_eq_some {h : TcpHeader} (hw : h.OptionsWellFormed) {buf header : Buffer}
    (hb : buf.length = h.computeSize) {ipv4Hdr : Ipv4Header} {payload : Buffer} {offload : Bool}
    (hs : h.serialize buf ipv4Hdr payload offload = some header) :
    ∃ checksum, header = h.layout checksum ∧
      (offload = true ∨ tcpChecksum ipv4Hdr (h.layout checksum) payload = some checksum) := by
  rw [serialize_eq hw hb] at hs
  obtain ⟨checksum, hc, rfl⟩ := Option.map_eq_some_iff.mp hs
  refine ⟨checksum, rfl, ?_⟩
  cases offload with
  | true => exact .inl rfl
  | false =>
    rw [if_neg Bool.false_ne_true, tcpChecksum_layout] at hc
    rw [tcpChecksum_layout]
    exact .inr hc

/-- A header is parsed back from what was written, its no-operations left out; the only other outcome is an overflow
of the accumulator, which takes more than any datagram holds. -/
theorem serialize_then_parse {h : TcpHeader} (he : h.Encodable) (ipv4Hdr : Ipv4Header) (payload : Buffer)
    {buf : Buffer} (hb : buf.length = h.computeSize) :
    (TcpSumFits ipv4Hdr (h.layout 0) payload →
      ∃ header, h.serialize buf ipv4Hdr payload false = some header ∧ header.length = h.computeSize ∧
        parse ipv4Hdr (header ++ payload) false = some (.ok (h.withoutNoOperation, payload))) ∧
    (¬TcpSumFits ipv4Hdr (h.layout 0) payload → h.serialize buf ipv4Hdr payload false = none) ∧
    (h.computeSize + payload.length ≤ 131008 → TcpSumFits ipv4Hdr (h.layout 0) payload) := by
  refine ⟨fun hfits => ?_, fun hfits => (serialize_eq_none_iff he.wellFormed hb).mpr ⟨rfl, hfits⟩,
    tcpSumFits_layout he.wellFormed ipv4Hdr⟩
  cases hs : h.serialize buf ipv4Hdr payload false with
  | none => exact absurd hfits ((serialize_eq_none_iff he.wellFormed hb).mp hs).2
  | some header =>
    obtain ⟨checksum, rfl, hv⟩ := serialize_eq_some he.wellFormed hb hs
    exact ⟨_, rfl, length_layout he.wellFormed checksum, parse_layout he hv⟩

/-- A header with every kind of option, of the largest size. -/
def sample : TcpHeader :=
  { TcpHeader.new 80 1024 with
    syn := true
    optionList := [.maximumSegmentSize 1460, .noOperation, .windowScale 7, .timestamp 1 2,
      .selectiveAcknowlegement 2 [⟨.ofNat 5, .ofNat 9⟩, ⟨.ofNat 11, .ofNat 12⟩, .zero, .zero]] }

theorem sample_encodable : sample.Encodable where
  few := by decide
  wellFormed := by
    show ∀ option ∈ sample.optionList, option.WellFormed
    decide
  small := by decide

theorem serialize_then_parse_sample : ∃ header, sample.serialize (List.replicate 60 0)
    (.new ⟨10, 0, 0, 1⟩ ⟨10, 0, 0, 2⟩ .tcp) [1, 2, 3] false = some header ∧ header.length = 60 ∧
      parse (.new ⟨10, 0, 0, 1⟩ ⟨10, 0, 0, 2⟩ .tcp) (header ++ [1, 2, 3]) false =
        some (.ok (sample.withoutNoOperation, [1, 2, 3])) := by
  have h := @serialize_then_parse sample sample_encodable (.new ⟨10, 0, 0, 1⟩ ⟨10, 0, 0, 2⟩ .tcp) [1, 2, 3]
    (List.replicate 60 0) rfl
  exact h.1 (h.2.2 (by decide))

/-- The checksum of a payload of 140000 bytes cannot be computed. -/
theorem serialize_overflow : sample.Encodable ∧ ∀ ipv4Hdr buf, buf.length = sample.computeSize →
    sample.serialize buf ipv4Hdr (List.replicate 140000 0xff) false = none :=
  ⟨sample_encodable, fun ipv4Hdr _ hb => (serialize_eq_none_iff sample_encodable.wellFormed hb).mpr
    ⟨rfl, @not_tcpSumFits ipv4Hdr (sample.layout 0) 70000 (by decide)⟩⟩

/-- The parser stays inside the buffer and the header; it panics in the accumulator of the checksum only. -/
theorem parse_inside_header (ipv4Header : Ipv4Header) (buf : Buffer) (offload : Bool) :
    (parse ipv4Header buf offload = none ↔
      offload = false ∧ ∃ n, Framed buf n ∧ ¬TcpSumFits ipv4Header (buf.take n) (buf.drop n)) ∧
    (buf.length ≤ 131008 → parse ipv4Header buf offload ≠ none) ∧
    ∀ header payload, parse ipv4Header buf offload = some (.ok (header, payload)) →
      ∃ dataOffset, dataOffset = (byteAt buf 12 >>> 4).toNat * 4 ∧ 20 ≤ dataOffset ∧ dataOffset ≤ 60 ∧
        dataOffset ≤ buf.length ∧ payload = buf.drop dataOffset ∧
        OptionArea ((buf.take dataOffset).drop 20) header.optionList := by
  refine ⟨parse_eq_none_iff, fun hl hnone => ?_, fun header payload h => ?_⟩
  · obtain ⟨-, n, hf, hfits⟩ := parse_eq_none_iff.mp hnone
    have htake := hf.length_take
    refine hfits (tcpSumFits_of_le ipv4Header (by rw [htake]; exact hf.lower) (by rw [htake]; exact hf.even) ?_)
    rw [htake, List.length_drop]
    have hle := hf.fits
    omega
  · obtain ⟨n, hf, -, ho, -, hp⟩ := parse_eq_ok_iff.mp h
    exact ⟨n, hf.offset, hf.lower, hf.upper, hf.fits, hp, ho⟩

/-- A buffer of 140060 bytes makes the accumulator overflow. -/
theorem parse_overflow :
    parse (.new ⟨0, 0, 0, 0⟩ ⟨0, 0, 0, 0⟩ .tcp) (List.replicate 140060 0xff) false = none := by
  have hbyte : byteAt (List.replicate 140060 0xff) 12 = 0xff := by
    rw [byteAt, List.getD_eq_getElem?_getD, List.getElem?_replicate, if_pos (by decide)]
    rfl
  have hf : Framed (List.replicate 140060 0xff) 60 := by
    refine ⟨?_, by decide, by decide, ?_⟩
    · rw [hbyte]
      decide
    · rw [List.length_replicate]
      decide
  refine parse_eq_none_iff.mpr ⟨rfl, 60, hf, ?_⟩
  rw [List.drop_replicate]
  exact @not_tcpSumFits _ _ 70000 (by decide)

/-- The option area has the largest size and every byte of it belongs to an option that is kept. -/
def FullOptionArea (buf : Buffer) : Prop :=
  (byteAt buf 12 >>> 4).toNat * 4 = maxTcpHeaderSize ∧ ∃ options : List TcpOption,
    options.length ≤ maxTcpOptions ∧ (∀ option ∈ options, option.WellFormed ∧ option ≠ .noOperation) ∧
      (buf.take maxTcpHeaderSize).drop minTcpHeaderSize = options.flatMap TcpOption.bytes

/-- The size fits the offset field, and the header and the payload come back. -/
def Survives (ipv4Hdr : Ipv4Header) (h : TcpHeader) (payload : Buffer) (offload : Bool) : Prop :=
  h.computeSize / 4 < 16 ∧ ∀ buf, buf.length = h.computeSize →
    ∃ header, h.serialize buf ipv4Hdr payload offload = some header ∧
      parse ipv4Hdr (header ++ payload) offload = some (.ok (h, payload))

theorem length_flatMap_dropNoOperation (items : List TcpOption) :
    (items.flatMap TcpOption.bytes).length = ((dropNoOperation items).flatMap TcpOption.bytes).length +
      (items.length - (dropNoOperation items).length) ∧ (dropNoOperation items).length ≤ items.length := by
  induction items with
  | nil => exact ⟨rfl, Nat.le_refl 0⟩
  | cons item items ih =>
    obtain ⟨hlen, hle⟩ := ih
    by_cases hn : item = .noOperation
    · subst hn
      rw [dropNoOperation_noOperation, List.flatMap_cons, List.length_append, List.length_cons]
      have hone : TcpOption.noOperation.bytes.length = 1 := rfl
      exact ⟨by omega, by omega⟩
    · rw [dropNoOperation_cons_of_ne hn, List.flatMap_cons, List.flatMap_cons, List.length_append,
        List.length_append, List.length_cons, List.length_cons]
      exact ⟨by omega, by omega⟩

theorem dropNoOperation_of_length_eq {items : List TcpOption} (h : items.length = (dropNoOperation items).length) :
    dropNoOperation items = items := List.filter_eq_self.mpr (List.length_filter_eq_length_iff.mp h.symm)

theorem mem_dropNoOperation {items : List TcpOption} {option : TcpOption} (h : option ∈ dropNoOperation items) :
    option ∈ items ∧ option ≠ .noOperation := by
  obtain ⟨hm, hn⟩ := List.mem_filter.mp h
  exact ⟨hm, of_decide_eq_true hn⟩

section Parsed

variable {ipv4Header : Ipv4Header} {buf payload : Buffer} {offload : Bool} {header : TcpHeader}

/-- A parsed header holds what its option area held. -/
theorem parsed_options (h : parse ipv4Header buf offload = some (.ok (header, payload))) :
    header.OptionsWellFormed ∧ header.optionList.length ≤ maxTcpOptions ∧
      dropNoOperation header.optionList = header.optionList ∧
      (header.optionList.flatMap TcpOption.bytes).length ≤ 40 ∧
      ((header.optionList.flatMap TcpOption.bytes).length = 40 ↔ FullOptionArea buf) := by
  obtain ⟨n, hf, -, ho, -, -⟩ := parse_eq_ok_iff.mp h
  have harea : ((buf.take n).drop minTcpHeaderSize).length = n - minTcpHeaderSize := by
    rw [List.length_drop, hf.length_take]
  have hupper : n ≤ 60 := hf.upper
  obtain ⟨items, ⟨tail, hsplit, ht, hw⟩, hoptions, hmax⟩ := id ho
  have hlength := length_flatMap_dropNoOperation items
  have htotal := congrArg List.length hsplit
  rw [harea, List.length_append, minTcpHeaderSize] at htotal
  have hkept : ∀ option ∈ header.optionList, option.WellFormed ∧ option ≠ .noOperation := by
    intro option hm
    rw [hoptions] at hm
    exact ⟨hw option (mem_dropNoOperation hm).1, (mem_dropNoOperation hm).2⟩
  rw [← hoptions] at hlength
  refine ⟨fun option hm => (hkept option hm).1, hmax, ?_, by omega, ?_, ?_⟩
  · exact List.filter_eq_self.mpr fun option hm => decide_eq_true (hkept option hm).2
  · intro hfull
    have hitems : items = header.optionList := by
      rw [hoptions]
      exact (dropNoOperation_of_length_eq (by rw [← hoptions]; omega)).symm
    obtain rfl : tail = [] := List.eq_nil_of_length_eq_zero (by omega)
    obtain rfl : n = maxTcpHeaderSize := by
      rw [maxTcpHeaderSize]
      omega
    refine ⟨hf.offset.symm, header.optionList, hmax, hkept, ?_⟩
    rw [hsplit, List.append_nil, hitems]
  · rintro ⟨hoffset, options, hfew, hall, hbytes⟩
    obtain rfl : n = maxTcpHeaderSize := hf.offset.trans hoffset
    have hdrop : dropNoOperation options = options :=
      List.filter_eq_self.mpr fun option hm => decide_eq_true (hall option hm).2
    have hfull : OptionArea ((buf.take maxTcpHeaderSize).drop minTcpHeaderSize) options := by
      refine ⟨options, ⟨[], ?_, .inl rfl, fun option hm => (hall option hm).1⟩, hdrop.symm, hfew⟩
      rw [hbytes, List.append_nil]
    rw [ho.unique hfull, ← hbytes, harea]
    rfl

/-- A header of 64 bytes has its size cut off and cannot be parsed. -/
theorem not_framed_layout (hs : header.computeSize = 64) (checksum : UInt16) (n : Nat) :
    ¬Framed (header.layout checksum ++ payload) n := by
  intro hf
  have hall : ∀ ns : Bool, (offsetAndNs 64 ns >>> 4).toNat = 0 := by decide
  have hoffset := hf.offset
  have hlower := hf.lower
  rw [byteAt_layout_offset, hs, hall] at hoffset
  rw [minTcpHeaderSize] at hlower
  omega

/-- Writing a parsed header again keeps it, unless its options fill the largest option area: the end mark behind
them makes the header too large for the offset field. -/
theorem survives_iff (ipv4Hdr : Ipv4Header) (again : Bool)
    (h : parse ipv4Header buf offload = some (.ok (header, payload))) :
    (Survives ipv4Hdr header payload again ↔
      ¬FullOptionArea buf ∧ (again = true ∨ TcpSumFits ipv4Hdr (header.layout 0) payload)) ∧
    (buf.length ≤ 130944 → TcpSumFits ipv4Hdr (header.layout 0) payload) := by
  obtain ⟨hw, hmax, hdrop, hle, hfull⟩ := parsed_options h
  obtain ⟨n, hf, -, -, -, hpayload⟩ := parse_eq_ok_iff.mp h
  have hsize := computeSize_eq hw
  have hlen : header.optionBytes.length = (header.optionList.flatMap TcpOption.bytes).length +
      if header.optionList.length > 0 then 1 else 0 := by
    rw [optionBytes, List.length_append]
    split
    next => rfl
    next => rfl
  have hzero : header.optionList.length = 0 → (header.optionList.flatMap TcpOption.bytes).length = 0 := by
    intro hz
    rw [List.eq_nil_of_length_eq_zero hz]
    rfl
  have hwhole : header.withoutNoOperation = header := by rw [withoutNoOperation, hdrop]
  rw [minTcpHeaderSize] at hsize
  refine ⟨⟨fun hs => ⟨fun harea => ?_, ?_⟩, ?_⟩, fun hl => ?_⟩
  · have h40 := hfull.mpr harea
    have hlarge := hs.1
    split at hlen <;> omega
  · obtain ⟨out, hout, -⟩ := hs.2 (List.replicate header.computeSize 0) List.length_replicate
    by_cases ha : again = true
    · exact .inl ha
    · refine .inr (Decidable.not_not.mp fun hfits => ?_)
      rw [(serialize_eq_none_iff hw List.length_replicate).mpr ⟨eq_false_of_ne_true ha, hfits⟩] at hout
      cases hout
  · rintro ⟨harea, hfits⟩
    have hlt : (header.optionList.flatMap TcpOption.bytes).length ≠ 40 := fun h40 => harea (hfull.mp h40)
    have hsmall : header.computeSize ≤ 60 := by split at hlen <;> omega
    refine ⟨by omega, fun out hb => ?_⟩
    cases hs : header.serialize out ipv4Hdr payload again with
    | none =>
      obtain ⟨rfl, hnot⟩ := (serialize_eq_none_iff hw hb).mp hs
      rcases hfits with hfits | hfits
      · cases hfits
      · exact absurd hfits hnot
    | some written =>
      obtain ⟨checksum, rfl, hv⟩ := serialize_eq_some hw hb hs
      refine ⟨_, rfl, ?_⟩
      rw [parse_layout ⟨hmax, hw, hsmall⟩ hv, hwhole]
  · refine tcpSumFits_layout hw ipv4Hdr ?_
    have hlower : 20 ≤ n := hf.lower
    rw [hpayload, List.length_drop]
    split at hlen <;> omega

end Parsed

/-- Three options of forty bytes together. -/
def fullHeader : TcpHeader :=
  { TcpHeader.new 80 1024 with
    optionList := [.maximumSegmentSize 1460, .selectiveAcknowlegementPermitted,
      .selectiveAcknowlegement 4 [⟨.ofNat 1, .ofNat 2⟩, ⟨.ofNat 3, .ofNat 4⟩, ⟨.ofNat 5, .ofNat 6⟩,
        ⟨.ofNat 7, .ofNat 8⟩]] }

/-- The segment with these options as a sender without an end mark writes it. -/
def fullSegment : Buffer :=
  be16 80 ++ be16 1024 ++ be32 0 ++ be32 0 ++ [0xf0, 0] ++ be16 0 ++ be16 58985 ++ be16 0 ++
    fullHeader.optionList.flatMap TcpOption.bytes

theorem fullHeader_wellFormed : fullHeader.OptionsWellFormed := by
  show ∀ option ∈ fullHeader.optionList, option.WellFormed
  decide

/-- The parser takes the segment and refuses it once it has been written again. -/
theorem fullSegment_lost :
    parse (.new ⟨10, 0, 0, 1⟩ ⟨10, 0, 0, 2⟩ .tcp) fullSegment false = some (.ok (fullHeader, [])) ∧
      ¬Survives (.new ⟨10, 0, 0, 1⟩ ⟨10, 0, 0, 2⟩ .tcp) fullHeader [] false ∧
      ∀ buf written, buf.length = fullHeader.computeSize →
        fullHeader.serialize buf (.new ⟨10, 0, 0, 1⟩ ⟨10, 0, 0, 2⟩ .tcp) [] false = some written →
          ∃ e, parse (.new ⟨10, 0, 0, 1⟩ ⟨10, 0, 0, 2⟩ .tcp) (written ++ []) false = some (.error e) := by
  refine ⟨parse_eq_ok_iff.mpr ⟨60, ⟨by decide, by decide, by decide, by decide⟩, .inr ?_, ?_, rfl, rfl⟩,
    fun h => absurd h.1 (by decide), fun buf written hb hs => ?_⟩
  · rw [tcpChecksum_eq_internetChecksum _ (by decide) (by decide) (by decide)]
    decide +kernel
  · exact ⟨fullHeader.optionList, ⟨[], rfl, .inl rfl, fullHeader_wellFormed⟩, rfl, by decide⟩
  · obtain ⟨checksum, rfl, -⟩ := serialize_eq_some fullHeader_wellFormed hb hs
    obtain ⟨e, he, -⟩ := parse_of_not_framed (.new ⟨10, 0, 0, 1⟩ ⟨10, 0, 0, 2⟩ .tcp)
      (not_framed_layout (show fullHeader.computeSize = 64 by decide) checksum) false
    exact ⟨e, he⟩

/-- A segment whose options leave room for the end mark. -/
def roomySegment : Buffer :=
  be16 80 ++ be16 1024 ++ be32 0 ++ be32 0 ++ [0x60, 0] ++ be16 0 ++ be16 0 ++ be16 0 ++ [1, 1, 4, 2]

def roomyHeader : TcpHeader :=
  { TcpHeader.new 80 1024 with optionList := [.selectiveAcknowlegementPermitted] }

theorem roomySegment_parse (ipv4Header : Ipv4Header) :
    parse ipv4Header roomySegment true = some (.ok (roomyHeader, [])) := by
  refine parse_eq_ok_iff.mpr ⟨24, ⟨by decide, by decide, by decide, by decide⟩, .inl rfl, ?_, rfl, rfl⟩
  refine ⟨[.noOperation, .noOperation, .selectiveAcknowlegementPermitted], ⟨[], rfl, .inl rfl, ?_⟩, rfl, by decide⟩
  decide

theorem survives_roomySegment : Survives (.new ⟨10, 0, 0, 1⟩ ⟨10, 0, 0, 2⟩ .tcp) roomyHeader [] false := by
  have h := survives_iff (.new ⟨10, 0, 0, 1⟩ ⟨10, 0, 0, 2⟩ .tcp) false
    (roomySegment_parse (.new ⟨10, 0, 0, 1⟩ ⟨10, 0, 0, 2⟩ .tcp))
  exact h.1.mpr ⟨fun hfull => absurd hfull.1 (by decide), .inr (h.2 (by decide))⟩

end TcpHeader

end Capybara
