import Capybara.Checksums

namespace Capybara

open Wire

/-- `if p { return Err(fail) }` in a function that can also panic. -/
def reject (p : Prop) [Decidable p] (fail : Fail) : ExceptT Fail Option Unit := ExceptT.mk (some (refuse p fail))

/-- An access that panics out of range. -/
def access {α : Type} (a : Option α) : ExceptT Fail Option α := ExceptT.lift a

def propagate {α : Type} (r : Except Fail α) : ExceptT Fail Option α := ExceptT.mk (some r)

/-- The call does not panic and has the given result. -/
def Returns {α : Type} (m : ExceptT Fail Option α) (r : Except Fail α) : Prop := m.run = some r

theorem Returns.reject {α : Type} {p : Prop} [Decidable p] {fail : Fail} {m : Unit → ExceptT Fail Option α}
    {r : Unit → Except Fail α} (h : ¬p → Returns (m ()) (r ())) :
    Returns (Capybara.reject p fail >>= m) (refuse p fail >>= r) := by
  by_cases hp : p
  · have hm : Capybara.reject p fail = ExceptT.mk (some (.error fail)) :=
      congrArg (fun r => ExceptT.mk (some r)) (if_pos hp)
    have hr : refuse p fail = .error fail := if_pos hp
    rw [hm, hr]
    rfl
  · have hm : Capybara.reject p fail = ExceptT.mk (some (.ok ())) := congrArg (fun r => ExceptT.mk (some r)) (if_neg hp)
    rw [hm, refuse_of_not hp]
    exact h hp

theorem Returns.access {α β : Type} {o : Option β} {b : β} {m : β → ExceptT Fail Option α} {r : Except Fail α}
    (ho : o = some b) (h : Returns (m b) r) : Returns (Capybara.access o >>= m) r := by
  rw [ho]
  exact h

theorem Returns.propagate {α β : Type} {q : Except Fail β} {m : β → ExceptT Fail Option α} {r : β → Except Fail α}
    (h : ∀ b, Returns (m b) (r b)) : Returns (Capybara.propagate q >>= m) (q >>= r) := by
  cases q with
  | error e => rfl
  | ok b => exact h b

namespace Ipv4Header

/-- The checksum over a slice whose length is not known. -/
def checkedChecksum (buf : Buffer) : Option UInt16 := do
  let summed ← summedOffsets.mapM (sliceU16 buf)
  let state ← addAll 0xffff (summed.map UInt16.toNat)
  some (UInt16.ofNat (2 ^ 32 - 1 - foldCarry state))

def checkedAddr (buf : Buffer) (i : Nat) : Option Ipv4Addr := if i + 4 ≤ buf.length then some (ipv4At buf i) else none

/-- The parser with every access to the buffer that can panic. -/
def parseChecked (buf : Buffer) : ExceptT Fail Option (Ipv4Header × Buffer) := do
  reject (buf.length < ipv4HeaderMinSize) ⟨.EBADMSG, "ipv4 datagram too small"⟩
  let octet0 ← access (sliceU8 buf 0)
  let version := octet0 >>> 4
  reject (version ≠ 4) ⟨.ENOTSUP, "unsupported IP version"⟩
  let ihl := octet0 &&& 0xF
  let hdrSize := ihl.toNat * 4
  reject (hdrSize < ipv4HeaderMinSize) ⟨.EBADMSG, "ipv4 IHL is too small"⟩
  reject (buf.length < hdrSize) ⟨.EBADMSG, "ipv4 datagram too small to fit in header"⟩
  let (hdrBuf, _) ← access (splitAt buf hdrSize)
  let octet1 ← access (sliceU8 hdrBuf 1)
  let dscp := octet1 >>> 2
  let ecn := octet1 &&& 3
  let totalLength ← access (sliceU16 hdrBuf 2)
  reject (totalLength.toNat < hdrSize) ⟨.EBADMSG, "ipv4 datagram smaller than header"⟩
  reject (totalLength.toNat > buf.length) ⟨.EBADMSG, "ipv4 datagram size mismatch"⟩
  let identification ← access (sliceU16 hdrBuf 4)
  let octet6 ← access (sliceU8 hdrBuf 6)
  let flags := octet6 >>> 5
  reject (flags &&& 4 ≠ 0) ⟨.EBADMSG, "ipv4 datagram is marked as evil"⟩
  reject (flags &&& 1 ≠ 0) ⟨.ENOTSUP, "ipv4 fragmentation is not supported"⟩
  let word6 ← access (sliceU16 hdrBuf 6)
  let fragmentOffset := word6 &&& 0x1fff
  reject (fragmentOffset ≠ 0) ⟨.ENOTSUP, "ipv4 fragmentation is not supported"⟩
  let timeToLive ← access (sliceU8 hdrBuf 8)
  reject (timeToLive = 0) ⟨.EBADMSG, "ipv4 datagram too old"⟩
  let octet9 ← access (sliceU8 hdrBuf 9)
  let protocol ← propagate (IpProtocol.tryFrom octet9)
  let headerChecksum ← access (sliceU16 hdrBuf 10)
  reject (headerChecksum = 0xffff) ⟨.EBADMSG, "ipv4 checksum invalid"⟩
  let computed ← access (checkedChecksum hdrBuf)
  reject (headerChecksum ≠ computed) ⟨.EBADMSG, "ipv4 checksum mismatch"⟩
  let srcAddr ← access (checkedAddr hdrBuf 12)
  let dstAddr ← access (checkedAddr hdrBuf 16)
  let paddingBytes ← access (checkedSub buf.length totalLength.toNat)
  let payload ← access (adjust buf hdrSize)
  let payload ← access (trim payload paddingBytes)
  return (⟨version, ihl, dscp, ecn, totalLength, identification, flags, fragmentOffset, timeToLive, protocol,
    headerChecksum, srcAddr, dstAddr⟩, payload)

theorem computeChecksum_take {buf : Buffer} {n : Nat} (h : ipv4HeaderMinSize ≤ n) :
    computeChecksum (buf.take n) = computeChecksum buf := by
  have hn : 20 ≤ n := h
  have hat : ∀ i ∈ summedOffsets, (u16At (buf.take n) i).toNat = (u16At buf i).toNat := by
    intro i hi
    have hi' : i + 2 ≤ 20 := by
      simp only [summedOffsets, List.mem_cons, List.not_mem_nil, or_false] at hi
      omega
    rw [u16At_take (by omega)]
  rw [computeChecksum, computeChecksum, List.map_congr_left hat]

theorem checkedChecksum_eq {buf : Buffer} (h : ipv4HeaderMinSize ≤ buf.length) :
    checkedChecksum buf = some (computeChecksum buf) := by
  have hl : 20 ≤ buf.length := h
  have hmap : summedOffsets.mapM (sliceU16 buf) = some (summedOffsets.map (u16At buf)) := by
    simp only [summedOffsets, List.mapM_cons, List.mapM_nil, List.map_cons, List.map_nil,
      sliceU16_of_le (show 0 + 2 ≤ buf.length by omega), sliceU16_of_le (show 2 + 2 ≤ buf.length by omega),
      sliceU16_of_le (show 4 + 2 ≤ buf.length by omega), sliceU16_of_le (show 6 + 2 ≤ buf.length by omega),
      sliceU16_of_le (show 8 + 2 ≤ buf.length by omega), sliceU16_of_le (show 12 + 2 ≤ buf.length by omega),
      sliceU16_of_le (show 14 + 2 ≤ buf.length by omega), sliceU16_of_le (show 16 + 2 ≤ buf.length by omega),
      sliceU16_of_le (show 18 + 2 ≤ buf.length by omega)]
    rfl
  have hsum : (summedOffsets.map fun i => (u16At buf i).toNat).foldl (· + ·) 0xffff =
      0xffff + ((summedOffsets.map (u16At buf)).map UInt16.toNat).sum := by
    rw [List.map_map]
    simp only [summedOffsets, List.map_cons, List.map_nil, List.foldl_cons, List.foldl_nil, List.sum_cons,
      List.sum_nil, Function.comp]
    omega
  have hbound := wordTotal_le (summedOffsets.map (u16At buf))
  have hnine : (summedOffsets.map (u16At buf)).length = 9 := rfl
  rw [hnine, wordTotal] at hbound
  rw [checkedChecksum, hmap, Option.bind_eq_bind, Option.bind_some, addAll_of_lt (by omega), Option.bind_eq_bind,
    Option.bind_some, computeChecksum, hsum]

/-- No access is out of range: the parser is total. -/
theorem parseChecked_returns (buf : Buffer) : Returns (parseChecked buf) (parse buf) := by
  refine Returns.reject fun hsmall => ?_
  have hl : 20 ≤ buf.length := Nat.le_of_not_lt hsmall
  refine Returns.access (sliceU8_of_lt (by omega)) (Returns.reject fun hversion => Returns.reject fun hihl =>
    Returns.reject fun hfits => ?_)
  generalize hn : (byteAt buf 0 &&& 0xF).toNat * 4 = n at hihl hfits
  have hlow : 20 ≤ n := Nat.le_of_not_lt hihl
  have htake : (buf.take n).length = n := by rw [List.length_take, Nat.min_eq_left (Nat.le_of_not_lt hfits)]
  have h8 : ∀ i, i < n → sliceU8 (buf.take n) i = some (byteAt buf i) := by
    intro i hi
    rw [sliceU8_of_lt (by rw [htake]; exact hi), byteAt_take hi]
  have h16 : ∀ i, i + 2 ≤ n → sliceU16 (buf.take n) i = some (u16At buf i) := by
    intro i hi
    rw [sliceU16_of_le (by rw [htake]; exact hi), u16At_take hi]
  have haddr : ∀ i, i + 4 ≤ n → checkedAddr (buf.take n) i = some (ipv4At buf i) := by
    intro i hi
    rw [checkedAddr, if_pos (by rw [htake]; exact hi), ipv4At, byteAt_take (by omega), byteAt_take (by omega),
      byteAt_take (by omega), byteAt_take (by omega)]
    rfl
  have hsum : checkedChecksum (buf.take n) = some (computeChecksum buf) := by
    rw [checkedChecksum_eq (by rw [htake]; exact hlow), computeChecksum_take hlow]
  refine Returns.access (splitAt_of_le (Nat.le_of_not_lt hfits)) (Returns.access (h8 1 (by omega))
    (Returns.access (h16 2 (by omega)) (Returns.reject fun hlower => Returns.reject fun hupper => ?_)))
  refine Returns.access (h16 4 (by omega)) (Returns.access (h8 6 (by omega)) (Returns.reject fun _ =>
    Returns.reject fun _ => Returns.access (h16 6 (by omega)) (Returns.reject fun _ => ?_)))
  refine Returns.access (h8 8 (by omega)) (Returns.reject fun _ => Returns.access (h8 9 (by omega))
    (Returns.propagate fun protocol => Returns.access (h16 10 (by omega)) (Returns.reject fun _ => ?_)))
  refine Returns.access hsum (Returns.reject fun _ => Returns.access (haddr 12 (by omega))
    (Returns.access (haddr 16 (by omega)) ?_))
  have hlen : (buf.drop n).length = buf.length - n := List.length_drop
  refine Returns.access (checkedSub_of_le (Nat.le_of_not_lt hupper)) (Returns.access (adjust_of_le (by omega))
    (Returns.access (trim_of_le (by rw [hlen]; omega)) ?_))
  rw [hlen, show buf.length - n - (buf.length - (u16At buf 2).toNat) = (u16At buf 2).toNat - n by omega]
  rfl

def headerSize (buf : Buffer) : Nat := (byteAt buf 0 &&& 0xF).toNat * 4

/-- A version-4 datagram that is not a fragment, with nothing wrong but possibly its checksum. -/
structure WellFormed (buf : Buffer) : Prop where
  minimum : ipv4HeaderMinSize ≤ buf.length
  version : byteAt buf 0 >>> 4 = 4
  ihl : ipv4HeaderMinSize ≤ headerSize buf
  header : headerSize buf ≤ (u16At buf 2).toNat
  total : (u16At buf 2).toNat ≤ buf.length
  notEvil : (byteAt buf 6 >>> 5) &&& 4 = 0
  last : (byteAt buf 6 >>> 5) &&& 1 = 0
  first : u16At buf 6 &&& 0x1fff = 0
  ttl : byteAt buf 8 ≠ 0
  protocol : ∃ protocol, IpProtocol.tryFrom (byteAt buf 9) = .ok protocol

/-- The header that a buffer starts with. -/
def headerAt (buf : Buffer) (protocol : IpProtocol) : Ipv4Header where
  version := byteAt buf 0 >>> 4
  ihl := byteAt buf 0 &&& 0xF
  dscp := byteAt buf 1 >>> 2
  ecn := byteAt buf 1 &&& 3
  totalLength := u16At buf 2
  identification := u16At buf 4
  flags := byteAt buf 6 >>> 5
  fragmentOffset := u16At buf 6 &&& 0x1fff
  ttl := byteAt buf 8
  protocol := protocol
  headerChecksum := u16At buf 10
  srcAddr := ipv4At buf 12
  dstAddr := ipv4At buf 16

theorem refuse_bind_eq_ok_iff {α : Type} {p : Prop} [Decidable p] {fail : Fail} {k : Unit → Except Fail α} {a : α} :
    (refuse p fail >>= k) = .ok a ↔ ¬p ∧ k () = .ok a := by
  by_cases hp : p
  · have hr : refuse p fail = .error fail := if_pos hp
    rw [hr]
    exact ⟨fun h => (by cases h), fun h => absurd hp h.1⟩
  · rw [refuse_of_not hp]
    exact ⟨fun h => ⟨hp, h⟩, fun h => h.2⟩

theorem tryFrom_bind_eq_ok_iff {α : Type} {n : UInt8} {k : IpProtocol → Except Fail α} {a : α} :
    (IpProtocol.tryFrom n >>= k) = .ok a ↔ ∃ protocol, IpProtocol.tryFrom n = .ok protocol ∧ k protocol = .ok a := by
  cases IpProtocol.tryFrom n with
  | error e => exact ⟨fun h => (by cases h), fun h => h.elim fun b hb => (by cases hb.1)⟩
  | ok b => exact ⟨fun h => ⟨b, rfl, h⟩, fun h => h.elim fun b' hb => Except.ok.inj hb.1 ▸ hb.2⟩

theorem parse_eq_ok_iff {buf payload : Buffer} {h : Ipv4Header} :
    parse buf = .ok (h, payload) ↔ WellFormed buf ∧ u16At buf 10 = computeChecksum buf ∧
      (∃ protocol, IpProtocol.tryFrom (byteAt buf 9) = .ok protocol ∧ h = headerAt buf protocol) ∧
      payload = (buf.take (u16At buf 2).toNat).drop (headerSize buf) := by
  have hne := computeChecksum_ne buf
  rw [parse]
  simp only [refuse_bind_eq_ok_iff, tryFrom_bind_eq_ok_iff, Nat.not_lt, gt_iff_lt, Decidable.not_not]
  constructor
  · rintro ⟨hmin, hversion, hihl, hfits, hheader, htotal, hevil, hlast, hfirst, httl, protocol, hprotocol, hstored,
      hsum, hresult⟩
    obtain ⟨rfl, rfl⟩ := Prod.mk.inj (Except.ok.inj hresult)
    refine ⟨⟨hmin, hversion, hihl, hheader, htotal, hevil, hlast, hfirst, httl, protocol, hprotocol⟩, hsum,
      ⟨protocol, hprotocol, rfl⟩, ?_⟩
    rw [List.drop_take]
    rfl
  · rintro ⟨hw, hsum, ⟨protocol, hprotocol, rfl⟩, rfl⟩
    refine ⟨hw.minimum, hw.version, hw.ihl, Nat.le_trans hw.header hw.total, hw.header, hw.total, hw.notEvil, hw.last,
      hw.first, hw.ttl, protocol, hprotocol, fun hstored => hne (hsum.symm.trans hstored), hsum, ?_⟩
    rw [List.drop_take]
    rfl

/-- The Internet checksum of the first bytes of a buffer, the checksum field taken as zero. -/
def headerChecksumOver (buf : Buffer) (n : Nat) : UInt16 := internetChecksum (paddedWords (zeroWordAt (buf.take n) 10))

/-- What the sum over the fixed part adds up. -/
def fixedTotal (buf : Buffer) : Nat := wordTotal (summedOffsets.map (u16At buf))

def optionWords (buf : Buffer) : List UInt16 := paddedWords ((buf.take (headerSize buf)).drop ipv4HeaderMinSize)

theorem toNat_computeChecksum {buf : Buffer} (h : 0 < fixedTotal buf) :
    (computeChecksum buf).toNat = 0xffff - residue (fixedTotal buf) := by
  have hsum : (summedOffsets.map fun i => (u16At buf i).toNat).foldl (· + ·) 0xffff = 0xffff + fixedTotal buf := by
    rw [fixedTotal, wordTotal, List.map_map]
    simp only [summedOffsets, List.map_cons, List.map_nil, List.foldl_cons, List.foldl_nil, List.sum_cons,
      List.sum_nil, Function.comp]
    omega
  have hle := residue_le (fixedTotal buf)
  rw [computeChecksum, hsum, foldCarry_eq_residue, residue_add_carry h, UInt16.toNat_ofNat']
  omega

theorem wordTotal_header {buf : Buffer} {n : Nat} (h : ipv4HeaderMinSize ≤ n) (hn : n ≤ buf.length) :
    wordTotal (paddedWords (zeroWordAt (buf.take n) 10)) =
      fixedTotal buf + wordTotal (paddedWords ((buf.take n).drop ipv4HeaderMinSize)) := by
  have hlow : 20 ≤ n := h
  have htake : (buf.take n).length = n := by rw [List.length_take, Nat.min_eq_left hn]
  have hz := @wordTotal_zeroWordAt (buf.take n) 10 (by decide) (by omega)
  have hs := @paddedWords_eq_offsets (buf.take n) 10 (by omega)
  have hr : List.range 10 = [0, 1, 2, 3, 4, 5, 6, 7, 8, 9] := rfl
  have hat : ∀ i, i + 2 ≤ 20 → u16At (buf.take n) i = u16At buf i := fun i hi => u16At_take (by omega)
  rw [hs, hr, hat 10 (by decide)] at hz
  simp only [wordTotal, fixedTotal, summedOffsets, ipv4HeaderMinSize, List.map_cons, List.map_nil, List.map_append,
    List.sum_append, List.sum_cons, List.sum_nil, Nat.reduceMul, hat 0 (by decide), hat 2 (by decide),
    hat 4 (by decide), hat 6 (by decide), hat 8 (by decide), hat 10 (by decide), hat 12 (by decide),
    hat 14 (by decide), hat 16 (by decide), hat 18 (by decide)] at hz ⊢
  omega

theorem WellFormed.fixedTotal_pos {buf : Buffer} (h : WellFormed buf) : 0 < fixedTotal buf := by
  have hbyte := UInt8.toNat_lt (byteAt buf 0)
  have hbyte1 := UInt8.toNat_lt (byteAt buf (0 + 1))
  have hversion := congrArg UInt8.toNat h.version
  rw [UInt8.toNat_shiftRight, Nat.shiftRight_eq_div_pow] at hversion
  change (byteAt buf 0).toNat / 16 = 4 at hversion
  have hword : 0 < (u16At buf 0).toNat := by
    rw [u16At, ofBe16, UInt16.toNat_ofNat']
    omega
  have hle : (u16At buf 0).toNat ≤ fixedTotal buf := le_wordTotal (by simp [summedOffsets])
  omega

theorem WellFormed.headerSize_le {buf : Buffer} (h : WellFormed buf) : headerSize buf ≤ buf.length :=
  Nat.le_trans h.header h.total

/-- The computed sum is that of a header without options. -/
theorem computeChecksum_eq_fixed {buf : Buffer} (h : WellFormed buf) :
    computeChecksum buf = headerChecksumOver buf ipv4HeaderMinSize := by
  have hnil : (buf.take ipv4HeaderMinSize).drop ipv4HeaderMinSize = [] :=
    List.drop_eq_nil_of_le (by rw [List.length_take]; omega)
  have hzero : wordTotal (paddedWords ([] : Buffer)) = 0 := rfl
  apply UInt16.toNat_inj.mp
  rw [toNat_computeChecksum h.fixedTotal_pos, headerChecksumOver, toNat_internetChecksum,
    wordTotal_header (Nat.le_refl _) h.minimum, hnil, hzero, Nat.add_zero]

/-- It is that of the whole header only where the options cancel out. -/
theorem computeChecksum_eq_whole_iff {buf : Buffer} (h : WellFormed buf) :
    computeChecksum buf = headerChecksumOver buf (headerSize buf) ↔ wordTotal (optionWords buf) % 0xffff = 0 := by
  have hle := residue_le (fixedTotal buf)
  have hle' := residue_le (fixedTotal buf + wordTotal (optionWords buf))
  rw [← residue_add_eq_iff h.fixedTotal_pos, ← UInt16.toNat_inj, toNat_computeChecksum h.fixedTotal_pos,
    headerChecksumOver, toNat_internetChecksum, wordTotal_header h.ihl h.headerSize_le]
  change _ = 0xffff - residue (fixedTotal buf + wordTotal (optionWords buf)) ↔ _
  omega

def Accepts (buf : Buffer) : Prop := ∃ h payload, parse buf = .ok (h, payload)

theorem accepts_iff {buf : Buffer} (h : WellFormed buf) : Accepts buf ↔ u16At buf 10 = computeChecksum buf := by
  constructor
  · rintro ⟨hdr, payload, hp⟩
    exact (parse_eq_ok_iff.mp hp).2.1
  · intro hsum
    obtain ⟨protocol, hprotocol⟩ := h.protocol
    exact ⟨_, _, parse_eq_ok_iff.mpr ⟨h, hsum, ⟨protocol, hprotocol, rfl⟩, rfl⟩⟩

/-- The options cancel out in the sum, or the stored checksum is right for neither part. -/
def ChecksumAgrees (buf : Buffer) : Prop :=
  wordTotal (optionWords buf) % 0xffff = 0 ∨
    u16At buf 10 ≠ headerChecksumOver buf ipv4HeaderMinSize ∧ u16At buf 10 ≠ headerChecksumOver buf (headerSize buf)

theorem accepts_whole_iff {buf : Buffer} (h : WellFormed buf) :
    (Accepts buf ↔ u16At buf 10 = headerChecksumOver buf (headerSize buf)) ↔ ChecksumAgrees buf := by
  have hwhole := computeChecksum_eq_whole_iff h
  rw [accepts_iff h, ChecksumAgrees, ← hwhole, ← computeChecksum_eq_fixed h]
  constructor
  · intro hiff
    by_cases hstored : u16At buf 10 = computeChecksum buf
    · exact .inl (hstored.symm.trans (hiff.mp hstored))
    · exact .inr ⟨hstored, fun heq => hstored (hiff.mpr heq)⟩
  · rintro (heq | ⟨hne, hne'⟩)
    · rw [heq]
    · exact ⟨fun h => absurd h hne, fun h => absurd h hne'⟩

/-- The headers of the program: new ones, parsed ones, and both with their addresses changed. -/
inductive Made : Ipv4Header → Prop
  | new (srcAddr dstAddr : Ipv4Addr) (protocol : IpProtocol) : Made (new srcAddr dstAddr protocol)
  | parsed {buf payload : Buffer} {h : Ipv4Header} : parse buf = .ok (h, payload) → Made h
  | setSrcAddr {h : Ipv4Header} (addr : Ipv4Addr) : Made h → Made { h with srcAddr := addr }
  | setDstAddr {h : Ipv4Header} (addr : Ipv4Addr) : Made h → Made { h with dstAddr := addr }

/-- What the private fields of a header always are. -/
structure Sendable (h : Ipv4Header) : Prop where
  version : h.version = 4
  flags : h.flags = 0 ∨ h.flags = 2
  fragmentOffset : h.fragmentOffset &&& 0x1fff = 0
  ttl : h.ttl ≠ 0

theorem flags_of_checked (octet : UInt8) (hevil : (octet >>> 5) &&& 4 = 0) (hlast : (octet >>> 5) &&& 1 = 0) :
    octet >>> 5 = 0 ∨ octet >>> 5 = 2 := by
  have hall : ∀ flags : Fin 8, UInt8.ofNat flags.val &&& 4 = 0 → UInt8.ofNat flags.val &&& 1 = 0 →
      UInt8.ofNat flags.val = 0 ∨ UInt8.ofNat flags.val = 2 := by decide
  have hoctet := UInt8.toNat_lt octet
  have hlt : (octet >>> 5).toNat < 8 := by
    have hshift : (octet >>> 5).toNat = octet.toNat / 32 := by
      rw [UInt8.toNat_shiftRight, Nat.shiftRight_eq_div_pow]
      rfl
    omega
  have hflags : UInt8.ofNat (octet >>> 5).toNat = octet >>> 5 := UInt8.ofNat_toNat
  have hcase := hall ⟨(octet >>> 5).toNat, hlt⟩
  rw [hflags] at hcase
  exact hcase hevil hlast

theorem Made.sendable {h : Ipv4Header} (hm : Made h) : Sendable h := by
  induction hm with
  | new srcAddr dstAddr protocol =>
    exact ⟨rfl, .inr rfl, (by decide : (0 : UInt16) &&& 0x1fff = 0), (by decide : (255 : UInt8) ≠ 0)⟩
  | parsed hp =>
    obtain ⟨hw, -, ⟨protocol, -, rfl⟩, -⟩ := parse_eq_ok_iff.mp hp
    refine ⟨hw.version, flags_of_checked _ hw.notEvil hw.last, ?_, hw.ttl⟩
    show (_ &&& 0x1fff) &&& 0x1fff = (0 : UInt16)
    rw [hw.first]
    rfl
  | setSrcAddr addr _ ih => exact ⟨ih.version, ih.flags, ih.fragmentOffset, ih.ttl⟩
  | setDstAddr addr _ ih => exact ⟨ih.version, ih.flags, ih.fragmentOffset, ih.ttl⟩

/-- A header without options is parsed back from what was written, whatever follows the payload. -/
theorem parse_serializeWith {h : Ipv4Header} (hm : Made h) (hihl : h.ihl = 5) {payload : Buffer}
    (hp : payload.length ≤ 65515) (padding : Buffer) :
    ∃ out, h.serialize payload.length = some out ∧ out.length = ipv4HeaderMinSize ∧
      parse (out ++ payload ++ padding) = .ok ({ headerAt (out ++ payload ++ padding) h.protocol with
        flags := h.flags, srcAddr := h.srcAddr, dstAddr := h.dstAddr }, payload) := by
  obtain ⟨hversion, hflags, hoffset, httl⟩ := hm.sendable
  have hm' : payload.length % 2 ^ 16 = payload.length := Nat.mod_eq_of_lt (by omega)
  refine ⟨_, if_pos (by omega), length_serializeWith _ _ _, ?_⟩
  generalize hc : computeChecksum (h.serializeWith payload.length 0) = c
  generalize hb : h.serializeWith payload.length c ++ payload ++ padding = buf
  have hlen : buf.length = 20 + payload.length + padding.length := by
    rw [← hb, List.length_append, List.length_append, length_serializeWith]
    rfl
  have h0 : byteAt buf 0 = 0x45 := by
    rw [← hb]
    show (h.version <<< 4) ||| h.ihl = 0x45
    rw [hversion, hihl]
    decide
  have h2 : (u16At buf 2).toNat = 20 + payload.length := by
    have hword : u16At buf 2 = 20 + UInt16.ofNat payload.length := by
      rw [← hb]
      exact ofBe16_be16 _
    rw [hword, UInt16.toNat_add, UInt16.toNat_ofNat']
    change (20 + payload.length % 65536) % 65536 = _
    omega
  have h6 : u16At buf 6 = h.flags.toUInt16 <<< 13 := by
    have hword : u16At buf 6 = (h.flags.toUInt16 <<< 13) ||| (h.fragmentOffset &&& 0x1fff) := by
      rw [← hb]
      exact ofBe16_be16 _
    rw [hword, hoffset, UInt16.or_zero]
  have h6' : byteAt buf 6 >>> 5 = h.flags := by
    have hbyte : byteAt buf 6 =
        UInt8.ofNat (((h.flags.toUInt16 <<< 13) ||| (h.fragmentOffset &&& 0x1fff)).toNat / 2 ^ 8) := by
      rw [← hb]
      rfl
    rw [hbyte, hoffset]
    rcases hflags with hf | hf <;> rw [hf] <;> decide
  have h8 : byteAt buf 8 = h.ttl := by
    rw [← hb]
    rfl
  have h9 : byteAt buf 9 = h.protocol.code := by
    rw [← hb]
    rfl
  have h10 : u16At buf 10 = c := by
    rw [← hb]
    exact ofBe16_be16 _
  have hsum : computeChecksum buf = c := by
    rw [← hb, List.append_assoc, computeChecksum_serializeWith, hc]
  have hprotocol : IpProtocol.tryFrom h.protocol.code = .ok h.protocol := by cases h.protocol <;> rfl
  have hsize : headerSize buf = 20 := by
    rw [headerSize, h0]
    decide
  have hsrc : ipv4At buf 12 = h.srcAddr := by
    rw [← hb]
    rfl
  have hdst : ipv4At buf 16 = h.dstAddr := by
    rw [← hb]
    rfl
  have hbits : ∀ flags : UInt8, flags = 0 ∨ flags = 2 → flags &&& 4 = 0 ∧ flags &&& 1 = 0 ∧
      (flags.toUInt16 <<< 13) &&& 0x1fff = 0 := by
    rintro flags (rfl | rfl) <;> decide
  obtain ⟨hevil, hlast, hfirst⟩ := hbits h.flags hflags
  have hw : WellFormed buf := by
    refine ⟨?_, ?_, ?_, ?_, ?_, ?_, ?_, ?_, ?_, h.protocol, ?_⟩
    · rw [hlen, ipv4HeaderMinSize]
      omega
    · rw [h0]
      decide
    · rw [hsize]
      exact Nat.le_refl 20
    · rw [hsize, h2]
      omega
    · rw [h2, hlen]
      omega
    · rw [h6', hevil]
    · rw [h6', hlast]
    · rw [h6, hfirst]
    · rw [h8]
      exact httl
    · rw [h9, hprotocol]
  have hbody : payload = (buf.take (u16At buf 2).toNat).drop (headerSize buf) := by
    rw [h2, hsize, ← hb, List.take_left' (by rw [List.length_append, length_serializeWith]; rfl)]
    exact (List.drop_left' (length_serializeWith h payload.length c)).symm
  refine parse_eq_ok_iff.mpr ⟨hw, h10.trans hsum.symm, ⟨h.protocol, by rw [h9, hprotocol], ?_⟩, hbody⟩
  rw [← hsrc, ← hdst, ← h6']
  rfl

/-- The parser is total, returns the bytes between the header and the total length, and agrees with the checksum of
the whole header exactly where the options do not matter to it; what is written without options is parsed back. -/
theorem ipv4_parse_exact (buf : Buffer) :
    (parseChecked buf).run = some (parse buf) ∧
    (∀ h payload, parse buf = .ok (h, payload) →
      h.ihl.toNat * 4 ≤ h.totalLength.toNat ∧ h.totalLength.toNat ≤ buf.length ∧
        payload = (buf.take h.totalLength.toNat).drop (h.ihl.toNat * 4)) ∧
    (WellFormed buf →
      ((Accepts buf ↔ u16At buf 10 = headerChecksumOver buf (headerSize buf)) ↔ ChecksumAgrees buf)) ∧
    ∀ h payload padding, Made h → h.ihl = 5 → payload.length ≤ 65515 →
      ∃ out, h.serialize payload.length = some out ∧ out.length = 20 ∧
        ∃ h', parse (out ++ payload ++ padding) = .ok (h', payload) ∧ h'.srcAddr = h.srcAddr ∧
          h'.dstAddr = h.dstAddr ∧ h'.protocol = h.protocol ∧ h'.flags = h.flags := by
  refine ⟨parseChecked_returns buf, fun h payload hp => ?_, accepts_whole_iff, fun h payload padding hm hihl hl => ?_⟩
  · obtain ⟨hw, -, ⟨protocol, -, rfl⟩, hpayload⟩ := parse_eq_ok_iff.mp hp
    exact ⟨hw.header, hw.total, hpayload⟩
  · obtain ⟨out, hs, hlen, hp⟩ := parse_serializeWith hm hihl hl padding
    exact ⟨out, hs, hlen, _, hp, rfl, rfl, rfl, rfl⟩

/-- A datagram with a router alert option and the right checksum. -/
def routerAlert : Buffer :=
  [0x46, 0, 0, 24, 0, 0, 0x40, 0, 64, 6, 0x91, 0xd9, 10, 0, 0, 1, 10, 0, 0, 2, 0x94, 4, 0, 0]

theorem routerAlert_wellFormed : WellFormed routerAlert :=
  ⟨by decide, by decide, by decide, by decide, by decide, by decide, by decide, by decide, by decide, .tcp, rfl⟩

/-- Its checksum covers the whole header and it is refused. -/
theorem routerAlert_refused : WellFormed routerAlert ∧
    u16At routerAlert 10 = headerChecksumOver routerAlert (headerSize routerAlert) ∧ ¬Accepts routerAlert := by
  refine ⟨routerAlert_wellFormed, by decide +kernel, fun haccepts => ?_⟩
  have h := (accepts_iff routerAlert_wellFormed).mp haccepts
  rw [computeChecksum_eq_fixed routerAlert_wellFormed] at h
  exact absurd h (by decide +kernel)

theorem ipv4_parse_exact_sample :
    ((Accepts routerAlert ↔ u16At routerAlert 10 = headerChecksumOver routerAlert (headerSize routerAlert)) ↔
      ChecksumAgrees routerAlert) ∧
    ∃ out, (new ⟨10, 0, 0, 1⟩ ⟨10, 0, 0, 2⟩ .udp).serialize 3 = some out ∧ out.length = 20 ∧
      ∃ h', parse (out ++ [1, 2, 3] ++ [0, 0]) = .ok (h', [1, 2, 3]) ∧ h'.srcAddr = ⟨10, 0, 0, 1⟩ ∧
        h'.dstAddr = ⟨10, 0, 0, 2⟩ ∧ h'.protocol = .udp ∧ h'.flags = 2 := by
  obtain ⟨-, -, hagrees, hround⟩ := ipv4_parse_exact routerAlert
  exact ⟨hagrees routerAlert_wellFormed,
    hround (new ⟨10, 0, 0, 1⟩ ⟨10, 0, 0, 2⟩ .udp) [1, 2, 3] [0, 0] (.new _ _ _) rfl (by decide)⟩

end Ipv4Header

end Capybara
