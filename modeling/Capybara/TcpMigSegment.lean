import Capybara.Lib.Pieces
import Capybara.TcpMigHeader

namespace Capybara

open Pieces

def maxFragmentSize : Nat := 1500 - ipv4HeaderMinSize - tcpmigHeaderSize

structure TcpMigSegment where
  ethernet2Hdr : Ethernet2Header
  ipv4Hdr : Ipv4Header
  tcpmigHdr : TcpMigHeader
  data : Buffer
  deriving DecidableEq, Repr

/-- The frame: the three headers of `write_header` and the body. -/
def TcpMigSegment.serialize (s : TcpMigSegment) : Option Buffer := do
  let ipv4Hdr ← s.ipv4Hdr.serialize (tcpmigHeaderSize + s.data.length)
  some (s.ethernet2Hdr.serialize ++ (ipv4Hdr ++ (s.tcpmigHdr.serialize s.ipv4Hdr s.data ++ s.data)))

/-- The three layers that a frame passes on its way to the migration peer. -/
def TcpMigSegment.parse (frame : Buffer) : Except Fail TcpMigSegment := do
  let (ethernet2Hdr, datagram) ← Ethernet2Header.parse frame
  let (ipv4Hdr, buf) ← Ipv4Header.parse datagram
  let (tcpmigHdr, data) ← TcpMigHeader.parse ipv4Hdr buf
  return ⟨ethernet2Hdr, ipv4Hdr, tcpmigHdr, data⟩

structure TcpMigFragmenter where
  segment : TcpMigSegment
  currentFragment : UInt16
  deriving DecidableEq, Repr

namespace TcpMigFragmenter

/-- The outer `none` is the overflow of the fragment counter. -/
def next (f : TcpMigFragmenter) : Option (Option (TcpMigSegment × TcpMigFragmenter)) :=
  if f.segment.data.length = 0 ∧ f.currentFragment ≠ 0 then some none
  else do
    let (flagNextFragment, data, rest) ←
      if f.segment.data.length ≤ maxFragmentSize then some (false, f.segment.data, [])
      else do
        let data ← trim f.segment.data (f.segment.data.length - maxFragmentSize)
        let rest ← adjust f.segment.data maxFragmentSize
        some (true, data, rest)
    let tcpmigHdr := { f.segment.tcpmigHdr with
      flagNextFragment := flagNextFragment, fragmentOffset := f.currentFragment }
    if f.currentFragment.toNat + 1 < 2 ^ 16 then
      some (some ({ f.segment with tcpmigHdr := tcpmigHdr, data := data },
        ⟨{ f.segment with data := rest }, f.currentFragment + 1⟩))
    else none

/-- Runs the iterator to its end, for at most the given number of steps. -/
def collect : Nat → TcpMigFragmenter → Option (List TcpMigSegment)
  | 0, _ => none
  | steps + 1, f => do
    match ← f.next with
    | none => some []
    | some (segment, f) =>
      let segments ← collect steps f
      some (segment :: segments)

end TcpMigFragmenter

namespace TcpMigSegment

/-- The number of fragments that the payload is cut into. -/
def fragmentCount (s : TcpMigSegment) : Nat := count maxFragmentSize s.data.length

/-- Every fragment and the end of the iteration take one step. -/
def fragments (s : TcpMigSegment) : Option (List TcpMigSegment) :=
  TcpMigFragmenter.collect (s.fragmentCount + 1) ⟨s, 0⟩

/-- The fragment number `i`. -/
def fragment (s : TcpMigSegment) (i : Nat) : TcpMigSegment :=
  { s with
    tcpmigHdr := { s.tcpmigHdr with
      flagNextFragment := decide (i + 1 < s.fragmentCount), fragmentOffset := UInt16.ofNat i }
    data := piece maxFragmentSize s.data i }

theorem maxFragmentSize_pos : 0 < maxFragmentSize := by decide

/-- The fragmenter with all fragments before `i` taken. -/
def fragmenterAt (s : TcpMigSegment) (i : Nat) : TcpMigFragmenter :=
  ⟨{ s with data := s.data.drop (i * maxFragmentSize) }, UInt16.ofNat i⟩

theorem fragmenter_next {s : TcpMigSegment} {i : Nat} (hc : i + 1 < 2 ^ 16) (hi : i < s.fragmentCount) :
    (s.fragmenterAt i).next = some (some (s.fragment i, s.fragmenterAt (i + 1))) := by
  have hn : (UInt16.ofNat i).toNat = i := by
    rw [UInt16.toNat_ofNat']
    omega
  have hnext : UInt16.ofNat i + 1 = UInt16.ofNat (i + 1) := by
    rw [UInt16.ofNat_add]
    rfl
  have hstop : ¬((s.data.drop (i * maxFragmentSize)).length = 0 ∧ UInt16.ofNat i ≠ 0) := by
    rintro ⟨hz, hne⟩
    rcases Nat.eq_zero_or_pos i with rfl | hp
    · exact hne rfl
    · have hlt := (lt_count_iff maxFragmentSize_pos hp).mp hi
      simp only [List.length_drop] at hz
      omega
  have hlast : i + 1 < s.fragmentCount ↔ (i + 1) * maxFragmentSize < s.data.length :=
    lt_count_iff maxFragmentSize_pos (Nat.succ_pos i)
  have hmul : (i + 1) * maxFragmentSize = i * maxFragmentSize + maxFragmentSize := Nat.succ_mul _ _
  by_cases hle : (s.data.drop (i * maxFragmentSize)).length ≤ maxFragmentSize
  · have hfin : ¬i + 1 < s.fragmentCount := by
      simp only [List.length_drop] at hle
      omega
    have hpiece : piece maxFragmentSize s.data i = s.data.drop (i * maxFragmentSize) := List.take_of_length_le hle
    have hrest : s.data.drop ((i + 1) * maxFragmentSize) = [] := by
      apply List.drop_eq_nil_of_le
      simp only [List.length_drop] at hle
      omega
    simp only [TcpMigFragmenter.next, fragmenterAt, hstop, hle, hn, fragment, hfin, hpiece, hrest, hnext, if_true,
      if_false, Option.bind_eq_bind, Option.bind_some, decide_false]
    rw [if_pos (by omega)]
  · have hmore : i + 1 < s.fragmentCount := by
      simp only [List.length_drop] at hle
      omega
    have htrim := @trim_of_le (s.data.drop (i * maxFragmentSize))
      ((s.data.drop (i * maxFragmentSize)).length - maxFragmentSize) (Nat.sub_le _ _)
    have hadjust := adjust_of_le (Nat.le_of_not_le hle)
    have hkeep : (s.data.drop (i * maxFragmentSize)).length -
        ((s.data.drop (i * maxFragmentSize)).length - maxFragmentSize) = maxFragmentSize := by omega
    have hrest : (s.data.drop (i * maxFragmentSize)).drop maxFragmentSize = s.data.drop ((i + 1) * maxFragmentSize) := by
      rw [List.drop_drop, hmul]
    rw [hkeep] at htrim
    rw [hrest] at hadjust
    simp only [TcpMigFragmenter.next, fragmenterAt, hstop, hle, hn, fragment, hmore, htrim, hadjust, hnext, piece,
      if_false, Option.bind_eq_bind, Option.bind_some, decide_true]
    rw [if_pos (by omega)]

theorem fragmenter_last {s : TcpMigSegment} {i : Nat} (hc : 2 ^ 16 ≤ s.fragmentCount) (hi : i + 1 = 2 ^ 16) :
    (s.fragmenterAt i).next = none := by
  have hn : (UInt16.ofNat i).toNat = i := by
    rw [UInt16.toNat_ofNat']
    omega
  have hlt := (lt_count_iff maxFragmentSize_pos (show 0 < i by omega)).mp (show i < s.fragmentCount by omega)
  have hstop : ¬((s.data.drop (i * maxFragmentSize)).length = 0 ∧ UInt16.ofNat i ≠ 0) := by
    rw [List.length_drop]
    omega
  have hno : ¬i + 1 < 2 ^ 16 := by omega
  simp only [TcpMigFragmenter.next, fragmenterAt, hstop, hn, hno, if_false, Option.bind_eq_bind,
    Option.bind_fun_none, ite_self]

theorem fragmenter_end {s : TcpMigSegment} (hc : s.fragmentCount < 2 ^ 16) :
    (s.fragmenterAt s.fragmentCount).next = some none := by
  have hz : s.data.drop (s.fragmentCount * maxFragmentSize) = [] :=
    List.drop_eq_nil_of_le (le_count_mul maxFragmentSize_pos _)
  have hp : 0 < s.fragmentCount := count_pos _ _
  have hne : UInt16.ofNat s.fragmentCount ≠ 0 := by
    intro h
    have hn := congrArg UInt16.toNat h
    rw [UInt16.toNat_ofNat'] at hn
    change _ = 0 at hn
    omega
  simp [TcpMigFragmenter.next, fragmenterAt, hz, hne]

theorem collect_fragmenter {s : TcpMigSegment} (hc : s.fragmentCount < 2 ^ 16) {i k : Nat}
    (hk : i + k = s.fragmentCount) :
    TcpMigFragmenter.collect (k + 1) (s.fragmenterAt i) = some ((List.range' i k).map s.fragment) := by
  induction k generalizing i with
  | zero =>
    subst hk
    simp [TcpMigFragmenter.collect, fragmenter_end hc]
  | succ k ih =>
    have hn := fragmenter_next (show i + 1 < 2 ^ 16 by omega) (show i < s.fragmentCount by omega)
    have hr := @ih (i + 1) (by omega)
    rw [TcpMigFragmenter.collect, hn]
    simp [hr, List.range'_succ]

/-- The iterator yields the fragments in order, as long as their count fits the counter. -/
theorem fragments_eq {s : TcpMigSegment} (hc : s.fragmentCount < 2 ^ 16) :
    s.fragments = some ((List.range s.fragmentCount).map s.fragment) := by
  have h := @collect_fragmenter s hc 0 s.fragmentCount (Nat.zero_add _)
  rw [← List.range_eq_range'] at h
  simpa [fragments, fragmenterAt] using h

/-- With more fragments the counter overflows. -/
theorem collect_overflow {s : TcpMigSegment} (hc : 2 ^ 16 ≤ s.fragmentCount) {i steps : Nat} (hi : i < 2 ^ 16) :
    TcpMigFragmenter.collect steps (s.fragmenterAt i) = none := by
  induction steps generalizing i with
  | zero => rfl
  | succ steps ih =>
    rw [TcpMigFragmenter.collect]
    by_cases hlast : i + 1 < 2 ^ 16
    · rw [fragmenter_next hlast (by omega)]
      simp only [Option.bind_eq_bind, Option.bind_some, ih hlast, Option.bind_none]
    · rw [fragmenter_last hc (by omega)]
      rfl

theorem fragments_isSome_iff (s : TcpMigSegment) : s.fragments.isSome = true ↔ s.fragmentCount < 2 ^ 16 := by
  constructor
  · intro h
    by_contra hc
    have hnone : s.fragments = none := @collect_overflow s (by omega) 0 _ (by omega)
    rw [hnone] at h
    cases h
  · intro hc
    rw [fragments_eq hc]
    rfl

theorem parse_serialize {s : TcpMigSegment} {src dst : Ipv4Addr} {protocol : IpProtocol}
    (hip : s.ipv4Hdr = .new src dst protocol) (hlen : s.data.length ≤ maxFragmentSize) :
    ∃ frame, s.serialize = some frame ∧
      parse frame = .ok { s with ipv4Hdr := s.ipv4Hdr.sent (tcpmigHeaderSize + s.data.length) } := by
  have hsize : (s.tcpmigHdr.serialize s.ipv4Hdr s.data ++ s.data).length = tcpmigHeaderSize + s.data.length := by
    rw [List.length_append, TcpMigHeader.length_serialize]
  have hbound : 20 + (tcpmigHeaderSize + s.data.length) < 2 ^ 16 := by
    have hm : maxFragmentSize = 1452 := rfl
    have ht : tcpmigHeaderSize = 28 := rfl
    omega
  obtain ⟨hdr, hs, hp⟩ := Ipv4Header.parse_serialize src dst protocol (s.tcpmigHdr.serialize s.ipv4Hdr s.data ++ s.data)
    (by omega)
  rw [hsize, ← hip] at hs hp
  have hmig : TcpMigHeader.parse (s.ipv4Hdr.sent (tcpmigHeaderSize + s.data.length))
      (s.tcpmigHdr.serialize s.ipv4Hdr s.data ++ s.data) = .ok (s.tcpmigHdr, s.data) :=
    s.tcpmigHdr.parse_serialize s.ipv4Hdr s.data
  refine ⟨s.ethernet2Hdr.serialize ++ (hdr ++ (s.tcpmigHdr.serialize s.ipv4Hdr s.data ++ s.data)), ?_, ?_⟩
  · simp [serialize, hs]
  · simp only [parse, bind, Except.bind, Ethernet2Header.parse_serialize, hp, hmig]
    rfl

theorem length_fragment_le (s : TcpMigSegment) (i : Nat) : (s.fragment i).data.length ≤ maxFragmentSize := by
  rw [fragment, length_piece]
  exact Nat.min_le_left _ _

end TcpMigSegment

end Capybara
