import Capybara.ActiveMigration

namespace Capybara

open Pieces

namespace TcpMigSegment

/-- The iterator yields these fragments and then `None`, however often it is asked. -/
def Yields (s : TcpMigSegment) (segments : List TcpMigSegment) : Prop :=
  ∀ steps, segments.length < steps → TcpMigFragmenter.collect steps ⟨s, 0⟩ = some segments

/-- As many fragments as needed, numbered from 0 on, that make up the payload; only the last one says that it is. -/
structure CutsInto (s : TcpMigSegment) (segments : List TcpMigSegment) : Prop where
  number : segments.length = max 1 ((s.data.length + maxFragmentSize - 1) / maxFragmentSize)
  offsets : segments.map (fun segment => segment.tcpmigHdr.fragmentOffset.toNat) = List.range segments.length
  payload : segments.flatMap TcpMigSegment.data = s.data
  flags : segments.map (fun segment => segment.tcpmigHdr.flagNextFragment) =
    List.replicate (segments.length - 1) true ++ [false]

theorem fragmentCount_eq (s : TcpMigSegment) :
    s.fragmentCount = max 1 ((s.data.length + maxFragmentSize - 1) / maxFragmentSize) := by
  have hpos := maxFragmentSize_pos
  rw [fragmentCount, count]
  rcases Nat.eq_zero_or_pos s.data.length with hz | hp
  · have hzero : (s.data.length + maxFragmentSize - 1) / maxFragmentSize = 0 := Nat.div_eq_of_lt (by omega)
    rw [hzero, hz]
    rfl
  · have hstep : (s.data.length - 1 + maxFragmentSize) / maxFragmentSize = (s.data.length - 1) / maxFragmentSize + 1 :=
      Nat.add_div_right _ hpos
    rw [show s.data.length + maxFragmentSize - 1 = s.data.length - 1 + maxFragmentSize by omega, hstep]
    exact (Nat.max_eq_right (Nat.succ_pos _)).symm

theorem fragmentCount_lt_iff (s : TcpMigSegment) :
    s.fragmentCount < 2 ^ 16 ↔ s.data.length ≤ 65535 * maxFragmentSize := by
  have h := @lt_count_iff _ s.data.length _ maxFragmentSize_pos (show 0 < 65535 by omega)
  change 65535 < s.fragmentCount ↔ 65535 * maxFragmentSize < s.data.length at h
  omega

/-- More steps do not matter once the end is reached. -/
theorem collect_add {steps : Nat} {f : TcpMigFragmenter} {segments : List TcpMigSegment}
    (h : TcpMigFragmenter.collect steps f = some segments) (more : Nat) :
    TcpMigFragmenter.collect (steps + more) f = some segments := by
  induction steps generalizing f segments with
  | zero => cases h
  | succ steps ih =>
    rw [Nat.add_right_comm]
    obtain ⟨item, hnext, hrest⟩ := Option.bind_eq_some_iff.mp h
    rw [TcpMigFragmenter.collect, hnext]
    cases item with
    | none => exact hrest
    | some item =>
      obtain ⟨segments', hcollect, hsegments⟩ := Option.bind_eq_some_iff.mp hrest
      show (TcpMigFragmenter.collect (steps + more) item.2).bind _ = _
      rw [ih hcollect]
      exact hsegments

theorem yields_fragments {s : TcpMigSegment} (hc : s.fragmentCount < 2 ^ 16) :
    s.Yields ((List.range s.fragmentCount).map s.fragment) := by
  intro steps hsteps
  rw [List.length_map, List.length_range] at hsteps
  have h := collect_add (fragments_eq hc) (steps - (s.fragmentCount + 1))
  rwa [show s.fragmentCount + 1 + (steps - (s.fragmentCount + 1)) = steps by omega] at h

theorem cutsInto_fragments {s : TcpMigSegment} (hc : s.fragmentCount < 2 ^ 16) :
    s.CutsInto ((List.range s.fragmentCount).map s.fragment) where
  number := by
    rw [List.length_map, List.length_range]
    exact s.fragmentCount_eq
  offsets := by
    rw [List.length_map, List.length_range, List.map_map]
    refine (List.map_congr_left fun i hi => ?_).trans (List.map_id _)
    have hlt := List.mem_range.mp hi
    show (UInt16.ofNat i).toNat = i
    rw [UInt16.toNat_ofNat']
    omega
  payload := by
    rw [List.flatMap_map]
    exact (List.flatMap_def ..).trans (flatten_all maxFragmentSize_pos s.data)
  flags := by
    rw [List.length_map, List.length_range, List.map_map]
    obtain ⟨n, hn⟩ : ∃ n, s.fragmentCount = n + 1 := ⟨_, rfl⟩
    have hfront : (List.range n).map (fun i => decide (i + 1 < n + 1)) = List.replicate n true := by
      refine (List.map_congr_left fun i hi => ?_).trans (List.map_const' ..) |>.trans (by rw [List.length_range])
      exact decide_eq_true (Nat.succ_lt_succ (List.mem_range.mp hi))
    show (List.range s.fragmentCount).map (fun i => decide (i + 1 < s.fragmentCount)) = _
    rw [hn, List.range_succ, List.map_append, hfront]
    simp

/-- A payload of more than 65535 fragments makes the counter overflow, however far the iterator is asked. -/
theorem not_yields {s : TcpMigSegment} (hc : 2 ^ 16 ≤ s.fragmentCount) (segments : List TcpMigSegment) :
    ¬s.Yields segments := by
  intro h
  have hnone : TcpMigFragmenter.collect (segments.length + 1) ⟨s, 0⟩ = none := @collect_overflow s hc 0 _ (by decide)
  have hsome := h (segments.length + 1) (Nat.lt_succ_self _)
  rw [hnone] at hsome
  cases hsome

end TcpMigSegment

namespace ActiveMigration

open TcpMigSegment

/-- Of the payloads that the guard lets through, exactly those that the counter can number are cut as they should be. -/
theorem send_cutsInto_iff (a : ActiveMigration) (hdr : TcpMigHeader) (buf : Buffer)
    (hguard : ¬buf.length / maxFragmentSize > 65535) :
    (∃ segments, a.send hdr buf = some segments ∧ (a.message hdr buf).Yields segments ∧
      (a.message hdr buf).CutsInto segments) ↔ buf.length ≤ 65535 * maxFragmentSize := by
  have hcount := fragmentCount_lt_iff (a.message hdr buf)
  constructor
  · rintro ⟨segments, -, hyields, -⟩
    by_contra hlarge
    exact not_yields (by have hlt := mt hcount.mp hlarge; omega) segments hyields
  · intro hle
    have hc := hcount.mpr hle
    refine ⟨_, ?_, yields_fragments hc, cutsInto_fragments hc⟩
    rw [send, if_neg hguard]
    exact fragments_eq hc

def stateSender : ActiveMigration := new ⟨10, 0, 1, 8⟩ ⟨2, 0, 0, 0, 0, 8⟩ ⟨10, 0, 1, 9⟩ ⟨2, 0, 0, 0, 0, 9⟩ 10000 10000
  ⟨⟨10, 0, 1, 8⟩, 10000⟩ ⟨⟨10, 0, 1, 7⟩, 50000⟩ none

def stateHeader : TcpMigHeader :=
  ⟨⟨⟨10, 0, 1, 8⟩, 10000⟩, ⟨⟨10, 0, 1, 7⟩, 50000⟩, 28, 0, false, false, .connectionState, 10000, 10000⟩

theorem send_cutsInto_iff_twoFragments : ∃ segments,
    stateSender.send stateHeader (List.replicate 1453 7) = some segments ∧
    (stateSender.message stateHeader (List.replicate 1453 7)).Yields segments ∧
      (stateSender.message stateHeader (List.replicate 1453 7)).CutsInto segments :=
  (send_cutsInto_iff stateSender stateHeader (List.replicate 1453 7) (by rw [List.length_replicate]; decide)).mpr
    (by rw [List.length_replicate]; decide)

/-- A payload that the guard lets through although it takes 65536 fragments. -/
def longPayload : Buffer := List.replicate (65535 * maxFragmentSize + 1) 0

theorem longPayload_overflows : ¬longPayload.length / maxFragmentSize > 65535 ∧
    stateSender.send stateHeader longPayload = none ∧
      ∀ segments, ¬(stateSender.message stateHeader longPayload).Yields segments := by
  have hlength : longPayload.length = 65535 * maxFragmentSize + 1 := List.length_replicate
  have hguard : ¬longPayload.length / maxFragmentSize > 65535 := by
    rw [hlength]
    decide
  have hcount := fragmentCount_lt_iff (stateSender.message stateHeader longPayload)
  have hmany : 2 ^ 16 ≤ (stateSender.message stateHeader longPayload).fragmentCount := by
    by_contra hfew
    have hle := hcount.mp (Nat.lt_of_not_le hfew)
    change longPayload.length ≤ 65535 * maxFragmentSize at hle
    omega
  refine ⟨hguard, ?_, not_yields hmany⟩
  rw [send, if_neg hguard]
  exact @collect_overflow _ hmany 0 _ (by decide)

end ActiveMigration

end Capybara
