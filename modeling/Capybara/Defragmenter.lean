import Capybara.TcpMigSegment

namespace Capybara

open Pieces

structure TcpMigDefragmenter where
  fragments : List Buffer
  totalFragments : Option Nat
  currentFragments : Nat
  currentSize : Nat
  deriving DecidableEq, Repr

namespace TcpMigDefragmenter

def new : TcpMigDefragmenter := ⟨[], none, 0, 0⟩

/-- The size counter is not reset. -/
def reset (d : TcpMigDefragmenter) : TcpMigDefragmenter :=
  { d with fragments := [], totalFragments := none, currentFragments := 0 }

/-- Copies the fragments one after the other into a zeroed buffer of the counted size. -/
def assemble (d : TcpMigDefragmenter) : Option Buffer :=
  if d.currentSize = 0 ∨ d.currentSize < d.fragments.flatten.length then none
  else some (d.fragments.flatten ++ List.replicate (d.currentSize - d.fragments.flatten.length) 0)

def insertFragment (d : TcpMigDefragmenter) (offset : Nat) (buf : Buffer) : TcpMigDefragmenter :=
  { d with
    fragments := store [] d.fragments offset buf
    currentSize := d.currentSize + buf.length
    currentFragments := d.currentFragments + 1 }

/-- Stores one fragment and returns the whole message once it is complete. -/
def storeFragment (d : TcpMigDefragmenter) (hdr : TcpMigHeader) (buf : Buffer) :
    Option (Option (TcpMigHeader × Buffer) × TcpMigDefragmenter) :=
  let d := d.insertFragment hdr.fragmentOffset.toNat buf
  match d.totalFragments with
  | none => some (none, d)
  | some count =>
    if count ≠ d.currentFragments then some (none, d)
    else do
      let buffer ← d.assemble
      some (some (hdr.whole, buffer), d.reset)

def defragment (d : TcpMigDefragmenter) (hdr : TcpMigHeader) (buf : Buffer) :
    Option (Option (TcpMigHeader × Buffer) × TcpMigDefragmenter) :=
  if hdr.flagNextFragment then d.storeFragment hdr buf
  else if hdr.fragmentOffset.toNat = 0 then some (some (hdr, buf), d.reset)
  else do
    let count := hdr.fragmentOffset.toNat + 1
    -- The capacity to reserve is computed on unsigned numbers.
    let _ ← checkedSub count d.fragments.length
    { d with totalFragments := some count }.storeFragment hdr buf

/-- Feeds parsed fragments one after the other and collects what each call returns. -/
def defragmentAll : TcpMigDefragmenter → List (TcpMigHeader × Buffer) →
    Option (List (Option (TcpMigHeader × Buffer)) × TcpMigDefragmenter)
  | d, [] => some ([], d)
  | d, (hdr, buf) :: rest => do
    let (out, d) ← d.defragment hdr buf
    let (outs, d) ← defragmentAll d rest
    some (out :: outs, d)

theorem defragmentAll_cons {d d₁ d₂ : TcpMigDefragmenter} {hdr : TcpMigHeader} {buf : Buffer}
    {out : Option (TcpMigHeader × Buffer)} {outs : List (Option (TcpMigHeader × Buffer))}
    {rest : List (TcpMigHeader × Buffer)} (h : d.defragment hdr buf = some (out, d₁))
    (hr : d₁.defragmentAll rest = some (outs, d₂)) :
    d.defragmentAll ((hdr, buf) :: rest) = some (out :: outs, d₂) := by
  simp [defragmentAll, h, hr]

/-- The fragments numbered `seen` of a payload cut into `n` pieces have been stored. -/
structure Stored (payload : Buffer) (n : Nat) (seen : List Nat) (d : TcpMigDefragmenter) : Prop where
  slots : ∀ i, d.fragments.getD i [] = if i ∈ seen then piece maxFragmentSize payload i else []
  length_le : d.fragments.length ≤ n
  filled : ∀ i ∈ seen, i < d.fragments.length
  number : d.currentFragments = seen.length
  size : d.currentSize = (seen.map fun i => (piece maxFragmentSize payload i).length).sum

/-- The last fragment tells the total. -/
def KnowsTotal (n : Nat) (seen : List Nat) (d : TcpMigDefragmenter) : Prop :=
  d.totalFragments = if n - 1 ∈ seen then some n else none

theorem stored_new (payload : Buffer) (n : Nat) : Stored payload n [] new where
  slots i := by simp [new]
  length_le := Nat.zero_le n
  filled i hi := by simp at hi
  number := rfl
  size := rfl

theorem Stored.insert {payload : Buffer} {n i : Nat} {seen : List Nat} {d : TcpMigDefragmenter}
    (h : Stored payload n seen d) (hi : i < n) :
    Stored payload n (i :: seen) (d.insertFragment i (piece maxFragmentSize payload i)) where
  slots j := by
    simp only [insertFragment, getD_store, h.slots, List.mem_cons]
    by_cases hj : j = i
    · simp [hj]
    · simp [hj]
  length_le := by
    have hl := h.length_le
    simp only [insertFragment, length_store]
    omega
  filled j hj := by
    simp only [insertFragment, length_store]
    rcases List.mem_cons.mp hj with rfl | hs
    · omega
    · have hf := h.filled j hs
      omega
  number := by simp [insertFragment, h.number]
  size := by simp [insertFragment, h.size, Nat.add_comm]

/-- With every fragment stored the slots hold the payload. -/
theorem Stored.assemble {payload : Buffer} {n : Nat} {seen : List Nat} {d : TcpMigDefragmenter}
    (h : Stored payload n seen d) (hn : n = count maxFragmentSize payload.length) (hp : payload ≠ [])
    (hd : seen.Nodup) (hb : ∀ i ∈ seen, i < n) (hl : seen.length = n) : d.assemble = some payload := by
  have hpos : 0 < n := hn ▸ count_pos _ _
  have hperm := perm_range hd hb hl
  have hlen : d.fragments.length = n := by
    have hlast := h.filled (n - 1) (hperm.mem_iff.mpr (List.mem_range.mpr (by omega)))
    have hle := h.length_le
    omega
  have hslots : d.fragments = (List.range n).map (piece maxFragmentSize payload) := by
    apply eq_map_range hlen
    intro i hi
    rw [h.slots, if_pos (hperm.mem_iff.mpr (List.mem_range.mpr hi))]
  have hflat : d.fragments.flatten = payload := by
    rw [hslots, hn]
    exact flatten_all TcpMigSegment.maxFragmentSize_pos payload
  have hsize : d.currentSize = payload.length := by
    have hs : (seen.map fun i => (piece maxFragmentSize payload i).length).sum =
        ((List.range n).map fun i => (piece maxFragmentSize payload i).length).sum := (hperm.map _).sum_nat
    have hf : d.fragments.flatten.length = ((List.range n).map fun i => (piece maxFragmentSize payload i).length).sum := by
      rw [hslots, List.length_flatten, List.map_map]
      rfl
    rw [h.size, hs, ← hf, hflat]
  have hne : payload.length ≠ 0 := by simpa using hp
  simp [TcpMigDefragmenter.assemble, hsize, hflat, hne]

section

variable {s : TcpMigSegment} {i : Nat} {seen : List Nat} {d : TcpMigDefragmenter}

theorem fragment_offset (hc : s.fragmentCount < 2 ^ 16) (hi : i < s.fragmentCount) :
    (s.fragment i).tcpmigHdr.fragmentOffset.toNat = i := by
  change (UInt16.ofNat i).toNat = i
  rw [UInt16.toNat_ofNat']
  omega

theorem storeFragment_more (h : Stored s.data s.fragmentCount seen d) (ht : KnowsTotal s.fragmentCount (i :: seen) d)
    (hc : s.fragmentCount < 2 ^ 16) (hi : i < s.fragmentCount) (hl : seen.length + 1 < s.fragmentCount) :
    ∃ d', d.storeFragment (s.fragment i).tcpmigHdr (s.fragment i).data = some (none, d') ∧
      Stored s.data s.fragmentCount (i :: seen) d' ∧ KnowsTotal s.fragmentCount (i :: seen) d' := by
  have hn := fragment_offset hc hi
  refine ⟨_, ?_, h.insert hi, ht⟩
  have htotal : (d.insertFragment i (s.fragment i).data).totalFragments =
      if s.fragmentCount - 1 ∈ i :: seen then some s.fragmentCount else none := ht
  simp only [storeFragment, hn, htotal]
  split
  next => rfl
  next count hcount =>
    have hnum := h.number
    have hne : count ≠ (d.insertFragment i (s.fragment i).data).currentFragments := by
      change count ≠ d.currentFragments + 1
      split at hcount
      next => cases hcount; omega
      next => cases hcount
    rw [if_pos hne]
    rfl

theorem storeFragment_last (h : Stored s.data s.fragmentCount seen d) (ht : KnowsTotal s.fragmentCount (i :: seen) d)
    (hc : s.fragmentCount < 2 ^ 16) (hp : s.data ≠ []) (hd : (i :: seen).Nodup)
    (hb : ∀ j ∈ i :: seen, j < s.fragmentCount) (hl : seen.length + 1 = s.fragmentCount) :
    ∃ d', d.storeFragment (s.fragment i).tcpmigHdr (s.fragment i).data =
      some (some (s.tcpmigHdr.whole, s.data), d') := by
  have hi := hb i List.mem_cons_self
  have hn := fragment_offset hc hi
  have hpos : 0 < s.fragmentCount := count_pos _ _
  have hlast : s.fragmentCount - 1 ∈ i :: seen :=
    (perm_range hd hb hl).mem_iff.mpr (List.mem_range.mpr (by omega))
  have ha := (h.insert hi).assemble rfl hp hd hb hl
  have hnum : d.currentFragments + 1 = s.fragmentCount := by rw [h.number, hl]
  rw [KnowsTotal, if_pos hlast] at ht
  refine ⟨(d.insertFragment i (piece maxFragmentSize s.data i)).reset, ?_⟩
  have hcount : (d.insertFragment i (piece maxFragmentSize s.data i)).currentFragments = s.fragmentCount := hnum
  have htotal : (d.insertFragment i (piece maxFragmentSize s.data i)).totalFragments = some s.fragmentCount := ht
  have hdata : (s.fragment i).data = piece maxFragmentSize s.data i := rfl
  have hwhole : (s.fragment i).tcpmigHdr.whole = s.tcpmigHdr.whole := rfl
  simp [storeFragment, hn, hdata, hcount, htotal, ha, hwhole]

/-- The total is noted before the last fragment is stored. -/
theorem defragment_fragment (h : Stored s.data s.fragmentCount seen d) (ht : KnowsTotal s.fragmentCount seen d)
    (hc : s.fragmentCount < 2 ^ 16) (hi : i < s.fragmentCount) (hm : 1 < s.fragmentCount) :
    ∃ d', Stored s.data s.fragmentCount seen d' ∧ KnowsTotal s.fragmentCount (i :: seen) d' ∧
      d.defragment (s.fragment i).tcpmigHdr (s.fragment i).data =
        d'.storeFragment (s.fragment i).tcpmigHdr (s.fragment i).data := by
  have hn := fragment_offset hc hi
  by_cases hnext : i + 1 < s.fragmentCount
  · refine ⟨d, h, ?_, ?_⟩
    · have hne : s.fragmentCount - 1 ≠ i := by omega
      simpa [KnowsTotal, hne] using ht
    · have hflag : (s.fragment i).tcpmigHdr.flagNextFragment = true := decide_eq_true hnext
      simp [defragment, hflag]
  · have hflag : (s.fragment i).tcpmigHdr.flagNextFragment = false := decide_eq_false hnext
    have hlen := h.length_le
    have hi' : i = s.fragmentCount - 1 := by omega
    refine ⟨{ d with totalFragments := some (i + 1) }, ⟨h.slots, h.length_le, h.filled, h.number, h.size⟩, ?_, ?_⟩
    · have he : i + 1 = s.fragmentCount := by omega
      simp [KnowsTotal, ← hi', he]
    · simp [defragment, hflag, hn, show i ≠ 0 by omega, checkedSub_of_le (show d.fragments.length ≤ i + 1 by omega)]

/-- A payload that fits one fragment is this fragment. -/
theorem fragment_single (h : s.fragmentCount = 1) :
    (s.fragment 0).tcpmigHdr = s.tcpmigHdr.whole ∧ (s.fragment 0).data = s.data := by
  have hf := flatten_all TcpMigSegment.maxFragmentSize_pos s.data
  have hone : count maxFragmentSize s.data.length = 1 := h
  rw [hone] at hf
  refine ⟨by simp [TcpMigSegment.fragment, TcpMigHeader.whole, h], ?_⟩
  show piece maxFragmentSize s.data 0 = s.data
  simpa using hf

/-- A fragment that was not stored yet is stored, or completes the message. -/
theorem defragment_stored (h : Stored s.data s.fragmentCount seen d) (ht : KnowsTotal s.fragmentCount seen d)
    (hc : s.fragmentCount < 2 ^ 16) (hd : (i :: seen).Nodup) (hb : ∀ j ∈ i :: seen, j < s.fragmentCount) :
    (∃ d', d.defragment (s.fragment i).tcpmigHdr (s.fragment i).data = some (none, d') ∧
        Stored s.data s.fragmentCount (i :: seen) d' ∧ KnowsTotal s.fragmentCount (i :: seen) d') ∨
      seen.length + 1 = s.fragmentCount ∧ ∃ d', d.defragment (s.fragment i).tcpmigHdr (s.fragment i).data =
        some (some (s.tcpmigHdr.whole, s.data), d') := by
  have hi := hb i List.mem_cons_self
  have hlength : (i :: seen).length ≤ s.fragmentCount := by
    have hsub := List.subperm_of_subset hd fun j hj => List.mem_range.mpr (hb j hj)
    simpa using hsub.length_le
  rw [List.length_cons] at hlength
  rcases Nat.lt_or_ge 1 s.fragmentCount with hm | hm
  · obtain ⟨d₁, h₁, ht₁, hstep⟩ := defragment_fragment h ht hc hi hm
    rw [hstep]
    rcases Nat.lt_or_ge (seen.length + 1) s.fragmentCount with hmore | hall
    · exact .inl (storeFragment_more h₁ ht₁ hc hi hmore)
    · have hp : s.data ≠ [] := by
        intro hz
        have hone : s.fragmentCount = 1 := by rw [TcpMigSegment.fragmentCount, hz]; rfl
        omega
      exact .inr ⟨by omega, storeFragment_last h₁ ht₁ hc hp hd hb (by omega)⟩
  · have hone : s.fragmentCount = 1 := by omega
    obtain rfl : i = 0 := by omega
    obtain ⟨hhdr, hdata⟩ := fragment_single hone
    refine .inr ⟨by omega, d.reset, ?_⟩
    rw [hhdr, hdata]
    rfl

/-- Over the rest of the arrivals only the last one completes the message. -/
theorem defragmentAll_fragments {is : List Nat} (h : Stored s.data s.fragmentCount seen d)
    (ht : KnowsTotal s.fragmentCount seen d) (hc : s.fragmentCount < 2 ^ 16) (hm : 1 < s.fragmentCount)
    (hne : is ≠ []) (hd : (is ++ seen).Nodup) (hb : ∀ j ∈ is ++ seen, j < s.fragmentCount)
    (hl : is.length + seen.length = s.fragmentCount) :
    ∃ d', d.defragmentAll (is.map fun i => ((s.fragment i).tcpmigHdr, (s.fragment i).data)) =
      some (List.replicate (is.length - 1) none ++
        [some (s.tcpmigHdr.whole, s.data)], d') := by
  induction is generalizing seen d with
  | nil => exact absurd rfl hne
  | cons i is ih =>
    have hi : i < s.fragmentCount := hb i (by simp)
    have hp : s.data ≠ [] := by
      intro hz
      have h1 : s.fragmentCount = 1 := by rw [TcpMigSegment.fragmentCount, hz]; rfl
      omega
    obtain ⟨d₁, h₁, ht₁, hstep⟩ := defragment_fragment h ht hc hi hm
    have hperm : (is ++ i :: seen).Perm (i :: is ++ seen) := List.perm_middle
    cases is with
    | nil =>
      simp only [List.nil_append, List.length_nil, List.cons_append, List.length_cons] at hd hb hl
      obtain ⟨d₂, hlast⟩ := storeFragment_last h₁ ht₁ hc hp hd hb (by omega)
      exact ⟨d₂, defragmentAll_cons (hstep.trans hlast) rfl⟩
    | cons j is =>
      simp only [List.length_cons] at hl
      obtain ⟨d₂, hmore, h₂, ht₂⟩ := storeFragment_more h₁ ht₁ hc hi (by omega)
      obtain ⟨d₃, hrest⟩ := ih h₂ ht₂ (by simp) (hperm.nodup_iff.mpr hd)
        (fun k hk => hb k (hperm.mem_iff.mp hk)) (by simp only [List.length_cons]; omega)
      exact ⟨d₃, defragmentAll_cons (hstep.trans hmore) hrest⟩

end

/-- What the peer at the other end parses from the frame of a segment. -/
def received (s : TcpMigSegment) : Option (TcpMigHeader × Buffer) := do
  let frame ← s.serialize
  let segment ← (TcpMigSegment.parse frame).toOption
  some (segment.tcpmigHdr, segment.data)

theorem received_fragment {s : TcpMigSegment} {src dst : Ipv4Addr} {protocol : IpProtocol}
    (hip : s.ipv4Hdr = .new src dst protocol) (i : Nat) :
    received (s.fragment i) = some ((s.fragment i).tcpmigHdr, (s.fragment i).data) := by
  obtain ⟨frame, hs, hp⟩ := @TcpMigSegment.parse_serialize (s.fragment i) src dst protocol hip (s.length_fragment_le i)
  simp [received, hs, hp, Except.toOption]

theorem received_fragments {s : TcpMigSegment} {src dst : Ipv4Addr} {protocol : IpProtocol}
    (hip : s.ipv4Hdr = .new src dst protocol) (is : List Nat) :
    (is.map s.fragment).mapM received =
      some (is.map fun i => ((s.fragment i).tcpmigHdr, (s.fragment i).data)) := by
  induction is with
  | nil => rfl
  | cons i is ih =>
    rw [List.map_cons, List.mapM_cons, received_fragment hip, ih]
    rfl

/-- Fragments that cross the wire in any order are put together to the message they were cut from, by the
arrival of the last one and not before. -/
theorem defragment_fragments (s : TcpMigSegment) (src dst : Ipv4Addr) (protocol : IpProtocol)
    (hip : s.ipv4Hdr = .new src dst protocol) (hc : s.fragmentCount < 2 ^ 16) :
    ∃ fragments, s.fragments = some fragments ∧ fragments.length = s.fragmentCount ∧
      ∀ arrivals : List TcpMigSegment, arrivals.Perm fragments →
        ∃ messages d, arrivals.mapM received = some messages ∧
          new.defragmentAll messages =
            some (List.replicate (s.fragmentCount - 1) none ++ [some (s.tcpmigHdr.whole, s.data)], d) := by
  refine ⟨_, TcpMigSegment.fragments_eq hc, by simp, ?_⟩
  intro arrivals harr
  obtain ⟨is, rfl, hperm⟩ := exists_map_of_perm harr
  have hlen : is.length = s.fragmentCount := by simpa using hperm.length_eq
  have hpos : 0 < s.fragmentCount := count_pos _ _
  refine ⟨is.map fun i => ((s.fragment i).tcpmigHdr, (s.fragment i).data), ?_⟩
  rcases Nat.lt_or_ge 1 s.fragmentCount with hm | hm
  · have hb : ∀ j ∈ is ++ [], j < s.fragmentCount := by
      intro j hj
      exact List.mem_range.mp (hperm.mem_iff.mp (by simpa using hj))
    have hne : is ≠ [] := by
      intro hz
      rw [hz] at hlen
      simp at hlen
      omega
    have hd : (is ++ []).Nodup := by simpa using hperm.nodup_iff.mpr List.nodup_range
    obtain ⟨d, hrun⟩ := defragmentAll_fragments (stored_new s.data s.fragmentCount) (by simp [KnowsTotal, new]) hc hm hne
      hd hb (by simpa using hlen)
    rw [hlen] at hrun
    exact ⟨d, received_fragments hip is, hrun⟩
  · have hone : s.fragmentCount = 1 := by omega
    rw [hone] at hperm
    obtain rfl : is = [0] := List.perm_singleton.mp hperm
    obtain ⟨hhdr, hbuf⟩ := fragment_single hone
    refine ⟨new.reset, received_fragments hip [0], ?_⟩
    simp only [List.map_cons, List.map_nil, hhdr, hbuf, hone]
    rfl

/-- A payload of one byte more than a fragment holds. -/
def twoFragments : TcpMigSegment where
  ethernet2Hdr := ⟨⟨8, 192, 235, 182, 232, 5⟩, ⟨8, 192, 235, 182, 197, 173⟩, .ipv4⟩
  ipv4Hdr := .new ⟨10, 0, 1, 9⟩ ⟨10, 0, 1, 8⟩ .udp
  tcpmigHdr := ⟨⟨⟨10, 0, 1, 8⟩, 10000⟩, ⟨⟨10, 0, 1, 7⟩, 201⟩, 1481, 0, false, false, .connectionState, 10000, 10001⟩
  data := List.replicate 1453 7

theorem defragment_fragments_two : ∃ fragments messages d, twoFragments.fragments = some fragments ∧
    fragments.reverse.mapM received = some messages ∧
    new.defragmentAll messages = some ([none, some (twoFragments.tcpmigHdr, List.replicate 1453 7)], d) := by
  have hcount : twoFragments.fragmentCount = 2 := by
    have hl : twoFragments.data.length = 1453 := List.length_replicate
    rw [TcpMigSegment.fragmentCount, hl]
    rfl
  obtain ⟨fragments, hs, _, hall⟩ := defragment_fragments twoFragments ⟨10, 0, 1, 9⟩ ⟨10, 0, 1, 8⟩ .udp rfl
    (by rw [hcount]; decide)
  obtain ⟨messages, d, hm, hd⟩ := hall fragments.reverse fragments.reverse_perm
  rw [hcount] at hd
  exact ⟨fragments, messages, d, hs, hm, hd⟩

end TcpMigDefragmenter

end Capybara
