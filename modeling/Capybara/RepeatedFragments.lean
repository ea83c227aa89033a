import Capybara.DefragmenterCalls

namespace Capybara

open Pieces

namespace TcpMigDefragmenter

/-- What a defragmenter gets of a fragment. -/
def arrival (s : TcpMigSegment) (i : Nat) : TcpMigHeader × Buffer :=
  ((s.fragment i).tcpmigHdr, (s.fragment i).data)

/-- Every message that is returned is the one sent, and each of its fragments has arrived by then. -/
def Restores (s : TcpMigSegment) (is : List Nat) : Prop :=
  ∃ outs d, new.defragmentAll (is.map (arrival s)) = some (outs, d) ∧
    ∀ k m, outs[k]? = some (some m) → (∀ i < s.fragmentCount, i ∈ is.take (k + 1)) ∧ m.2 = s.data

/-- The last of `n` fragments is among the first `n` that arrive. -/
def LastInTime (n : Nat) (is : List Nat) : Prop := n ≤ is.length ∧ n - 1 ∈ is.take n

/-- The bytes that some fragments carry, repeated ones included. -/
def carried (s : TcpMigSegment) (seen : List Nat) : Nat :=
  (seen.map fun i => (piece maxFragmentSize s.data i).length).sum

/-- The fragments numbered `seen`, repeated ones included, have been stored since a reset at which `stale` bytes were
still counted. -/
structure Gathered (s : TcpMigSegment) (stale : Nat) (seen : List Nat) (d : TcpMigDefragmenter) : Prop where
  length_le : d.fragments.length ≤ s.fragmentCount
  total : KnowsTotal s.fragmentCount seen d
  number : d.currentFragments = seen.length
  size : d.currentSize = stale + carried s seen
  covers : d.Covers
  stored : stale = 0 → Stored s.data s.fragmentCount seen d

section

variable {s : TcpMigSegment} {i stale : Nat} {seen is : List Nat} {d d' : TcpMigDefragmenter}

theorem gathered_counting (s : TcpMigSegment) (stale : Nat) : Gathered s stale [] (counting stale) where
  length_le := Nat.zero_le _
  total := by simp [KnowsTotal, counting, new]
  number := rfl
  size := rfl
  covers := covers_counting stale
  stored h := by
    subst h
    exact stored_new s.data s.fragmentCount

theorem carried_cons (s : TcpMigSegment) (i : Nat) (seen : List Nat) :
    carried s (i :: seen) = (piece maxFragmentSize s.data i).length + carried s seen := List.sum_cons

theorem piece_pos (hm : 1 < s.fragmentCount) (hi : i < s.fragmentCount) :
    0 < (piece maxFragmentSize s.data i).length := by
  have hsize := TcpMigSegment.maxFragmentSize_pos
  have hmore := (lt_count_iff hsize Nat.one_pos).mp hm
  rw [length_piece]
  rcases Nat.eq_zero_or_pos i with rfl | hpos
  · omega
  · have hin := (lt_count_iff hsize hpos).mp hi
    omega

theorem fragment_isFragment (hm : 1 < s.fragmentCount) (hc : s.fragmentCount < 2 ^ 16) (hi : i < s.fragmentCount) :
    (s.fragment i).tcpmigHdr.IsFragment := by
  by_cases hmore : i + 1 < s.fragmentCount
  · exact .inl (decide_eq_true hmore)
  · right
    rw [fragment_offset hc hi]
    omega

theorem Gathered.orderly (h : Gathered s stale seen d) (hc : s.fragmentCount < 2 ^ 16) (hi : i < s.fragmentCount) :
    d.Orderly (s.fragment i).tcpmigHdr := by
  by_cases hmore : i + 1 < s.fragmentCount
  · exact .inl (decide_eq_true hmore)
  · right
    have hlength := h.length_le
    rw [fragment_offset hc hi]
    omega

theorem Gathered.noted (h : Gathered s stale seen d) (hc : s.fragmentCount < 2 ^ 16) (hi : i < s.fragmentCount) :
    KnowsTotal s.fragmentCount (i :: seen) (d.noted (s.fragment i).tcpmigHdr) := by
  have htotal := h.total
  unfold KnowsTotal TcpMigDefragmenter.noted at *
  by_cases hmore : i + 1 < s.fragmentCount
  · have hflag : (s.fragment i).tcpmigHdr.flagNextFragment = true := decide_eq_true hmore
    have hne : s.fragmentCount - 1 ≠ i := by omega
    rw [if_pos hflag, htotal]
    simp only [List.mem_cons, hne, false_or]
  · have hflag : ¬(s.fragment i).tcpmigHdr.flagNextFragment = true := by
      rw [show (s.fragment i).tcpmigHdr.flagNextFragment = false from decide_eq_false hmore]
      exact Bool.false_ne_true
    have hlast : s.fragmentCount - 1 = i := by omega
    rw [if_neg hflag, fragment_offset hc hi, hlast, if_pos List.mem_cons_self]
    exact congrArg some (by omega)

theorem Gathered.completes_iff (h : Gathered s stale seen d) (hc : s.fragmentCount < 2 ^ 16)
    (hi : i < s.fragmentCount) : d.Completes (s.fragment i).tcpmigHdr ↔
      s.fragmentCount - 1 ∈ i :: seen ∧ seen.length + 1 = s.fragmentCount := by
  have htotal := h.noted hc hi
  unfold Completes
  rw [htotal, h.number]
  split
  next hmem =>
    rw [Option.some.injEq]
    exact ⟨fun heq => ⟨hmem, heq.symm⟩, fun hboth => hboth.2.symm⟩
  next hnot => exact ⟨fun heq => (by cases heq), fun hboth => absurd hboth.1 hnot⟩

theorem Gathered.insert (h : Gathered s stale seen d) (hc : s.fragmentCount < 2 ^ 16) (hi : i < s.fragmentCount) :
    Gathered s stale (i :: seen) (d.stored (s.fragment i).tcpmigHdr (s.fragment i).data) := by
  obtain ⟨hfragments, hsize, hnumber⟩ := d.noted_fragments (s.fragment i).tcpmigHdr
  have hoffset := fragment_offset hc hi
  constructor
  · have hlength := h.length_le
    change (store [] (d.noted (s.fragment i).tcpmigHdr).fragments _ _).length ≤ _
    rw [hfragments, length_store, hoffset]
    omega
  · exact h.noted hc hi
  · change (d.noted (s.fragment i).tcpmigHdr).currentFragments + 1 = _
    rw [hnumber, h.number, List.length_cons]
  · rw [stored_size, h.size, carried_cons]
    change _ + (piece maxFragmentSize s.data i).length = _
    omega
  · exact h.covers.stored _ _
  · intro hstale
    have hs := h.stored hstale
    have hnoted : Stored s.data s.fragmentCount seen (d.noted (s.fragment i).tcpmigHdr) := by
      refine ⟨?_, ?_, ?_, ?_, ?_⟩
      · rw [hfragments]
        exact hs.slots
      · rw [hfragments]
        exact hs.length_le
      · rw [hfragments]
        exact hs.filled
      · rw [hnumber]
        exact hs.number
      · rw [hsize]
        exact hs.size
    have hinsert := hnoted.insert hi
    unfold TcpMigDefragmenter.stored
    rw [hoffset]
    exact hinsert

/-- A fragment completes a message if with it there are as many as there should be and the last one is among them. -/
theorem Gathered.arrives (h : Gathered s stale seen d) (hm : 1 < s.fragmentCount) (hc : s.fragmentCount < 2 ^ 16)
    (hi : i < s.fragmentCount) :
    ∃ d', Gathered s stale (i :: seen) d' ∧ d.defragment (arrival s i).1 (arrival s i).2 =
      if s.fragmentCount - 1 ∈ i :: seen ∧ seen.length + 1 = s.fragmentCount then
        some (some (s.tcpmigHdr.whole, d'.padded), d'.reset)
      else some (none, d') := by
  refine ⟨_, h.insert hc hi, ?_⟩
  have hpos : ¬d.currentSize + (s.fragment i).data.length = 0 := by
    have hpiece := piece_pos hm hi
    change ¬d.currentSize + (piece maxFragmentSize s.data i).length = 0
    omega
  have hone := defragment_of_fragment h.covers (fragment_isFragment hm hc hi) (s.fragment i).data
  rw [if_pos (h.orderly hc hi), if_neg hpos] at hone
  refine hone.trans ?_
  by_cases hcomplete : d.Completes (s.fragment i).tcpmigHdr
  · rw [if_pos hcomplete, if_pos ((h.completes_iff hc hi).mp hcomplete)]
    rfl
  · rw [if_neg hcomplete, if_neg fun hboth => hcomplete ((h.completes_iff hc hi).mpr hboth)]

theorem Gathered.padded_length (h : Gathered s stale seen d) : d.padded.length = stale + carried s seen := by
  have hcovers := h.covers
  have hsize := h.size
  unfold Covers at hcovers
  rw [padded, List.length_append, List.length_replicate]
  omega

/-- All fragments, each once, give the message. -/
theorem Gathered.padded_eq (h : Gathered s 0 seen d) (hm : 1 < s.fragmentCount) (hd : seen.Nodup)
    (hb : ∀ i ∈ seen, i < s.fragmentCount) (hl : seen.length = s.fragmentCount) : d.padded = s.data := by
  have hne : s.data ≠ [] := by
    intro hz
    have hone : s.fragmentCount = 1 := by rw [TcpMigSegment.fragmentCount, hz]; rfl
    omega
  have hassemble := (h.stored rfl).assemble rfl hne hd hb hl
  rw [assemble_of_covers h.covers] at hassemble
  split at hassemble
  next => cases hassemble
  next => exact Option.some.inj hassemble

theorem defragmentAll_append (d : TcpMigDefragmenter) (xs ys : List (TcpMigHeader × Buffer)) :
    d.defragmentAll (xs ++ ys) = (d.defragmentAll xs).bind fun r =>
      (r.2.defragmentAll ys).map fun rs => (r.1 ++ rs.1, rs.2) := by
  induction xs generalizing d with
  | nil =>
    change d.defragmentAll ys = (d.defragmentAll ys).map fun rs => rs
    exact Option.map_id'.symm
  | cons x xs ih =>
    rw [List.cons_append, defragmentAll_cons_eq, defragmentAll_cons_eq]
    cases d.defragment x.1 x.2 with
    | none => rfl
    | some r =>
      rw [Option.bind_some, Option.bind_some, ih]
      cases r.2.defragmentAll xs with
      | none => rfl
      | some rs =>
        rw [Option.bind_some, Option.map_some, Option.bind_some, Option.map_map]
        rfl

/-- Nothing is returned as long as the last fragment is not in time. -/
theorem Gathered.silent (h : Gathered s stale seen d) (hm : 1 < s.fragmentCount) (hc : s.fragmentCount < 2 ^ 16)
    (hb : ∀ i ∈ is, i < s.fragmentCount) (hno : ¬LastInTime s.fragmentCount (seen.reverse ++ is)) :
    ∃ d', d.defragmentAll (is.map (arrival s)) = some (List.replicate is.length none, d') := by
  induction is generalizing seen d with
  | nil => exact ⟨d, rfl⟩
  | cons i is ih =>
    obtain ⟨d₁, h₁, hone⟩ := h.arrives hm hc (hb i List.mem_cons_self)
    have hlist : (i :: seen).reverse ++ is = seen.reverse ++ i :: is := by simp
    have hmore : ¬(s.fragmentCount - 1 ∈ i :: seen ∧ seen.length + 1 = s.fragmentCount) := by
      rintro ⟨hmem, hlength⟩
      apply hno
      have hcut : (i :: seen).reverse.length = s.fragmentCount := by
        rw [List.length_reverse, List.length_cons, hlength]
      rw [← hlist]
      refine ⟨by rw [List.length_append]; omega, ?_⟩
      rw [← hcut, List.take_left, hcut]
      exact List.mem_reverse.mpr hmem
    rw [if_neg hmore] at hone
    obtain ⟨d₂, hrest⟩ := ih h₁ (fun j hj => hb j (List.mem_cons_of_mem i hj)) (by rwa [hlist])
    refine ⟨d₂, ?_⟩
    rw [List.map_cons, defragmentAll_cons_eq, hone, Option.bind_some, hrest]
    rfl

/-- As many arrivals as there are fragments, the last one among them, return a message. -/
theorem Gathered.returns (h : Gathered s stale seen d) (hm : 1 < s.fragmentCount) (hc : s.fragmentCount < 2 ^ 16)
    (hb : ∀ i ∈ is, i < s.fragmentCount) (hne : is ≠ []) (hl : seen.length + is.length = s.fragmentCount)
    (hlast : s.fragmentCount - 1 ∈ is.reverse ++ seen) :
    ∃ d', Gathered s stale (is.reverse ++ seen) d' ∧ d.defragmentAll (is.map (arrival s)) =
      some (List.replicate (is.length - 1) none ++ [some (s.tcpmigHdr.whole, d'.padded)], d'.reset) := by
  induction is generalizing seen d with
  | nil => exact absurd rfl hne
  | cons i is ih =>
    obtain ⟨d₁, h₁, hone⟩ := h.arrives hm hc (hb i List.mem_cons_self)
    have hlist : (i :: is).reverse ++ seen = is.reverse ++ i :: seen := by simp
    rw [List.length_cons] at hl
    rw [hlist] at hlast ⊢
    cases is with
    | nil =>
      rw [List.length_nil] at hl
      rw [if_pos ⟨hlast, hl⟩] at hone
      refine ⟨d₁, h₁, ?_⟩
      rw [List.map_cons, defragmentAll_cons_eq, hone]
      rfl
    | cons j is =>
      rw [List.length_cons] at hl
      rw [if_neg (fun hboth => by omega)] at hone
      obtain ⟨d₂, h₂, hrest⟩ := ih h₁ (fun k hk => hb k (List.mem_cons_of_mem i hk)) (List.cons_ne_nil j is)
        (by rw [List.length_cons, List.length_cons]; omega) hlast
      refine ⟨d₂, h₂, ?_⟩
      rw [List.map_cons, defragmentAll_cons_eq, hone, Option.bind_some, hrest]
      rfl

theorem arrival_whole (hone : s.fragmentCount = 1) (d : TcpMigDefragmenter) :
    d.defragment (arrival s 0).1 (arrival s 0).2 = some (some (s.tcpmigHdr.whole, s.data), d.reset) := by
  have hdata : (s.fragment 0).data = s.data := by
    have hall := flatten_all TcpMigSegment.maxFragmentSize_pos s.data
    rw [show count maxFragmentSize s.data.length = 1 from hone] at hall
    have hpiece : piece maxFragmentSize s.data 0 = s.data := by simpa using hall
    exact hpiece
  have hhdr : (s.fragment 0).tcpmigHdr = s.tcpmigHdr.whole := by
    simp [TcpMigSegment.fragment, TcpMigHeader.whole, hone]
  have hwhole : ¬(s.fragment 0).tcpmigHdr.IsFragment := by
    rw [hhdr]
    rintro (hflag | hoffset)
    · cases hflag
    · exact hoffset rfl
  have hcall := defragment_of_whole hwhole d (s.fragment 0).data
  rw [hdata, hhdr] at hcall
  unfold arrival
  rw [hdata, hhdr]
  exact hcall

theorem restores_of_one (hone : s.fragmentCount = 1) (hb : ∀ i ∈ is, i < s.fragmentCount) : Restores s is := by
  have hall : ∀ d : TcpMigDefragmenter, ∃ d', d.defragmentAll (is.map (arrival s)) =
      some (List.replicate is.length (some (s.tcpmigHdr.whole, s.data)), d') := by
    induction is with
    | nil => exact fun d => ⟨d, rfl⟩
    | cons i is ih =>
      intro d
      have hzero : i = 0 := by
        have hlt := hb i List.mem_cons_self
        omega
      obtain ⟨d', hrest⟩ := ih (fun j hj => hb j (List.mem_cons_of_mem i hj)) d.reset
      refine ⟨d', ?_⟩
      rw [List.map_cons, defragmentAll_cons_eq, hzero, arrival_whole hone, Option.bind_some, hrest]
      rfl
  obtain ⟨d', hrun⟩ := hall new
  refine ⟨_, d', hrun, fun k m hk => ?_⟩
  obtain ⟨hlt, hget⟩ := List.getElem?_eq_some_iff.mp hk
  rw [List.length_replicate] at hlt
  rw [List.getElem_replicate] at hget
  cases hget
  refine ⟨fun i hi => ?_, rfl⟩
  cases is with
  | nil => exact absurd hlt (Nat.not_lt_zero k)
  | cons j is =>
    have hj := hb j List.mem_cons_self
    rw [List.take_succ_cons, show i = j by omega]
    exact List.mem_cons_self

/-- All numbers below `n` in a list of `n` leave no room for repetitions. -/
theorem nodup_of_all {n : Nat} {is : List Nat} (hl : is.length = n) (hall : ∀ i < n, i ∈ is) : is.Nodup := by
  have hsub : (List.range n).Subperm is :=
    List.subperm_of_subset List.nodup_range fun i hi => hall i (List.mem_range.mp hi)
  have hperm : (List.range n).Perm is := hsub.perm_of_length_le (by rw [hl, List.length_range])
  exact hperm.nodup_iff.mp List.nodup_range

theorem carried_all (hb : ∀ i ∈ seen, i < s.fragmentCount) (hd : seen.Nodup) (hl : seen.length = s.fragmentCount) :
    carried s seen = s.data.length := by
  have hsum : carried s seen = ((List.range s.fragmentCount).map fun i => (piece maxFragmentSize s.data i).length).sum :=
    ((perm_range hd hb hl).map _).sum_nat
  have hflat := congrArg List.length (flatten_all TcpMigSegment.maxFragmentSize_pos s.data)
  rw [List.length_flatten, List.map_map] at hflat
  exact hsum.trans hflat

/-- The first arrivals, as many as there are fragments, when the last one is among them. -/
theorem returns_in_time {stale : Nat} (hm : 1 < s.fragmentCount) (hc : s.fragmentCount < 2 ^ 16)
    (hb : ∀ i ∈ is, i < s.fragmentCount) (ht : LastInTime s.fragmentCount is) :
    ∃ d', Gathered s stale (is.take s.fragmentCount).reverse d' ∧
      (counting stale).defragmentAll ((is.take s.fragmentCount).map (arrival s)) =
        some (List.replicate (s.fragmentCount - 1) none ++ [some (s.tcpmigHdr.whole, d'.padded)],
          counting (stale + carried s (is.take s.fragmentCount).reverse)) := by
  have hlength : (is.take s.fragmentCount).length = s.fragmentCount := List.length_take_of_le ht.1
  have hne : is.take s.fragmentCount ≠ [] := List.ne_nil_of_mem ht.2
  obtain ⟨d', hd', hrun⟩ := (gathered_counting s stale).returns hm hc
    (fun i hi => hb i (List.mem_of_mem_take hi)) hne (by rw [hlength]; exact Nat.zero_add _)
    (List.mem_append_left [] (List.mem_reverse.mpr ht.2))
  rw [List.append_nil] at hd'
  refine ⟨d', hd', ?_⟩
  rw [hrun, hlength, reset_eq, hd'.size]

theorem getElem?_returned (n : Nat) (m : TcpMigHeader × Buffer)
    (rest : List (Option (TcpMigHeader × Buffer))) :
    (List.replicate (n - 1) none ++ [some m] ++ rest)[n - 1]? = some (some m) := by
  rw [List.append_assoc, List.getElem?_append_right (by simp), List.length_replicate, Nat.sub_self]
  rfl

theorem eq_of_returned {n k l : Nat} {m m' : TcpMigHeader × Buffer}
    (h : (List.replicate (n - 1) none ++ [some m] ++ List.replicate l none)[k]? = some (some m')) :
    k = n - 1 ∧ m' = m := by
  rw [List.append_assoc, List.getElem?_append, List.length_replicate] at h
  split at h
  next hlt =>
    rw [List.getElem?_replicate, if_pos hlt] at h
    cases h
  next hge =>
    obtain ⟨j, hj⟩ : ∃ j, k - (n - 1) = j := ⟨_, rfl⟩
    rw [hj] at h
    cases j with
    | zero =>
      cases h
      exact ⟨by omega, rfl⟩
    | succ j =>
      rw [List.singleton_append, List.getElem?_cons_succ, List.getElem?_replicate] at h
      split at h
      next => cases h
      next => cases h

end

/-- A message of several fragments is restored rightly from arrivals in any order, with any repetitions, exactly if
the last fragment is not among the first arrivals, as many as there are fragments, or these arrivals are all different
and it is not among as many after them. -/
theorem restores_iff (s : TcpMigSegment) (is : List Nat) (hc : s.fragmentCount < 2 ^ 16)
    (hb : ∀ i ∈ is, i < s.fragmentCount) :
    Restores s is ↔ (1 < s.fragmentCount → LastInTime s.fragmentCount is →
      (is.take s.fragmentCount).Nodup ∧ ¬LastInTime s.fragmentCount (is.drop s.fragmentCount)) := by
  have hpos : 0 < s.fragmentCount := count_pos _ _
  rcases Nat.lt_or_ge 1 s.fragmentCount with hm | hm
  swap
  · exact ⟨fun _ hlt => by omega, fun _ => restores_of_one (by omega) hb⟩
  by_cases ht : LastInTime s.fragmentCount is
  swap
  · refine ⟨fun _ _ htime => absurd htime ht, fun _ => ?_⟩
    obtain ⟨d', hrun⟩ := (gathered_counting s 0).silent hm hc hb (by exact ht)
    refine ⟨_, d', hrun, fun k m hk => ?_⟩
    rw [List.getElem?_replicate] at hk
    split at hk
    next => cases hk
    next => cases hk
  obtain ⟨d₁, hd₁, hfirst⟩ := @returns_in_time s is 0 hm hc hb ht
  rw [Nat.zero_add] at hfirst
  have hbtake : ∀ i ∈ (is.take s.fragmentCount).reverse, i < s.fragmentCount :=
    fun i hi => hb i (List.mem_of_mem_take (List.mem_reverse.mp hi))
  have hbdrop : ∀ i ∈ is.drop s.fragmentCount, i < s.fragmentCount := fun i hi => hb i (List.mem_of_mem_drop hi)
  have hlength : (is.take s.fragmentCount).reverse.length = s.fragmentCount := by
    rw [List.length_reverse]
    exact List.length_take_of_le ht.1
  have hsplit : new.defragmentAll (is.map (arrival s)) =
      ((counting (carried s (is.take s.fragmentCount).reverse)).defragmentAll
        ((is.drop s.fragmentCount).map (arrival s))).map fun rs =>
          (List.replicate (s.fragmentCount - 1) none ++ [some (s.tcpmigHdr.whole, d₁.padded)] ++ rs.1, rs.2) := by
    have happend := new.defragmentAll_append ((is.take s.fragmentCount).map (arrival s))
      ((is.drop s.fragmentCount).map (arrival s))
    rw [← List.map_append, List.take_append_drop, show new = counting 0 from rfl, hfirst] at happend
    exact happend
  constructor
  · rintro ⟨outs, d, hrun, hgood⟩ - -
    rw [hsplit] at hrun
    obtain ⟨⟨outs₂, d₂⟩, hrest, hrun⟩ := Option.map_eq_some_iff.mp hrun
    obtain ⟨rfl, rfl⟩ := Prod.mk.inj hrun
    obtain ⟨hall, -⟩ := hgood (s.fragmentCount - 1) _ (getElem?_returned _ _ _)
    rw [Nat.sub_add_cancel hpos] at hall
    have hnodup := nodup_of_all (List.length_take_of_le ht.1) hall
    refine ⟨hnodup, fun ht₂ => ?_⟩
    -- The second message is longer than the first by the bytes still counted.
    have hcarried := carried_all hbtake (List.nodup_reverse.mpr hnodup) hlength
    rw [hcarried] at hrest
    obtain ⟨d₃, hd₃, hsecond⟩ := @returns_in_time s (is.drop s.fragmentCount) s.data.length hm hc hbdrop ht₂
    have happend := (counting s.data.length).defragmentAll_append
      (((is.drop s.fragmentCount).take s.fragmentCount).map (arrival s))
      (((is.drop s.fragmentCount).drop s.fragmentCount).map (arrival s))
    rw [← List.map_append, List.take_append_drop, hrest, hsecond, Option.bind_some] at happend
    obtain ⟨⟨outs₃, d₄⟩, -, heq⟩ := Option.map_eq_some_iff.mp happend.symm
    obtain ⟨rfl, -⟩ := Prod.mk.inj heq
    have hget : (List.replicate (s.fragmentCount - 1) none ++ [some (s.tcpmigHdr.whole, d₁.padded)] ++
        (List.replicate (s.fragmentCount - 1) none ++ [some (s.tcpmigHdr.whole, d₃.padded)] ++ outs₃))[
          s.fragmentCount + (s.fragmentCount - 1)]? = some (some (s.tcpmigHdr.whole, d₃.padded)) := by
      have hfront : (List.replicate (s.fragmentCount - 1) (none : Option (TcpMigHeader × Buffer)) ++
          [some (s.tcpmigHdr.whole, d₁.padded)]).length = s.fragmentCount := by
        rw [List.length_append, List.length_replicate, List.length_singleton]
        omega
      rw [List.getElem?_append_right (by omega), hfront, Nat.add_sub_cancel_left]
      exact getElem?_returned _ _ _
    obtain ⟨-, hdata⟩ := hgood _ _ hget
    have hlonger := hd₃.padded_length
    dsimp only at hdata
    rw [hdata] at hlonger
    obtain ⟨i, rest, hne⟩ := List.exists_cons_of_ne_nil
      (show ((is.drop s.fragmentCount).take s.fragmentCount).reverse ≠ [] from
        List.ne_nil_of_mem (List.mem_reverse.mpr ht₂.2))
    have hi : i < s.fragmentCount := by
      have hmem : i ∈ ((is.drop s.fragmentCount).take s.fragmentCount).reverse := by
        rw [hne]
        exact List.mem_cons_self
      exact hbdrop i (List.mem_of_mem_take (List.mem_reverse.mp hmem))
    have hpiece := piece_pos hm hi
    rw [hne, carried_cons] at hlonger
    omega
  · intro hcond
    obtain ⟨hnodup, hno⟩ := hcond hm ht
    obtain ⟨d₂, hrest⟩ := (gathered_counting s (carried s (is.take s.fragmentCount).reverse)).silent hm hc hbdrop
      (by exact hno)
    have hpadded := hd₁.padded_eq hm (List.nodup_reverse.mpr hnodup) hbtake hlength
    rw [hrest] at hsplit
    refine ⟨_, d₂, hsplit, fun k m hk => ?_⟩
    obtain ⟨rfl, rfl⟩ := eq_of_returned hk
    refine ⟨fun i hi => ?_, hpadded⟩
    rw [Nat.sub_add_cancel hpos]
    have hperm := perm_range (List.nodup_reverse.mpr hnodup) hbtake hlength
    exact List.mem_reverse.mp (hperm.mem_iff.mpr (List.mem_range.mpr hi))

theorem twoFragments_count : twoFragments.fragmentCount = 2 := by
  have hlength : twoFragments.data.length = 1453 := List.length_replicate
  rw [TcpMigSegment.fragmentCount, hlength]
  rfl

theorem restores_iff_late : Restores twoFragments [1, 0, 0] := by
  have hcount := twoFragments_count
  refine (restores_iff twoFragments [1, 0, 0] (by rw [hcount]; decide) (by rw [hcount]; decide)).mpr fun _ _ => ?_
  rw [hcount]
  exact ⟨by decide, fun h => absurd h.1 (by decide)⟩

/-- The last of two fragments, twice, returns a message without the first one. -/
theorem restores_iff_twice : ¬Restores twoFragments [1, 1] := by
  rintro ⟨outs, d, hrun, hgood⟩
  have hcount := twoFragments_count
  obtain ⟨d', -, hreturns⟩ := @returns_in_time twoFragments [1, 1] 0 (by rw [hcount]; decide) (by rw [hcount]; decide)
    (by rw [hcount]; decide) ⟨by rw [hcount]; decide, by rw [hcount]; decide⟩
  rw [hcount] at hreturns
  cases hreturns.symm.trans hrun
  obtain ⟨hall, -⟩ := hgood 1 _ rfl
  have hmem := hall 0 (by rw [hcount]; decide)
  revert hmem
  decide

end TcpMigDefragmenter

end Capybara
