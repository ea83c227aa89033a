import Capybara.StatsPoll

namespace Capybara

open Rows Runs

def maxExtractedConnections : Nat := 20

/-- `expect_enabled`. -/
def Stat.expectEnabled : Stat → Option Nat
  | .enabled val => some val
  | .disabled | .markedForDisable _ => none

/-- A table of handles with the connections they belong to and what limits migrations. -/
structure RpsStats (H : Type) where
  table : Stats H
  conn : H → Endpoints
  threshold : Nat
  maxProactiveMigrations : Option Int

/-- The local variables of the loop over the buckets, and the quota that it uses up. -/
structure Extraction where
  conns : List Endpoints
  removedStat : Nat
  maxProactiveMigrations : Option Int

namespace RpsStats

section

variable {H : Type} {val : Nat}

/-- Whether an extraction may end. A subtraction that underflows is a panic. -/
def shouldEnd (s : RpsStats H) (x : Extraction) : Option Bool := do
  let left ← checkedSub s.table.globalStat x.removedStat
  some (left ≤ s.threshold || maxExtractedConnections - x.conns.length = 0)

/-- The last element of a full vector cannot be pushed. -/
def pushConn (x : Extraction) (conn : Endpoints) : Option Extraction :=
  if x.conns.length < maxExtractedConnections then some { x with conns := x.conns ++ [conn] } else none

def useQuota (x : Extraction) : Extraction := { x with maxProactiveMigrations := x.maxProactiveMigrations.map (· - 1) }

/-- The quota is used up. -/
def QuotaUsed (quota : Option Int) : Prop := ∃ val, quota = some val ∧ val ≤ 0

instance (quota : Option Int) : Decidable (QuotaUsed quota) :=
  match quota with
  | none => isFalse fun h => by
    obtain ⟨val, hval, -⟩ := h
    cases hval
  | some val => decidable_of_iff (val ≤ 0) ⟨fun h => ⟨val, rfl, h⟩, fun h => by
    obtain ⟨val', hval, h⟩ := h
    cases hval
    exact h⟩

/-- The handles in the order in which the two loops come to them. -/
def extractFrom (s : RpsStats H) : List H → Extraction → Option Extraction
  | [], x => some x
  | h :: handles, x => do
    let val ← (s.table.cells h).handle.stat.expectEnabled
    let x ← pushConn { x with removedStat := x.removedStat + val } (s.conn h)
    let ends ← s.shouldEnd x
    let x := useQuota x
    if QuotaUsed x.maxProactiveMigrations ∨ ends = true then some x else s.extractFrom handles x

/-- From the base index up, then down from below it; every bucket backwards. -/
def extractionOrder (s : RpsStats H) : List H :=
  let baseIndex := min ((s.table.globalStat - s.threshold) >>> bucketSizeLog2) s.table.buckets.length
  (s.table.buckets.drop baseIndex ++ (s.table.buckets.take baseIndex).reverse).flatMap List.reverse

def connectionsToProactivelyMigrate (s : RpsStats H) : Option (Option (List Endpoints) × RpsStats H) :=
  if QuotaUsed s.maxProactiveMigrations then some (none, s)
  else if s.table.globalStat ≤ s.threshold then some (none, s)
  else do
    let x ← s.extractFrom s.extractionOrder ⟨[], 0, s.maxProactiveMigrations⟩
    some (some x.conns, { s with maxProactiveMigrations := x.maxProactiveMigrations })

/-- The connections chosen: they are tracked and not too many, they are enough unless a cap was hit or all with a
value were chosen, and without the last one they are not enough. -/
structure Chooses (s : RpsStats H) (chosen : List H) : Prop where
  nonempty : chosen ≠ []
  nodup : chosen.Nodup
  tracked : ∀ h ∈ chosen, h ∈ s.table.handles
  capacity : chosen.length ≤ maxExtractedConnections
  quota : ∀ val, s.maxProactiveMigrations = some val → (chosen.length : Int) ≤ val
  enough : s.table.globalStat - (chosen.map s.table.value).sum ≤ s.threshold ∨
    chosen.length = maxExtractedConnections ∨ s.maxProactiveMigrations = some (chosen.length : Int) ∨
    ∀ h ∈ s.table.handles, s.table.value h ≠ 0 → h ∈ chosen
  needed : s.threshold < s.table.globalStat - (chosen.dropLast.map s.table.value).sum

/-- The variables of the loop when it has chosen the given handles. -/
def extraction (s : RpsStats H) (chosen : List H) : Extraction where
  conns := chosen.map s.conn
  removedStat := (chosen.map s.table.value).sum
  maxProactiveMigrations := s.maxProactiveMigrations.map (· - (chosen.length : Int))

/-- What has been chosen when the loop ends; `order` is all that it comes to. -/
structure Ends (s : RpsStats H) (order chosen : List H) : Prop where
  taken : chosen <+: order
  capacity : chosen.length ≤ maxExtractedConnections
  quota : ∀ val, s.maxProactiveMigrations = some val → (chosen.length : Int) ≤ val
  enough : s.table.globalStat - (chosen.map s.table.value).sum ≤ s.threshold ∨
    chosen.length = maxExtractedConnections ∨ s.maxProactiveMigrations = some (chosen.length : Int) ∨ chosen = order
  needed : s.threshold < s.table.globalStat - (chosen.dropLast.map s.table.value).sum

/-- The loop goes on: neither cap is hit, and what has been chosen is not enough. -/
structure GoesOn (s : RpsStats H) (chosen : List H) : Prop where
  capacity : chosen.length < maxExtractedConnections
  quota : ∀ val, s.maxProactiveMigrations = some val → (chosen.length : Int) < val
  needed : s.threshold < s.table.globalStat - (chosen.map s.table.value).sum

variable {s : RpsStats H} {handles chosen : List H} {h : H}

theorem extraction_next (hval : s.table.stat h = .enabled val) (hroom : chosen.length < maxExtractedConnections)
    (hsum : ((chosen ++ [h]).map s.table.value).sum ≤ s.table.globalStat) :
    s.extractFrom (h :: handles) (s.extraction chosen) =
      if QuotaUsed (s.extraction (chosen ++ [h])).maxProactiveMigrations ∨
          s.table.globalStat - ((chosen ++ [h]).map s.table.value).sum ≤ s.threshold ∨
          (chosen ++ [h]).length = maxExtractedConnections then
        some (s.extraction (chosen ++ [h]))
      else s.extractFrom handles (s.extraction (chosen ++ [h])) := by
  have hvalue : s.table.value h = val := congrArg Stat.value hval
  have hexpect : (s.table.cells h).handle.stat.expectEnabled = some val := by
    rw [show (s.table.cells h).handle.stat = .enabled val from hval]
    rfl
  have hpush : pushConn { s.extraction chosen with removedStat := (s.extraction chosen).removedStat + val } (s.conn h) =
      some ⟨(chosen ++ [h]).map s.conn, ((chosen ++ [h]).map s.table.value).sum,
        (s.extraction chosen).maxProactiveMigrations⟩ := by
    rw [pushConn, if_pos (by simpa [extraction] using hroom)]
    simp [extraction, hvalue]
  have hquota : useQuota ⟨(chosen ++ [h]).map s.conn, ((chosen ++ [h]).map s.table.value).sum,
      (s.extraction chosen).maxProactiveMigrations⟩ = s.extraction (chosen ++ [h]) := by
    unfold useQuota extraction
    cases s.maxProactiveMigrations with
    | none => rfl
    | some quota =>
      simp only [Option.map_some, List.length_append, List.length_singleton, Nat.cast_add, Nat.cast_one]
      rw [Int.sub_sub]
  have hends : s.shouldEnd ⟨(chosen ++ [h]).map s.conn, ((chosen ++ [h]).map s.table.value).sum,
      (s.extraction chosen).maxProactiveMigrations⟩ =
        some (decide (s.table.globalStat - ((chosen ++ [h]).map s.table.value).sum ≤ s.threshold) ||
          decide (maxExtractedConnections - ((chosen ++ [h]).map s.conn).length = 0)) := by
    unfold shouldEnd
    rw [checkedSub_of_le hsum]
    rfl
  have hfull : maxExtractedConnections - ((chosen ++ [h]).map s.conn).length = 0 ↔
      (chosen ++ [h]).length = maxExtractedConnections := by
    rw [List.length_map, List.length_append, List.length_singleton]
    omega
  rw [extractFrom, hexpect, Option.bind_eq_bind, Option.bind_some, hpush, Option.bind_eq_bind, Option.bind_some, hends,
    Option.bind_eq_bind, Option.bind_some, hquota]
  simp only [Bool.or_eq_true, decide_eq_true_eq, hfull]

theorem quotaUsed_extraction (s : RpsStats H) (chosen : List H) :
    QuotaUsed (s.extraction chosen).maxProactiveMigrations ↔
      ∃ val, s.maxProactiveMigrations = some val ∧ val ≤ (chosen.length : Int) := by
  unfold QuotaUsed extraction
  cases s.maxProactiveMigrations with
  | none =>
    constructor
    · rintro ⟨val, hval, -⟩
      cases hval
    · rintro ⟨val, hval, -⟩
      cases hval
  | some quota =>
    constructor
    · rintro ⟨val, hval, hle⟩
      cases hval
      exact ⟨quota, rfl, sub_nonpos.mp hle⟩
    · rintro ⟨val, hval, hle⟩
      cases hval
      exact ⟨_, rfl, sub_nonpos.mpr hle⟩

theorem GoesOn.needed_dropLast (hg : s.GoesOn chosen) :
    s.threshold < s.table.globalStat - (chosen.dropLast.map s.table.value).sum := by
  have hneeded := hg.needed
  rcases List.eq_nil_or_concat' chosen with rfl | ⟨before, last, rfl⟩
  · exact hneeded
  · rw [List.map_append, List.sum_append] at hneeded
    rw [List.dropLast_concat]
    omega

/-- A turn of the loop: it ends with the handle chosen, or goes on with it. -/
theorem GoesOn.next (hg : s.GoesOn chosen) (handles : List H) (h : H) :
    if QuotaUsed (s.extraction (chosen ++ [h])).maxProactiveMigrations ∨
        s.table.globalStat - ((chosen ++ [h]).map s.table.value).sum ≤ s.threshold ∨
        (chosen ++ [h]).length = maxExtractedConnections then
      s.Ends (chosen ++ h :: handles) (chosen ++ [h])
    else s.GoesOn (chosen ++ [h]) := by
  have hlength : (chosen ++ [h]).length = chosen.length + 1 := List.length_append
  have hcapacity := hg.capacity
  have hused := s.quotaUsed_extraction (chosen ++ [h])
  split
  next hstop =>
    rw [hused] at hstop
    refine ⟨⟨handles, by rw [List.append_assoc]; rfl⟩, by omega, fun val hval => ?_, ?_, ?_⟩
    · have hquota := hg.quota val hval
      omega
    · rcases hstop with ⟨val, hval, hle⟩ | henough | hfull
      · have hquota := hg.quota val hval
        have hsame : val = ((chosen ++ [h]).length : Int) := by omega
        exact .inr (.inr (.inl (hsame ▸ hval)))
      · exact .inl henough
      · exact .inr (.inl hfull)
    · rw [List.dropLast_concat]
      exact hg.needed
  next hgo =>
    rw [hused] at hgo
    obtain ⟨hquota, hrest⟩ := not_or.mp hgo
    obtain ⟨hnot, hroom⟩ := not_or.mp hrest
    refine ⟨by omega, fun val hval => ?_, by omega⟩
    by_contra hle
    exact hquota ⟨val, hval, by omega⟩

theorem GoesOn.extractFrom (hg : s.GoesOn chosen) (henabled : ∀ h ∈ handles, ∃ val, s.table.stat h = .enabled val)
    (hsum : ((chosen ++ handles).map s.table.value).sum ≤ s.table.globalStat) :
    ∃ chosen', s.extractFrom handles (s.extraction chosen) = some (s.extraction chosen') ∧
      s.Ends (chosen ++ handles) chosen' := by
  induction handles generalizing chosen with
  | nil =>
    rw [List.append_nil]
    exact ⟨chosen, rfl, List.prefix_refl chosen, hg.capacity.le, fun val hval => (hg.quota val hval).le,
      .inr (.inr (.inr rfl)), hg.needed_dropLast⟩
  | cons h handles ih =>
    obtain ⟨val, hval⟩ := henabled h List.mem_cons_self
    have hassoc : chosen ++ h :: handles = (chosen ++ [h]) ++ handles := by rw [List.append_assoc]; rfl
    have hpart : ((chosen ++ [h]).map s.table.value).sum ≤ s.table.globalStat := by
      rw [hassoc, List.map_append, List.sum_append] at hsum
      omega
    have hturn := hg.next handles h
    rw [extraction_next hval hg.capacity hpart]
    split at hturn
    next hstop =>
      rw [if_pos hstop]
      exact ⟨chosen ++ [h], rfl, hturn⟩
    next hgo =>
      rw [if_neg hgo, hassoc]
      exact ih hturn (fun k hk => henabled k (List.mem_cons_of_mem h hk)) (hassoc ▸ hsum)

/-- The loops come to every handle of the buckets once. -/
theorem extractionOrder_perm (s : RpsStats H) : s.extractionOrder.Perm s.table.buckets.flatten := by
  unfold extractionOrder
  generalize min ((s.table.globalStat - s.threshold) >>> bucketSizeLog2) s.table.buckets.length = baseIndex
  have hrows : (s.table.buckets.drop baseIndex ++ (s.table.buckets.take baseIndex).reverse).Perm s.table.buckets := by
    have hswap := (List.reverse_perm (s.table.buckets.take baseIndex)).append_left (s.table.buckets.drop baseIndex)
    have hback := hswap.trans List.perm_append_comm
    rw [List.take_append_drop] at hback
    exact hback
  have hall := hrows.flatMap_right List.reverse
  have heach := List.Perm.flatMap_left s.table.buckets fun (bucket : List H) _ => List.reverse_perm bucket
  refine (hall.trans heach).trans ?_
  rw [List.flatMap_def, List.map_id']

end

section

variable {H : Type} {s : RpsStats H}

theorem mem_extractionOrder (hw : s.table.Wf) (h : H) : h ∈ s.extractionOrder ↔ s.table.value h ≠ 0 := by
  rw [s.extractionOrder_perm.mem_iff, hw.placed.mem_flatten]
  have hbucket := hw.bucket h
  unfold Stats.InBucket at hbucket
  show _ ↔ (s.table.stat h).value ≠ 0
  split at hbucket
  next hzero =>
    rw [Option.map_eq_none_iff.mp hbucket]
    exact ⟨fun hsome => (by cases hsome), fun hne => absurd hzero hne⟩
  next hne =>
    obtain ⟨position, hplace, -⟩ := Option.map_eq_some_iff.mp hbucket
    rw [hplace]
    exact ⟨fun _ => hne, fun _ => rfl⟩

theorem tracked_of_value (hw : s.table.Wf) {h : H} (hvalue : s.table.value h ≠ 0) : h ∈ s.table.handles := by
  refine (hw.tracked h).mpr fun hdisabled => hvalue ?_
  show (s.table.stat h).value = 0
  rw [hdisabled]
  rfl

/-- The handles of the buckets have all of the global stat. -/
theorem sum_extractionOrder (hw : s.table.Wf) :
    (s.extractionOrder.map s.table.value).sum = s.table.globalStat := by
  have hnodup : s.extractionOrder.Nodup := s.extractionOrder_perm.nodup_iff.mpr hw.placed.flatten_nodup
  have hperm : s.extractionOrder.Perm (s.table.handles.filter fun h => s.table.value h ≠ 0) := by
    refine (List.perm_ext_iff_of_nodup hnodup (hw.nodup.filter _)).mpr fun h => ?_
    rw [mem_extractionOrder hw, List.mem_filter, decide_eq_true_eq]
    exact ⟨fun hvalue => ⟨tracked_of_value hw hvalue, hvalue⟩, fun hboth => hboth.2⟩
  rw [(hperm.map s.table.value).sum_nat, hw.sum]
  show _ = (s.table.handles.map s.table.value).sum
  induction s.table.handles with
  | nil => rfl
  | cons h handles ih =>
    rw [List.filter_cons]
    split
    next => rw [List.map_cons, List.map_cons, List.sum_cons, List.sum_cons, ih]
    next hzero =>
      rw [decide_eq_true_eq, not_not] at hzero
      rw [ih, List.map_cons, List.sum_cons, hzero, Nat.zero_add]

theorem Ends.chooses {chosen : List H} (he : s.Ends s.extractionOrder chosen) (hw : s.table.Wf)
    (hsum : (s.extractionOrder.map s.table.value).sum = s.table.globalStat)
    (hover : s.threshold < s.table.globalStat) (hquota : ¬QuotaUsed s.maxProactiveMigrations) : s.Chooses chosen where
  nonempty := by
    rintro rfl
    rcases he.enough with henough | hfull | hquota' | hall
    · rw [List.map_nil, List.sum_nil] at henough
      omega
    · cases hfull
    · exact hquota ⟨0, hquota', Int.le_refl 0⟩
    · rw [← hall, List.map_nil, List.sum_nil] at hsum
      omega
  nodup := he.taken.sublist.nodup (s.extractionOrder_perm.nodup_iff.mpr hw.placed.flatten_nodup)
  tracked := fun h hh => tracked_of_value hw ((mem_extractionOrder hw h).mp (he.taken.subset hh))
  capacity := he.capacity
  quota := he.quota
  enough := by
    rcases he.enough with henough | hfull | hquota' | hall
    · exact .inl henough
    · exact .inr (.inl hfull)
    · exact .inr (.inr (.inl hquota'))
    · exact .inr (.inr (.inr fun h _ hvalue => hall ▸ (mem_extractionOrder hw h).mpr hvalue))
  needed := he.needed

/-- The connections to migrate from a table as a poll leaves it. -/
theorem connectionsToProactivelyMigrate_chooses (s : RpsStats H) (hw : s.table.Wf)
    (henabled : ∀ h ∈ s.table.handles, ∃ val, s.table.stat h = .enabled val) :
    ∃ conns s', s.connectionsToProactivelyMigrate = some (conns, s') ∧
      (conns = none ↔ s.table.globalStat ≤ s.threshold ∨ QuotaUsed s.maxProactiveMigrations) ∧
      ∀ cs, conns = some cs → ∃ chosen, s.Chooses chosen ∧ cs = chosen.map s.conn ∧
        ((∀ h ∈ s.table.handles, ∀ k ∈ s.table.handles, s.conn h = s.conn k → h = k) → cs.Nodup) := by
  unfold connectionsToProactivelyMigrate
  by_cases hquota : QuotaUsed s.maxProactiveMigrations
  · rw [if_pos hquota]
    exact ⟨none, s, rfl, ⟨fun _ => .inr hquota, fun _ => rfl⟩, fun cs hcs => (by cases hcs)⟩
  by_cases hbelow : s.table.globalStat ≤ s.threshold
  · rw [if_neg hquota, if_pos hbelow]
    exact ⟨none, s, rfl, ⟨fun _ => .inl hbelow, fun _ => rfl⟩, fun cs hcs => (by cases hcs)⟩
  rw [if_neg hquota, if_neg hbelow]
  have hsum := sum_extractionOrder hw
  have hbegin : s.extraction [] = ⟨[], 0, s.maxProactiveMigrations⟩ := by
    unfold extraction
    cases s.maxProactiveMigrations with
    | none => rfl
    | some quota =>
      simp only [List.map_nil, List.sum_nil, Option.map_some, List.length_nil, Nat.cast_zero, Int.sub_zero]
  have hgo : s.GoesOn [] := by
    refine ⟨Nat.zero_lt_succ 19, fun val hval => ?_, by rw [List.map_nil, List.sum_nil]; omega⟩
    by_contra hle
    exact hquota ⟨val, hval, not_lt.mp hle⟩
  have hall : ∀ h ∈ s.extractionOrder, ∃ val, s.table.stat h = .enabled val :=
    fun h hh => henabled h (tracked_of_value hw ((mem_extractionOrder hw h).mp hh))
  obtain ⟨chosen, hextract, hends⟩ := hgo.extractFrom hall hsum.le
  rw [hbegin] at hextract
  rw [hextract]
  have hchooses := Ends.chooses hends hw hsum (by omega) hquota
  refine ⟨_, _, rfl, ⟨fun hnone => (by cases hnone), fun hor => absurd hor (not_or.mpr ⟨hbelow, hquota⟩)⟩, ?_⟩
  rintro cs ⟨⟩
  refine ⟨chosen, hchooses, rfl, fun hinj => ?_⟩
  refine List.Nodup.map_on (fun h hh k hk heq => ?_) hchooses.nodup
  exact hinj h (hchooses.tracked h hh) k (hchooses.tracked k hk) heq

end

/-- Two connections with stats 9 and 20, a threshold of 12 and one migration left: one connection is chosen. -/
theorem connectionsToProactivelyMigrate_chooses_sample : ∃ (t : Stats Nat) (chosen : List Nat),
    (run Stats.step .new [.enable 3 false 5, .set 3 9, .enable 4 false 20]).bind Stats.poll = some t ∧
      Chooses ⟨t, fun h => ⟨⟨⟨10, 0, 1, 8⟩, 10000⟩, ⟨⟨10, 0, 1, 7⟩, UInt16.ofNat h⟩⟩, 12, some 1⟩ chosen := by
  have hsound : Admits Stats.step Stats.Sound (.new : Stats Nat)
      [.enable 3 false 5, .set 3 9, .enable 4 false 20] := by decide
  obtain ⟨t, hr, hw⟩ := run_invariant (fun _ _ hw hs => Stats.Wf.step hw hs) Stats.wf_new hsound
  obtain ⟨t', hpoll, hw', henabled⟩ := hw.poll
  have hpolled : (run Stats.step .new [.enable 3 false 5, .set 3 9, .enable 4 false 20]).bind Stats.poll = some t' := by
    rw [hr]
    exact hpoll
  have hglobal : ((run Stats.step (.new : Stats Nat) [.enable 3 false 5, .set 3 9, .enable 4 false 20]).bind
      Stats.poll).map Stats.globalStat = some 29 := by decide
  rw [hpolled] at hglobal
  have hstat := Option.some.inj hglobal
  obtain ⟨conns, s', -, hnone, hchosen⟩ := connectionsToProactivelyMigrate_chooses
    ⟨t', fun h => ⟨⟨⟨10, 0, 1, 8⟩, 10000⟩, ⟨⟨10, 0, 1, 7⟩, UInt16.ofNat h⟩⟩, 12, some 1⟩ hw'
    fun h hh => (henabled h).mp hh
  cases conns with
  | none =>
    rcases hnone.mp rfl with hbelow | ⟨val, hval, hle⟩
    · exact absurd hbelow (by show ¬t'.globalStat ≤ 12; omega)
    · cases hval
      exact absurd hle (by decide)
  | some conns =>
    obtain ⟨chosen, hchooses, -⟩ := hchosen conns rfl
    exact ⟨t', chosen, hpolled, hchooses⟩

end RpsStats

end Capybara
