import Capybara.Stats

namespace Capybara

open Rows Runs

namespace RollingAverage

structure Sound (r : RollingAverage) : Prop where
  sum : r.sum = r.values.sum
  nonempty : r.values ≠ []

theorem sound_new : Sound new := by
  constructor <;> simp [new, rollingAvgWindow]

theorem Sound.update {r : RollingAverage} (h : r.Sound) (value : Nat) : ∃ r', r.update value = some r' ∧ r'.Sound := by
  obtain ⟨values, sum⟩ := r
  cases values with
  | nil => exact absurd rfl h.nonempty
  | cons oldest values =>
    have hsum : sum = oldest + values.sum := h.sum
    refine ⟨⟨values ++ [value], values.sum + value⟩, ?_, ?_, ?_⟩
    · simp [RollingAverage.update, checkedSub, hsum]
    · simp
    · simp

end RollingAverage

namespace Stats

variable {H : Type} [DecidableEq H]

def stat (t : Stats H) (h : H) : Stat := (t.cells h).handle.stat

def place (t : Stats H) (h : H) : Option (Nat × Nat) := (t.cells h).bucketListPosition

/-- The bucket of a position is the one for the value; a zero value has no position. -/
def InBucket (val : Nat) (position : Option (Nat × Nat)) : Prop :=
  position.map Prod.fst = if val = 0 then none else some (val >>> bucketSizeLog2)

/-- The table between any two calls; handles marked for disable are still in it. -/
structure Wf (t : Stats H) : Prop where
  nodup : t.handles.Nodup
  tracked : ∀ h, h ∈ t.handles ↔ t.stat h ≠ .disabled
  sum : t.globalStat = (t.handles.map fun h => (t.stat h).value).sum
  placed : Placed t.buckets t.place
  bucket : ∀ h, InBucket (t.stat h).value (t.place h)
  average : t.avgGlobalStat.Sound

/-- Nothing but the buckets and the positions in them differs. -/
structure SameHandles (t t' : Stats H) : Prop where
  stat : t'.stat = t.stat
  handles : t'.handles = t.handles
  globalStat : t'.globalStat = t.globalStat
  average : t'.avgGlobalStat = t.avgGlobalStat

section

variable (t : Stats H) (h : H)

@[simp] theorem stat_setHandle (x : StatsHandle) : (t.setHandle h x).stat = Function.update t.stat h x.stat := by
  funext k
  by_cases hk : k = h
  · subst k
    simp [stat, setHandle, setCell]
  · simp [stat, setHandle, setCell, hk]

@[simp] theorem place_setHandle (x : StatsHandle) : (t.setHandle h x).place = t.place := by
  funext k
  by_cases hk : k = h
  · subst k
    simp [place, setHandle, setCell]
  · simp [place, setHandle, setCell, hk]

@[simp] theorem stat_setPosition (p : Option (Nat × Nat)) : (t.setPosition h p).stat = t.stat := by
  funext k
  by_cases hk : k = h
  · subst k
    simp [stat, setPosition, setCell]
  · simp [stat, setPosition, setCell, hk]

@[simp] theorem place_setPosition (p : Option (Nat × Nat)) :
    (t.setPosition h p).place = Function.update t.place h p := by
  funext k
  by_cases hk : k = h
  · subst k
    simp [place, setPosition, setCell]
  · simp [place, setPosition, setCell, hk]

@[simp] theorem stat_setHandlesIndex (i : Option Nat) : (t.setHandlesIndex h i).stat = t.stat := by
  funext k
  by_cases hk : k = h
  · subst k
    simp [stat, setHandlesIndex, setCell]
  · simp [stat, setHandlesIndex, setCell, hk]

@[simp] theorem place_setHandlesIndex (i : Option Nat) : (t.setHandlesIndex h i).place = t.place := by
  funext k
  by_cases hk : k = h
  · subst k
    simp [place, setHandlesIndex, setCell]
  · simp [place, setHandlesIndex, setCell, hk]

end

variable {t : Stats H} {h : H}

omit [DecidableEq H] in
theorem SameHandles.refl (t : Stats H) : SameHandles t t := ⟨rfl, rfl, rfl, rfl⟩

omit [DecidableEq H] in
theorem SameHandles.trans {t' t'' : Stats H} (h₁ : SameHandles t t') (h₂ : SameHandles t' t'') : SameHandles t t'' :=
  ⟨h₂.stat.trans h₁.stat, h₂.handles.trans h₁.handles, h₂.globalStat.trans h₁.globalStat, h₂.average.trans h₁.average⟩

/-- What a change of the buckets for one handle does: they stay in order, and only that handle changes its bucket. -/
structure Rebucketed (h : H) (t t' : Stats H) : Prop where
  same : SameHandles t t'
  placed : Placed t'.buckets t'.place
  others : ∀ k, k ≠ h → (t'.place k).map Prod.fst = (t.place k).map Prod.fst

theorem insertIntoBuckets_rebucketed (hp : Placed t.buckets t.place) (hn : t.place h = none) (val : Nat) :
    Rebucketed h t (t.insertIntoBuckets h val) ∧ InBucket val ((t.insertIntoBuckets h val).place h) := by
  unfold insertIntoBuckets
  by_cases hv : val > 0
  · have hpush := hp.push hn (val >>> bucketSizeLog2)
    rw [if_pos hv]
    have hplace : (t.pushIntoBucket (val >>> bucketSizeLog2) h).place = Function.update t.place h
        (some (val >>> bucketSizeLog2, (t.buckets.getD (val >>> bucketSizeLog2) []).length)) := place_setPosition _ _ _
    refine ⟨⟨⟨stat_setPosition _ _ _, rfl, rfl, rfl⟩, ?_, ?_⟩, ?_⟩
    · rw [hplace]
      exact hpush
    · intro k hk
      rw [hplace, Function.update_of_ne hk]
    · rw [hplace, Function.update_self, InBucket, if_neg (by omega)]
      rfl
  · rw [if_neg hv]
    have hv0 : val = 0 := by omega
    refine ⟨⟨.refl t, hp, fun _ _ => rfl⟩, ?_⟩
    rw [hn, InBucket, if_pos hv0]
    rfl

theorem removeFromBuckets_rebucketed (hp : Placed t.buckets t.place) {position : Nat × Nat}
    (ha : t.place h = some position) :
    ∃ t', t.removeFromBuckets position = some (h, t') ∧ Rebucketed h t t' ∧ t'.place h = none := by
  obtain ⟨i, j⟩ := position
  obtain ⟨buckets, hr, hplaced⟩ := hp.remove ha
  cases hmoved : look buckets i j with
  | none =>
    rw [hmoved] at hplaced
    refine ⟨{ t with buckets := buckets }.setPosition h none, ?_, ⟨⟨stat_setPosition _ _ _, rfl, rfl, rfl⟩, ?_, ?_⟩, ?_⟩
    · simp [removeFromBuckets, hr, hmoved]
    · rw [place_setPosition]
      exact hplaced
    · intro k hk
      rw [place_setPosition, Function.update_of_ne hk]
      rfl
    · rw [place_setPosition, Function.update_self]
  | some moved =>
    rw [hmoved] at hplaced
    have hplace : (({ t with buckets := buckets }.setPosition h none).setPosition moved (some (i, j))).place =
        Function.update (Function.update t.place h none) moved (some (i, j)) := by
      rw [place_setPosition, place_setPosition]
      rfl
    have hne : moved ≠ h := by
      rintro rfl
      obtain ⟨buckets', hr', -⟩ := hp.remove ha
      obtain ⟨-, rfl⟩ := Prod.mk.inj (Option.some.inj (hr'.symm.trans hr))
      have hl := look_remove hr i j
      rw [hmoved, if_pos rfl, if_pos rfl] at hl
      split at hl
      next => cases hl
      next hlt =>
        have hlast := (hp moved i _).mp hl.symm
        obtain ⟨-, hj⟩ := Prod.mk.inj (Option.some.inj (ha.symm.trans hlast))
        omega
    have hmovedRow : (t.place moved).map Prod.fst = some i := by
      have hl := look_remove hr i j
      rw [hmoved, if_pos rfl, if_pos rfl] at hl
      split at hl
      next => cases hl
      next =>
        rw [(hp moved i _).mp hl.symm]
        rfl
    refine ⟨({ t with buckets := buckets }.setPosition h none).setPosition moved (some (i, j)), ?_, ⟨⟨?_, rfl, rfl, rfl⟩, ?_, ?_⟩, ?_⟩
    · simp [removeFromBuckets, hr, hmoved]
    · rw [stat_setPosition, stat_setPosition]
      rfl
    · rw [hplace]
      exact hplaced
    · intro k hk
      rw [hplace]
      by_cases hkm : k = moved
      · subst k
        rw [Function.update_self, hmovedRow]
        rfl
      · rw [Function.update_of_ne hkm, Function.update_of_ne hk]
    · rw [hplace, Function.update_of_ne hne.symm, Function.update_self]

theorem updateBuckets_rebucketed (hp : Placed t.buckets t.place) (h : H) (val : Nat) :
    ∃ t', t.updateBuckets h val = some t' ∧ Rebucketed h t t' ∧ InBucket val (t'.place h) := by
  cases hpos : t.place h with
  | none =>
    obtain ⟨hr, hb⟩ := insertIntoBuckets_rebucketed hp hpos val
    have hcell : (t.cells h).bucketListPosition = none := hpos
    exact ⟨_, by simp [updateBuckets, hcell], hr, hb⟩
  | some position =>
    have hcell : (t.cells h).bucketListPosition = some position := hpos
    obtain ⟨index, subIndex⟩ := position
    by_cases hmove : val = 0 ∨ index ≠ val >>> bucketSizeLog2
    · obtain ⟨t₁, hremove, hr₁, hnone⟩ := removeFromBuckets_rebucketed hp hpos
      obtain ⟨hr₂, hb⟩ := insertIntoBuckets_rebucketed hr₁.placed hnone val
      refine ⟨_, by simp [updateBuckets, hcell, hmove, hremove], ⟨hr₁.same.trans hr₂.same, hr₂.placed, ?_⟩, hb⟩
      intro k hk
      rw [hr₂.others k hk, hr₁.others k hk]
    · refine ⟨t, by simp [updateBuckets, hcell, hmove], ⟨.refl t, hp, fun _ _ => rfl⟩, ?_⟩
      obtain ⟨hv, hi⟩ := not_or.mp hmove
      rw [hpos, InBucket, if_neg hv, ← not_not.mp hi]
      rfl

theorem sum_update {handles : List H} (hd : handles.Nodup) (hm : h ∈ handles) (f : H → Stat) (s : Stat) :
    (handles.map fun k => (Function.update f h s k).value).sum + (f h).value =
      (handles.map fun k => (f k).value).sum + s.value := by
  have hperm := List.perm_cons_erase hm
  have hne : ∀ k ∈ handles.erase h, k ≠ h := fun k hk => (List.Nodup.mem_erase_iff hd).mp hk |>.1
  have hrest : (handles.erase h).map (fun k => (Function.update f h s k).value) =
      (handles.erase h).map fun k => (f k).value := by
    apply List.map_congr_left
    intro k hk
    rw [Function.update_of_ne (hne k hk)]
  rw [(hperm.map fun k => (Function.update f h s k).value).sum_nat, (hperm.map fun k => (f k).value).sum_nat]
  simp only [List.map_cons, List.sum_cons, Function.update_self, hrest]
  omega

omit [DecidableEq H] in
theorem Wf.congr {t t' : Stats H} (hw : t.Wf) (hs : SameHandles t t') (hb : t'.buckets = t.buckets)
    (hp : t'.place = t.place) : t'.Wf where
  nodup := hs.handles ▸ hw.nodup
  tracked := by
    rw [hs.handles, hs.stat]
    exact hw.tracked
  sum := by
    rw [hs.globalStat, hs.handles, hs.stat]
    exact hw.sum
  placed := by
    rw [hb, hp]
    exact hw.placed
  bucket := by
    rw [hs.stat, hp]
    exact hw.bucket
  average := hs.average ▸ hw.average

/-- A change of the flags of a handle that keeps its counter. -/
theorem Wf.setHandle (hw : t.Wf) {x : StatsHandle} (hv : x.stat.value = (t.stat h).value)
    (hd : x.stat = .disabled ↔ t.stat h = .disabled) : (t.setHandle h x).Wf where
  nodup := hw.nodup
  tracked := by
    intro k
    rw [stat_setHandle]
    by_cases hk : k = h
    · subst k
      rw [Function.update_self, Ne, hd]
      exact hw.tracked h
    · rw [Function.update_of_ne hk]
      exact hw.tracked k
  sum := by
    rw [stat_setHandle]
    refine hw.sum.trans (congrArg List.sum (List.map_congr_left fun k _ => ?_))
    by_cases hk : k = h
    · subst k
      rw [Function.update_self, hv]
    · rw [Function.update_of_ne hk]
  placed := by
    rw [place_setHandle]
    exact hw.placed
  bucket := by
    intro k
    rw [stat_setHandle, place_setHandle]
    by_cases hk : k = h
    · subst k
      rw [Function.update_self, hv]
      exact hw.bucket h
    · rw [Function.update_of_ne hk]
      exact hw.bucket k
  average := hw.average

theorem Wf.setHandlesIndex (hw : t.Wf) (h : H) (i : Option Nat) : (t.setHandlesIndex h i).Wf :=
  hw.congr ⟨stat_setHandlesIndex _ _ _, rfl, rfl, rfl⟩ rfl (place_setHandlesIndex _ _ _)

omit [DecidableEq H] in
theorem wf_new : (new : Stats H).Wf where
  nodup := List.nodup_nil
  tracked := by simp [new, stat, StatsHandleInner.new, StatsHandle.new]
  sum := rfl
  placed := by
    intro a i j
    simp [look, new, place, StatsHandleInner.new]
  bucket := fun _ => rfl
  average := RollingAverage.sound_new

theorem Wf.set (hw : t.Wf) (h : H) (val : Nat) : (t.set h val).Wf := by
  have hs : ((t.cells h).handle.set val).stat = t.stat h := by
    unfold StatsHandle.set
    split <;> rfl
  exact hw.setHandle (congrArg Stat.value hs) (by rw [hs])

theorem Wf.increment (hw : t.Wf) (h : H) : (t.increment h).Wf := by
  have hs : (t.cells h).handle.increment.stat = t.stat h := by
    unfold StatsHandle.increment
    split
    next => split <;> rfl
    next => rfl
  exact hw.setHandle (congrArg Stat.value hs) (by rw [hs])

theorem Wf.disable (hw : t.Wf) (h : H) : (t.disable h).Wf := by
  unfold Stats.disable
  split
  next val hval =>
    have hs : (t.cells h).handle.disable.stat = .markedForDisable val := by simp only [StatsHandle.disable, hval]
    have hold : t.stat h = .enabled val := hval
    apply Wf.setHandlesIndex
    apply hw.setHandle
    · rw [hs, hold]
      rfl
    · rw [hs, hold]
      simp
  next => exact hw

theorem Wf.resetStats (hw : t.Wf) : t.resetStats.Wf := by
  unfold Stats.resetStats
  generalize t.buckets.flatten = handles
  induction handles generalizing t with
  | nil => exact hw
  | cons h handles ih => exact ih (hw.setHandle rfl Iff.rfl)

/-- The initial value a handle gets when it is enabled. -/
def startValue (t : Stats H) (h : H) (useOldValue : Bool) (initialVal : Nat) : Nat :=
  if useOldValue then (t.cells h).handle.statRightBeforeDisable.getD initialVal else initialVal

theorem Wf.enable (hw : t.Wf) {useOldValue : Bool} {initialVal : Nat} (hen : ∀ val, t.stat h ≠ .enabled val)
    (hmark : ∀ val, t.stat h = .markedForDisable val → val = 0 ∧ t.startValue h useOldValue initialVal = 0) :
    ∃ t', t.enable h useOldValue initialVal = some t' ∧ t'.Wf := by
  obtain ⟨x, hx, hstat⟩ : ∃ x, (t.cells h).handle.enable useOldValue initialVal = some x ∧
      x.stat = .enabled (t.startValue h useOldValue initialVal) := by
    cases hs : (t.cells h).handle.stat with
    | enabled val => exact absurd hs (hen val)
    | disabled => simp [StatsHandle.enable, hs, startValue]
    | markedForDisable val => simp [StatsHandle.enable, hs, startValue]
  generalize hval : t.startValue h useOldValue initialVal = val at hstat hmark
  cases hold : t.stat h with
  | enabled old => exact absurd hold (hen old)
  | markedForDisable old =>
    obtain ⟨rfl, rfl⟩ := hmark old hold
    have hcell : (t.cells h).handle.stat = .markedForDisable 0 := hold
    refine ⟨t.setHandle h x, ?_, hw.setHandle ?_ ?_⟩
    · simp [Stats.enable, hx, hcell, hstat, Stat.value, Stats.setHandle, setCell]
    · rw [hstat, hold]
      rfl
    · rw [hstat, hold]
      simp
  | disabled =>
    have hcell : (t.cells h).handle.stat = .disabled := hold
    have hnot : h ∉ t.handles := fun hm => (hw.tracked h).mp hm hold
    have hplace : t.place h = none := by
      have hb := hw.bucket h
      rw [hold] at hb
      exact Option.map_eq_none_iff.mp hb
    let t₁ : Stats H := { { t.setHandle h x with globalStat := t.globalStat + x.stat.value }.setHandlesIndex h
      (some t.handles.length) with handles := t.handles ++ [h] }
    have hs₁ : t₁.stat = Function.update t.stat h x.stat := by
      refine (stat_setHandlesIndex _ _ _).trans ?_
      exact stat_setHandle t h x
    have hp₁ : t₁.place = t.place := by
      refine (place_setHandlesIndex _ _ _).trans ?_
      exact place_setHandle t h x
    have hplaced : Placed t₁.buckets t₁.place := by
      rw [hp₁]
      exact hw.placed
    obtain ⟨hr, hb⟩ := insertIntoBuckets_rebucketed hplaced (hp₁ ▸ hplace) val
    refine ⟨t₁.insertIntoBuckets h val, ?_, ?_⟩
    · simp [Stats.enable, hx, hcell, hstat, Stat.value, t₁, Stats.setHandle, setCell, Stats.setHandlesIndex]
    · refine ⟨?_, ?_, ?_, hr.placed, ?_, ?_⟩
      · rw [hr.same.handles]
        exact List.nodup_append_comm.mp (List.nodup_cons.mpr ⟨hnot, hw.nodup⟩)
      · intro k
        rw [hr.same.handles, hr.same.stat, hs₁]
        by_cases hk : k = h
        · subst k
          simp [t₁, hstat]
        · rw [Function.update_of_ne hk, ← hw.tracked k]
          simp [t₁, hk]
      · rw [hr.same.handles, hr.same.stat, hr.same.globalStat, hs₁]
        have hrest : t.handles.map (fun k => (Function.update t.stat h x.stat k).value) =
            t.handles.map fun k => (t.stat k).value := by
          apply List.map_congr_left
          intro k hk
          rw [Function.update_of_ne (fun he => hnot (by rwa [← he]))]
        change t.globalStat + x.stat.value = _
        rw [show t₁.handles = t.handles ++ [h] from rfl, List.map_append, List.sum_append, hrest, hw.sum]
        simp
      · intro k
        rw [hr.same.stat, hs₁]
        by_cases hk : k = h
        · subst k
          rw [Function.update_self, hstat]
          exact hb
        · rw [Function.update_of_ne hk, InBucket, hr.others k hk, hp₁]
          exact hw.bucket k
      · rw [hr.same.average]
        exact hw.average

end Stats

end Capybara
