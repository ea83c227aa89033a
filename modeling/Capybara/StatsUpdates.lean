import Capybara.StatsPoll

namespace Capybara

open Rows Runs

/-- What a poll does to a tracked handle. -/
def StatsHandle.polled (x : StatsHandle) : StatsHandle :=
  match x.stat with
  | .disabled => x
  | .enabled val => { x with stat := .enabled (x.statToUpdate.getD val), statToUpdate := none }
  | .markedForDisable _ => { x with stat := .disabled }

theorem StatsHandle.polled_none {x : StatsHandle} {val : Nat} (hs : x.stat = .enabled val)
    (hu : x.statToUpdate = none) : x.polled = x := by
  obtain ⟨stat, statToUpdate, statRightBeforeDisable⟩ := x
  cases hs
  cases hu
  rfl

theorem StatsHandle.polled_some {x : StatsHandle} {val new : Nat} (hs : x.stat = .enabled val)
    (hu : x.statToUpdate = some new) : x.polled = { x with stat := .enabled new, statToUpdate := none } := by
  obtain ⟨stat, statToUpdate, statRightBeforeDisable⟩ := x
  cases hs
  cases hu
  rfl

theorem StatsHandle.polled_marked {x : StatsHandle} {val : Nat} (hs : x.stat = .markedForDisable val) :
    x.polled = { x with stat := .disabled } := by
  unfold polled
  rw [hs]

theorem StatsHandle.polled_disabled {x : StatsHandle} (hs : x.stat = .disabled) : x.polled = x := by
  unfold polled
  rw [hs]

theorem StatsHandle.enable_values {x y : StatsHandle} {useOldValue : Bool} {initialVal : Nat}
    (he : x.enable useOldValue initialVal = some y) : y.statToUpdate = x.statToUpdate ∧
      y.stat = .enabled (if useOldValue then x.statRightBeforeDisable.getD initialVal else initialVal) := by
  unfold enable at he
  dsimp only at he
  split at he
  next => cases he
  next =>
    cases he
    exact ⟨rfl, rfl⟩

namespace Stats

section

variable {H : Type} [DecidableEq H]

def handle (t : Stats H) (h : H) : StatsHandle := (t.cells h).handle

/-- The table of handles without its buckets. -/
structure Listed (t : Stats H) : Prop where
  nodup : t.handles.Nodup
  tracked : ∀ h, h ∈ t.handles ↔ t.stat h ≠ .disabled

/-- The values of the handles and their list are the same. -/
structure SameValues (t t' : Stats H) : Prop where
  handle : t'.handle = t.handle
  handles : t'.handles = t.handles

/-- A poll that began at `t₀` and has got to index `i`. -/
structure Swept (t₀ : Stats H) (i : Nat) (t : Stats H) : Prop where
  listed : t.Listed
  passed : ∀ j < i, ∀ h, t.handles[j]? = some h → t.handle h = (t₀.handle h).polled
  ahead : ∀ j, i ≤ j → ∀ h, t.handles[j]? = some h → t.handle h = t₀.handle h
  gone : ∀ h, h ∉ t.handles → t.handle h = (t₀.handle h).polled

variable {t t' t'' t₀ : Stats H} {h k : H} {i val : Nat}

theorem handle_setCell (t : Stats H) (h : H) (cell : StatsHandleInner) :
    (t.setCell h cell).handle = Function.update t.handle h cell.handle := by
  funext k
  by_cases hk : k = h
  · subst hk
    simp [handle, setCell]
  · simp [handle, setCell, hk]

theorem handle_setHandle (t : Stats H) (h : H) (x : StatsHandle) :
    (t.setHandle h x).handle = Function.update t.handle h x := handle_setCell t h _

namespace SameValues

omit [DecidableEq H] in
theorem refl (t : Stats H) : SameValues t t := ⟨rfl, rfl⟩

omit [DecidableEq H] in
theorem trans (hs : SameValues t t') (hs' : SameValues t' t'') : SameValues t t'' :=
  ⟨hs'.handle.trans hs.handle, hs'.handles.trans hs.handles⟩

theorem setPosition (t : Stats H) (h : H) (position : Option (Nat × Nat)) : SameValues t (t.setPosition h position) :=
  ⟨(handle_setCell t h _).trans (Function.update_eq_self h _), rfl⟩

theorem setHandlesIndex (t : Stats H) (h : H) (index : Option Nat) : SameValues t (t.setHandlesIndex h index) :=
  ⟨(handle_setCell t h _).trans (Function.update_eq_self h _), rfl⟩

theorem insertIntoBuckets (t : Stats H) (h : H) (val : Nat) : SameValues t (t.insertIntoBuckets h val) := by
  unfold Stats.insertIntoBuckets
  split
  next =>
    have hout := setPosition { t with buckets := push t.buckets (val >>> bucketSizeLog2) h } h
      (some (val >>> bucketSizeLog2, (t.buckets.getD (val >>> bucketSizeLog2) []).length))
    exact ⟨hout.handle, hout.handles⟩
  next => exact .refl t

theorem removeFromBuckets {position : Nat × Nat} (hr : t.removeFromBuckets position = some (h, t')) :
    SameValues t t' := by
  obtain ⟨⟨removed, buckets⟩, -, hr⟩ := Option.bind_eq_some_iff.mp hr
  have hset := setPosition { t with buckets := buckets } removed none
  have hout : SameValues t ({ t with buckets := buckets }.setPosition removed none) := ⟨hset.handle, hset.handles⟩
  dsimp only at hr
  split at hr
  next moved _ =>
    cases hr
    exact hout.trans (setPosition _ moved _)
  next =>
    cases hr
    exact hout

theorem updateBuckets (hu : t.updateBuckets h val = some t') : SameValues t t' := by
  unfold Stats.updateBuckets at hu
  split at hu
  next =>
    cases hu
    exact insertIntoBuckets t h val
  next =>
    split at hu
    next =>
      obtain ⟨⟨removed, t₁⟩, hr, hu⟩ := Option.bind_eq_some_iff.mp hu
      cases hu
      exact (removeFromBuckets hr).trans (insertIntoBuckets t₁ removed val)
    next =>
      cases hu
      exact .refl t

theorem leaveBuckets (hl : t.leaveBuckets h = some t') : SameValues t t' := by
  unfold Stats.leaveBuckets at hl
  split at hl
  next =>
    obtain ⟨⟨removed, t₁⟩, hr, hl⟩ := Option.bind_eq_some_iff.mp hl
    cases hl
    exact (removeFromBuckets hr).trans (setPosition t₁ h none)
  next =>
    cases hl
    exact .refl t

end SameValues

/-- Removing a handle from the list leaves the values alone. -/
theorem removeHandle_values (hr : t.removeHandle i = some (h, t')) :
    t'.handle = t.handle ∧ swapRemove t.handles i = some (h, t'.handles) := by
  obtain ⟨⟨removed, handles⟩, hswap, hr⟩ := Option.bind_eq_some_iff.mp hr
  have hout := SameValues.setHandlesIndex { t with handles := handles } removed none
  dsimp only at hr
  split at hr
  next moved _ =>
    cases hr
    exact ⟨(hout.trans (.setHandlesIndex _ moved _)).handle, hswap⟩
  next =>
    cases hr
    exact ⟨hout.handle, hswap⟩

theorem untrack_values (hu : t.untrack i val = some t') : ∃ h, swapRemove t.handles i = some (h, t'.handles) ∧
    t'.handle = Function.update t.handle h { t.handle h with stat := .disabled } := by
  obtain ⟨⟨h, t₁⟩, hr, hu⟩ := Option.bind_eq_some_iff.mp hu
  obtain ⟨t₂, hl, hu⟩ := Option.bind_eq_some_iff.mp hu
  obtain ⟨globalStat, -, hu⟩ := Option.bind_eq_some_iff.mp hu
  obtain ⟨hvalues, hswap⟩ := removeHandle_values hr
  have hsame := SameValues.leaveBuckets hl
  have hvalues₂ : t₂.handle = t.handle := hsame.handle.trans hvalues
  cases hu
  refine ⟨h, ?_, ?_⟩
  · show swapRemove t.handles i = some (h, t₂.handles)
    rw [hsame.handles]
    exact hswap
  · have hset := handle_setHandle t₂ h { (t₂.cells h).handle with stat := .disabled }
    rw [← hvalues₂]
    exact hset

theorem refresh_values (hs : (t.handle h).stat = .enabled val) (hr : t.refresh h val = some t') :
    t'.handles = t.handles ∧ t'.handle = Function.update t.handle h (t.handle h).polled := by
  unfold refresh at hr
  split at hr
  next hnone =>
    cases hr
    rw [StatsHandle.polled_none hs hnone]
    exact ⟨rfl, (Function.update_eq_self h t.handle).symm⟩
  next new hsome =>
    rw [StatsHandle.polled_some hs hsome]
    have hcleared := handle_setHandle t h { (t.cells h).handle with statToUpdate := none }
    dsimp only at hr
    split at hr
    next heq =>
      cases hr
      refine ⟨rfl, hcleared.trans ?_⟩
      rw [heq, ← hs]
      rfl
    next =>
      obtain ⟨globalStat, -, hr⟩ := Option.bind_eq_some_iff.mp hr
      have hsame := SameValues.updateBuckets hr
      refine ⟨hsame.handles, hsame.handle.trans ((handle_setHandle _ h _).trans ?_)⟩
      have hcell : (t.setHandle h { (t.cells h).handle with statToUpdate := none }).handle h =
          { t.handle h with statToUpdate := none } := by
        rw [hcleared, Function.update_self]
        rfl
      show Function.update (t.setHandle h { (t.cells h).handle with statToUpdate := none }).handle h
        { (t.setHandle h { (t.cells h).handle with statToUpdate := none }).handle h with stat := .enabled new } = _
      rw [hcell, hcleared, Function.update_idem]

omit [DecidableEq H] in
theorem Listed.other (hl : t.Listed) (hi : t.handles[i]? = some h) {j : Nat} (hj : t.handles[j]? = some k)
    (hne : j ≠ i) : k ≠ h := by
  rintro rfl
  obtain ⟨hlt, -⟩ := List.getElem?_eq_some_iff.mp hj
  exact hne ((List.getElem?_inj hlt hl.nodup).mp (hj.trans hi.symm))

/-- The list after a change of one handle's values only. -/
theorem Listed.update {x : StatsHandle} (hl : t.Listed) (hhandles : t'.handles = t.handles)
    (hhandle : t'.handle = Function.update t.handle h x) (hx : x.stat = .disabled ↔ t.stat h = .disabled) :
    t'.Listed := by
  refine ⟨hhandles ▸ hl.nodup, fun k => ?_⟩
  show k ∈ t'.handles ↔ (t'.handle k).stat ≠ .disabled
  rw [hhandles, hhandle, hl.tracked k]
  by_cases hk : k = h
  · subst hk
    rw [Function.update_self]
    exact not_congr hx.symm
  · rw [Function.update_of_ne hk]
    exact Iff.rfl

theorem Swept.untrack (hs : Swept t₀ i t) (hi : t.handles[i]? = some h) (hm : t.stat h = .markedForDisable val)
    (hu : t.untrack i val = some t') : Swept t₀ i t' := by
  obtain ⟨h', hswap, hhandle⟩ := untrack_values hu
  obtain ⟨hlt, hget⟩ := List.getElem?_eq_some_iff.mp hi
  obtain ⟨last, -, hfirst⟩ := swapRemove_of_lt hlt
  obtain ⟨hsame, -⟩ := Prod.mk.inj (Option.some.inj (hfirst.symm.trans hswap))
  rw [hget] at hsame
  subst hsame
  have hperm := swapRemove_perm hswap
  obtain ⟨hnot, hnodup⟩ := List.nodup_cons.mp (hperm.nodup_iff.mp hs.listed.nodup)
  have hat : t.handle h = t₀.handle h := hs.ahead i (Nat.le_refl i) h hi
  have hother : ∀ k, k ≠ h → t'.handle k = t.handle k := fun k hk => by rw [hhandle, Function.update_of_ne hk]
  have hself : t'.handle h = (t₀.handle h).polled := by
    have hmarked : (t₀.handle h).stat = .markedForDisable val := hat ▸ hm
    rw [hhandle, Function.update_self, StatsHandle.polled_marked hmarked, hat]
  have hrest : ∀ {j : Nat} {k : H}, t'.handles[j]? = some k →
      k ≠ h ∧ (j < i → t.handles[j]? = some k) ∧ (i ≤ j → ∃ j', i ≤ j' ∧ t.handles[j']? = some k) := by
    intro j k hj
    have hmem : k ∈ t'.handles := List.mem_of_getElem? hj
    refine ⟨fun heq => hnot (heq ▸ hmem), ?_⟩
    rw [getElem?_swapRemove hswap j] at hj
    split at hj
    next => cases hj
    next hshort =>
      split at hj
      next heq => exact ⟨fun hlow => absurd hlow (by omega), fun _ => ⟨_, by omega, hj⟩⟩
      next => exact ⟨fun _ => hj, fun hhigh => ⟨j, hhigh, hj⟩⟩
  refine ⟨⟨hnodup, fun k => ?_⟩, fun j hj k hk => ?_, fun j hj k hk => ?_, fun k hk => ?_⟩
  · show k ∈ t'.handles ↔ (t'.handle k).stat ≠ .disabled
    by_cases hkh : k = h
    · subst hkh
      rw [hhandle, Function.update_self]
      exact ⟨fun hmem => absurd hmem hnot, fun hne => absurd rfl hne⟩
    · rw [hother k hkh]
      have htracked := hs.listed.tracked k
      rw [hperm.mem_iff, List.mem_cons] at htracked
      exact ⟨fun hmem => htracked.mp (.inr hmem), fun hne => (htracked.mpr hne).resolve_left hkh⟩
  · obtain ⟨hne, hlow, -⟩ := hrest hk
    rw [hother k hne]
    exact hs.passed j hj k (hlow hj)
  · obtain ⟨hne, -, hhigh⟩ := hrest hk
    obtain ⟨j', hj', hget'⟩ := hhigh hj
    rw [hother k hne]
    exact hs.ahead j' hj' k hget'
  · by_cases hkh : k = h
    · subst hkh
      exact hself
    · rw [hother k hkh]
      refine hs.gone k fun hmem => ?_
      rw [hperm.mem_iff, List.mem_cons] at hmem
      exact hk (hmem.resolve_left hkh)

theorem Swept.refresh (hs : Swept t₀ i t) (hi : t.handles[i]? = some h) (he : t.stat h = .enabled val)
    (hr : t.refresh h val = some t') : Swept t₀ (i + 1) t' := by
  obtain ⟨hhandles, hhandle⟩ := refresh_values he hr
  have hat : t.handle h = t₀.handle h := hs.ahead i (Nat.le_refl i) h hi
  have hother : ∀ k, k ≠ h → t'.handle k = t.handle k := fun k hk => by rw [hhandle, Function.update_of_ne hk]
  have hself : t'.handle h = (t₀.handle h).polled := by rw [hhandle, Function.update_self, hat]
  have hstat : (t.handle h).polled.stat ≠ .disabled := by
    unfold StatsHandle.polled
    rw [show (t.handle h).stat = .enabled val from he]
    exact fun heq => by cases heq
  refine ⟨hs.listed.update hhandles hhandle ?_, fun j hj k hk => ?_, fun j hj k hk => ?_, fun k hk => ?_⟩
  · refine ⟨fun heq => absurd heq hstat, fun heq => ?_⟩
    rw [he] at heq
    cases heq
  · rw [hhandles] at hk
    rcases Nat.lt_succ_iff_lt_or_eq.mp hj with hlow | rfl
    · rw [hother k (hs.listed.other hi hk (by omega))]
      exact hs.passed j hlow k hk
    · cases hk.symm.trans hi
      exact hself
  · rw [hhandles] at hk
    rw [hother k (hs.listed.other hi hk (by omega))]
    exact hs.ahead j (by omega) k hk
  · rw [hhandles] at hk
    have hne : k ≠ h := fun heq => hk (heq ▸ List.mem_of_getElem? hi)
    rw [hother k hne]
    exact hs.gone k hk

omit [DecidableEq H] in
theorem Swept.over (hs : Swept t₀ i t) (hend : t.handles[i]? = none) :
    t.Listed ∧ ∀ h, t.handle h = (t₀.handle h).polled := by
  refine ⟨hs.listed, fun h => ?_⟩
  by_cases hmem : h ∈ t.handles
  · obtain ⟨j, hj, hget⟩ := List.getElem_of_mem hmem
    have hlen := List.getElem?_eq_none_iff.mp hend
    exact hs.passed j (by omega) h (List.getElem?_eq_some_iff.mpr ⟨hj, hget⟩)
  · exact hs.gone h hmem

theorem Swept.pollFrom {budget : Nat} (hs : Swept t₀ i t) (hp : pollFrom budget i t = some t') :
    t'.Listed ∧ ∀ h, t'.handle h = (t₀.handle h).polled := by
  induction budget generalizing i t with
  | zero =>
    rw [Stats.pollFrom] at hp
    split at hp
    next hend =>
      cases hp
      exact hs.over hend
    next => cases hp
  | succ budget ih =>
    rw [Stats.pollFrom] at hp
    split at hp
    next hend =>
      cases hp
      exact hs.over hend
    next h hi =>
      dsimp only at hp
      split at hp
      next val hm =>
        obtain ⟨t₁, hu, hp⟩ := Option.bind_eq_some_iff.mp hp
        exact ih (hs.untrack hi hm hu) hp
      next val he =>
        obtain ⟨t₁, hr, hp⟩ := Option.bind_eq_some_iff.mp hp
        exact ih (hs.refresh hi he hr) hp
      next => cases hp

/-- A poll brings every handle up to date. -/
theorem poll_values (hl : t.Listed) (hp : t.poll = some t') :
    t'.Listed ∧ ∀ h, t'.handle h = (t.handle h).polled := by
  obtain ⟨t₁, hp, hrest⟩ := Option.bind_eq_some_iff.mp hp
  obtain ⟨average, -, hrest⟩ := Option.bind_eq_some_iff.mp hrest
  have hbegin : Swept t 0 t := by
    refine ⟨hl, fun j hj => absurd hj (Nat.not_lt_zero j), fun _ _ _ _ => rfl, fun h hnot => ?_⟩
    have hdisabled : t.stat h = .disabled := by
      by_contra hne
      exact hnot ((hl.tracked h).mpr hne)
    exact (StatsHandle.polled_disabled hdisabled).symm
  obtain ⟨hlisted, hpolled⟩ := hbegin.pollFrom hp
  cases hrest
  exact ⟨⟨hlisted.nodup, hlisted.tracked⟩, hpolled⟩

theorem enable_values {useOldValue : Bool} {initialVal : Nat} (hl : t.Listed)
    (he : t.enable h useOldValue initialVal = some t') : t'.Listed ∧ ∃ x, t'.handle = Function.update t.handle h x ∧
      x.statToUpdate = (t.handle h).statToUpdate ∧ x.stat = .enabled (t.startValue h useOldValue initialVal) := by
  obtain ⟨x, hx, he⟩ := Option.bind_eq_some_iff.mp he
  obtain ⟨hpending, hstat⟩ := StatsHandle.enable_values hx
  have hset := handle_setHandle t h x
  dsimp only at he
  split at he
  next hdisabled =>
    have hindex := SameValues.setHandlesIndex { t.setHandle h x with globalStat := t.globalStat + x.stat.value } h
      (some t.handles.length)
    have hbuckets := SameValues.insertIntoBuckets { { t.setHandle h x with
      globalStat := t.globalStat + x.stat.value }.setHandlesIndex h (some t.handles.length) with
      handles := t.handles ++ [h] } h x.stat.value
    have hout := Option.some.inj he
    have hhandles : t'.handles = t.handles ++ [h] := (congrArg handles hout).symm.trans hbuckets.handles
    have hhandle : t'.handle = Function.update t.handle h x :=
      (congrArg handle hout).symm.trans (hbuckets.handle.trans (hindex.handle.trans hset))
    have hnot : h ∉ t.handles := fun hmem => (hl.tracked h).mp hmem hdisabled
    refine ⟨⟨?_, fun k => ?_⟩, x, hhandle, hpending, hstat⟩
    · rw [hhandles]
      exact List.nodup_append_comm.mp (List.nodup_cons.mpr ⟨hnot, hl.nodup⟩)
    · show k ∈ t'.handles ↔ (t'.handle k).stat ≠ .disabled
      rw [hhandles, hhandle, List.mem_append, List.mem_singleton]
      by_cases hk : k = h
      · subst hk
        rw [Function.update_self, hstat]
        exact ⟨fun _ heq => (by cases heq), fun _ => .inr rfl⟩
      · rw [Function.update_of_ne hk]
        exact ⟨fun hmem => (hl.tracked k).mp (hmem.resolve_right hk), fun hne => .inl ((hl.tracked k).mpr hne)⟩
  next hother =>
    cases he
    refine ⟨hl.update rfl hset ⟨fun heq => ?_, fun heq => absurd heq hother⟩, x, hset, hpending, hstat⟩
    rw [hstat] at heq
    cases heq

theorem disable_values (t : Stats H) (h : H) : (t.disable h).handles = t.handles ∧
    (t.disable h).handle = Function.update t.handle h (t.handle h).disable := by
  unfold disable
  split
  next =>
    have hindex := SameValues.setHandlesIndex (t.setHandle h (t.cells h).handle.disable) h none
    exact ⟨hindex.handles, hindex.handle.trans (handle_setHandle t h _)⟩
  next hother =>
    have hsame : (t.handle h).disable = t.handle h := by
      unfold StatsHandle.disable
      split
      next val hval => exact absurd hval (hother val)
      next => rfl
    rw [hsame]
    exact ⟨rfl, (Function.update_eq_self h t.handle).symm⟩

theorem resetStats_values (t : Stats H) : t.resetStats.handles = t.handles ∧
    ∀ h, t.resetStats.handle h =
      if h ∈ t.buckets.flatten then { t.handle h with statToUpdate := some 0 } else t.handle h := by
  unfold resetStats
  generalize t.buckets.flatten = bucketed
  induction bucketed generalizing t with
  | nil => exact ⟨rfl, fun h => rfl⟩
  | cons k bucketed ih =>
    obtain ⟨hhandles, hhandle⟩ := ih (t.setHandle k { (t.cells k).handle with statToUpdate := some 0 })
    refine ⟨hhandles, fun h => (hhandle h).trans ?_⟩
    rw [handle_setHandle]
    by_cases hk : h = k
    · subst hk
      rw [Function.update_self, if_pos List.mem_cons_self]
      split <;> rfl
    · rw [Function.update_of_ne hk]
      have hmem : h ∈ k :: bucketed ↔ h ∈ bucketed := by
        rw [List.mem_cons]
        exact ⟨fun hin => hin.resolve_left hk, .inr⟩
      simp only [hmem]

end

end Stats

/-- A table and what was last set on each of its handles, with the increments since. -/
structure StatsRun (H : Type) where
  table : Stats H
  last : H → Nat

namespace StatsRun

section

variable {H : Type} [DecidableEq H]

def start : StatsRun H := ⟨.new, fun _ => 0⟩

/-- The values set, whether the handle is enabled or not; enabling one begins anew. -/
def follow (r : StatsRun H) : StatsEvent H → H → Nat
  | .enable h useOldValue initialVal => Function.update r.last h (r.table.startValue h useOldValue initialVal)
  | .set h val => Function.update r.last h val
  | .increment h => Function.update r.last h (r.last h + 1)
  | .disable _ | .poll => r.last
  | .resetStats => fun h => if h ∈ r.table.buckets.flatten then 0 else r.last h

def step (r : StatsRun H) (e : StatsEvent H) : Option (StatsRun H) := do
  let t ← r.table.step e
  some ⟨t, r.follow e⟩

/-- After a poll an enabled handle has the value last set on it. -/
def Follows (r : StatsRun H) : Prop :=
  ∀ t, r.table.poll = some t → ∀ h val, t.stat h = .enabled val → val = r.last h

/-- A handle is enabled only without an update that waits, or with one to the value it begins with. -/
def EnablesClean (r : StatsRun H) : StatsEvent H → Prop
  | .enable h useOldValue initialVal =>
    (r.table.handle h).statToUpdate.getD (r.table.startValue h useOldValue initialVal) =
      r.table.startValue h useOldValue initialVal
  | _ => True

instance (r : StatsRun H) : (e : StatsEvent H) → Decidable (r.EnablesClean e)
  | .enable _ _ _ => inferInstanceAs (Decidable (_ = _))
  | .disable _ | .set _ _ | .increment _ | .poll | .resetStats => inferInstanceAs (Decidable True)

/-- The value that the next poll gives to an enabled handle is the last one set. -/
structure Current (r : StatsRun H) : Prop where
  listed : r.table.Listed
  current : ∀ h val, r.table.stat h = .enabled val → (r.table.handle h).statToUpdate.getD val = r.last h

variable {r r' : StatsRun H} {t : Stats H} {h : H} {e : StatsEvent H}

/-- A change of one handle's values that keeps it as it is tracked. -/
theorem Current.update {x : StatsHandle} {last : Nat} (hc : r.Current) (hhandles : t.handles = r.table.handles)
    (hhandle : t.handle = Function.update r.table.handle h x)
    (hx : x.stat = .disabled ↔ r.table.stat h = .disabled)
    (hlast : ∀ val, x.stat = .enabled val → x.statToUpdate.getD val = last) :
    Current ⟨t, Function.update r.last h last⟩ := by
  refine ⟨hc.listed.update hhandles hhandle hx, fun k val hk => ?_⟩
  replace hk : (t.handle k).stat = .enabled val := hk
  show (t.handle k).statToUpdate.getD val = Function.update r.last h last k
  rw [hhandle] at hk ⊢
  by_cases hkh : k = h
  · subst hkh
    rw [Function.update_self] at hk ⊢
    rw [Function.update_self]
    exact hlast val hk
  · rw [Function.update_of_ne hkh] at hk ⊢
    rw [Function.update_of_ne hkh]
    exact hc.current k val hk

theorem Current.set (hc : r.Current) (h : H) (val : Nat) :
    Current ⟨r.table.set h val, Function.update r.last h val⟩ := by
  have hhandle : (r.table.set h val).handle = Function.update r.table.handle h ((r.table.handle h).set val) :=
    r.table.handle_setHandle h _
  refine hc.update rfl hhandle ?_ fun val' hval' => ?_
  · unfold StatsHandle.set
    split <;> exact Iff.rfl
  · unfold StatsHandle.set at hval' ⊢
    split at hval'
    next => rfl
    next hno => exact absurd hval' (hno val')

theorem Current.increment (hc : r.Current) (h : H) :
    Current ⟨r.table.increment h, Function.update r.last h (r.last h + 1)⟩ := by
  have hhandle : (r.table.increment h).handle = Function.update r.table.handle h (r.table.handle h).increment :=
    r.table.handle_setHandle h _
  refine hc.update rfl hhandle ?_ fun val' hval' => ?_
  · unfold StatsHandle.increment
    split
    next => split <;> exact Iff.rfl
    next => exact Iff.rfl
  · unfold StatsHandle.increment at hval' ⊢
    split at hval'
    next val hval =>
      have hcurrent := hc.current h val hval
      split
      next hpending =>
        rw [hpending] at hcurrent
        exact congrArg (· + 1) hcurrent
      next hnone =>
        rw [hnone] at hcurrent
        exact congrArg (· + 1) hcurrent
    next hno => exact absurd hval' (hno val')

theorem Current.disable (hc : r.Current) (h : H) : Current ⟨r.table.disable h, r.last⟩ := by
  obtain ⟨hhandles, hhandle⟩ := r.table.disable_values h
  have hlast : Function.update r.last h (r.last h) = r.last := Function.update_eq_self h r.last
  rw [← hlast]
  refine hc.update hhandles hhandle ?_ fun val hval => ?_
  · unfold StatsHandle.disable
    show _ ↔ (r.table.handle h).stat = .disabled
    split
    next val hval =>
      rw [hval]
      exact ⟨fun heq => (by cases heq), fun heq => (by cases heq)⟩
    next => exact Iff.rfl
  · unfold StatsHandle.disable at hval
    split at hval
    next => cases hval
    next hno => exact absurd hval (hno val)

theorem Current.enable {useOldValue : Bool} {initialVal : Nat} (hc : r.Current)
    (hclean : r.EnablesClean (.enable h useOldValue initialVal))
    (he : r.table.enable h useOldValue initialVal = some t) :
    Current ⟨t, Function.update r.last h (r.table.startValue h useOldValue initialVal)⟩ := by
  obtain ⟨hlisted, x, hhandle, hpending, hstat⟩ := Stats.enable_values hc.listed he
  refine ⟨hlisted, fun k val hk => ?_⟩
  replace hk : (t.handle k).stat = .enabled val := hk
  show (t.handle k).statToUpdate.getD val = Function.update r.last h _ k
  rw [hhandle] at hk ⊢
  by_cases hkh : k = h
  · subst hkh
    rw [Function.update_self] at hk ⊢
    rw [Function.update_self, hpending]
    cases hstat.symm.trans hk
    exact hclean
  · rw [Function.update_of_ne hkh] at hk ⊢
    rw [Function.update_of_ne hkh]
    exact hc.current k val hk

theorem Current.polled (hc : r.Current) (hp : r.table.poll = some t) :
    t.Listed ∧ ∀ h val, t.stat h = .enabled val → (t.handle h).statToUpdate = none ∧ val = r.last h := by
  obtain ⟨hlisted, hpolled⟩ := Stats.poll_values hc.listed hp
  refine ⟨hlisted, fun h val hval => ?_⟩
  replace hval : (t.handle h).stat = .enabled val := hval
  rw [hpolled h] at hval ⊢
  unfold StatsHandle.polled at hval ⊢
  split at hval
  next hdisabled =>
    rw [hdisabled] at hval
    cases hval
  next old hold =>
    cases hval
    exact ⟨rfl, hc.current h old hold⟩
  next => cases hval

theorem Current.resetStats (hc : r.Current) :
    Current ⟨r.table.resetStats, fun h => if h ∈ r.table.buckets.flatten then 0 else r.last h⟩ := by
  obtain ⟨hhandles, hhandle⟩ := r.table.resetStats_values
  have hstat : ∀ h, r.table.resetStats.stat h = r.table.stat h := by
    intro h
    show (r.table.resetStats.handle h).stat = _
    rw [hhandle]
    split <;> rfl
  refine ⟨⟨hhandles ▸ hc.listed.nodup, fun h => ?_⟩, fun h val hval => ?_⟩
  · show h ∈ r.table.resetStats.handles ↔ r.table.resetStats.stat h ≠ _
    rw [hhandles, hstat]
    exact hc.listed.tracked h
  · rw [show Stats.stat _ h = r.table.stat h from hstat h] at hval
    show (r.table.resetStats.handle h).statToUpdate.getD val = if h ∈ r.table.buckets.flatten then 0 else r.last h
    rw [hhandle]
    split
    next => rfl
    next => exact hc.current h val hval

theorem current_step (hc : r.Current) (hclean : r.EnablesClean e) (hs : step r e = some r') : r'.Current := by
  obtain ⟨t, ht, hs⟩ := Option.bind_eq_some_iff.mp hs
  cases hs
  cases e with
  | enable h useOldValue initialVal => exact hc.enable hclean ht
  | disable h =>
    cases ht
    exact hc.disable h
  | set h val =>
    cases ht
    exact hc.set h val
  | increment h =>
    cases ht
    exact hc.increment h
  | poll =>
    obtain ⟨hlisted, hpolled⟩ := hc.polled ht
    refine ⟨hlisted, fun h val hval => ?_⟩
    obtain ⟨hnone, hlast⟩ := hpolled h val hval
    show (t.handle h).statToUpdate.getD val = r.last h
    rw [hnone]
    exact hlast
  | resetStats =>
    cases ht
    exact hc.resetStats

theorem Current.follows (hc : r.Current) : r.Follows := by
  intro t ht h val hval
  obtain ⟨-, hpolled⟩ := hc.polled ht
  exact (hpolled h val hval).2

omit [DecidableEq H] in
theorem current_start : (start : StatsRun H).Current :=
  ⟨⟨List.nodup_nil, fun h => ⟨fun hmem => (by cases hmem), fun hne => absurd rfl hne⟩⟩, fun h val hval => (by cases hval)⟩

/-- Polled values follow the updates as long as no handle is enabled with an update waiting from before. -/
theorem statsRun_follows {es : List (StatsEvent H)} (hclean : Admits step EnablesClean start es) :
    Always step (fun r : StatsRun H => r.Follows) start es :=
  always_of_admits (fun _ _ _ hc hok hs => current_step hc hok hs) (fun _ hc => hc.follows) current_start hclean

end

theorem statsRun_follows_sample : Always step (fun r : StatsRun Nat => r.Follows) start
    [.enable 3 false 5, .set 3 9, .enable 4 true 0, .poll, .disable 3, .increment 4, .poll, .enable 3 true 0] :=
  statsRun_follows (by decide)

/-- An update from before a disable resurfaces: the handle is enabled at 0 and polled as 9. -/
theorem statsRun_follows_resurfaces : ∃ r : StatsRun Unit, run step start
    [.enable () false 5, .set () 9, .disable (), .poll, .enable () false 0] = some r ∧ r.last () = 0 ∧
      ∃ t, r.table.poll = some t ∧ t.stat () = .enabled 9 ∧ ¬r.Follows := by
  have hgoes : ((run step start [.enable () false 5, .set () 9, .disable (), .poll, .enable () false 0]).bind
      fun r : StatsRun Unit => r.table.poll.map fun t => (r.last (), t.stat ())) = some (0, .enabled 9) := by decide
  obtain ⟨r, hr, hpoll⟩ := Option.bind_eq_some_iff.mp hgoes
  obtain ⟨t, ht, hvalues⟩ := Option.map_eq_some_iff.mp hpoll
  obtain ⟨hlast, hstat⟩ := Prod.mk.inj hvalues
  refine ⟨r, hr, hlast, t, ht, hstat, fun hfollows => ?_⟩
  have hsame := hfollows t ht () 9 hstat
  omega

end StatsRun

end Capybara
