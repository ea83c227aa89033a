import Capybara.StatsInvariant

namespace Capybara

open Rows Runs

namespace Stats

variable {H : Type} [DecidableEq H] {t : Stats H} {h : H}

theorem removeHandle_spec {i : Nat} (hi : t.handles[i]? = some h) :
    ∃ t₁, t.removeHandle i = some (h, t₁) ∧ t.handles.Perm (h :: t₁.handles) ∧
      (∀ j < i, t₁.handles[j]? = t.handles[j]?) ∧ t₁.stat = t.stat ∧ t₁.place = t.place ∧
      t₁.buckets = t.buckets ∧ t₁.globalStat = t.globalStat ∧ t₁.avgGlobalStat = t.avgGlobalStat := by
  obtain ⟨hlt, hget⟩ := List.getElem?_eq_some_iff.mp hi
  obtain ⟨last, -, hs⟩ := swapRemove_of_lt hlt
  rw [hget] at hs
  generalize (t.handles.set i last).dropLast = handles at hs
  have hbelow : ∀ j < i, handles[j]? = t.handles[j]? := by
    intro j hj
    obtain ⟨-, hlen⟩ := length_swapRemove hs
    rw [getElem?_swapRemove hs j, if_neg (by omega), if_neg (by omega)]
  cases hmoved : handles[i]? with
  | none =>
    refine ⟨{ t with handles := handles }.setHandlesIndex h none, ?_, swapRemove_perm hs, hbelow,
      stat_setHandlesIndex _ _ _, place_setHandlesIndex _ _ _, rfl, rfl, rfl⟩
    simp [removeHandle, hs, hmoved]
  | some moved =>
    refine ⟨({ t with handles := handles }.setHandlesIndex h none).setHandlesIndex moved (some i), ?_,
      swapRemove_perm hs, hbelow, ?_, ?_, rfl, rfl, rfl⟩
    · simp [removeHandle, hs, hmoved]
    · rw [stat_setHandlesIndex, stat_setHandlesIndex]
      rfl
    · rw [place_setHandlesIndex, place_setHandlesIndex]
      rfl

theorem leaveBuckets_rebucketed (hp : Placed t.buckets t.place) (h : H) :
    ∃ t', t.leaveBuckets h = some t' ∧ Rebucketed h t t' ∧ t'.place h = none := by
  cases hpos : t.place h with
  | none =>
    have hcell : (t.cells h).bucketListPosition = none := hpos
    exact ⟨t, by simp [leaveBuckets, hcell], ⟨.refl t, hp, fun _ _ => rfl⟩, hpos⟩
  | some position =>
    have hcell : (t.cells h).bucketListPosition = some position := hpos
    obtain ⟨t₁, hremove, hr, hnone⟩ := removeFromBuckets_rebucketed hp hpos
    have hplace : (t₁.setPosition h none).place = t₁.place := by
      rw [place_setPosition, ← hnone, Function.update_eq_self]
    refine ⟨t₁.setPosition h none, by simp [leaveBuckets, hcell, hremove],
      ⟨hr.same.trans ⟨stat_setPosition _ _ _, rfl, rfl, rfl⟩, ?_, ?_⟩, hplace ▸ hnone⟩
    · rw [hplace]
      exact hr.placed
    · rw [hplace]
      exact hr.others

theorem Wf.untrack (hw : t.Wf) {i val : Nat} (hi : t.handles[i]? = some h) (hs : t.stat h = .markedForDisable val) :
    ∃ t', t.untrack i val = some t' ∧ t'.Wf ∧ t'.handles.length + 1 = t.handles.length ∧
      (∀ j < i, t'.handles[j]? = t.handles[j]?) ∧ t'.stat = Function.update t.stat h .disabled := by
  obtain ⟨t₁, hremove, hperm, hbelow, hs₁, hp₁, hb₁, hg₁, ha₁⟩ := removeHandle_spec hi
  obtain ⟨t₂, hleave, hr, hnone⟩ := leaveBuckets_rebucketed (t := t₁) (by rw [hb₁, hp₁]; exact hw.placed) h
  have hd : (h :: t₁.handles).Nodup := hperm.nodup_iff.mp hw.nodup
  obtain ⟨hnot, hd₁⟩ := List.nodup_cons.mp hd
  have hsum : t.globalStat = val + (t₁.handles.map fun k => (t.stat k).value).sum := by
    rw [hw.sum, (hperm.map fun k => (t.stat k).value).sum_nat, List.map_cons, List.sum_cons, hs]
    rfl
  have hg₂ : t₂.globalStat = val + (t₁.handles.map fun k => (t.stat k).value).sum := by
    rw [hr.same.globalStat, hg₁, hsum]
  have hs₂ : t₂.stat = t.stat := hr.same.stat.trans hs₁
  refine ⟨{ t₂.setHandle h { (t₂.cells h).handle with stat := .disabled } with
      globalStat := (t₁.handles.map fun k => (t.stat k).value).sum }, ?_, ⟨?_, ?_, ?_, ?_, ?_, ?_⟩, ?_, ?_, ?_⟩
  · simp [Stats.untrack, hremove, hleave, checkedSub, Stats.setHandle, setCell, hg₂]
  · exact hr.same.handles ▸ hd₁
  · intro k
    change k ∈ t₂.handles ↔ (t₂.setHandle h _).stat k ≠ _
    rw [stat_setHandle, hr.same.handles, hs₂]
    by_cases hk : k = h
    · subst k
      simp [hnot]
    · rw [Function.update_of_ne hk, ← hw.tracked k, hperm.mem_iff]
      simp [hk]
  · change _ = (t₂.handles.map fun k => ((t₂.setHandle h _).stat k).value).sum
    rw [stat_setHandle, hr.same.handles, hs₂]
    refine congrArg List.sum (List.map_congr_left fun k hk => ?_)
    rw [Function.update_of_ne fun he => hnot (by rwa [← he])]
  · change Placed t₂.buckets (t₂.setHandle h _).place
    rw [place_setHandle]
    exact hr.placed
  · intro k
    change InBucket ((t₂.setHandle h _).stat k).value ((t₂.setHandle h _).place k)
    rw [stat_setHandle, place_setHandle, hs₂]
    by_cases hk : k = h
    · subst k
      rw [Function.update_self, hnone]
      rfl
    · rw [Function.update_of_ne hk, InBucket, hr.others k hk, hp₁]
      exact hw.bucket k
  · change t₂.avgGlobalStat.Sound
    rw [hr.same.average, ha₁]
    exact hw.average
  · change t₂.handles.length + 1 = _
    rw [hr.same.handles, hperm.length_eq, List.length_cons]
  · change ∀ j < i, t₂.handles[j]? = _
    rw [hr.same.handles]
    exact hbelow
  · change (t₂.setHandle h _).stat = _
    rw [stat_setHandle, hs₂]

theorem Wf.refresh (hw : t.Wf) {val : Nat} (hm : h ∈ t.handles) (hs : t.stat h = .enabled val) :
    ∃ t', t.refresh h val = some t' ∧ t'.Wf ∧ t'.handles = t.handles ∧
      ∃ val', t'.stat = Function.update t.stat h (.enabled val') := by
  cases hupdate : (t.cells h).handle.statToUpdate with
  | none => exact ⟨t, by simp [Stats.refresh, hupdate], hw, rfl, val, by rw [← hs, Function.update_eq_self]⟩
  | some new =>
    generalize hx : ({ (t.cells h).handle with statToUpdate := none } : StatsHandle) = x
    have hxs : x.stat = t.stat h := by rw [← hx, stat]
    have hw₁ : (t.setHandle h x).Wf := hw.setHandle (congrArg Stat.value hxs) (by rw [hxs])
    have hs₁ : (t.setHandle h x).stat = t.stat := by rw [stat_setHandle, hxs, Function.update_eq_self]
    by_cases hsame : new = val
    · refine ⟨t.setHandle h x, ?_, hw₁, rfl, val, ?_⟩
      · simp [Stats.refresh, hupdate, hsame, hx]
      · rw [hs₁, ← hs, Function.update_eq_self]
    · have hsum := sum_update hw.nodup hm t.stat (.enabled new)
      rw [← hw.sum, hs] at hsum
      change _ + val = _ + new at hsum
      let t₁ : Stats H := { t.setHandle h x with globalStat := t.globalStat + new - val }
      let t₂ : Stats H := t₁.setHandle h { (t₁.cells h).handle with stat := .enabled new }
      have hs₂ : t₂.stat = Function.update t.stat h (.enabled new) := by
        refine (stat_setHandle _ _ _).trans ?_
        exact congrArg (Function.update · h (Stat.enabled new)) hs₁
      have hp₂ : t₂.place = t.place := by
        refine (place_setHandle _ _ _).trans ?_
        exact place_setHandle t h x
      obtain ⟨t₃, hbuckets, hr, hb⟩ := updateBuckets_rebucketed (t := t₂) (hp₂ ▸ hw.placed) h new
      have hs₃ : t₃.stat = Function.update t.stat h (.enabled new) := hr.same.stat.trans hs₂
      have hh₃ : t₃.handles = t.handles := hr.same.handles
      refine ⟨t₃, ?_, ⟨?_, ?_, ?_, hr.placed, ?_, ?_⟩, hh₃, new, hs₃⟩
      · have hsub : checkedSub ((t.setHandle h x).globalStat + new) val = some (t.globalStat + new - val) := by
          simp only [checkedSub]
          exact if_pos (by change val ≤ t.globalStat + new; omega)
        simp only [Stats.refresh, hupdate, hx, hsame, if_false, hsub]
        exact hbuckets
      · rw [hh₃]
        exact hw.nodup
      · intro k
        rw [hh₃, hs₃]
        by_cases hk : k = h
        · subst k
          simp [hm]
        · rw [Function.update_of_ne hk]
          exact hw.tracked k
      · rw [hh₃, hs₃, hr.same.globalStat]
        change t.globalStat + new - val = _
        omega
      · intro k
        rw [hs₃]
        by_cases hk : k = h
        · subst k
          rw [Function.update_self]
          exact hb
        · rw [Function.update_of_ne hk, InBucket, hr.others k hk, hp₂]
          exact hw.bucket k
      · rw [hr.same.average]
        exact hw.average

/-- The handles that a poll has passed are all enabled. -/
def EnabledBelow (t : Stats H) (i : Nat) : Prop :=
  ∀ j < i, ∀ h, t.handles[j]? = some h → ∃ val, t.stat h = .enabled val

theorem pollFrom_enabled (budget i : Nat) (hw : t.Wf) (he : t.EnabledBelow i) (hl : t.handles.length ≤ budget + i) :
    ∃ t', pollFrom budget i t = some t' ∧ t'.Wf ∧ t'.EnabledBelow t'.handles.length := by
  induction budget generalizing i t with
  | zero =>
    have hend : t.handles[i]? = none := List.getElem?_eq_none (by omega)
    exact ⟨t, by simp [pollFrom, hend], hw, fun j hj => he j (by omega)⟩
  | succ budget ih =>
    cases hi : t.handles[i]? with
    | none =>
      have hend := List.getElem?_eq_none_iff.mp hi
      exact ⟨t, by simp [pollFrom, hi], hw, fun j hj => he j (by omega)⟩
    | some h =>
      have hm : h ∈ t.handles := List.mem_of_getElem? hi
      cases hs : t.stat h with
      | disabled => exact absurd hs ((hw.tracked h).mp hm)
      | markedForDisable val =>
        obtain ⟨t₁, huntrack, hw₁, hlen, hbelow, hs₁⟩ := hw.untrack hi hs
        have hgone : h ∉ t₁.handles := fun hm₁ => (hw₁.tracked h).mp hm₁ (by rw [hs₁, Function.update_self])
        have he₁ : t₁.EnabledBelow i := by
          intro j hj k hk
          have hne : k ≠ h := fun hkh => hgone (hkh ▸ List.mem_of_getElem? hk)
          rw [hs₁, Function.update_of_ne hne]
          exact he j hj k (hbelow j hj ▸ hk)
        obtain ⟨t₂, hpoll, hend⟩ := ih i hw₁ he₁ (by omega)
        have hcell : (t.cells h).handle.stat = .markedForDisable val := hs
        refine ⟨t₂, ?_, hend⟩
        rw [pollFrom]
        simp only [hi, hcell, huntrack, Option.bind_some, hpoll]
      | enabled val =>
        obtain ⟨t₁, hrefresh, hw₁, hh₁, val', hs₁⟩ := hw.refresh hm hs
        have he₁ : t₁.EnabledBelow (i + 1) := by
          intro j hj k hk
          rw [hs₁]
          by_cases hkh : k = h
          · subst k
            exact ⟨val', Function.update_self _ _ _⟩
          · rw [Function.update_of_ne hkh]
            rw [hh₁] at hk
            rcases Nat.lt_succ_iff_lt_or_eq.mp hj with hlt | rfl
            · exact he j hlt k hk
            · exact absurd (Option.some.inj (hk.symm.trans hi)) hkh
        obtain ⟨t₂, hpoll, hend⟩ := ih (i + 1) hw₁ he₁ (by rw [hh₁]; omega)
        have hcell : (t.cells h).handle.stat = .enabled val := hs
        refine ⟨t₂, ?_, hend⟩
        rw [pollFrom]
        simp only [hi, hcell, hrefresh, Option.bind_some, hpoll]

theorem Wf.poll (hw : t.Wf) :
    ∃ t', t.poll = some t' ∧ t'.Wf ∧ ∀ h, h ∈ t'.handles ↔ ∃ val, t'.stat h = .enabled val := by
  obtain ⟨t₁, hpoll, hw₁, he⟩ := pollFrom_enabled t.handles.length 0 hw (fun j hj => absurd hj (Nat.not_lt_zero j)) (by omega)
  obtain ⟨average, hupdate, hsound⟩ := hw₁.average.update t₁.globalStat
  refine ⟨{ t₁ with avgGlobalStat := average }, ?_, ⟨hw₁.nodup, hw₁.tracked, hw₁.sum, hw₁.placed, hw₁.bucket, hsound⟩, ?_⟩
  · simp [Stats.poll, hpoll, hupdate]
  · intro h
    constructor
    · intro hm
      obtain ⟨j, hj, hget⟩ := List.getElem_of_mem hm
      exact he j hj h (List.getElem?_eq_some_iff.mpr ⟨hj, hget⟩)
    · rintro ⟨val, hval⟩
      refine (hw₁.tracked h).mpr ?_
      change t₁.stat h = _ at hval
      rw [hval]
      simp

/-- The table as a poll should leave it. -/
structure Represents (t : Stats H) : Prop where
  nodup : t.handles.Nodup
  tracked : ∀ h, h ∈ t.handles ↔ ∃ val, t.stat h = .enabled val
  sum : t.globalStat = (t.handles.map fun h => (t.stat h).value).sum
  once : ∀ h ∈ t.handles, (t.stat h).value ≠ 0 → ∃ j, t.place h = some ((t.stat h).value >>> bucketSizeLog2, j) ∧
    ∀ i k, look t.buckets i k = some h ↔ i = (t.stat h).value >>> bucketSizeLog2 ∧ k = j
  zero : ∀ h, (t.stat h).value = 0 → ∀ i k, look t.buckets i k ≠ some h

omit [DecidableEq H] in
theorem Wf.represents (hw : t.Wf) (he : ∀ h, h ∈ t.handles ↔ ∃ val, t.stat h = .enabled val) : t.Represents where
  nodup := hw.nodup
  tracked := he
  sum := hw.sum
  once := by
    intro h _ hv
    have hb := hw.bucket h
    rw [InBucket, if_neg hv] at hb
    obtain ⟨⟨i, j⟩, hplace, rfl⟩ := Option.map_eq_some_iff.mp hb
    refine ⟨j, hplace, fun i' k => ?_⟩
    rw [hw.placed h i' k, hplace]
    simp [eq_comm]
  zero := by
    intro h hv i k hl
    have hb := hw.bucket h
    rw [InBucket, if_pos hv, (hw.placed h i k).mp hl] at hb
    cases hb

/-- Enabling is only asked for on a handle that is not enabled. -/
def Enables (t : Stats H) : StatsEvent H → Prop
  | .enable h _ _ => (t.cells h).handle.isEnabled = false
  | _ => True

/-- A handle that is enabled again before a poll has taken it out comes from zero and goes on at zero. -/
def Sound (t : Stats H) : StatsEvent H → Prop
  | .enable h useOldValue initialVal => (t.cells h).handle.isEnabled = false ∧
      (t.stat h = .disabled ∨ t.value h = 0 ∧ t.startValue h useOldValue initialVal = 0)
  | _ => True

instance (t : Stats H) : (e : StatsEvent H) → Decidable (t.Enables e)
  | .enable _ _ _ => inferInstanceAs (Decidable (_ = _))
  | .disable _ | .set _ _ | .increment _ | .poll | .resetStats => inferInstanceAs (Decidable True)

instance (t : Stats H) : (e : StatsEvent H) → Decidable (t.Sound e)
  | .enable _ _ _ => inferInstanceAs (Decidable (_ ∧ _))
  | .disable _ | .set _ _ | .increment _ | .poll | .resetStats => inferInstanceAs (Decidable True)

theorem Wf.step {e : StatsEvent H} (hw : t.Wf) (hs : t.Sound e) : ∃ t', t.step e = some t' ∧ t'.Wf := by
  cases e with
  | enable h useOldValue initialVal =>
    obtain ⟨hen, hmark⟩ := hs
    apply hw.enable
    · intro val hval
      have hcell : (t.cells h).handle.stat = .enabled val := hval
      simp [StatsHandle.isEnabled, hcell] at hen
    · intro val hval
      rcases hmark with hdisabled | ⟨hzero, hstart⟩
      · rw [hval] at hdisabled
        cases hdisabled
      · have hv : t.value h = val := congrArg Stat.value hval
        exact ⟨hv ▸ hzero, hstart⟩
  | disable h => exact ⟨_, rfl, hw.disable h⟩
  | set h val => exact ⟨_, rfl, hw.set h val⟩
  | increment h => exact ⟨_, rfl, hw.increment h⟩
  | poll =>
    obtain ⟨t', hpoll, hw', -⟩ := hw.poll
    exact ⟨t', hpoll, hw'⟩
  | resetStats => exact ⟨_, rfl, hw.resetStats⟩

/-- No call fails, and a poll afterwards leaves the table in order. -/
def RunRepresents (events : List (StatsEvent H)) : Prop :=
  ∃ t, run step new events = some t ∧ ∃ t', t.poll = some t' ∧ t'.Represents

theorem runRepresents_of_sound {events : List (StatsEvent H)} (h : Admits step Sound new events) :
    RunRepresents events := by
  obtain ⟨t, hr, hw⟩ := run_invariant (fun _ _ hw hs => Wf.step hw hs) wf_new h
  obtain ⟨t', hpoll, hw', he⟩ := hw.poll
  exact ⟨t, hr, t', hpoll, hw'.represents he⟩

theorem runRepresents_of_sound_sample : RunRepresents
    [.enable 3 false 5, .set 3 9, .enable 4 true 0, .poll, .disable (3 : Nat), .resetStats] :=
  runRepresents_of_sound (by decide)

theorem runRepresents_fails_when_marked :
    ¬∀ events : List (StatsEvent Unit), Admits step Enables new events → RunRepresents events := by
  intro h
  have hadmits : Admits step Enables new [.enable () false 5, .disable (), .enable () false 5] := by decide
  obtain ⟨t, hr, t', hpoll, hrep⟩ := h _ hadmits
  have hrun : ((run step new [.enable () false 5, .disable (), .enable () false 5]).bind poll).map
      (fun t => (t.globalStat, (t.handles.map fun h => (t.stat h).value).sum)) = some (10, 5) := by decide
  rw [hr, Option.bind_some, hpoll] at hrun
  obtain ⟨hsum, hstats⟩ := Prod.mk.inj (Option.some.inj hrun)
  rw [← hrep.sum] at hstats
  omega

end Stats

end Capybara
