import Capybara.SchedulerPoll

namespace Capybara

open Runs

namespace Scheduler

variable {s s' : Scheduler} {t k : Nat} {behave : Nat → Behaviour}

/-- The task is out of the slab for good and its key is free, where no later task has it already. -/
structure Reclaimed (t k : Nat) (s : Scheduler) : Prop where
  gone : ∀ key, s.slab.get key ≠ some t
  cleared : s.slab.get k = none → s.status k = .clear ∧ s.slab.CanHandOut k
  never : ∀ events s', Admits step Sound s events → run step s events = some s' →
    ∃ later, s'.log = later ++ s.log ∧ ∀ key, .polled t key ∉ later

theorem Inv.reclaimed (h : Inv Idle Idle s) (hi : .inserted t k ∈ s.log) (hr : .removed t ∈ s.log) : s.Reclaimed t k where
  gone := by
    intro key hget
    have hlive := (h.live t key).mpr ((PinSlab.get_eq_some h.slab).mp hget)
    exact hlive.2 hr
  cleared := by
    intro hnone
    have hfree : ∀ a, s.slab.entries k ≠ .occupied a := by
      intro a ho
      rw [(PinSlab.get_eq_some h.slab).mpr ho] at hnone
      cases hnone
    constructor
    · by_contra hflags
      obtain ⟨a, ho⟩ := h.flagged k hflags
      exact hfree a ho
    · cases hentry : s.slab.entries k with
      | none => exact absurd hentry (h.used t k hi)
      | vacant next => exact h.slab.canHandOut hentry
      | occupied a => exact absurd hentry (hfree a)
  never := by
    intro events s' hsound hrun
    obtain ⟨s₁, hrun₁, h₁, hg⟩ := h.run hsound
    obtain rfl := Option.some.inj (hrun₁.symm.trans hrun)
    obtain ⟨later, hlater⟩ := hg.log
    refine ⟨later, hlater.symm, ?_⟩
    intro key hp
    obtain ⟨newer, older, rfl⟩ := List.append_of_mem hp
    have hsuffix : (.polled t key :: (older ++ s.log)) <:+ s₁.log := ⟨newer, by rw [← hlater, List.append_assoc]; rfl⟩
    exact (h₁.polls t key _ hsuffix).2 (List.mem_append_right older hr)

/-- A poll after the handle of a task has been dropped reclaims the task exactly if its key is not the first one
of a page. -/
theorem reclaimed_iff {events : List SchedulerEvent} (hsound : Admits step Sound new (events ++ [.poll behave]))
    (hrun : run step new events = some s) (hpoll : s.poll behave = some s') (hi : .inserted t k ∈ s.log)
    (hd : .dropped t ∈ s.log) : s'.Reclaimed t k ↔ k % 64 ≠ 0 := by
  obtain ⟨hevents, hlast⟩ := hsound.of_append
  obtain ⟨s₁, hrun₁, h₁, -⟩ := inv_new.run hevents
  obtain rfl := Option.some.inj (hrun₁.symm.trans hrun)
  obtain ⟨s₂, hpoll₂, h₂, hg, hr⟩ := h₁.poll (hlast s₁ hrun).1
  obtain rfl := Option.some.inj (hpoll₂.symm.trans hpoll)
  have hi₂ := hg.log.subset hi
  constructor
  · intro hreclaimed hk0
    have hlive : s₂.Live t k := ⟨hi₂, h₂.kept t k (hg.log.subset hd) hi₂ hk0⟩
    exact hreclaimed.gone k ((PinSlab.get_eq_some h₂.slab).mpr ((h₂.live t k).mp hlive))
  · intro hk0
    exact h₂.reclaimed hi₂ (hr t k hk0 hd hi)

def quietBehaviour (_ : Nat) : Behaviour := ⟨[], true, []⟩

theorem reclaimed_iff_sample : ∃ s s', run step new [.call .insert, .call .insert, .call (.drop 1)] = some s ∧
    s.poll quietBehaviour = some s' ∧ (s'.Reclaimed 1 1 ↔ 1 % 64 ≠ 0) := by
  have hsound : Admits step Sound new ([.call .insert, .call .insert, .call (.drop 1)] ++ [.poll quietBehaviour]) := by
    decide +kernel
  obtain ⟨hevents, hlast⟩ := hsound.of_append
  obtain ⟨s, hrun, hinv, -⟩ := inv_new.run hevents
  obtain ⟨s', hpoll, -⟩ := hinv.poll (hlast s hrun).1
  have hlog : (run step new [.call .insert, .call .insert, .call (.drop 1)]).map log =
      some [.dropped 1, .inserted 1 1, .inserted 0 0] := by decide +kernel
  rw [hrun] at hlog
  have hs := Option.some.inj hlog
  exact ⟨s, s', hrun, hpoll, reclaimed_iff hsound hrun hpoll (by rw [hs]; decide) (by rw [hs]; decide)⟩

theorem reclaimed_fails_at_page_start : ¬∀ (events : List SchedulerEvent) (behave : Nat → Behaviour) (s s' : Scheduler)
    (t k : Nat), Admits step Sound new (events ++ [.poll behave]) → run step new events = some s →
    s.poll behave = some s' → .inserted t k ∈ s.log → .dropped t ∈ s.log → s'.Reclaimed t k := by
  intro h
  have hsound : Admits step Sound new ([.call .insert, .call (.drop 0)] ++ [.poll quietBehaviour]) := by decide +kernel
  have hlog : (run step new [.call .insert, .call (.drop 0)]).map log = some [.dropped 0, .inserted 0 0] := by
    decide +kernel
  have hslab : ((run step new [.call .insert, .call (.drop 0)]).bind (poll quietBehaviour)).map (·.slab.get 0) =
      some (some 0) := by decide +kernel
  cases hrun : run step new [.call .insert, .call (.drop 0)] with
  | none =>
    rw [hrun] at hlog
    cases hlog
  | some s =>
    rw [hrun] at hlog hslab
    have hs := Option.some.inj hlog
    cases hpoll : s.poll quietBehaviour with
    | none =>
      rw [Option.bind_some, hpoll] at hslab
      cases hslab
    | some s' =>
      rw [Option.bind_some, hpoll] at hslab
      have hreclaimed := h _ _ s s' 0 0 hsound hrun hpoll (by rw [hs]; decide) (by rw [hs]; decide)
      exact hreclaimed.gone 0 (Option.some.inj hslab)

end Scheduler

end Capybara
