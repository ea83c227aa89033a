import Capybara.SchedulerInvariant

namespace Capybara

open Runs

namespace PinSlab

variable {α : Type} {s slab : PinSlab α} {key : Nat}

theorem occupied_of_removeUnpin {val : α} (h : s.removeUnpin key = some (some val, slab)) :
    s.entries key = .occupied val := by
  unfold removeUnpin at h
  split at h
  next =>
    split at h
    next val' hv =>
      obtain ⟨slab', -, h⟩ := Option.bind_eq_some_iff.mp h
      rw [hv, Option.some.inj (Prod.mk.inj (Option.some.inj h)).1]
    next => cases h
  next => cases h

/-- A removal that goes through leaves a well-formed slab with no more places occupied. -/
theorem Wf.of_remove {result : Option Bool} (hw : s.Wf) (h : s.remove key = some (result, slab)) :
    slab.Wf ∧ ∀ k t, slab.entries k = .occupied t → s.entries k = .occupied t := by
  cases ho : s.entries key with
  | occupied val =>
    obtain ⟨slab', hr, hw', he⟩ := hw.remove ho
    obtain ⟨-, rfl⟩ := Prod.mk.inj (Option.some.inj (hr.symm.trans h))
    refine ⟨hw', fun k t hk => ?_⟩
    rw [he] at hk
    by_cases hkey : k = key
    · rw [hkey, Function.update_self] at hk
      cases hk
    · rwa [Function.update_of_ne hkey] at hk
  | vacant next =>
    obtain ⟨-, rfl⟩ : result = some false ∧ slab = s := by
      simpa [PinSlab.remove, ho, hw.lt_limit (by rw [ho]; simp), eq_comm] using h
    exact ⟨hw, fun k t hk => hk⟩
  | none =>
    unfold PinSlab.remove at h
    rw [ho] at h
    split at h
    next =>
      obtain ⟨-, rfl⟩ := Prod.mk.inj (Option.some.inj h)
      exact ⟨hw, fun k t hk => hk⟩
    next =>
      obtain ⟨-, rfl⟩ := Prod.mk.inj (Option.some.inj h)
      exact ⟨hw, fun k t hk => hk⟩

end PinSlab

namespace Scheduler

/-- The slab is well formed, and every task in it has a place on a page. -/
structure Sane (s : Scheduler) : Prop where
  slab : s.slab.Wf
  covered : ∀ k t, s.slab.entries k = .occupied t → k / 64 < s.pages.length

variable {s s' : Scheduler} {key : Nat}

theorem sane_new : Sane new := ⟨PinSlab.wf_new, fun k t h => (by cases h)⟩

/-- No more places are occupied and there are no fewer pages. -/
theorem Sane.shrink (h : Sane s) (hw : s'.slab.Wf)
    (ho : ∀ k t, s'.slab.entries k = .occupied t → s.slab.entries k = .occupied t)
    (hp : s.pages.length ≤ s'.pages.length) : Sane s' :=
  ⟨hw, fun k t hk => Nat.lt_of_lt_of_le (h.covered k t (ho k t hk)) hp⟩

theorem Sane.insert (h : Sane s) (hs : s.insert = some s') : Sane s' := by
  rcases h.slab.insert s.spawned with hfull | ⟨slab, hi, hw, -, he⟩
  · rw [Scheduler.insert, hfull] at hs
    obtain rfl := Option.some.inj hs
    exact ⟨h.slab, h.covered⟩
  · rw [Scheduler.insert, hi] at hs
    obtain rfl := Option.some.inj hs
    obtain ⟨hlen, hlt⟩ := length_growPages s.pages s.slab.next
    refine ⟨hw, fun k t hk => ?_⟩
    show k / 64 < ((growPages s.pages s.slab.next).modify (s.slab.next / 64) _).length
    rw [List.length_modify]
    change slab.entries k = .occupied t at hk
    rw [he] at hk
    by_cases hkey : k = s.slab.next
    · rw [hkey]
      exact hlt
    · rw [Function.update_of_ne hkey] at hk
      exact Nat.lt_of_lt_of_le (h.covered k t hk) hlen

/-- `Scheduler::take` for the key of a handle; what it returns is the task. -/
def takeRaw (s : Scheduler) (key : Nat) : Option (Nat × Scheduler) := do
  let page ← s.pages[key / 64]?
  if page.wasDropped (key % 64) then none
  else
    let (future, slab) ← s.slab.removeUnpin key
    let future ← future
    some (future, { s with
      slab := slab
      pages := s.pages.modify (key / 64) (·.clear (key % 64))
      log := .removed future :: s.log })

/-- The key of a handle for a task that is there. -/
def fromRawHandle (s : Scheduler) (key : Nat) : Option (Option Nat) :=
  match s.slab.get key with
  | none => some none
  | some _ => do
    let _ ← s.pages[key / 64]?
    some (some key)

def hasCompleted (s : Scheduler) (key : Nat) : Bool := (s.status key).completed

theorem Sane.removeUnpin (h : Sane s) {task : Nat} {slab : PinSlab Nat}
    (hr : s.slab.removeUnpin key = some (some task, slab)) (hslab : s'.slab = slab)
    (hp : s'.pages.length = s.pages.length) : Sane s' := by
  have ho := PinSlab.occupied_of_removeUnpin hr
  obtain ⟨slab', hr', hw, he⟩ := h.slab.removeUnpin ho
  obtain ⟨-, rfl⟩ := Prod.mk.inj (Option.some.inj (hr'.symm.trans hr))
  refine h.shrink (hslab ▸ hw) (fun k t hk => ?_) hp.ge
  rw [hslab, he] at hk
  by_cases hkey : k = key
  · rw [hkey, Function.update_self] at hk
    cases hk
  · rwa [Function.update_of_ne hkey] at hk

theorem Sane.takeRaw (h : Sane s) {task : Nat} (hs : s.takeRaw key = some (task, s')) : Sane s' := by
  obtain ⟨page, -, hs⟩ := Option.bind_eq_some_iff.mp hs
  split at hs
  next => cases hs
  next =>
    obtain ⟨⟨future, slab⟩, hr, hs⟩ := Option.bind_eq_some_iff.mp hs
    obtain ⟨task', rfl, hs⟩ := Option.bind_eq_some_iff.mp hs
    obtain ⟨-, rfl⟩ := Prod.mk.inj (Option.some.inj hs)
    exact h.removeUnpin hr rfl (List.length_modify ..)

/-- A task that a caller holds the handle of is taken with the key of the handle. -/
theorem take_eq_takeRaw {task : Nat} (h : s.handles task = some key) : s.take task =
    (s.takeRaw key).map fun r => { r.2 with handles := Function.update s.handles task none } := by
  unfold take takeRaw
  rw [h]
  cases hp : s.pages[key / 64]? with
  | none => simp [hp]
  | some page =>
    cases hd : page.wasDropped (key % 64) with
    | true => simp [hp, hd]
    | false =>
      rcases hr : s.slab.removeUnpin key with _ | ⟨_ | future, slab⟩
      · simp [hp, hr]
      · simp [hp, hr]
      · simp [hp, hd, hr]

theorem Sane.take (h : Sane s) {task : Nat} (hs : s.take task = some s') : Sane s' := by
  cases hh : s.handles task with
  | none =>
    rw [Scheduler.take, hh] at hs
    exact Option.some.inj hs ▸ h
  | some key =>
    rw [take_eq_takeRaw hh] at hs
    obtain ⟨⟨future, s₁⟩, hraw, rfl⟩ := Option.map_eq_some_iff.mp hs
    have h₁ := h.takeRaw hraw
    exact ⟨h₁.slab, h₁.covered⟩

theorem Sane.dropHandle (h : Sane s) (task : Nat) : Sane (s.dropHandle task) := by
  unfold Scheduler.dropHandle
  split
  next => exact h
  next => exact h.shrink h.slab (fun _ _ hk => hk) (List.length_modify ..).ge

theorem Sane.wake (h : Sane s) (key : Nat) : Sane (s.wake key) :=
  h.shrink h.slab (fun _ _ hk => hk) (List.length_modify ..).ge

theorem Sane.call (h : Sane s) {c : Call} (hs : s.call c = some s') : Sane s' := by
  cases c with
  | insert => exact h.insert hs
  | take task => exact h.take hs
  | drop task => exact Option.some.inj hs ▸ h.dropHandle task
  | wake key => exact Option.some.inj hs ▸ h.wake key

theorem Sane.borrowedCall (h : Sane s) {c : Call} (hs : s.borrowedCall c = some s') : Sane s' := by
  cases c with
  | insert => cases hs
  | take task => cases hs
  | drop task => exact Option.some.inj hs ▸ h.dropHandle task
  | wake key => exact Option.some.inj hs ▸ h.wake key

/-- Whatever a step keeps, a run keeps. -/
theorem Sane.run {ε : Type} {f : Scheduler → ε → Option Scheduler} (hf : ∀ s e s', Sane s → f s e = some s' → Sane s')
    (h : Sane s) {es : List ε} (hs : Runs.run f s es = some s') : Sane s' :=
  Runs.run_reaches (fun s e s' hi _ he => hf s e s' hi he) h (admits_of_forall (fun _ _ => trivial) s es) hs

theorem Sane.turn (h : Sane s) {behave : Nat → Behaviour} {pageIx sub : Nat}
    (hs : Scheduler.turn behave pageIx s sub = some s') : Sane s' := by
  obtain ⟨task, -, hs⟩ := Option.bind_eq_some_iff.mp hs
  obtain ⟨s₁, hr, hs⟩ := Option.bind_eq_some_iff.mp hs
  have h₀ : Sane { s with log := .polled task (pageIx * 64 + sub) :: s.log } := ⟨h.slab, h.covered⟩
  have h₁ : Sane s₁ := Sane.run (fun s c s' hi hc => hi.call hc) h₀ hr
  split at hs
  next => exact Option.some.inj hs ▸ h₁.shrink h₁.slab (fun k t hk => hk) (List.length_modify ..).ge
  next => exact Option.some.inj hs ▸ h₁

theorem Sane.reclaim (h : Sane s) {behave : Nat → Behaviour} {pageIx sub : Nat}
    (hs : Scheduler.reclaim behave pageIx s sub = some s') : Sane s' := by
  unfold Scheduler.reclaim at hs
  split at hs
  next =>
    obtain ⟨s₁, hr, hs⟩ := Option.bind_eq_some_iff.mp hs
    have h₁ : Sane s₁ := by
      unfold removeTask at hr
      split at hr
      next => exact Option.some.inj hr ▸ h
      next =>
        obtain ⟨s₂, hr₂, hr⟩ := Option.bind_eq_some_iff.mp hr
        obtain ⟨⟨result, slab⟩, hrem, hr⟩ := Option.bind_eq_some_iff.mp hr
        have h₂ : Sane s₂ := Sane.run (fun s c s' hi hc => hi.borrowedCall hc) h hr₂
        obtain ⟨hw, ho⟩ := h₂.slab.of_remove hrem
        exact Option.some.inj hr ▸ h₂.shrink hw ho (Nat.le_refl _)
    exact Option.some.inj hs ▸ h₁.shrink h₁.slab (fun k t hk => hk) (List.length_modify ..).ge
  next => exact Option.some.inj hs ▸ h

theorem Sane.pollPage (h : Sane s) {behave : Nat → Behaviour} {pageIx : Nat}
    (hs : Scheduler.pollPage behave s pageIx = some s') : Sane s' := by
  obtain ⟨⟨flags, s₁⟩, ht, hs⟩ := Option.bind_eq_some_iff.mp hs
  obtain ⟨s₂, hturns, hreclaims⟩ := Option.bind_eq_some_iff.mp hs
  obtain ⟨page, -, ht⟩ := Option.bind_eq_some_iff.mp ht
  obtain ⟨-, rfl⟩ := Prod.mk.inj (Option.some.inj ht)
  have h₁ : Sane { s with pages := s.pages.set pageIx page.takeNotified.2.takeDropped.2 } :=
    h.shrink h.slab (fun k t hk => hk) (List.length_set ..).ge
  exact Sane.run (fun s sub s' hi hr => hi.reclaim hr)
    (Sane.run (fun s sub s' hi hr => hi.turn hr) h₁ hturns) hreclaims

theorem status_of_pages {page : WakerPage} (h : s.pages[key / 64]? = some page) :
    s.status key = .ofPage page (key % 64) := Flags.ofKey_of_getElem? h

theorem Sane.page (h : Sane s) {task : Nat} (hg : s.slab.get key = some task) :
    ∃ page, s.pages[key / 64]? = some page :=
  ⟨_, List.getElem?_eq_getElem (h.covered key task ((PinSlab.get_eq_some h.slab).mp hg))⟩

theorem Sane.fromRawHandle (h : Sane s) (key : Nat) :
    s.fromRawHandle key = some ((s.slab.get key).map fun _ => key) := by
  unfold Scheduler.fromRawHandle
  cases hg : s.slab.get key with
  | none => rfl
  | some task =>
    obtain ⟨page, hpage⟩ := h.page hg
    simp [hpage]

theorem Sane.takeRaw_dropped (h : Sane s) {task : Nat} (hg : s.slab.get key = some task)
    (hd : (s.status key).dropped = true) : s.takeRaw key = none := by
  obtain ⟨page, hpage⟩ := h.page hg
  rw [status_of_pages hpage] at hd
  have hdropped : page.wasDropped (key % 64) = true := hd
  simp [Scheduler.takeRaw, hpage, hdropped]

/-- A take removes the task and clears its flags, and leaves all others as they are. -/
theorem Sane.takeRaw_eq (h : Sane s) {task : Nat} (hg : s.slab.get key = some task)
    (hd : (s.status key).dropped = false) : ∃ s', s.takeRaw key = some (task, s') ∧
      (∀ k, s'.slab.get k = if k = key then none else s.slab.get k) ∧
      ∀ k, s'.status k = if k = key then .clear else s.status k := by
  obtain ⟨page, hpage⟩ := h.page hg
  have ho := (PinSlab.get_eq_some h.slab).mp hg
  obtain ⟨slab, hr, hw, he⟩ := h.slab.removeUnpin ho
  have hdropped : page.wasDropped (key % 64) = false := by
    rw [status_of_pages hpage] at hd
    exact hd
  refine ⟨{ s with
    slab := slab
    pages := s.pages.modify (key / 64) (·.clear (key % 64))
    log := .removed task :: s.log }, ?_, fun k => ?_, fun k => ?_⟩
  · simp [Scheduler.takeRaw, hpage, hdropped, hr]
  · show slab.get k = _
    by_cases hk : k = key
    · subst k
      rw [if_pos rfl, PinSlab.get, he, Function.update_self]
      split
      next => rfl
      next => rfl
    · rw [if_neg hk, PinSlab.get, PinSlab.get, he, Function.update_of_ne hk]
  · show Flags.ofKey (s.pages.modify (key / 64) (·.clear (key % 64))) k = _
    have hmodify := @Flags.ofKey_modify s.pages key (·.clear (key % 64)) (fun _ => Flags.clear)
      (h.covered key task ho) fun p jx => Flags.ofPage_clear p jx
    rw [hmodify]
    by_cases hk : k = key
    · rw [hk, Function.update_self, if_pos rfl]
    · rw [Function.update_of_ne hk, if_neg hk]
      rfl

theorem Sane.poll (h : Sane s) {behave : Nat → Behaviour} (hs : s.poll behave = some s') : Sane s' :=
  Sane.run (fun _ _ _ hp hr => hp.pollPage hr) h hs

/-- Every scheduler that calls and polls lead to is sane. -/
theorem sane_of_run {events : List SchedulerEvent} (hs : Runs.run step new events = some s) : Sane s := by
  refine Sane.run (fun s e s' hi he => ?_) sane_new hs
  cases e with
  | call c => exact hi.call he
  | poll behave => exact hi.poll he

end Scheduler

end Capybara
