import Capybara.Scheduler

namespace Capybara

open Runs

def Action.task : Action → Nat
  | .inserted task _ | .polled task _ | .completed task | .dropped task | .removed task => task

namespace Scheduler

def status (s : Scheduler) (key : Nat) : Flags := .ofKey s.pages key

/-- The task has been inserted at the key and not removed since. -/
def Live (s : Scheduler) (task key : Nat) : Prop := .inserted task key ∈ s.log ∧ .removed task ∉ s.log

/-- `pending` are the tasks that the current page still has to poll, `doomed` those it still has to remove. -/
structure Inv (pending doomed : Nat → Prop) (s : Scheduler) : Prop where
  slab : s.slab.Wf
  covered : ∀ k t, s.slab.entries k = .occupied t → k / 64 < s.pages.length
  flagged : ∀ k, s.status k ≠ .clear → ∃ t, s.slab.entries k = .occupied t
  live : ∀ t k, s.Live t k ↔ s.slab.entries k = .occupied t
  once : ∀ t k k', .inserted t k ∈ s.log → .inserted t k' ∈ s.log → k = k'
  used : ∀ t k, .inserted t k ∈ s.log → s.slab.entries k ≠ .none
  named : ∀ a ∈ s.log, a.task < s.spawned
  handles : ∀ t k, s.handles t = some k →
    s.slab.entries k = .occupied t ∧ (s.status k).dropped = false ∧ ¬doomed k ∧ .dropped t ∉ s.log
  completed : ∀ t k, .completed t ∈ s.log → s.slab.entries k = .occupied t → (s.status k).completed = true
  orphans : ∀ t k, .dropped t ∈ s.log → s.slab.entries k = .occupied t → k % 64 ≠ 0 →
    (s.status k).dropped = true ∨ doomed k
  kept : ∀ t k, .dropped t ∈ s.log → .inserted t k ∈ s.log → k % 64 = 0 → .removed t ∉ s.log
  polls : ∀ t k before, (.polled t k :: before) <:+ s.log → .completed t ∉ before ∧ .removed t ∉ before
  pending : ∀ k, pending k → (∃ t, s.slab.entries k = .occupied t) ∧ (s.status k).completed = false
  doomed : ∀ k, doomed k → ∃ t, s.slab.entries k = .occupied t

/-- Nothing of the log is lost, and pages are only added. -/
structure Grows (s s' : Scheduler) : Prop where
  log : s.log <:+ s'.log
  pages : s.pages.length ≤ s'.pages.length

theorem Grows.refl (s : Scheduler) : Grows s s := ⟨List.suffix_refl _, Nat.le_refl _⟩

theorem Grows.trans {s s' s'' : Scheduler} (h : Grows s s') (h' : Grows s' s'') : Grows s s'' :=
  ⟨h.log.trans h'.log, Nat.le_trans h.pages h'.pages⟩

variable {pending doomed : Nat → Prop} {s s' : Scheduler} {t k : Nat}

theorem inv_new : Inv (fun _ => False) (fun _ => False) new where
  slab := PinSlab.wf_new
  covered := by simp [new, PinSlab.new]
  flagged := fun _ h => absurd rfl h
  live := by simp [Live, new, PinSlab.new]
  once := by simp [new]
  used := by simp [new]
  named := by simp [new]
  handles := by simp [new]
  completed := by simp [new]
  orphans := by simp [new]
  kept := by simp [new]
  polls := by simp [new]
  pending := fun _ h => h.elim
  doomed := fun _ h => h.elim

theorem Inv.lt_spawned (h : Inv pending doomed s) (ho : s.slab.entries k = .occupied t) : t < s.spawned :=
  h.named _ ((h.live t k).mpr ho).1

theorem Inv.key_unique (h : Inv pending doomed s) {k' : Nat} (ho : s.slab.entries k = .occupied t)
    (ho' : s.slab.entries k' = .occupied t) : k = k' :=
  h.once t k k' ((h.live t k).mpr ho).1 ((h.live t k').mpr ho').1

theorem polls_cons {log : List Action} {a : Action}
    (h : ∀ t k before, (.polled t k :: before) <:+ log → .completed t ∉ before ∧ .removed t ∉ before)
    (ha : ∀ t k, a = .polled t k → .completed t ∉ log ∧ .removed t ∉ log) :
    ∀ t k before, (.polled t k :: before) <:+ a :: log → .completed t ∉ before ∧ .removed t ∉ before := by
  intro t k before hs
  rcases List.suffix_cons_iff.mp hs with he | hs
  · obtain ⟨rfl, rfl⟩ := List.cons.inj he
    exact ha t k rfl
  · exact h t k before hs

/-- A change of the flags alone. -/
theorem Inv.flags (h : Inv pending doomed s) {pages : List WakerPage} {doomed' : Nat → Prop}
    (hlen : s.pages.length ≤ pages.length)
    (hflagged : ∀ k, Flags.ofKey pages k ≠ .clear → ∃ t, s.slab.entries k = .occupied t)
    (hcompleted : ∀ k, (Flags.ofKey pages k).completed = (s.status k).completed)
    (hdropped : ∀ k, (Flags.ofKey pages k).dropped = true ∨ doomed' k ↔ (s.status k).dropped = true ∨ doomed k)
    (hdoomed : ∀ k, doomed' k → ∃ t, s.slab.entries k = .occupied t) :
    Inv pending doomed' { s with pages := pages } where
  slab := h.slab
  covered := fun k t ho => Nat.lt_of_lt_of_le (h.covered k t ho) hlen
  flagged := hflagged
  live := h.live
  once := h.once
  used := h.used
  named := h.named
  handles := by
    intro t k hk
    obtain ⟨ho, hd, hn, hlog⟩ := h.handles t k hk
    have hno : ¬((Flags.ofKey pages k).dropped = true ∨ doomed' k) := by
      rw [hdropped, hd]
      simpa using hn
    obtain ⟨hd', hn'⟩ := not_or.mp hno
    exact ⟨ho, Bool.not_eq_true _ ▸ hd', hn', hlog⟩
  completed := by
    intro t k hc ho
    exact (hcompleted k).trans (h.completed t k hc ho)
  orphans := by
    intro t k hd ho hk
    exact (hdropped k).mpr (h.orphans t k hd ho hk)
  kept := h.kept
  polls := h.polls
  pending := by
    intro k hp
    obtain ⟨ho, hc⟩ := h.pending k hp
    exact ⟨ho, (hcompleted k).trans hc⟩
  doomed := hdoomed

theorem Inv.wake (h : Inv pending doomed s) (ho : s.slab.entries k = .occupied t) : Inv pending doomed (s.wake k) := by
  have hlt := h.covered k t ho
  have hstatus := Flags.ofKey_modify hlt (g := fun x => { x with notified := true })
    fun p jx => Flags.ofPage_notify p (Nat.mod_lt k (by decide)) jx
  apply h.flags
  · simp
  · intro k' hk'
    rw [hstatus] at hk'
    by_cases hkk : k' = k
    · exact ⟨t, hkk ▸ ho⟩
    · rw [Function.update_of_ne hkk] at hk'
      exact h.flagged k' hk'
  · intro k'
    rw [hstatus]
    by_cases hkk : k' = k
    · subst k'
      rw [Function.update_self]
      rfl
    · rw [Function.update_of_ne hkk]
      rfl
  · intro k'
    rw [hstatus]
    by_cases hkk : k' = k
    · subst k'
      rw [Function.update_self]
      rfl
    · rw [Function.update_of_ne hkk]
      rfl
  · exact h.doomed

/-- A handle is given up, and its task is still to be marked. -/
theorem Inv.release (h : Inv pending doomed s) (hk : s.handles t = some k) :
    Inv pending (fun k' => doomed k' ∨ k' = k) { s with
      handles := Function.update s.handles t none
      log := .dropped t :: s.log } := by
  obtain ⟨ho, -, -, -⟩ := h.handles t k hk
  exact {
    slab := h.slab
    covered := h.covered
    flagged := h.flagged
    live := by
      intro t' k'
      simpa [Live] using h.live t' k'
    once := by
      intro t' k' k''
      simpa using h.once t' k' k''
    used := by
      intro t' k' hi
      exact h.used t' k' (by simpa using hi)
    named := by
      intro a ha
      rcases List.mem_cons.mp ha with rfl | ha
      · exact h.lt_spawned ho
      · exact h.named a ha
    handles := by
      intro t' k' hk'
      by_cases ht : t' = t
      · subst t'
        simp at hk'
      · simp only [Function.update_of_ne ht] at hk'
        obtain ⟨ho', hd, hn, hl⟩ := h.handles t' k' hk'
        refine ⟨ho', hd, not_or.mpr ⟨hn, ?_⟩, by simpa [ht] using hl⟩
        rintro rfl
        exact ht (Entry.occupied.inj (ho'.symm.trans ho))
    completed := by
      intro t' k' hc ho'
      exact h.completed t' k' (by simpa using hc) ho'
    orphans := by
      intro t' k' hd ho' hk0
      by_cases hkk : k' = k
      · exact .inr (.inr hkk)
      · have ht : t' ≠ t := fun ht => hkk (h.key_unique (ht ▸ ho') ho)
        exact (h.orphans t' k' (by simpa [ht] using hd) ho' hk0).imp id .inl
    kept := by
      intro t' k' hd hi hk0
      have hi : .inserted t' k' ∈ s.log := by simpa using hi
      by_cases ht : t' = t
      · subst t'
        simpa using ((h.live t k).mpr ho).2
      · simpa using h.kept t' k' (by simpa [ht] using hd) hi hk0
    polls := polls_cons h.polls (by simp)
    pending := h.pending
    doomed := by
      rintro k' (hd | rfl)
      · exact h.doomed k' hd
      · exact ⟨t, ho⟩ }

theorem Inv.dropHandle (h : Inv pending doomed s) (t : Nat) : Inv pending doomed (s.dropHandle t) := by
  cases hk : s.handles t with
  | none => simpa [Scheduler.dropHandle, hk] using h
  | some k =>
    obtain ⟨ho, -, -, -⟩ := h.handles t k hk
    have hlt := h.covered k t ho
    have hstatus := Flags.ofKey_modify hlt (g := fun x => { x with dropped := true })
      fun p jx => Flags.ofPage_markDropped p (Nat.mod_lt k (by decide)) jx
    have heq : s.dropHandle t = { s with
        pages := s.pages.modify (k / 64) (·.markDropped (k % 64))
        handles := Function.update s.handles t none
        log := .dropped t :: s.log } := by simp [Scheduler.dropHandle, hk]
    rw [heq]
    apply (h.release hk).flags
    · simp
    · intro k' hk'
      rw [hstatus] at hk'
      by_cases hkk : k' = k
      · exact ⟨t, hkk ▸ ho⟩
      · rw [Function.update_of_ne hkk] at hk'
        exact h.flagged k' hk'
    · intro k'
      rw [hstatus]
      by_cases hkk : k' = k
      · subst k'
        rw [Function.update_self]
        rfl
      · rw [Function.update_of_ne hkk]
        rfl
    · intro k'
      rw [hstatus]
      by_cases hkk : k' = k
      · subst k'
        simp
      · rw [Function.update_of_ne hkk]
        simp only [hkk, or_false]
        exact Iff.rfl
    · exact h.doomed

theorem length_growPages (pages : List WakerPage) (key : Nat) :
    pages.length ≤ (growPages pages key).length ∧ key / 64 < (growPages pages key).length := by
  simp only [growPages, List.length_append, List.length_replicate]
  omega

theorem occupied_update {entries : Nat → Entry Nat} {key : Nat} {entry : Entry Nat} :
    Function.update entries key entry k = .occupied t ↔
      k = key ∧ entry = .occupied t ∨ k ≠ key ∧ entries k = .occupied t := by
  by_cases hk : k = key
  · subst k
    simp
  · rw [Function.update_of_ne hk]
    simp [hk]

/-- A new task has come to a free place. -/
structure Inserts (s : Scheduler) (key : Nat) (s' : Scheduler) : Prop where
  slab : s'.slab.Wf
  free : ∀ t, s.slab.entries key ≠ .occupied t
  entries : s'.slab.entries = Function.update s.slab.entries key (.occupied s.spawned)
  pages : s.pages.length ≤ s'.pages.length
  covered : key / 64 < s'.pages.length
  status : s'.status = Function.update s.status key ⟨true, false, false⟩
  handles : s'.handles = Function.update s.handles s.spawned (some key)
  spawned : s'.spawned = s.spawned + 1
  log : s'.log = .inserted s.spawned key :: s.log

theorem insert_cases (hw : s.slab.Wf) :
    s.insert = some s ∨ ∃ key s', s.insert = some s' ∧ Inserts s key s' := by
  rcases hw.insert s.spawned with hfull | ⟨slab, hi, hslab, hfree, he⟩
  · exact .inl (by simp [Scheduler.insert, hfull])
  · generalize s.slab.next = key at hi hfree he
    obtain ⟨hlen, hlt⟩ := length_growPages s.pages key
    have hinsert : s.insert = some
        { slab := slab
          pages := (growPages s.pages key).modify (key / 64) (·.initializeFlags (key % 64))
          handles := Function.update s.handles s.spawned (some key)
          spawned := s.spawned + 1
          log := .inserted s.spawned key :: s.log } := by simp [Scheduler.insert, hi]
    refine .inr ⟨key, _, hinsert, hslab, hfree, he, ?_, ?_, ?_, rfl, rfl, rfl⟩
    · rw [List.length_modify]
      exact hlen
    · rw [List.length_modify]
      exact hlt
    · show Flags.ofKey ((growPages s.pages key).modify (key / 64) (·.initializeFlags (key % 64))) = _
      rw [Flags.ofKey_modify hlt (g := fun _ => ⟨true, false, false⟩)
        fun p jx => Flags.ofPage_initializeFlags p (Nat.mod_lt key (by decide)) jx, growPages, Flags.ofKey_append_reset]
      rfl

namespace Inserts

variable {key : Nat}

theorem occupied_iff (hi : Inserts s key s') :
    s'.slab.entries k = .occupied t ↔ k = key ∧ t = s.spawned ∨ s.slab.entries k = .occupied t := by
  rw [hi.entries, occupied_update, Entry.occupied.injEq]
  constructor
  · rintro (⟨hk, ht⟩ | ⟨-, ho⟩)
    · exact .inl ⟨hk, ht.symm⟩
    · exact .inr ho
  · rintro (⟨hk, ht⟩ | ho)
    · exact .inl ⟨hk, ht.symm⟩
    · exact .inr ⟨fun hk => hi.free t (hk ▸ ho), ho⟩

theorem stays (hi : Inserts s key s') (ho : s.slab.entries k = .occupied t) :
    s'.slab.entries k = .occupied t ∧ s'.status k = s.status k := by
  have hk : k ≠ key := fun hk => hi.free t (hk ▸ ho)
  rw [hi.status, Function.update_of_ne hk]
  exact ⟨hi.occupied_iff.mpr (.inr ho), rfl⟩

theorem mem_log (hi : Inserts s key s') {a : Action} (ha : ∀ t k, a ≠ .inserted t k) : a ∈ s'.log ↔ a ∈ s.log := by
  rw [hi.log, List.mem_cons]
  exact or_iff_right (ha _ _)

theorem inserted_iff (hi : Inserts s key s') :
    .inserted t k ∈ s'.log ↔ t = s.spawned ∧ k = key ∨ .inserted t k ∈ s.log := by
  rw [hi.log, List.mem_cons, Action.inserted.injEq]

/-- The log names no task with the serial number of the new one. -/
theorem unnamed (h : Inv pending doomed s) {a : Action} (ha : a ∈ s.log) : a.task ≠ s.spawned :=
  Nat.ne_of_lt (h.named a ha)

theorem flagged (h : Inv pending doomed s) (hi : Inserts s key s') (hk : s'.status k ≠ .clear) :
    ∃ t, s'.slab.entries k = .occupied t := by
  by_cases hkk : k = key
  · exact ⟨s.spawned, hi.occupied_iff.mpr (.inl ⟨hkk, rfl⟩)⟩
  · rw [hi.status, Function.update_of_ne hkk] at hk
    obtain ⟨t, ho⟩ := h.flagged k hk
    exact ⟨t, (hi.stays ho).1⟩

theorem live_iff (h : Inv pending doomed s) (hi : Inserts s key s') :
    s'.Live t k ↔ s'.slab.entries k = .occupied t := by
  have hlive := h.live t k
  rw [Live] at hlive ⊢
  rw [hi.occupied_iff, hi.inserted_iff, hi.mem_log (fun _ _ ha => by cases ha), ← hlive]
  constructor
  · rintro ⟨⟨rfl, rfl⟩ | hin, hr⟩
    · exact .inl ⟨rfl, rfl⟩
    · exact .inr ⟨hin, hr⟩
  · rintro (⟨rfl, rfl⟩ | ⟨hin, hr⟩)
    · exact ⟨.inl ⟨rfl, rfl⟩, fun hr => unnamed h hr rfl⟩
    · exact ⟨.inr hin, hr⟩

theorem once (h : Inv pending doomed s) (hi : Inserts s key s') {k' : Nat} (hk : .inserted t k ∈ s'.log)
    (hk' : .inserted t k' ∈ s'.log) : k = k' := by
  rcases hi.inserted_iff.mp hk with ⟨rfl, rfl⟩ | hk <;> rcases hi.inserted_iff.mp hk' with ⟨ht, rfl⟩ | hk'
  · rfl
  · exact absurd rfl (unnamed h hk')
  · exact absurd ht (unnamed h hk)
  · exact h.once t k k' hk hk'

theorem used (h : Inv pending doomed s) (hi : Inserts s key s') (hk : .inserted t k ∈ s'.log) :
    s'.slab.entries k ≠ .none := by
  rw [hi.entries]
  by_cases hkk : k = key
  · subst k
    simp
  · rw [Function.update_of_ne hkk]
    exact h.used t k ((hi.inserted_iff.mp hk).resolve_left fun hx => hkk hx.2)

theorem handle (h : Inv pending doomed s) (hi : Inserts s key s') (hk : s'.handles t = some k) :
    s'.slab.entries k = .occupied t ∧ (s'.status k).dropped = false ∧ ¬doomed k ∧ .dropped t ∉ s'.log := by
  rw [hi.mem_log (fun _ _ ha => by cases ha)]
  rw [hi.handles] at hk
  by_cases ht : t = s.spawned
  · subst t
    rw [Function.update_self] at hk
    obtain rfl := Option.some.inj hk
    refine ⟨hi.occupied_iff.mpr (.inl ⟨rfl, rfl⟩), by rw [hi.status, Function.update_self], fun hd => ?_,
      fun hd => unnamed h hd rfl⟩
    obtain ⟨t, ho⟩ := h.doomed _ hd
    exact hi.free t ho
  · rw [Function.update_of_ne ht] at hk
    obtain ⟨ho, hd, hn, hlog⟩ := h.handles t k hk
    obtain ⟨ho', hstatus⟩ := hi.stays ho
    exact ⟨ho', by rw [hstatus, hd], hn, hlog⟩

/-- A task that the log says something about was there before. -/
theorem earlier (h : Inv pending doomed s) (hi : Inserts s key s') {a : Action} (ha : a ∈ s.log)
    (ho : s'.slab.entries k = .occupied a.task) :
    s.slab.entries k = .occupied a.task ∧ s'.status k = s.status k := by
  have ho := (hi.occupied_iff.mp ho).resolve_left fun hx => unnamed h ha hx.2
  exact ⟨ho, (hi.stays ho).2⟩

theorem inv (h : Inv pending doomed s) (hi : Inserts s key s') : Inv pending doomed s' where
  slab := hi.slab
  covered := by
    intro k t ho
    rcases hi.occupied_iff.mp ho with ⟨rfl, -⟩ | ho
    · exact hi.covered
    · exact Nat.lt_of_lt_of_le (h.covered k t ho) hi.pages
  flagged _ hk := hi.flagged h hk
  live _ _ := hi.live_iff h
  once _ _ _ hk hk' := hi.once h hk hk'
  used _ _ hk := hi.used h hk
  named := by
    intro a ha
    rw [hi.log] at ha
    rw [hi.spawned]
    rcases List.mem_cons.mp ha with rfl | ha
    · exact Nat.lt_succ_self _
    · exact Nat.lt_succ_of_lt (h.named a ha)
  handles _ _ hk := hi.handle h hk
  completed := by
    intro t k hc ho
    have hc := (hi.mem_log (fun _ _ ha => by cases ha)).mp hc
    obtain ⟨ho, hstatus⟩ := hi.earlier h hc ho
    rw [hstatus]
    exact h.completed t k hc ho
  orphans := by
    intro t k hd ho hk0
    have hd := (hi.mem_log (fun _ _ ha => by cases ha)).mp hd
    obtain ⟨ho, hstatus⟩ := hi.earlier h hd ho
    rw [hstatus]
    exact h.orphans t k hd ho hk0
  kept := by
    intro t k hd hin hk0
    have hd := (hi.mem_log (fun _ _ ha => by cases ha)).mp hd
    rw [hi.mem_log (fun _ _ ha => by cases ha)]
    rcases hi.inserted_iff.mp hin with ⟨rfl, -⟩ | hin
    · exact absurd rfl (unnamed h hd)
    · exact h.kept t k hd hin hk0
  polls := by
    rw [hi.log]
    exact polls_cons h.polls (by simp)
  pending := by
    intro k hp
    obtain ⟨⟨t, ho⟩, hc⟩ := h.pending k hp
    obtain ⟨ho, hstatus⟩ := hi.stays ho
    exact ⟨⟨t, ho⟩, by rw [hstatus, hc]⟩
  doomed := by
    intro k hd
    obtain ⟨t, ho⟩ := h.doomed k hd
    exact ⟨t, (hi.stays ho).1⟩

end Inserts

theorem Inv.insert (h : Inv pending doomed s) : ∃ s', s.insert = some s' ∧ Inv pending doomed s' ∧
    Grows s s' ∧ ∀ k, pending k → s'.slab.entries k = s.slab.entries k := by
  rcases insert_cases h.slab with hfull | ⟨key, s', hinsert, hi⟩
  · exact ⟨s, hfull, h, .refl s, fun _ _ => rfl⟩
  · refine ⟨s', hinsert, hi.inv h, ⟨hi.log ▸ List.suffix_cons _ _, hi.pages⟩, fun k hp => ?_⟩
    obtain ⟨⟨t, ho⟩, -⟩ := h.pending k hp
    rw [ho, (hi.stays ho).1]

end Scheduler

end Capybara
