import Capybara.SchedulerInvariant

namespace Capybara

open Runs

namespace Scheduler

variable {pending doomed : Nat → Prop} {s s' : Scheduler} {t k : Nat}

/-- A task leaves its place, together with its flags and its handle. -/
structure Removes (s : Scheduler) (t k : Nat) (s' : Scheduler) : Prop where
  slab : s'.slab.Wf
  occupied : s.slab.entries k = .occupied t
  entries : ∃ next, s'.slab.entries = Function.update s.slab.entries k (.vacant next)
  pages : s'.pages.length = s.pages.length
  status : s'.status = Function.update s.status k .clear
  handles : s'.handles = Function.update s.handles t none
  spawned : s'.spawned = s.spawned
  log : s'.log = .removed t :: s.log

namespace Removes

variable {t' k' : Nat}

theorem occupied_iff (hr : Removes s t k s') :
    s'.slab.entries k' = .occupied t' ↔ k' ≠ k ∧ s.slab.entries k' = .occupied t' := by
  obtain ⟨next, he⟩ := hr.entries
  rw [he, occupied_update]
  simp

theorem status_of_ne (hr : Removes s t k s') (hk : k' ≠ k) : s'.status k' = s.status k' := by
  rw [hr.status, Function.update_of_ne hk]

theorem mem_log (hr : Removes s t k s') {a : Action} (ha : a ≠ .removed t) : a ∈ s'.log ↔ a ∈ s.log := by
  rw [hr.log, List.mem_cons]
  exact or_iff_right ha

theorem removed_iff (hr : Removes s t k s') : .removed t' ∈ s'.log ↔ t' = t ∨ .removed t' ∈ s.log := by
  rw [hr.log, List.mem_cons, Action.removed.injEq]

/-- Another task stands at another place. -/
theorem elsewhere (h : Inv pending doomed s) (hr : Removes s t k s') (ho : s.slab.entries k' = .occupied t') :
    k' ≠ k ↔ t' ≠ t := by
  refine not_congr ⟨?_, ?_⟩
  · rintro rfl
    exact Entry.occupied.inj (ho.symm.trans hr.occupied)
  · rintro rfl
    exact h.key_unique ho hr.occupied

theorem live_iff (h : Inv pending doomed s) (hr : Removes s t k s') :
    s'.Live t' k' ↔ s'.slab.entries k' = .occupied t' := by
  have hlive := h.live t' k'
  rw [Live] at hlive ⊢
  rw [hr.occupied_iff, hr.mem_log (fun ha => by cases ha), hr.removed_iff, not_or, ← hlive]
  constructor
  · rintro ⟨hi, ht, hn⟩
    exact ⟨(hr.elsewhere h (hlive.mp ⟨hi, hn⟩)).mpr ht, hi, hn⟩
  · rintro ⟨hk, hi, hn⟩
    exact ⟨hi, (hr.elsewhere h (hlive.mp ⟨hi, hn⟩)).mp hk, hn⟩

theorem flagged (h : Inv pending doomed s) (hr : Removes s t k s') (hk' : s'.status k' ≠ .clear) :
    ∃ t', s'.slab.entries k' = .occupied t' := by
  have hk : k' ≠ k := by
    rintro rfl
    exact hk' (by rw [hr.status, Function.update_self])
  rw [hr.status_of_ne hk] at hk'
  obtain ⟨t', ho⟩ := h.flagged k' hk'
  exact ⟨t', hr.occupied_iff.mpr ⟨hk, ho⟩⟩

theorem used (h : Inv pending doomed s) (hr : Removes s t k s') (hi : .inserted t' k' ∈ s'.log) :
    s'.slab.entries k' ≠ .none := by
  obtain ⟨next, he⟩ := hr.entries
  rw [he]
  by_cases hk : k' = k
  · subst k'
    simp
  · rw [Function.update_of_ne hk]
    exact h.used t' k' ((hr.mem_log (fun ha => by cases ha)).mp hi)

theorem handle (h : Inv pending doomed s) (hr : Removes s t k s') {doomed' : Nat → Prop}
    (hdoomed : ∀ k', doomed' k' ↔ doomed k' ∧ k' ≠ k) (hk' : s'.handles t' = some k') :
    s'.slab.entries k' = .occupied t' ∧ (s'.status k').dropped = false ∧ ¬doomed' k' ∧ .dropped t' ∉ s'.log := by
  rw [hr.handles] at hk'
  have ht : t' ≠ t := by
    rintro rfl
    rw [Function.update_self] at hk'
    cases hk'
  rw [Function.update_of_ne ht] at hk'
  obtain ⟨ho, hd, hn, hl⟩ := h.handles t' k' hk'
  have hk := (hr.elsewhere h ho).mpr ht
  rw [hr.status_of_ne hk, hdoomed, hr.mem_log (fun ha => by cases ha)]
  exact ⟨hr.occupied_iff.mpr ⟨hk, ho⟩, hd, fun hx => hn hx.1, hl⟩

theorem inv (h : Inv pending doomed s) (hr : Removes s t k s') (hp : ¬pending k)
    (hkept : .dropped t ∈ s.log → k % 64 ≠ 0) {doomed' : Nat → Prop}
    (hdoomed : ∀ k', doomed' k' ↔ doomed k' ∧ k' ≠ k) : Inv pending doomed' s' where
  slab := hr.slab
  covered := by
    intro k' t' ho
    rw [hr.pages]
    exact h.covered k' t' (hr.occupied_iff.mp ho).2
  flagged _ hk' := hr.flagged h hk'
  live _ _ := hr.live_iff h
  once := by
    intro t' k₁ k₂ hi₁ hi₂
    exact h.once t' k₁ k₂ ((hr.mem_log (fun ha => by cases ha)).mp hi₁) ((hr.mem_log (fun ha => by cases ha)).mp hi₂)
  used _ _ hi := hr.used h hi
  named := by
    intro a ha
    rw [hr.log] at ha
    rw [hr.spawned]
    rcases List.mem_cons.mp ha with rfl | ha
    · exact h.lt_spawned hr.occupied
    · exact h.named a ha
  handles _ _ hk' := hr.handle h hdoomed hk'
  completed := by
    intro t' k' hc ho
    obtain ⟨hk, ho⟩ := hr.occupied_iff.mp ho
    rw [hr.status_of_ne hk]
    exact h.completed t' k' ((hr.mem_log (fun ha => by cases ha)).mp hc) ho
  orphans := by
    intro t' k' hd ho hk0
    obtain ⟨hk, ho⟩ := hr.occupied_iff.mp ho
    rw [hr.status_of_ne hk, hdoomed]
    exact (h.orphans t' k' ((hr.mem_log (fun ha => by cases ha)).mp hd) ho hk0).imp id fun hx => ⟨hx, hk⟩
  kept := by
    intro t' k' hd hi hk0
    have hd := (hr.mem_log (fun ha => by cases ha)).mp hd
    have hi := (hr.mem_log (fun ha => by cases ha)).mp hi
    rw [hr.removed_iff, not_or]
    refine ⟨?_, h.kept t' k' hd hi hk0⟩
    rintro rfl
    obtain rfl := h.once t' k' k hi ((h.live t' k).mpr hr.occupied).1
    exact hkept hd hk0
  polls := by
    rw [hr.log]
    exact polls_cons h.polls (by simp)
  pending := by
    intro k' hp'
    obtain ⟨⟨t', ho⟩, hc⟩ := h.pending k' hp'
    have hk : k' ≠ k := fun hk => hp (hk ▸ hp')
    rw [hr.status_of_ne hk]
    exact ⟨⟨t', hr.occupied_iff.mpr ⟨hk, ho⟩⟩, hc⟩
  doomed := by
    intro k' hd
    obtain ⟨hd, hk⟩ := (hdoomed k').mp hd
    obtain ⟨t', ho⟩ := h.doomed k' hd
    exact ⟨t', hr.occupied_iff.mpr ⟨hk, ho⟩⟩

end Removes

theorem Inv.take (h : Inv pending doomed s) (hfree : ∀ k, s.handles t = some k → ¬pending k) :
    ∃ s', s.take t = some s' ∧ Inv pending doomed s' ∧ Grows s s' ∧
      ∀ k, pending k → s'.slab.entries k = s.slab.entries k := by
  cases hk : s.handles t with
  | none =>
    refine ⟨s, ?_, h, .refl s, fun _ _ => rfl⟩
    simp [Scheduler.take, hk]
  | some k =>
    obtain ⟨ho, hd, hn, hl⟩ := h.handles t k hk
    have hlt := h.covered k t ho
    have hget : s.pages[k / 64]? = some s.pages[k / 64] := List.getElem?_eq_getElem hlt
    have hwas : s.pages[k / 64].wasDropped (k % 64) = false := by
      rw [status, Flags.ofKey_of_getElem? hget] at hd
      exact hd
    obtain ⟨slab, hremove, hslab, he⟩ := h.slab.removeUnpin ho
    refine ⟨{ s with
      slab := slab
      pages := s.pages.modify (k / 64) (·.clear (k % 64))
      handles := Function.update s.handles t none
      log := .removed t :: s.log }, ?_, ?_, ⟨List.suffix_cons _ _, by simp⟩, ?_⟩
    · simp [Scheduler.take, hk, hget, hwas, hremove]
    · have hclear := Flags.ofKey_modify hlt (g := fun _ => .clear) fun p jx => Flags.ofPage_clear p jx
      apply Removes.inv h (t := t) (k := k)
      · exact ⟨hslab, ho, ⟨_, he⟩, List.length_modify .., hclear, rfl, rfl, rfl⟩
      · exact hfree k hk
      · exact fun hx => absurd hx hl
      · intro k'
        exact ⟨fun hx => ⟨hx, fun hkk => hn (hkk ▸ hx)⟩, fun hx => hx.1⟩
    · intro k' hp
      exact (congrFun he k').trans (Function.update_of_ne (fun hkk : k' = k => hfree k hk (hkk ▸ hp)) _ _)

/-- Which calls the scheduler copes with: no wake for a key without a task, and no task taken out that the page
at work still has to poll or is just polling. -/
def CallSound (busy : Nat → Prop) (s : Scheduler) : Call → Prop
  | .insert | .drop _ => True
  | .take task => ∀ key, s.handles task = some key → ¬busy key
  | .wake key => (s.slab.get key).isSome

theorem dropHandle_grows (s : Scheduler) (t : Nat) : Grows s (s.dropHandle t) := by
  unfold dropHandle
  split
  · exact .refl s
  · exact ⟨List.suffix_cons _ _, by simp⟩

theorem wake_grows (s : Scheduler) (k : Nat) : Grows s (s.wake k) := ⟨List.suffix_refl _, by simp [wake]⟩

theorem dropHandle_slab (s : Scheduler) (t : Nat) : (s.dropHandle t).slab = s.slab := by
  unfold dropHandle
  split <;> rfl

/-- What calls keep while a page is at work: the tasks it still has to poll stay in their places. -/
structure Keeps (pending doomed : Nat → Prop) (s s' : Scheduler) : Prop where
  inv : Inv pending doomed s'
  grows : Grows s s'
  entries : ∀ k, pending k → s'.slab.entries k = s.slab.entries k

theorem Inv.call (h : Inv pending doomed s) {c : Call} (hc : CallSound pending s c) :
    ∃ s', s.call c = some s' ∧ Keeps pending doomed s s' := by
  cases c with
  | insert =>
    obtain ⟨s', hi, hinv, hg, he⟩ := h.insert
    exact ⟨s', hi, hinv, hg, he⟩
  | take task =>
    obtain ⟨s', ht, hinv, hg, he⟩ := h.take hc
    exact ⟨s', ht, hinv, hg, he⟩
  | drop task =>
    refine ⟨_, rfl, h.dropHandle task, dropHandle_grows s task, ?_⟩
    intro k _
    rw [dropHandle_slab]
  | wake key =>
    obtain ⟨t, ht⟩ := Option.isSome_iff_exists.mp hc
    exact ⟨_, rfl, h.wake ((PinSlab.get_eq_some h.slab).mp ht), wake_grows s key, fun _ _ => rfl⟩

theorem Inv.calls (h : Inv pending doomed s) {calls : List Call}
    (hc : Admits Scheduler.call (CallSound pending) s calls) :
    ∃ s', run Scheduler.call s calls = some s' ∧ Keeps pending doomed s s' := by
  have hstep : ∀ x c, Keeps pending doomed s x → CallSound pending x c →
      ∃ x', x.call c = some x' ∧ Keeps pending doomed s x' := by
    intro x c hx hsound
    obtain ⟨x', hcall, hk⟩ := hx.inv.call hsound
    refine ⟨x', hcall, hk.inv, hx.grows.trans hk.grows, ?_⟩
    intro k hp
    rw [hk.entries k hp, hx.entries k hp]
  exact run_invariant hstep ⟨h, .refl s, fun _ _ => rfl⟩ hc

theorem Inv.mono {pending' : Nat → Prop} (h : Inv pending doomed s) (hp : ∀ k, pending' k → pending k) :
    Inv pending' doomed s :=
  { h with pending := fun k hk => h.pending k (hp k hk) }

theorem Inv.polled (h : Inv pending doomed s) (hp : pending k) (ho : s.slab.entries k = .occupied t) :
    Inv pending doomed { s with log := .polled t k :: s.log } := by
  have hc : .completed t ∉ s.log := by
    intro hc
    have := h.completed t k hc ho
    rw [(h.pending k hp).2] at this
    cases this
  have hr := ((h.live t k).mpr ho).2
  exact {
    slab := h.slab
    covered := h.covered
    flagged := h.flagged
    live := by
      intro t' k'
      simpa [Live] using h.live t' k'
    once := by
      intro t' k' k''
      simpa using h.once t' k' k''
    used := by
      intro t' k' hi
      exact h.used t' k' (by simpa using hi)
    named := by
      intro a ha
      rcases List.mem_cons.mp ha with rfl | ha
      · exact h.lt_spawned ho
      · exact h.named a ha
    handles := by
      intro t' k' hk'
      obtain ⟨ho', hd, hn, hl⟩ := h.handles t' k' hk'
      exact ⟨ho', hd, hn, by simpa using hl⟩
    completed := by
      intro t' k' hc' ho'
      exact h.completed t' k' (by simpa using hc') ho'
    orphans := by
      intro t' k' hd ho' hk0
      exact h.orphans t' k' (by simpa using hd) ho' hk0
    kept := by
      intro t' k' hd hi hk0
      simpa using h.kept t' k' (by simpa using hd) (by simpa using hi) hk0
    polls := by
      apply polls_cons h.polls
      intro t' k' he
      obtain ⟨rfl, rfl⟩ := Action.polled.inj he
      exact ⟨hc, hr⟩
    pending := h.pending
    doomed := h.doomed }

theorem Inv.markCompleted (h : Inv pending doomed s) (ho : s.slab.entries k = .occupied t) :
    Inv (fun k' => pending k' ∧ k' ≠ k) doomed { s with
      pages := s.pages.modify (k / 64) (·.markCompleted (k % 64))
      log := .completed t :: s.log } := by
  have hlt := h.covered k t ho
  have hstatus := Flags.ofKey_modify hlt (g := fun x => { x with completed := true })
    fun p jx => Flags.ofPage_markCompleted p (Nat.mod_lt k (by decide)) jx
  have hdropped : ∀ k', (Flags.ofKey (s.pages.modify (k / 64) (·.markCompleted (k % 64))) k').dropped =
      (s.status k').dropped := by
    intro k'
    rw [hstatus]
    by_cases hk : k' = k
    · subst k'
      rw [Function.update_self]
      rfl
    · rw [Function.update_of_ne hk]
      rfl
  exact {
    slab := h.slab
    covered := by
      intro k' t' ho'
      simpa using h.covered k' t' ho'
    flagged := by
      intro k' hk'
      simp only [status, hstatus] at hk'
      by_cases hk : k' = k
      · exact ⟨t, hk ▸ ho⟩
      · rw [Function.update_of_ne hk] at hk'
        exact h.flagged k' hk'
    live := by
      intro t' k'
      simpa [Live] using h.live t' k'
    once := by
      intro t' k' k''
      simpa using h.once t' k' k''
    used := by
      intro t' k' hi
      exact h.used t' k' (by simpa using hi)
    named := by
      intro a ha
      rcases List.mem_cons.mp ha with rfl | ha
      · exact h.lt_spawned ho
      · exact h.named a ha
    handles := by
      intro t' k' hk'
      obtain ⟨ho', hd, hn, hl⟩ := h.handles t' k' hk'
      exact ⟨ho', (hdropped k').trans hd, hn, by simpa using hl⟩
    completed := by
      intro t' k' hc ho'
      simp only [status, hstatus]
      by_cases hk : k' = k
      · subst k'
        rw [Function.update_self]
      · rw [Function.update_of_ne hk]
        have ht : t' ≠ t := fun ht => hk (h.key_unique (ht ▸ ho') ho)
        exact h.completed t' k' (by simpa [ht] using hc) ho'
    orphans := by
      intro t' k' hd ho' hk0
      have := h.orphans t' k' (by simpa using hd) ho' hk0
      rwa [← hdropped k'] at this
    kept := by
      intro t' k' hd hi hk0
      simpa using h.kept t' k' (by simpa using hd) (by simpa using hi) hk0
    polls := polls_cons h.polls (by simp)
    pending := by
      rintro k' ⟨hp, hk⟩
      simp only [status, hstatus]
      rw [Function.update_of_ne hk]
      exact h.pending k' hp
    doomed := h.doomed }

/-- The places `subs` of a page. -/
def onPage (pageIx : Nat) (subs : List Nat) (key : Nat) : Prop := key / 64 = pageIx ∧ key % 64 ∈ subs

/-- What a page has found notified and not polled yet when the task at place `subpageIx` runs. -/
def pendingFrom (pageIx : Nat) (notified : Waker64) (subpageIx key : Nat) : Prop :=
  key / 64 = pageIx ∧ subpageIx ≤ key % 64 ∧ notified.isSet (key % 64) = true

def TurnSound (behave : Nat → Behaviour) (pageIx : Nat) (notified : Waker64) (s : Scheduler) (subpageIx : Nat) : Prop :=
  let ix := pageIx * 64 + subpageIx
  ∀ task, s.slab.get ix = some task →
    Admits call (CallSound (pendingFrom pageIx notified subpageIx)) { s with log := .polled task ix :: s.log }
      (behave ix).calls

/-- A task that is dropped by the scheduler makes no calls that borrow it. -/
def DropSound (s : Scheduler) : Call → Prop
  | .insert | .take _ => False
  | .drop _ => True
  | .wake key => (s.slab.get key).isSome

def ReclaimSound (behave : Nat → Behaviour) (pageIx : Nat) (s : Scheduler) (subpageIx : Nat) : Prop :=
  subpageIx ≠ 0 → Admits borrowedCall DropSound s (behave (pageIx * 64 + subpageIx)).dropCalls

def PageSound (behave : Nat → Behaviour) (s : Scheduler) (pageIx : Nat) : Prop :=
  ∀ taken, s.takeFlags pageIx = some taken →
    Admits (turn behave pageIx) (TurnSound behave pageIx taken.1.1) taken.2 taken.1.1.bits ∧
    ∀ s', run (turn behave pageIx) taken.2 taken.1.1.bits = some s' →
      Admits (reclaim behave pageIx) (ReclaimSound behave pageIx) s' taken.1.2.bits

def Sound (s : Scheduler) : SchedulerEvent → Prop
  | .call c => CallSound (fun _ => False) s c
  | .poll behave => Admits (pollPage behave) (PageSound behave) s (List.range s.pages.length)

instance (busy : Nat → Prop) [DecidablePred busy] (s : Scheduler) : (c : Call) → Decidable (CallSound busy s c)
  | .insert | .drop _ => inferInstanceAs (Decidable True)
  | .take _ => inferInstanceAs (Decidable (∀ _, _ = some _ → _))
  | .wake _ => inferInstanceAs (Decidable (_ = true))

instance (s : Scheduler) : (c : Call) → Decidable (DropSound s c)
  | .insert | .take _ => inferInstanceAs (Decidable False)
  | .drop _ => inferInstanceAs (Decidable True)
  | .wake _ => inferInstanceAs (Decidable (_ = true))

instance (pageIx : Nat) (notified : Waker64) (sub : Nat) : DecidablePred (pendingFrom pageIx notified sub) :=
  fun _ => inferInstanceAs (Decidable (_ ∧ _ ∧ _))

instance (behave : Nat → Behaviour) (pageIx : Nat) (notified : Waker64) (s : Scheduler) (sub : Nat) :
    Decidable (TurnSound behave pageIx notified s sub) :=
  inferInstanceAs (Decidable (∀ _, _ = some _ → _))

instance (behave : Nat → Behaviour) (pageIx : Nat) (s : Scheduler) (sub : Nat) :
    Decidable (ReclaimSound behave pageIx s sub) :=
  inferInstanceAs (Decidable (_ → _))

instance (behave : Nat → Behaviour) (s : Scheduler) (pageIx : Nat) : Decidable (PageSound behave s pageIx) :=
  inferInstanceAs (Decidable (∀ _, _ = some _ → _ ∧ ∀ _, _ = some _ → _))

instance (s : Scheduler) : (e : SchedulerEvent) → Decidable (s.Sound e)
  | .call _ => inferInstanceAs (Decidable (CallSound _ _ _))
  | .poll _ => inferInstanceAs (Decidable (Admits _ _ _ _))

theorem CallSound.mono {busy busy' : Nat → Prop} (hb : ∀ k, busy' k → busy k) {c : Call} (h : CallSound busy s c) :
    CallSound busy' s c := by
  cases c with
  | take task => exact fun key hk hbusy => h key hk (hb key hbusy)
  | insert => trivial
  | drop => trivial
  | wake => exact h

theorem Inv.turn {behave : Nat → Behaviour} {pageIx sub : Nat} {rest : List Nat} {notified : Waker64}
    (h : Inv (onPage pageIx (sub :: rest)) doomed s) (hset : ∀ x ∈ sub :: rest, notified.isSet x = true)
    (hsorted : (sub :: rest).Pairwise (· < ·)) (hsound : TurnSound behave pageIx notified s sub) :
    ∃ s', turn behave pageIx s sub = some s' ∧ Inv (onPage pageIx rest) doomed s' ∧ Grows s s' := by
  obtain ⟨hlt, -⟩ := List.pairwise_cons.mp hsorted
  have hsub : sub < 64 := Waker64.bits_lt (Waker64.mem_bits.mpr (hset sub List.mem_cons_self))
  have hix : (pageIx * 64 + sub) / 64 = pageIx := by omega
  have hmod : (pageIx * 64 + sub) % 64 = sub := by omega
  have hp : onPage pageIx (sub :: rest) (pageIx * 64 + sub) := ⟨hix, by rw [hmod]; exact List.mem_cons_self⟩
  obtain ⟨⟨task, ho⟩, -⟩ := h.pending _ hp
  have hget := (PinSlab.get_eq_some h.slab).mpr ho
  have hbusy : ∀ k, onPage pageIx (sub :: rest) k → pendingFrom pageIx notified sub k := by
    rintro k ⟨hk, hm⟩
    refine ⟨hk, ?_, hset _ hm⟩
    rcases List.mem_cons.mp hm with he | hm
    · omega
    · exact Nat.le_of_lt (hlt _ hm)
  have hadmits := Admits.mono (fun x c hc => CallSound.mono (s := x) hbusy (c := c) hc) (hsound task hget)
  obtain ⟨s₁, hrun, hk⟩ := (h.polled hp ho).calls hadmits
  have hgrows : Grows s s₁ := ⟨(List.suffix_cons _ _).trans hk.grows.log, hk.grows.pages⟩
  have ho₁ : s₁.slab.entries (pageIx * 64 + sub) = .occupied task := (hk.entries _ hp).trans ho
  have hrest : ∀ k, onPage pageIx rest k → onPage pageIx (sub :: rest) k ∧ k ≠ pageIx * 64 + sub := by
    rintro k ⟨hkp, hm⟩
    refine ⟨⟨hkp, List.mem_cons_of_mem sub hm⟩, ?_⟩
    rintro rfl
    rw [hmod] at hm
    exact absurd (hlt sub hm) (Nat.lt_irrefl sub)
  cases hready : (behave (pageIx * 64 + sub)).ready with
  | false =>
    refine ⟨s₁, ?_, hk.inv.mono fun k hkr => (hrest k hkr).1, hgrows⟩
    simp [Scheduler.turn, hget, hrun, hready]
  | true =>
    have hmark := hk.inv.markCompleted ho₁
    rw [hix, hmod] at hmark
    refine ⟨_, ?_, hmark.mono hrest, hgrows.trans ⟨List.suffix_cons _ _, ?_⟩⟩
    · simp [Scheduler.turn, hget, hrun, hready]
    · simp

theorem Inv.turns {behave : Nat → Behaviour} {pageIx : Nat} {subs : List Nat} {notified : Waker64}
    (h : Inv (onPage pageIx subs) doomed s) (hset : ∀ x ∈ subs, notified.isSet x = true)
    (hsorted : subs.Pairwise (· < ·)) (hsound : Admits (Scheduler.turn behave pageIx) (TurnSound behave pageIx notified) s subs) :
    ∃ s', run (Scheduler.turn behave pageIx) s subs = some s' ∧ Inv (onPage pageIx []) doomed s' ∧ Grows s s' := by
  induction subs generalizing s with
  | nil => exact ⟨s, rfl, h, .refl s⟩
  | cons sub rest ih =>
    obtain ⟨s₁, hturn, h₁, hg₁⟩ := h.turn hset hsorted hsound.1
    obtain ⟨s₂, hrun, h₂, hg₂⟩ := ih h₁ (fun x hx => hset x (List.mem_cons_of_mem sub hx))
      (List.pairwise_cons.mp hsorted).2 (hsound.2 s₁ hturn)
    exact ⟨s₂, (run_cons hturn).trans hrun, h₂, hg₁.trans hg₂⟩

end Scheduler

end Capybara
