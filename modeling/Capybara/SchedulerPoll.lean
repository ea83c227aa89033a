import Capybara.SchedulerSafety

namespace Capybara

open Runs

namespace Scheduler

variable {pending doomed : Nat → Prop} {s s' : Scheduler} {t k pageIx : Nat} {behave : Nat → Behaviour}

abbrev Idle (_ : Nat) : Prop := False

theorem onPage_nil (pageIx : Nat) : onPage pageIx [] = Idle := by
  funext k
  simp [onPage]

theorem ofKey_set {pages : List WakerPage} {p : WakerPage} (h : pages[pageIx]? = some p) (p' : WakerPage) (k : Nat) :
    Flags.ofKey (pages.set pageIx p') k = if k / 64 = pageIx then .ofPage p' (k % 64) else Flags.ofKey pages k := by
  obtain ⟨hlt, -⟩ := List.getElem?_eq_some_iff.mp h
  by_cases hk : k / 64 = pageIx
  · rw [if_pos hk, Flags.ofKey, hk, List.getElem?_set_self hlt]
  · rw [if_neg hk, Flags.ofKey, List.getElem?_set_ne (Ne.symm hk)]
    rfl

theorem Inv.takeFlags (h : Inv Idle Idle s) (hlt : pageIx < s.pages.length) :
    ∃ notified dropped s₁, s.takeFlags pageIx = some ((notified, dropped), s₁) ∧
      Inv (onPage pageIx notified.bits) (onPage pageIx dropped.bits) s₁ ∧ s₁.log = s.log ∧ Grows s s₁ ∧
      ∀ k, k / 64 = pageIx → (s₁.status k).dropped = false := by
  obtain ⟨p, hp⟩ : ∃ p, s.pages[pageIx]? = some p := ⟨_, List.getElem?_eq_getElem hlt⟩
  have hstatus : ∀ k, k / 64 = pageIx → s.status k = .ofPage p (k % 64) := by
    rintro k rfl
    exact Flags.ofKey_of_getElem? hp
  have hset := ofKey_set hp p.takeNotified.2.takeDropped.2
  have hinv : Inv Idle (onPage pageIx p.dropped.bits)
      { s with pages := s.pages.set pageIx p.takeNotified.2.takeDropped.2 } := by
    apply h.flags
    · simp
    · intro k hk
      apply h.flagged k
      rw [hset] at hk
      split at hk
      next hpage =>
        rw [hstatus k hpage]
        intro hclear
        apply hk
        simp only [Flags.ofPage, Flags.clear, Flags.mk.injEq] at hclear ⊢
        exact ⟨Waker64.isSet_zero _, hclear.2.1, Waker64.isSet_zero _⟩
      next => exact hk
    · intro k
      rw [hset]
      split
      next hpage =>
        rw [hstatus k hpage]
        rfl
      next => rfl
    · intro k
      rw [hset]
      simp only [onPage, Waker64.mem_bits, or_false]
      split
      next hpage =>
        rw [hstatus k hpage]
        simp [hpage, Flags.ofPage, WakerPage.takeDropped, Waker64.isSet]
      next hpage =>
        simp [hpage, status]
    · rintro k ⟨hpage, hm⟩
      apply h.flagged k
      rw [hstatus k hpage]
      intro hclear
      have hd := congrArg Flags.dropped hclear
      rw [Waker64.mem_bits] at hm
      simp [Flags.ofPage, Flags.clear, hm] at hd
  refine ⟨p.takeNotified.1, p.dropped, _, ?_, { hinv with pending := ?_ }, rfl, ⟨List.suffix_refl _, by simp⟩, ?_⟩
  · simp [Scheduler.takeFlags, hp, WakerPage.takeDropped]
    rfl
  · rintro k ⟨hpage, hm⟩
    rw [Waker64.mem_bits, WakerPage.isSet_takeNotified] at hm
    simp only [Bool.and_eq_true, Bool.not_eq_true'] at hm
    obtain ⟨⟨hn, hc⟩, -⟩ := hm
    constructor
    · apply h.flagged k
      rw [hstatus k hpage]
      intro hclear
      have hx := congrArg Flags.notified hclear
      simp [Flags.ofPage, Flags.clear, hn] at hx
    · change (Flags.ofKey _ k).completed = false
      rw [hset, if_pos hpage]
      exact hc
  · intro k hpage
    change (Flags.ofKey _ k).dropped = false
    rw [hset, if_pos hpage]
    exact Waker64.isSet_zero _

theorem Inv.borrowedCalls (h : Inv pending doomed s) {calls : List Call}
    (hc : Admits borrowedCall DropSound s calls) :
    ∃ s', run borrowedCall s calls = some s' ∧ Inv pending doomed s' ∧ Grows s s' ∧ s'.slab = s.slab := by
  have hstep : ∀ x c, (Inv pending doomed x ∧ Grows s x ∧ x.slab = s.slab) → DropSound x c →
      ∃ x', x.borrowedCall c = some x' ∧ Inv pending doomed x' ∧ Grows s x' ∧ x'.slab = s.slab := by
    rintro x c ⟨hx, hg, hslab⟩ hsound
    cases c with
    | insert => exact hsound.elim
    | take => exact hsound.elim
    | drop task =>
      exact ⟨_, rfl, hx.dropHandle task, hg.trans (dropHandle_grows x task), (dropHandle_slab x task).trans hslab⟩
    | wake key =>
      obtain ⟨t, ht⟩ := Option.isSome_iff_exists.mp hsound
      exact ⟨_, rfl, hx.wake ((PinSlab.get_eq_some hx.slab).mp ht), hg.trans (wake_grows x key), hslab⟩
  exact run_invariant hstep ⟨h, .refl s, rfl⟩ hc

/-- A task that is not going to be removed after all, because it is the first one of its page. -/
theorem Inv.spare (h : Inv pending doomed s) {doomed' : Nat → Prop} (hd : ∀ k, doomed' k → doomed k)
    (hspared : ∀ k, doomed k → k % 64 ≠ 0 → doomed' k) : Inv pending doomed' s :=
  { h with
    handles := by
      intro t k hk
      obtain ⟨ho, hf, hn, hl⟩ := h.handles t k hk
      exact ⟨ho, hf, fun hx => hn (hd k hx), hl⟩
    orphans := by
      intro t k hx ho hk0
      exact (h.orphans t k hx ho hk0).imp id fun hy => hspared k hy hk0
    doomed := fun k hx => h.doomed k (hd k hx) }

theorem Inv.reclaim {sub : Nat} {rest : List Nat} (h : Inv pending (onPage pageIx (sub :: rest)) s)
    (hp : ∀ k, ¬pending k) (hsub : sub < 64) (hnot : sub ∉ rest) (hsound : ReclaimSound behave pageIx s sub) :
    ∃ s', reclaim behave pageIx s sub = some s' ∧ Inv pending (onPage pageIx rest) s' ∧ Grows s s' ∧
      (sub ≠ 0 → ∀ t, s.Live t (pageIx * 64 + sub) → .removed t ∈ s'.log) := by
  by_cases hzero : sub = 0
  · subst sub
    refine ⟨s, by simp [Scheduler.reclaim], h.spare ?_ ?_, .refl s, fun hx => absurd rfl hx⟩
    · rintro k ⟨hpage, hm⟩
      exact ⟨hpage, List.mem_cons_of_mem 0 hm⟩
    · rintro k ⟨hpage, hm⟩ hk
      exact ⟨hpage, (List.mem_cons.mp hm).resolve_left hk⟩
  · have hix : (pageIx * 64 + sub) / 64 = pageIx := by omega
    have hmod : (pageIx * 64 + sub) % 64 = sub := by omega
    generalize hkey : pageIx * 64 + sub = ix at hix hmod
    have hdoomed : onPage pageIx (sub :: rest) ix := ⟨hix, by rw [hmod]; exact List.mem_cons_self⟩
    obtain ⟨task, ho⟩ := h.doomed ix hdoomed
    have hget := (PinSlab.get_eq_some h.slab).mpr ho
    obtain ⟨s₁, hrun, h₁, hg₁, hslab₁⟩ := h.borrowedCalls (hkey ▸ hsound hzero)
    have ho₁ : s₁.slab.entries ix = .occupied task := hslab₁ ▸ ho
    obtain ⟨slab, hremove, hslab, he⟩ := h₁.slab.remove ho₁
    have hhandle : s₁.handles task = none := by
      cases hk : s₁.handles task with
      | none => rfl
      | some k =>
        obtain ⟨ho', -, hn, -⟩ := h₁.handles task k hk
        exact absurd (h₁.key_unique ho₁ ho' ▸ hdoomed) hn
    refine ⟨{ s₁ with slab := slab, pages := s₁.pages.modify pageIx (·.clear sub), log := .removed task :: s₁.log },
      ?_, ?_, hg₁.trans ⟨List.suffix_cons _ _, by simp⟩, ?_⟩
    · simp [Scheduler.reclaim, hzero, hkey, removeTask, hget, hrun, hremove]
    · have hclear := Flags.ofKey_modify (h₁.covered ix task ho₁) (g := fun _ => .clear) fun p jx => Flags.ofPage_clear p jx
      rw [hix, hmod] at hclear
      apply Removes.inv h₁ (t := task) (k := ix)
      · refine ⟨hslab, ho₁, ⟨_, he⟩, List.length_modify .., hclear, ?_, rfl, rfl⟩
        rw [← hhandle, Function.update_eq_self]
      · exact hp ix
      · exact fun _ => by omega
      · intro k
        constructor
        · rintro ⟨hpage, hm⟩
          refine ⟨⟨hpage, List.mem_cons_of_mem sub hm⟩, ?_⟩
          rintro rfl
          exact hnot (hmod ▸ hm)
        · rintro ⟨⟨hpage, hm⟩, hne⟩
          refine ⟨hpage, (List.mem_cons.mp hm).resolve_left fun hx => hne ?_⟩
          omega
    · intro _ t hlive
      have ht := (h.live t ix).mp hlive
      rw [ho] at ht
      rw [Entry.occupied.inj ht]
      exact List.mem_cons_self

theorem Grows.removed (h : Grows s s') (hr : .removed t ∈ s.log) : .removed t ∈ s'.log := h.log.subset hr

theorem Grows.live (h : Grows s s') (hl : s.Live t k) : s'.Live t k ∨ .removed t ∈ s'.log := by
  by_cases hr : .removed t ∈ s'.log
  · exact .inr hr
  · exact .inl ⟨h.log.subset hl.1, hr⟩

theorem Inv.reclaims {subs : List Nat} (h : Inv pending (onPage pageIx subs) s) (hp : ∀ k, ¬pending k)
    (hlt : ∀ x ∈ subs, x < 64) (hd : subs.Nodup)
    (hsound : Admits (Scheduler.reclaim behave pageIx) (ReclaimSound behave pageIx) s subs) :
    ∃ s', run (Scheduler.reclaim behave pageIx) s subs = some s' ∧ Inv pending (onPage pageIx []) s' ∧ Grows s s' ∧
      ∀ x ∈ subs, x ≠ 0 → ∀ t, s.Live t (pageIx * 64 + x) → .removed t ∈ s'.log := by
  induction subs generalizing s with
  | nil => exact ⟨s, rfl, h, .refl s, by simp⟩
  | cons sub rest ih =>
    obtain ⟨hnot, hd'⟩ := List.nodup_cons.mp hd
    obtain ⟨s₁, hreclaim, h₁, hg₁, hr₁⟩ := h.reclaim hp (hlt sub List.mem_cons_self) hnot hsound.1
    obtain ⟨s₂, hrun, h₂, hg₂, hr₂⟩ := ih h₁ (fun x hx => hlt x (List.mem_cons_of_mem sub hx)) hd' (hsound.2 s₁ hreclaim)
    refine ⟨s₂, (run_cons hreclaim).trans hrun, h₂, hg₁.trans hg₂, ?_⟩
    intro x hx hx0 t hl
    rcases List.mem_cons.mp hx with rfl | hx
    · exact hg₂.removed (hr₁ hx0 t hl)
    · rcases hg₁.live hl with hl₁ | hr
      · exact hr₂ x hx hx0 t hl₁
      · exact hg₂.removed hr

/-- A task whose handle has been dropped is gone from the page that has been polled, unless it was its first one. -/
theorem Inv.pollPage (h : Inv Idle Idle s) (hlt : pageIx < s.pages.length) (hsound : PageSound behave s pageIx) :
    ∃ s', pollPage behave s pageIx = some s' ∧ Inv Idle Idle s' ∧ Grows s s' ∧
      ∀ t k, k / 64 = pageIx → k % 64 ≠ 0 → .dropped t ∈ s.log → .inserted t k ∈ s.log → .removed t ∈ s'.log := by
  obtain ⟨notified, dropped, s₁, htake, h₁, hlog, hg₁, hcleared⟩ := h.takeFlags hlt
  obtain ⟨hturns, hreclaims⟩ := hsound _ htake
  obtain ⟨s₂, hrun₂, h₂, hg₂⟩ := h₁.turns (fun x hx => Waker64.mem_bits.mp hx) notified.bits_sorted hturns
  obtain ⟨s₃, hrun₃, h₃, hg₃, hr₃⟩ := h₂.reclaims (by simp [onPage]) (fun x hx => Waker64.bits_lt hx)
    (dropped.bits_sorted.imp Nat.ne_of_lt) (hreclaims s₂ hrun₂)
  rw [onPage_nil] at h₃
  refine ⟨s₃, ?_, h₃, (hg₁.trans hg₂).trans hg₃, ?_⟩
  · simp [Scheduler.pollPage, htake, hrun₂, hrun₃]
  · intro t k hpage hk0 hd hi
    by_cases hr : .removed t ∈ s.log
    · exact ((hg₁.trans hg₂).trans hg₃).removed hr
    · have hl₁ : s₁.Live t k := by
        rw [Live, hlog]
        exact ⟨hi, hr⟩
      rcases hg₂.live hl₁ with hl₂ | hr₂
      · have horphan := h₁.orphans t k (hlog ▸ hd) ((h₁.live t k).mp hl₁) hk0
        rw [hcleared k hpage] at horphan
        obtain ⟨-, hm⟩ := horphan.resolve_left (by simp)
        refine hr₃ (k % 64) hm hk0 t ?_
        rwa [show pageIx * 64 + k % 64 = k by omega]
      · exact hg₃.removed hr₂

theorem Inv.pollPages {pages : List Nat} (h : Inv Idle Idle s) (hlt : ∀ x ∈ pages, x < s.pages.length)
    (hsound : Admits (Scheduler.pollPage behave) (PageSound behave) s pages) :
    ∃ s', run (Scheduler.pollPage behave) s pages = some s' ∧ Inv Idle Idle s' ∧ Grows s s' ∧
      ∀ t k, k / 64 ∈ pages → k % 64 ≠ 0 → .dropped t ∈ s.log → .inserted t k ∈ s.log → .removed t ∈ s'.log := by
  induction pages generalizing s with
  | nil => exact ⟨s, rfl, h, .refl s, by simp⟩
  | cons pageIx pages ih =>
    obtain ⟨s₁, hpage, h₁, hg₁, hr₁⟩ := h.pollPage (hlt pageIx List.mem_cons_self) hsound.1
    obtain ⟨s₂, hrun, h₂, hg₂, hr₂⟩ := ih h₁
      (fun x hx => Nat.lt_of_lt_of_le (hlt x (List.mem_cons_of_mem pageIx hx)) hg₁.pages) (hsound.2 s₁ hpage)
    refine ⟨s₂, (run_cons hpage).trans hrun, h₂, hg₁.trans hg₂, ?_⟩
    intro t k hk hk0 hd hi
    rcases List.mem_cons.mp hk with hk | hk
    · exact hg₂.removed (hr₁ t k hk hk0 hd hi)
    · exact hr₂ t k hk hk0 (hg₁.log.subset hd) (hg₁.log.subset hi)

theorem Inv.poll (h : Inv Idle Idle s) (hsound : s.Sound (.poll behave)) :
    ∃ s', s.poll behave = some s' ∧ Inv Idle Idle s' ∧ Grows s s' ∧
      ∀ t k, k % 64 ≠ 0 → .dropped t ∈ s.log → .inserted t k ∈ s.log → .removed t ∈ s'.log := by
  obtain ⟨s', hrun, h', hg, hr⟩ := h.pollPages (fun x hx => List.mem_range.mp hx) hsound
  refine ⟨s', hrun, h', hg, ?_⟩
  intro t k hk0 hd hi
  by_cases hrem : .removed t ∈ s.log
  · exact hg.removed hrem
  · have hlt := h.covered k t ((h.live t k).mp ⟨hi, hrem⟩)
    exact hr t k (List.mem_range.mpr hlt) hk0 hd hi

theorem Inv.step (h : Inv Idle Idle s) {e : SchedulerEvent} (hsound : s.Sound e) :
    ∃ s', s.step e = some s' ∧ Inv Idle Idle s' ∧ Grows s s' := by
  cases e with
  | call c =>
    obtain ⟨s', hcall, hk⟩ := h.call hsound
    exact ⟨s', hcall, hk.inv, hk.grows⟩
  | poll behave =>
    obtain ⟨s', hpoll, h', hg, -⟩ := h.poll hsound
    exact ⟨s', hpoll, h', hg⟩

/-- No completed and no removed task is polled, and no two tasks have the same key. -/
structure Safe (s : Scheduler) : Prop where
  polls : ∀ t k before, (.polled t k :: before) <:+ s.log → .completed t ∉ before ∧ .removed t ∉ before
  keys : ∀ t t' k, s.Live t k → s.Live t' k → t = t'

theorem Inv.safe (h : Inv pending doomed s) : s.Safe where
  polls := h.polls
  keys := by
    intro t t' k hl hl'
    have ho := (h.live t k).mp hl
    rw [(h.live t' k).mp hl'] at ho
    exact (Entry.occupied.inj ho).symm

theorem Inv.run (h : Inv Idle Idle s) {events : List SchedulerEvent} (hsound : Admits Scheduler.step Sound s events) :
    ∃ s', Runs.run Scheduler.step s events = some s' ∧ Inv Idle Idle s' ∧ Grows s s' := by
  have hstep : ∀ x e, (Inv Idle Idle x ∧ Grows s x) → Sound x e →
      ∃ x', x.step e = some x' ∧ Inv Idle Idle x' ∧ Grows s x' := by
    rintro x e ⟨hx, hg⟩ he
    obtain ⟨x', hstep, hx', hg'⟩ := hx.step he
    exact ⟨x', hstep, hx', hg.trans hg'⟩
  exact run_invariant hstep ⟨h, .refl s⟩ hsound

/-- No call and no poll panics. -/
def RunSafe (events : List SchedulerEvent) : Prop := ∃ s, Runs.run Scheduler.step new events = some s ∧ s.Safe

theorem runSafe_of_sound {events : List SchedulerEvent} (h : Admits Scheduler.step Sound new events) :
    RunSafe events := by
  obtain ⟨s, hr, hinv, -⟩ := inv_new.run h
  exact ⟨s, hr, hinv.safe⟩

def sampleBehaviour (key : Nat) : Behaviour :=
  if key = 0 then ⟨[.insert, .wake 0, .drop 1], false, []⟩ else ⟨[.wake key], true, [.wake 0]⟩

theorem runSafe_of_sound_sample : RunSafe [.call .insert, .call .insert, .poll sampleBehaviour, .poll sampleBehaviour,
    .call (.take 0), .call .insert, .call (.wake 0), .poll sampleBehaviour] :=
  runSafe_of_sound (by decide +kernel)

/-- Wakers are for keys that have been polled, and tasks make no calls of their own. -/
def Plain (s : Scheduler) : SchedulerEvent → Prop
  | .call (.wake key) => ∃ task, .polled task key ∈ s.log
  | .call _ => True
  | .poll behave => ∀ key, (behave key).calls = [] ∧ (behave key).dropCalls = []

theorem runSafe_fails_at_late_wake :
    ¬∀ events : List SchedulerEvent, Admits Scheduler.step Plain new events → RunSafe events := by
  intro h
  let pending : SchedulerEvent := .poll fun _ => ⟨[], false, []⟩
  have hadmits : Admits Scheduler.step Plain new
      [.call .insert, pending, .call (.take 0), .call (.wake 0), pending] := by
    refine ⟨trivial, fun s₁ h₁ => ⟨fun _ => ⟨rfl, rfl⟩, fun s₂ h₂ => ⟨trivial, fun s₃ h₃ => ⟨⟨0, ?_⟩, fun _ _ =>
      ⟨fun _ => ⟨rfl, rfl⟩, fun _ _ => trivial⟩⟩⟩⟩⟩
    have hrun : Runs.run Scheduler.step new [.call .insert, pending, .call (.take 0)] = some s₃ := by
      rw [run_cons h₁, run_cons h₂, run_cons h₃]
      rfl
    have hlog : (Runs.run Scheduler.step new [.call .insert, pending, .call (.take 0)]).map log =
        some [.removed 0, .polled 0 0, .inserted 0 0] := by decide +kernel
    rw [hrun] at hlog
    rw [Option.some.inj hlog]
    decide
  obtain ⟨s, hs, -⟩ := h _ hadmits
  have hpanic : (Runs.run Scheduler.step new [.call .insert, pending, .call (.take 0), .call (.wake 0), pending]).isSome =
      false := by decide +kernel
  rw [hs] at hpanic
  cases hpanic

end Scheduler

end Capybara
