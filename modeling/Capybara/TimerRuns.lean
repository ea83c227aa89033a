import Capybara.Lib.Runs
import Capybara.Timer

namespace Capybara

variable {queue : PriorityQueue Nat Instant} {Waker : Type}

/-- The clock after the calls. -/
def clockAfter (start : Instant) : List (TimerEvent Waker × TimerOutput Waker) → Instant
  | [] => start
  | (.advanceClock now, _) :: _ => now
  | _ :: log => clockAfter start log

/-- The expiries that the futures were made with. -/
def expiries (start : Instant) : List (TimerEvent Waker × TimerOutput Waker) → List Instant
  | [] => []
  | (.wait timeout, _) :: log => expiries start log ++ [clockAfter start log + timeout]
  | (.waitUntil expiry, _) :: log => expiries start log ++ [expiry]
  | _ :: log => expiries start log

/-- What a future's user knows of it from the last call on it. -/
inductive WaitStatus (Waker : Type)
  | created
  | pending (waker : Waker)
  | completed
  | dropped
  deriving DecidableEq, Repr

def waitStatus (id : Nat) : List (TimerEvent Waker × TimerOutput Waker) → WaitStatus Waker
  | [] => .created
  | (.poll i waker, .polled ready) :: log =>
    if i = id then (if ready then .completed else .pending waker) else waitStatus id log
  | (.drop i, _) :: log => if i = id then .dropped else waitStatus id log
  | _ :: log => waitStatus id log

/-- How a future, its place in the heap and the calls on it go together. -/
inductive WaitFits (now : Instant) :
    Option Instant → Option Instant → WaitStatus Waker → Option (Option (WaitFuture Waker)) → Prop
  | absent : WaitFits now none none .created none
  | unregistered (expiry : Instant) : WaitFits now (some expiry) none .created (some (some (.waitUntil expiry)))
  | registered (expiry : Instant) (waker : Waker) (h : now < expiry) :
    WaitFits now (some expiry) (some expiry) (.pending waker) (some (some ⟨some (), ⟨expiry, some waker, .registered⟩⟩))
  | expired (expiry : Instant) (waker : Waker) (h : expiry ≤ now) :
    WaitFits now (some expiry) none (.pending waker) (some (some ⟨some (), ⟨expiry, none, .expired⟩⟩))
  | completed (expiry : Instant) (h : expiry ≤ now) :
    WaitFits now (some expiry) none .completed (some (some ⟨none, ⟨expiry, none, .expired⟩⟩))
  | dropped (expiry : Instant) : WaitFits now (some expiry) none .dropped (some none)

namespace WaitFits

variable {inner : TimerInner queue} {node : Nat} {expiry : Instant} {status : WaitStatus Waker}
  {slot : Option (Option (WaitFuture Waker))}

/-- A poll of a future that is not yet completed is ready exactly when the clock has reached its expiry. -/
theorem poll [DecidableEq Waker] (h : WaitFits inner.now (some expiry) (queue.key inner.heap node) status slot)
    (hcompleted : status ≠ .completed) (hdropped : status ≠ .dropped) (waker : Waker) :
    ∃ f inner' f', slot = some (some f) ∧
      f.poll inner node waker = some (inner', f', decide (expiry ≤ inner.now)) ∧ inner'.now = inner.now ∧
      (∀ j, j ≠ node → queue.key inner'.heap j = queue.key inner.heap j) ∧
      WaitFits inner.now (some expiry) (queue.key inner'.heap node)
        (if expiry ≤ inner.now then .completed else .pending waker) (some (some f')) := by
  generalize hkey : queue.key inner.heap node = key at h
  cases h with
  | unregistered =>
    by_cases hready : expiry ≤ inner.now
    · refine ⟨_, inner, ⟨none, ⟨expiry, none, .expired⟩⟩, rfl, ?_, rfl, fun _ _ => rfl, ?_⟩
      · simp [WaitFuture.poll, WaitFuture.waitUntil, hready]
      · rw [if_pos hready, hkey]
        exact .completed expiry hready
    · refine ⟨_, { inner with heap := queue.insert node expiry inner.heap },
        ⟨some (), ⟨expiry, some waker, .registered⟩⟩, rfl, ?_, rfl, fun j hj => ?_, ?_⟩
      · simp [WaitFuture.poll, WaitFuture.waitUntil, hready]
      · exact (queue.key_insert inner.heap node expiry j hkey).trans (if_neg hj)
      · rw [if_neg hready, queue.key_insert inner.heap node expiry node hkey, if_pos rfl]
        exact .registered expiry waker (Nat.lt_of_not_le hready)
  | registered _ last hlt =>
    have hready : ¬expiry ≤ inner.now := Nat.not_le.mpr hlt
    refine ⟨_, inner, ⟨some (), ⟨expiry, some waker, .registered⟩⟩, rfl, ?_, rfl, fun _ _ => rfl, ?_⟩
    · by_cases hsame : last = waker
      · simp [WaitFuture.poll, hready, hsame]
      · simp [WaitFuture.poll, hready, hsame]
    · rw [if_neg hready, hkey]
      exact .registered expiry waker hlt
  | expired _ last hle =>
    refine ⟨_, inner, ⟨none, ⟨expiry, none, .expired⟩⟩, rfl, ?_, rfl, fun _ _ => rfl, ?_⟩
    · simp [WaitFuture.poll, hle]
    · rw [if_pos hle, hkey]
      exact .completed expiry hle
  | completed => exact absurd rfl hcompleted
  | dropped => exact absurd rfl hdropped

/-- Dropping a future takes it out of the heap if it is in there. -/
theorem drop (h : WaitFits inner.now (some expiry) (queue.key inner.heap node) status slot)
    (hdropped : status ≠ .dropped) : ∃ f, slot = some (some f) ∧ (f.drop inner node).now = inner.now ∧
      (∀ j, j ≠ node → queue.key (f.drop inner node).heap j = queue.key inner.heap j) ∧
      queue.key (f.drop inner node).heap node = none := by
  generalize hkey : queue.key inner.heap node = key at h
  cases h with
  | unregistered => exact ⟨_, rfl, rfl, fun _ _ => rfl, hkey⟩
  | registered _ last hlt =>
    have hin := Option.ne_none_iff_exists'.mpr ⟨expiry, hkey⟩
    exact ⟨_, rfl, rfl, fun j hj => queue.key_remove_ne hin hj, queue.key_remove_self hin⟩
  | expired => exact ⟨_, rfl, rfl, fun _ _ => rfl, hkey⟩
  | completed => exact ⟨_, rfl, rfl, fun _ _ => rfl, hkey⟩
  | dropped => exact absurd rfl hdropped

section Inversion

variable {old now : Instant} {expiry key : Option Instant}

theorem of_absent (h : WaitFits now expiry key status none) : expiry = none ∧ key = none ∧ status = .created := by
  cases h with
  | absent => exact ⟨rfl, rfl, rfl⟩

/-- An element of the heap is a registered future. -/
theorem of_key {k : Instant} (h : WaitFits now expiry (some k) status slot) : ∃ waker, expiry = some k ∧ now < k ∧
    status = .pending waker ∧ slot = some (some ⟨some (), ⟨k, some waker, .registered⟩⟩) := by
  cases h with
  | registered _ waker hlt => exact ⟨waker, rfl, hlt, rfl, rfl⟩

theorem of_completed (h : WaitFits now expiry key .completed slot) :
    ∃ f : WaitFuture Waker, slot = some (some f) ∧ f.ptr = none := by
  cases h with
  | completed due hle => exact ⟨_, rfl, rfl⟩

theorem of_dropped (h : WaitFits now expiry key .dropped slot) : key = none ∧ slot = some none := by
  cases h with
  | dropped => exact ⟨rfl, rfl⟩

theorem of_present {f : WaitFuture Waker} (h : WaitFits now expiry key status (some (some f))) :
    (∃ due, expiry = some due) ∧ status ≠ .dropped := by
  cases h <;> exact ⟨⟨_, rfl⟩, fun heq => by cases heq⟩

/-- A future whose entry, if there is one, has not expired fits the new clock as it is, and is not to be woken. -/
theorem advance (h : WaitFits old expiry key status slot) (hle : old ≤ now) (hafter : ∀ k, key = some k → now < k) :
    WaitFits now expiry key status slot ∧
      ∀ w, ¬(status = .pending w ∧ ∃ due, expiry = some due ∧ old < due ∧ due ≤ now) := by
  cases h with
  | absent => exact ⟨.absent, by simp⟩
  | unregistered due => exact ⟨.unregistered due, by simp⟩
  | registered due waker hlt =>
    have hlater := hafter due rfl
    refine ⟨.registered due waker hlater, fun w => ?_⟩
    rintro ⟨-, due', hdue, -, hnow⟩
    rw [← Option.some.inj hdue] at hnow
    exact absurd hlater (Nat.not_lt.mpr hnow)
  | expired due waker hexpired =>
    refine ⟨.expired due waker (Nat.le_trans hexpired hle), fun w => ?_⟩
    rintro ⟨-, due', hdue, hold, -⟩
    rw [← Option.some.inj hdue] at hold
    exact absurd hold (Nat.not_lt.mpr hexpired)
  | completed due hexpired => exact ⟨.completed due (Nat.le_trans hexpired hle), by simp⟩
  | dropped due => exact ⟨.dropped due, by simp⟩

end Inversion

end WaitFits

/-- The clock has not yet come to this future. -/
def Untouched (old : Instant) (expiry key : Option Instant) (status : WaitStatus Waker)
    (slot : Option (Option (WaitFuture Waker))) (id : Nat) (wakes : List (Nat × Waker)) : Prop :=
  WaitFits old expiry key status slot ∧ id ∉ wakes.map Prod.fst

/-- The clock has woken this future on its way. -/
def Woken (old now : Instant) (expiry key : Option Instant) (status : WaitStatus Waker)
    (slot : Option (Option (WaitFuture Waker))) (id : Nat) (wakes : List (Nat × Waker)) : Prop :=
  ∃ due waker, expiry = some due ∧ old < due ∧ due ≤ now ∧ status = .pending waker ∧ key = none ∧
    slot = some (some ⟨some (), ⟨due, none, .expired⟩⟩) ∧ ∀ w, (id, w) ∈ wakes ↔ w = waker

/-- While the clock goes on, every future is as it was or has been woken. -/
structure Waking (old now : Instant) (expiries : List Instant) (status : Nat → WaitStatus Waker) (heap : queue.Heap)
    (futures : List (Option (WaitFuture Waker))) (wakes : List (Nat × Waker)) : Prop where
  once : (wakes.map Prod.fst).Nodup
  each : ∀ id, Untouched old expiries[id]? (queue.key heap id) (status id) futures[id]? id wakes ∨
    Woken old now expiries[id]? (queue.key heap id) (status id) futures[id]? id wakes

namespace Waking

variable {old now : Instant} {expiries : List Instant} {status : Nat → WaitStatus Waker} {heap : queue.Heap}
  {futures : List (Option (WaitFuture Waker))} {wakes : List (Nat × Waker)}

theorem registered {id : Nat} {key : Instant} (h : Waking old now expiries status heap futures wakes)
    (hkey : queue.key heap id = some key) : ∃ waker, expiries[id]? = some key ∧ old < key ∧
      status id = .pending waker ∧ futures[id]? = some (some ⟨some (), ⟨key, some waker, .registered⟩⟩) ∧
      id ∉ wakes.map Prod.fst := by
  rcases h.each id with ⟨hfits, hnot⟩ | ⟨_, _, _, _, _, _, hnone, _⟩
  · rw [hkey] at hfits
    obtain ⟨waker, hexpiry, hlt, hstatus, hslot⟩ := hfits.of_key
    exact ⟨waker, hexpiry, hlt, hstatus, hslot, hnot⟩
  · rw [hkey] at hnone
    cases hnone

/-- Waking the first of the expired futures. -/
theorem wake {first : Nat} {key : Instant} {waker : Waker} (h : Waking old now expiries status heap futures wakes)
    (hkey : queue.key heap first = some key) (hexpiry : expiries[first]? = some key) (hold : old < key)
    (hnow : key ≤ now) (hstatus : status first = .pending waker)
    (hslot : futures[first]? = some (some ⟨some (), ⟨key, some waker, .registered⟩⟩))
    (hnot : first ∉ wakes.map Prod.fst) :
    Waking old now expiries status (queue.remove first heap)
      (futures.set first (some ⟨some (), ⟨key, none, .expired⟩⟩)) (wakes ++ [(first, waker)]) := by
  have hin := Option.ne_none_iff_exists'.mpr ⟨key, hkey⟩
  have hlt : first < futures.length := (List.getElem?_eq_some_iff.mp hslot).1
  have hfresh : ∀ w, (first, w) ∉ wakes := fun w hw => hnot (List.mem_map_of_mem hw)
  refine ⟨?_, fun id => ?_⟩
  · rw [List.map_append, List.nodup_append]
    refine ⟨h.once, List.nodup_singleton _, fun a ha b hb => ?_⟩
    rw [List.mem_singleton.mp hb]
    intro heq
    rw [heq] at ha
    exact hnot ha
  · by_cases heq : id = first
    · subst heq
      refine Or.inr ⟨key, waker, hexpiry, hold, hnow, hstatus, queue.key_remove_self hin,
        List.getElem?_set_self hlt, fun w => ?_⟩
      simp [hfresh]
    · rw [queue.key_remove_ne hin heq, List.getElem?_set_ne (Ne.symm heq)]
      rcases h.each id with ⟨hfits, hnot⟩ | ⟨due, w, hw⟩
      · exact Or.inl ⟨hfits, by simpa [heq] using hnot⟩
      · exact Or.inr ⟨due, w, by simpa [heq] using hw⟩

/-- When no entry of the heap has expired, every future is as the new clock has it. -/
theorem done {id : Nat} (h : Waking old now expiries status heap futures wakes) (hle : old ≤ now)
    (hafter : ∀ key, queue.key heap id = some key → now < key) :
    WaitFits now expiries[id]? (queue.key heap id) (status id) futures[id]? ∧
      ∀ w, (id, w) ∈ wakes ↔ status id = .pending w ∧ ∃ due, expiries[id]? = some due ∧ old < due ∧ due ≤ now := by
  rcases h.each id with ⟨hfits, hnot⟩ | ⟨due, waker, hexpiry, hold, hnow, hstatus, hkey, hslot, hwakes⟩
  · have hno : ∀ w, (id, w) ∉ wakes := fun w hw => hnot (List.mem_map_of_mem hw)
    obtain ⟨hnew, hwake⟩ := hfits.advance hle hafter
    exact ⟨hnew, fun w => iff_of_false (hno w) (hwake w)⟩
  · rw [hexpiry, hkey, hstatus, hslot]
    refine ⟨.expired due waker hnow, fun w => ?_⟩
    rw [hwakes]
    constructor
    · rintro rfl
      exact ⟨rfl, due, rfl, hold, hnow⟩
    · rintro ⟨hw, -⟩
      exact (WaitStatus.pending.inj hw).symm

end Waking

/-- The loop ends, having woken every future that was pending and has expired, each once. -/
theorem wakeExpired_spec {old now : Instant} {expiries : List Instant} {status : Nat → WaitStatus Waker}
    (hle : old ≤ now) {steps : Nat} {heap : queue.Heap} {futures : List (Option (WaitFuture Waker))}
    {wakes : List (Nat × Waker)} (hsteps : queue.size heap < steps)
    (h : Waking old now expiries status heap futures wakes) :
    ∃ heap' futures' wakes', wakeExpired now steps heap futures wakes = some (heap', futures', wakes') ∧
      futures'.length = futures.length ∧ (wakes'.map Prod.fst).Nodup ∧
      ∀ id, WaitFits now expiries[id]? (queue.key heap' id) (status id) futures'[id]? ∧
        ∀ w, (id, w) ∈ wakes' ↔ status id = .pending w ∧ ∃ due, expiries[id]? = some due ∧ old < due ∧ due ≤ now := by
  induction steps generalizing heap futures wakes with
  | zero => exact absurd hsteps (Nat.not_lt_zero _)
  | succ steps ih =>
    unfold wakeExpired
    cases hpeek : queue.peekMin heap with
    | none =>
      refine ⟨heap, futures, wakes, rfl, rfl, h.once, fun id => h.done hle fun key hkey => ?_⟩
      rw [queue.key_of_peekMin_none heap id hpeek] at hkey
      cases hkey
    | some first =>
      obtain ⟨key, hkey, hmin⟩ := queue.key_of_peekMin_some heap first hpeek
      obtain ⟨waker, hexpiry, hold, hstatus, hslot, hnot⟩ := h.registered hkey
      have hin := Option.ne_none_iff_exists'.mpr ⟨key, hkey⟩
      dsimp only
      rw [hslot]
      dsimp only
      split
      next hlater =>
        exact ⟨heap, futures, wakes, rfl, rfl, h.once, fun id => h.done hle fun key' hkey' =>
          Nat.lt_of_lt_of_le hlater (hmin id key' hkey')⟩
      next hnow =>
        have hfewer : queue.size (queue.remove first heap) < steps :=
          Nat.lt_of_lt_of_le (queue.size_remove heap first hin) (Nat.le_of_lt_succ hsteps)
        have hwake := h.wake hkey hexpiry hold (Nat.le_of_not_lt hnow) hstatus hslot hnot
        obtain ⟨heap', futures', wakes', hrun, hlength, hrest⟩ := ih hfewer hwake
        exact ⟨heap', futures', wakes', hrun, hlength.trans (List.length_set ..), hrest⟩

namespace Timers

def FitsAt (start : Instant) (t : Timers queue Waker) (id : Nat) : Prop :=
  WaitFits t.inner.now (expiries start t.log)[id]? (queue.key t.inner.heap id) (waitStatus id t.log) t.futures[id]?

structure Fits (start : Instant) (t : Timers queue Waker) : Prop where
  clock : t.inner.now = clockAfter start t.log
  length : (expiries start t.log).length = t.futures.length
  futures : ∀ id, t.FitsAt start id

variable {now : Instant} {t : Timers queue Waker}

theorem fits_start (now : Instant) : (start now : Timers queue Waker).Fits now := by
  refine ⟨rfl, rfl, fun id => ?_⟩
  show WaitFits now none (queue.key queue.empty id) .created none
  rw [queue.key_empty]
  exact .absent

theorem Fits.key_length (h : t.Fits now) : queue.key t.inner.heap t.futures.length = none ∧
    waitStatus t.futures.length t.log = .created := by
  have hfits := h.futures t.futures.length
  unfold FitsAt at hfits
  rw [List.getElem?_eq_none (Nat.le_refl t.futures.length)] at hfits
  exact hfits.of_absent.2

/-- A new future is known to nobody yet. -/
theorem Fits.create (h : t.Fits now) {expiry : Instant} {log : List (TimerEvent Waker × TimerOutput Waker)}
    (hclock : clockAfter now log = clockAfter now t.log) (hexpiries : expiries now log = expiries now t.log ++ [expiry])
    (hstatus : ∀ id, waitStatus id log = waitStatus id t.log) :
    Fits now ⟨t.inner, t.futures ++ [some (.waitUntil expiry)], log⟩ := by
  refine ⟨h.clock.trans hclock.symm, ?_, fun id => ?_⟩
  · simp [hexpiries, h.length]
  · unfold FitsAt
    dsimp only
    rw [hexpiries, hstatus]
    rcases Nat.lt_trichotomy id t.futures.length with hlt | rfl | hgt
    · rw [List.getElem?_append_left (h.length ▸ hlt), List.getElem?_append_left hlt]
      exact h.futures id
    · obtain ⟨hkey, hcreated⟩ := h.key_length
      rw [hkey, hcreated, List.getElem?_concat_length, ← h.length, List.getElem?_concat_length]
      exact .unregistered expiry
    · have hfits := h.futures id
      unfold FitsAt at hfits
      rw [List.getElem?_eq_none (Nat.le_of_lt (h.length ▸ hgt)), List.getElem?_eq_none (Nat.le_of_lt hgt)] at hfits
      rw [List.getElem?_eq_none, List.getElem?_eq_none]
      · exact hfits
      · simpa using Nat.succ_le_of_lt hgt
      · simpa [h.length] using Nat.succ_le_of_lt hgt

/-- A call on one future leaves the others as they are. -/
theorem Fits.update (h : t.Fits now) {id : Nat} {inner : TimerInner queue} {slot : Option (WaitFuture Waker)}
    {log : List (TimerEvent Waker × TimerOutput Waker)} (hid : id < t.futures.length) (hnow : inner.now = t.inner.now)
    (hkey : ∀ j, j ≠ id → queue.key inner.heap j = queue.key t.inner.heap j)
    (hclock : clockAfter now log = clockAfter now t.log) (hexpiries : expiries now log = expiries now t.log)
    (hstatus : ∀ j, j ≠ id → waitStatus j log = waitStatus j t.log)
    (hfits : WaitFits t.inner.now (expiries now t.log)[id]? (queue.key inner.heap id) (waitStatus id log) (some slot)) :
    Fits now ⟨inner, t.futures.set id slot, log⟩ := by
  refine ⟨hnow.trans (h.clock.trans hclock.symm), ?_, fun j => ?_⟩
  · rw [hexpiries, List.length_set]
    exact h.length
  · unfold FitsAt
    dsimp only
    rw [hexpiries, hnow]
    by_cases hj : j = id
    · subst hj
      rw [List.getElem?_set_self hid]
      exact hfits
    · rw [hkey j hj, hstatus j hj, List.getElem?_set_ne (Ne.symm hj)]
      exact h.futures j

theorem step_poll [DecidableEq Waker] (h : t.Fits now) {id : Nat} {expiry : Instant}
    (hexpiry : (expiries now t.log)[id]? = some expiry) (hcompleted : waitStatus id t.log ≠ .completed)
    (hdropped : waitStatus id t.log ≠ .dropped) (waker : Waker) :
    ∃ t', t.step (.poll id waker) = some t' ∧
      t'.log = (.poll id waker, .polled (decide (expiry ≤ clockAfter now t.log))) :: t.log ∧ t'.Fits now := by
  have hfits := h.futures id
  unfold FitsAt at hfits
  rw [hexpiry] at hfits
  obtain ⟨f, inner', f', hslot, hpoll, hnow, hkey, hnew⟩ := hfits.poll hcompleted hdropped waker
  have hid : id < t.futures.length := (List.getElem?_eq_some_iff.mp hslot).1
  rw [← h.clock]
  refine ⟨⟨inner', t.futures.set id (some f'), _⟩, ?_, rfl, ?_⟩
  · simp [step, hslot, hpoll]
  · refine h.update hid hnow hkey rfl rfl (fun j hj => ?_) ?_
    · exact if_neg (Ne.symm hj)
    · rw [hexpiry, waitStatus, if_pos rfl]
      simpa using hnew

/-- Polling a future that is completed panics; one that has been dropped cannot be polled. -/
theorem step_poll_none [DecidableEq Waker] (h : t.Fits now) {id : Nat}
    (hstatus : waitStatus id t.log = .completed ∨ waitStatus id t.log = .dropped) (waker : Waker) :
    t.step (.poll id waker) = none := by
  have hfits := h.futures id
  unfold FitsAt at hfits
  rcases hstatus with hstatus | hstatus
  · rw [hstatus] at hfits
    obtain ⟨f, hslot, hptr⟩ := hfits.of_completed
    simp [step, hslot, WaitFuture.poll, hptr]
  · rw [hstatus] at hfits
    simp [step, hfits.of_dropped.2]

theorem step_drop [DecidableEq Waker] (h : t.Fits now) {id : Nat} {expiry : Instant}
    (hexpiry : (expiries now t.log)[id]? = some expiry) (hdropped : waitStatus id t.log ≠ .dropped) :
    ∃ t', t.step (.drop id) = some t' ∧ t'.log = (.drop id, .dropped) :: t.log ∧ t'.Fits now := by
  have hfits := h.futures id
  unfold FitsAt at hfits
  rw [hexpiry] at hfits
  obtain ⟨f, hslot, hnow, hkey, hnone⟩ := hfits.drop hdropped
  have hid : id < t.futures.length := (List.getElem?_eq_some_iff.mp hslot).1
  refine ⟨⟨f.drop t.inner id, t.futures.set id none, (.drop id, .dropped) :: t.log⟩, ?_, rfl, ?_⟩
  · simp [step, hslot]
  · refine h.update hid hnow hkey rfl rfl (fun j hj => ?_) ?_
    · exact if_neg (Ne.symm hj)
    · rw [hexpiry, hnone, waitStatus, if_pos rfl]
      exact .dropped expiry

theorem step_advanceClock [DecidableEq Waker] (h : t.Fits now) {later : Instant}
    (hle : clockAfter now t.log ≤ later) : ∃ t' wakes, t.step (.advanceClock later) = some t' ∧
      t'.log = (.advanceClock later, .woken wakes) :: t.log ∧ t'.Fits now ∧ (wakes.map Prod.fst).Nodup ∧
      ∀ id waker, (id, waker) ∈ wakes ↔ waitStatus id t.log = .pending waker ∧
        ∃ expiry, (expiries now t.log)[id]? = some expiry ∧ clockAfter now t.log < expiry ∧ expiry ≤ later := by
  rw [← h.clock] at hle ⊢
  have hwaking : Waking t.inner.now later (expiries now t.log) (waitStatus · t.log) t.inner.heap t.futures [] :=
    ⟨List.nodup_nil, fun id => Or.inl ⟨h.futures id, List.not_mem_nil⟩⟩
  obtain ⟨heap, futures, wakes, hrun, hlength, hnodup, heach⟩ := wakeExpired_spec hle (Nat.lt_succ_self _) hwaking
  refine ⟨⟨⟨later, heap⟩, futures, (.advanceClock later, .woken wakes) :: t.log⟩, wakes, ?_, rfl, ?_, hnodup,
    fun id => (heach id).2⟩
  · simp [step, hle, hrun]
  · exact ⟨rfl, h.length.trans hlength.symm, fun id => (heach id).1⟩

theorem Fits.present (h : t.Fits now) {id : Nat} {f : WaitFuture Waker} (hslot : t.futures[id]?.join = some f) :
    (∃ expiry, (expiries now t.log)[id]? = some expiry) ∧ waitStatus id t.log ≠ .dropped := by
  have hfits := h.futures id
  unfold FitsAt at hfits
  rw [Option.join_eq_some_iff.mp hslot] at hfits
  exact hfits.of_present

/-- Every call keeps the futures, the heap and what has been seen of them in step. -/
theorem step_fits [DecidableEq Waker] {t' : Timers queue Waker} {e : TimerEvent Waker} (h : t.Fits now)
    (hstep : t.step e = some t') : t'.Fits now := by
  cases e with
  | wait timeout =>
    cases hstep
    exact h.create rfl (by rw [expiries, h.clock]) fun _ => rfl
  | waitUntil expiry =>
    cases hstep
    exact h.create rfl rfl fun _ => rfl
  | poll id waker =>
    obtain ⟨f, hslot, -⟩ := Option.bind_eq_some_iff.mp hstep
    obtain ⟨⟨expiry, hexpiry⟩, hdropped⟩ := h.present hslot
    have hcompleted : waitStatus id t.log ≠ .completed := by
      intro hdone
      rw [step_poll_none h (Or.inl hdone)] at hstep
      cases hstep
    obtain ⟨t₁, hstep₁, -, hfits⟩ := step_poll h hexpiry hcompleted hdropped waker
    rw [hstep₁] at hstep
    exact Option.some.inj hstep ▸ hfits
  | drop id =>
    obtain ⟨f, hslot, -⟩ := Option.bind_eq_some_iff.mp hstep
    obtain ⟨⟨expiry, hexpiry⟩, hdropped⟩ := h.present hslot
    obtain ⟨t₁, hstep₁, -, hfits⟩ := step_drop h hexpiry hdropped
    rw [hstep₁] at hstep
    exact Option.some.inj hstep ▸ hfits
  | advanceClock later =>
    by_cases hle : t.inner.now ≤ later
    · obtain ⟨t₁, wakes, hstep₁, -, hfits, -⟩ := step_advanceClock h (h.clock ▸ hle)
      rw [hstep₁] at hstep
      exact Option.some.inj hstep ▸ hfits
    · rw [step, if_neg hle] at hstep
      cases hstep

/-- A future that has been dropped is in the heap no more. -/
theorem Fits.key_of_dropped (h : t.Fits now) {id : Nat} (hstatus : waitStatus id t.log = .dropped) :
    queue.key t.inner.heap id = none := by
  have hfits := h.futures id
  unfold FitsAt at hfits
  rw [hstatus] at hfits
  exact hfits.of_dropped.1

theorem run_fits [DecidableEq Waker] {events : List (TimerEvent Waker)}
    (hrun : Runs.run step (start now) events = some t) : t.Fits now :=
  Runs.run_reaches (fun _ _ _ hfits _ hstep => step_fits hfits hstep) (fits_start now)
    (Runs.admits_of_forall (fun _ _ => trivial) _ events) hrun

/-- The clock reaches the expiry, and a second poll of the completed future panics. -/
theorem completed_poll_fails : ∃ t : Timers (PriorityQueue.ofEntries Nat Nat) Nat,
    Runs.run step (start 0) [.wait 5, .advanceClock 5, .poll 0 1] = some t ∧
      (expiries 0 t.log)[0]? = some 5 ∧ 5 ≤ clockAfter 0 t.log ∧ waitStatus 0 t.log ≠ .dropped ∧
      t.step (.poll 0 1) = none :=
  ⟨_, rfl, rfl, Nat.le_refl 5, (fun h => by cases h), rfl⟩

theorem run_wakes_exactly [DecidableEq Waker] (now : Instant) (events : List (TimerEvent Waker))
    (hrun : Runs.run step (start now) events = some t) :
    (∀ id waker expiry, (expiries now t.log)[id]? = some expiry → waitStatus id t.log ≠ .completed →
      waitStatus id t.log ≠ .dropped → ∃ t', t.step (.poll id waker) = some t' ∧
        t'.log = (.poll id waker, .polled (decide (expiry ≤ clockAfter now t.log))) :: t.log) ∧
    (∀ id waker, waitStatus id t.log = .completed → t.step (.poll id waker) = none) ∧
    (∀ later, clockAfter now t.log ≤ later → ∃ t' wakes, t.step (.advanceClock later) = some t' ∧
      t'.log = (.advanceClock later, .woken wakes) :: t.log ∧ (wakes.map Prod.fst).Nodup ∧
      ∀ id waker, (id, waker) ∈ wakes ↔ waitStatus id t.log = .pending waker ∧
        ∃ expiry, (expiries now t.log)[id]? = some expiry ∧ clockAfter now t.log < expiry ∧ expiry ≤ later) ∧
    (∀ id expiry, (expiries now t.log)[id]? = some expiry → waitStatus id t.log ≠ .dropped →
      ∃ t', t.step (.drop id) = some t' ∧ waitStatus id t'.log = .dropped) ∧
    (∀ id, waitStatus id t.log = .dropped →
      queue.key t.inner.heap id = none ∧ ∀ waker, t.step (.poll id waker) = none) := by
  have hfits := run_fits hrun
  refine ⟨?_, ?_, ?_, ?_, ?_⟩
  · intro id waker expiry hexpiry hcompleted hdropped
    obtain ⟨t', hstep, hlog, -⟩ := step_poll hfits hexpiry hcompleted hdropped waker
    exact ⟨t', hstep, hlog⟩
  · intro id waker hcompleted
    exact step_poll_none hfits (Or.inl hcompleted) waker
  · intro later hle
    obtain ⟨t', wakes, hstep, hlog, -, hnodup, hwakes⟩ := step_advanceClock hfits hle
    exact ⟨t', wakes, hstep, hlog, hnodup, hwakes⟩
  · intro id expiry hexpiry hdropped
    obtain ⟨t', hstep, hlog, -⟩ := step_drop hfits hexpiry hdropped
    refine ⟨t', hstep, ?_⟩
    rw [hlog, waitStatus, if_pos rfl]
  · intro id hdropped
    exact ⟨hfits.key_of_dropped hdropped, step_poll_none hfits (Or.inr hdropped)⟩

/-- Of three pending futures, the one that has expired and has not been dropped is woken. -/
theorem run_wakes_exactly_three : ∃ t : Timers (PriorityQueue.ofEntries Nat Nat) Nat,
    Runs.run step (start 0)
        [.wait 5, .waitUntil 5, .waitUntil 9, .poll 0 1, .poll 1 2, .poll 2 3, .drop 1] = some t ∧
      ∃ t' wakes, t.step (.advanceClock 5) = some t' ∧ t'.log = (.advanceClock 5, .woken wakes) :: t.log ∧
        (0, 1) ∈ wakes ∧ (1, 2) ∉ wakes ∧ (2, 3) ∉ wakes := by
  refine ⟨_, rfl, ?_⟩
  obtain ⟨-, -, hadvance, -⟩ := run_wakes_exactly 0
    [.wait 5, .waitUntil 5, .waitUntil 9, .poll 0 1, .poll 1 2, .poll 2 3, .drop 1]
    (rfl : Runs.run step (start 0) _ = some (_ : Timers (PriorityQueue.ofEntries Nat Nat) Nat))
  obtain ⟨t', wakes, hstep, hlog, -, hwakes⟩ := hadvance 5 (by decide)
  refine ⟨t', wakes, hstep, hlog, (hwakes 0 1).mpr ⟨rfl, 5, rfl, by decide, by decide⟩, ?_, ?_⟩
  · intro hmem
    cases ((hwakes 1 2).mp hmem).1
  · intro hmem
    obtain ⟨-, expiry, hexpiry, -, hle⟩ := (hwakes 2 3).mp hmem
    cases hexpiry
    exact absurd hle (by decide)

end Timers

end Capybara
