import Capybara.PairingHeapRuns
import Capybara.TimerRuns

namespace Capybara

/-- A heap with nothing but its members in memory. -/
structure MemberHeap (ι κ : Type) [DecidableEq ι] [LinearOrder κ] where
  heap : PairingHeap ι κ
  members : HashMap ι κ
  fits : ∃ t, heap.Fits ⟨members, members⟩ t

namespace MemberHeap

variable {ι κ : Type} [DecidableEq ι] [LinearOrder κ]

def new : MemberHeap ι κ := ⟨⟨∅, none⟩, ∅, none, PairingHeap.fits_new⟩

theorem run_isSome (h : MemberHeap ι κ) {calls : List (HeapCall ι κ)} {use : HeapUse ι κ}
    (hrun : Runs.run HeapUse.step ⟨h.members, h.members⟩ calls = some use) :
    (Runs.run PairingHeap.step h.heap calls).isSome := by
  obtain ⟨t, ht⟩ := h.fits
  obtain ⟨heap', _, hrun', -⟩ := PairingHeap.run_fits ht hrun
  rw [hrun']
  rfl

/-- Safe calls on the heap, after which there are again no nodes outside of it. -/
def run (h : MemberHeap ι κ) (calls : List (HeapCall ι κ)) (members : HashMap ι κ)
    (hrun : Runs.run HeapUse.step ⟨h.members, h.members⟩ calls = some ⟨members, members⟩) : MemberHeap ι κ where
  heap := (Runs.run PairingHeap.step h.heap calls).get (h.run_isSome hrun)
  members := members
  fits := by
    obtain ⟨t, ht⟩ := h.fits
    obtain ⟨heap', t', hrun', hfits⟩ := PairingHeap.run_fits ht hrun
    refine ⟨t', ?_⟩
    rw [Option.get_of_eq_some _ hrun']
    exact hfits

theorem run_insert {h : MemberHeap ι κ} {i : ι} (hi : h.members.get i = none) (k : κ) :
    Runs.run HeapUse.step ⟨h.members, h.members⟩ [.new i k, .insert i] =
      some ⟨h.members.insert i k, h.members.insert i k⟩ := by
  simp [Runs.run, HeapUse.step, hi]

theorem run_remove {h : MemberHeap ι κ} {i : ι} (hi : (h.members.get i).isSome) :
    Runs.run HeapUse.step ⟨h.members, h.members⟩ [.remove i, .drop i] =
      some ⟨h.members.remove i, h.members.remove i⟩ := by
  simp [Runs.run, HeapUse.step, hi]

def insert (i : ι) (k : κ) (h : MemberHeap ι κ) : MemberHeap ι κ :=
  if hi : h.members.get i = none then h.run [.new i k, .insert i] (h.members.insert i k) (run_insert hi k) else h

def remove (i : ι) (h : MemberHeap ι κ) : MemberHeap ι κ :=
  if hi : (h.members.get i).isSome then h.run [.remove i, .drop i] (h.members.remove i) (run_remove hi) else h

theorem members_insert {h : MemberHeap ι κ} {i : ι} (hi : h.members.get i = none) (k : κ) :
    (h.insert i k).members = h.members.insert i k := by
  rw [insert, dif_pos hi]
  rfl

theorem members_remove {h : MemberHeap ι κ} {i : ι} (hi : h.members.get i ≠ none) :
    (h.remove i).members = h.members.remove i := by
  rw [remove, dif_pos (Option.isSome_iff_ne_none.mpr hi)]
  rfl

end MemberHeap

/-- The heap of the code, as a priority queue. -/
def pairingQueue (ι κ : Type) [DecidableEq ι] [LinearOrder κ] : PriorityQueue ι κ where
  Heap := MemberHeap ι κ
  empty := .new
  insert := MemberHeap.insert
  remove := MemberHeap.remove
  peekMin h := h.heap.peekMin
  key h i := h.members.get i
  size h := h.members.size
  key_empty := HashMap.get_empty
  key_insert h i k j hi := by
    rw [MemberHeap.members_insert hi]
    exact HashMap.get_insert h.members i j k
  key_remove h i j hi := by
    rw [MemberHeap.members_remove hi]
    exact HashMap.get_remove h.members i j
  size_remove h i hi := by
    rw [MemberHeap.members_remove hi]
    obtain ⟨k, hk⟩ := Option.ne_none_iff_exists'.mp hi
    exact Nat.lt_of_succ_le (Nat.le_of_eq (HashMap.size_remove hk))
  key_of_peekMin_none h i hnone := by
    obtain ⟨t, ht⟩ := h.fits
    exact ht.peekMin_none hnone i
  key_of_peekMin_some h i hsome := by
    obtain ⟨t, ht⟩ := h.fits
    exact ht.peekMin_some hsome

theorem WaitFits.key_of_pending {Waker : Type} {now expiry : Instant} {key : Option Instant} {waker : Waker}
    {slot : Option (Option (WaitFuture Waker))} (h : WaitFits now (some expiry) key (.pending waker) slot)
    (hlt : now < expiry) : key = some expiry := by
  cases h with
  | registered => rfl
  | expired _ _ hle => exact absurd hlt (Nat.not_lt.mpr hle)

namespace Timers

variable {queue : PriorityQueue Nat Instant} {Waker : Type}

/-- The wakes come in the order of the expiries, and what is still in the heap expires later. -/
structure InOrder (expiries : List Instant) (heap : queue.Heap) (wakes : List (Nat × Waker)) : Prop where
  sorted : wakes.Pairwise fun w v => ∀ a b, expiries[w.1]? = some a → expiries[v.1]? = some b → a ≤ b
  later : ∀ w ∈ wakes, ∀ id key a, queue.key heap id = some key → expiries[w.1]? = some a → a ≤ key

/-- The first entry of the heap goes to the end of the wakes. -/
theorem InOrder.wake {expiries : List Instant} {heap : queue.Heap} {wakes : List (Nat × Waker)} {first : Nat}
    {key : Instant} (h : InOrder expiries heap wakes) (hkey : queue.key heap first = some key)
    (hexpiry : expiries[first]? = some key) (hmin : ∀ j k, queue.key heap j = some k → key ≤ k) (waker : Waker) :
    InOrder expiries (queue.remove first heap) (wakes ++ [(first, waker)]) := by
  have hin := Option.ne_none_iff_exists'.mpr ⟨key, hkey⟩
  have hrest : ∀ id k, queue.key (queue.remove first heap) id = some k → queue.key heap id = some k := by
    intro id k hk
    rw [queue.key_remove heap first id hin] at hk
    split at hk
    next => cases hk
    next => exact hk
  constructor
  · refine List.pairwise_append.mpr ⟨h.sorted, List.pairwise_singleton _ _, fun w hw v hv a b ha hb => ?_⟩
    rw [List.mem_singleton.mp hv, hexpiry] at hb
    cases hb
    exact h.later w hw first key a hkey ha
  · intro w hw id k a hk ha
    rcases List.mem_append.mp hw with hw | hw
    · exact h.later w hw id k a (hrest id k hk) ha
    · rw [List.mem_singleton.mp hw, hexpiry] at ha
      cases ha
      exact hmin id k (hrest id k hk)

theorem wakeExpired_inOrder {old now : Instant} {expiries : List Instant} {status : Nat → WaitStatus Waker}
    {steps : Nat} {heap heap' : queue.Heap} {futures futures' : List (Option (WaitFuture Waker))}
    {wakes wakes' : List (Nat × Waker)} (h : Waking old now expiries status heap futures wakes)
    (horder : InOrder expiries heap wakes)
    (hrun : wakeExpired now steps heap futures wakes = some (heap', futures', wakes')) :
    InOrder expiries heap' wakes' ∧ ∀ id key, queue.key heap' id = some key → now < key := by
  induction steps generalizing heap futures wakes with
  | zero => cases hrun
  | succ steps ih =>
    unfold wakeExpired at hrun
    cases hpeek : queue.peekMin heap with
    | none =>
      rw [hpeek] at hrun
      cases hrun
      refine ⟨horder, fun id key hkey => ?_⟩
      rw [queue.key_of_peekMin_none _ id hpeek] at hkey
      cases hkey
    | some first =>
      obtain ⟨key, hkey, hmin⟩ := queue.key_of_peekMin_some heap first hpeek
      obtain ⟨waker, hexpiry, hold, hstatus, hslot, hnot⟩ := h.registered hkey
      rw [hpeek] at hrun
      dsimp only at hrun
      rw [hslot] at hrun
      dsimp only at hrun
      split at hrun
      next hlater =>
        cases hrun
        exact ⟨horder, fun id k hk => Nat.lt_of_lt_of_le hlater (hmin id k hk)⟩
      next hnow =>
        exact ih (h.wake hkey hexpiry hold (Nat.le_of_not_lt hnow) hstatus hslot hnot)
          (horder.wake hkey hexpiry hmin waker) hrun

/-- Over the heap of the code: the clock wakes each pending future that has expired once, in the order in which they
expire. What stays in the heap is what is pending for later, an earliest one first. -/
theorem advanceClock_in_order [DecidableEq Waker] (now : Instant) (events : List (TimerEvent Waker))
    (t : Timers (pairingQueue Nat Instant) Waker) (hrun : Runs.run step (start now) events = some t) (later : Instant)
    (hle : clockAfter now t.log ≤ later) :
    ∃ t' wakes, t.step (.advanceClock later) = some t' ∧ t'.log = (.advanceClock later, .woken wakes) :: t.log ∧
      (wakes.map Prod.fst).Nodup ∧
      (wakes.Pairwise fun w v => ∀ a b, (expiries now t.log)[w.1]? = some a → (expiries now t.log)[v.1]? = some b →
        a ≤ b) ∧
      (∀ id waker, (id, waker) ∈ wakes ↔ waitStatus id t.log = .pending waker ∧
        ∃ expiry, (expiries now t.log)[id]? = some expiry ∧ clockAfter now t.log < expiry ∧ expiry ≤ later) ∧
      (∀ id expiry, t'.inner.heap.members.get id = some expiry ↔ later < expiry ∧
        (expiries now t.log)[id]? = some expiry ∧ ∃ waker, waitStatus id t.log = .pending waker) ∧
      ∃ tree, t'.inner.heap.heap.Holds tree := by
  have hfits := run_fits hrun
  rw [← hfits.clock] at hle ⊢
  have hwaking : Waking t.inner.now later (expiries now t.log) (waitStatus · t.log) t.inner.heap t.futures [] :=
    ⟨List.nodup_nil, fun id => Or.inl ⟨hfits.futures id, List.not_mem_nil⟩⟩
  have hstart : InOrder (expiries now t.log) t.inner.heap ([] : List (Nat × Waker)) :=
    ⟨List.Pairwise.nil, fun w hw => (nomatch hw)⟩
  obtain ⟨heap, futures, wakes, hwake, -, hnodup, heach⟩ := wakeExpired_spec hle (Nat.lt_succ_self _) hwaking
  obtain ⟨horder, -⟩ := wakeExpired_inOrder hwaking hstart hwake
  refine ⟨⟨⟨later, heap⟩, futures, (.advanceClock later, .woken wakes) :: t.log⟩, wakes, ?_, rfl, hnodup, horder.sorted,
    fun id => (heach id).2, fun id expiry => ⟨fun hkey => ?_, ?_⟩, ?_⟩
  · simp [step, hle, hwake]
  · have hwaits := (heach id).1
    rw [show (pairingQueue Nat Instant).key heap id = some expiry from hkey] at hwaits
    obtain ⟨waker, hexpiry, hlt, hstatus, -⟩ := hwaits.of_key
    exact ⟨hlt, hexpiry, waker, hstatus⟩
  · rintro ⟨hlt, hexpiry, waker, hstatus⟩
    have hwaits := (heach id).1
    rw [hexpiry, hstatus] at hwaits
    exact hwaits.key_of_pending hlt
  · obtain ⟨tree, htree⟩ := MemberHeap.fits heap
    exact ⟨tree, htree.holds⟩

/-- Of four pending futures, the two that have expired are woken, the earlier one first. -/
theorem advanceClock_in_order_four : ∃ t : Timers (pairingQueue Nat Instant) Nat,
    Runs.run step (start 0) [.wait 9, .wait 5, .wait 7, .wait 3, .poll 0 1, .poll 1 2, .poll 2 3, .poll 3 4] = some t ∧
      ∃ t' wakes, t.step (.advanceClock 6) = some t' ∧ t'.log = (.advanceClock 6, .woken wakes) :: t.log ∧
        (1, 2) ∈ wakes ∧ (3, 4) ∈ wakes ∧ t'.inner.heap.members.get 2 = some 7 := by
  refine ⟨_, rfl, ?_⟩
  obtain ⟨t', wakes, hstep, hlog, -, -, hwakes, hmembers, -⟩ := advanceClock_in_order 0
    [.wait 9, .wait 5, .wait 7, .wait 3, .poll 0 1, .poll 1 2, .poll 2 3, .poll 3 4]
    (_ : Timers (pairingQueue Nat Instant) Nat) rfl 6 (by decide)
  exact ⟨t', wakes, hstep, hlog, (hwakes 1 2).mpr ⟨rfl, 5, rfl, by decide, by decide⟩,
    (hwakes 3 4).mpr ⟨rfl, 3, rfl, by decide, by decide⟩, (hmembers 2 7).mpr ⟨by decide, rfl, 3, rfl⟩⟩

end Timers

end Capybara
