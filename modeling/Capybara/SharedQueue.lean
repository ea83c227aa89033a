import Capybara.UdpPeer
import Capybara.Lib.DropQueue
import Capybara.Lib.Runs

namespace Capybara

/-- The two ends of a channel that takes messages while it holds fewer than `bound`. -/
structure Mpsc (T : Type) where
  buffer : List T
  bound : Nat
  closed : Bool
  deriving DecidableEq, Repr

inductive TryNext (T : Type)
  | message (msg : T) (rest : Mpsc T)
  | closed
  | empty

namespace Mpsc

variable {T : Type}

def trySend (c : Mpsc T) (msg : T) : Option (Mpsc T) :=
  if c.closed = true ∨ c.bound ≤ c.buffer.length then none else some { c with buffer := c.buffer ++ [msg] }

def tryNext (c : Mpsc T) : TryNext T :=
  match c.buffer with
  | msg :: buffer => .message msg { c with buffer }
  | [] => if c.closed then .closed else .empty

end Mpsc

/-- A `SharedQueue` with the two ends of its channel; `rxBorrowed` says that a suspended `pop` holds the mutable borrow
of the receiver. -/
structure SharedQueueEnds (T : Type) where
  channel : Mpsc T
  rxBorrowed : Bool
  length : Nat
  capacity : Nat
  deriving DecidableEq, Repr

inductive PopState
  | created
  | suspended
  | finished
  deriving DecidableEq, Repr

namespace SharedQueueEnds

variable {T : Type}

/-- `bound` is the number of messages that `mpsc::channel(size)` has room for. -/
def new (size bound : Nat) : SharedQueueEnds T := ⟨⟨[], bound, false⟩, false, 0, size⟩

/-- The queue as the table of bound addresses keeps it. -/
def contents (q : SharedQueueEnds T) : SharedQueue T := ⟨q.channel.buffer, q.length, q.capacity⟩

def tryPop (q : SharedQueueEnds T) : Option (Except Fail (Option T) × SharedQueueEnds T) :=
  if q.rxBorrowed then none
  else match q.channel.tryNext with
    | .message msg channel => do
      let length ← checkedSub q.length 1
      some (.ok (some msg), { q with channel, length })
    | .closed => some (.error (ioFail "failed to pop from shared queue"), q)
    | .empty => some (.ok none, q)

/-- The `while` loop in `push`. A pass either takes a message out or changes nothing, so a loop that is not over after
`length + 1` passes goes on for ever. -/
def makeRoom : Nat → SharedQueueEnds T → Option (SharedQueueEnds T)
  | 0, _ => none
  | passes + 1, q =>
    if q.capacity / 2 ≤ q.length then do
      let (_, q) ← q.tryPop
      makeRoom passes q
    else some q

def push (q : SharedQueueEnds T) (msg : T) : Option (Except Fail Unit × SharedQueueEnds T) := do
  let q ← (if q.length = q.capacity then q.makeRoom (q.length + 1) else some q : Option (SharedQueueEnds T))
  match q.channel.trySend msg with
  | some channel => some (.ok (), { q with channel, length := q.length + 1 })
  | none => some (.error (ioFail "failed to push to shared queue"), q)

/-- A poll of `pop` past the borrow of the receiver; it returns or keeps the borrow. -/
def next (q : SharedQueueEnds T) : Option (Option (Except Fail T) × PopState × SharedQueueEnds T) :=
  match q.channel.tryNext with
  | .message msg channel => do
    let length ← checkedSub q.length 1
    some (some (.ok msg), .finished, { q with channel, length, rxBorrowed := false })
  | .closed =>
    some (some (.error (ioFail "failed to pop from shared queue")), .finished, { q with rxBorrowed := false })
  | .empty => some (none, .suspended, { q with rxBorrowed := true })

def pop (q : SharedQueueEnds T) : PopState → Option (Option (Except Fail T) × PopState × SharedQueueEnds T)
  | .created => if q.rxBorrowed then none else q.next
  | .suspended => q.next
  | .finished => some (none, .finished, q)

/-- Dropping a suspended `pop` gives the borrow back. -/
def dropPop (q : SharedQueueEnds T) : PopState → SharedQueueEnds T
  | .suspended => { q with rxBorrowed := false }
  | _ => q

end SharedQueueEnds

/-- A queue that clones share, and the futures of `pop` made so far. -/
structure QueueUsers (T : Type) where
  queue : SharedQueueEnds T
  pops : List PopState
  deriving DecidableEq, Repr

namespace QueueUsers

variable {T : Type}

inductive Event (T : Type)
  | push (msg : T)
  | tryPop
  | pop
  | poll (id : Nat)
  | drop (id : Nat)
  deriving DecidableEq, Repr

/-- What a call returns. -/
inductive Output (T : Type)
  | pushed (result : Except Fail Unit)
  | popped (result : Except Fail (Option T))
  | ready (result : Except Fail T)
  | pending
  | nothing

def poll (s : QueueUsers T) (id : Nat) : Option (Output T × QueueUsers T) :=
  match s.pops[id]? with
  | none => some (.nothing, s)
  | some .finished => some (.nothing, s)
  | some p => do
    let (result, p, queue) ← s.queue.pop p
    some (result.elim .pending .ready, ⟨queue, s.pops.set id p⟩)

def drop (s : QueueUsers T) (id : Nat) : QueueUsers T :=
  match s.pops[id]? with
  | none => s
  | some p => ⟨s.queue.dropPop p, s.pops.set id .finished⟩

def step (s : QueueUsers T) : Event T → Option (Output T × QueueUsers T)
  | .push msg => (s.queue.push msg).map fun r => (.pushed r.1, { s with queue := r.2 })
  | .tryPop => s.queue.tryPop.map fun r => (.popped r.1, { s with queue := r.2 })
  | .pop => some (.nothing, { s with pops := s.pops ++ [.created] })
  | .poll id => s.poll id
  | .drop id => some (.nothing, s.drop id)

def start (size bound : Nat) : QueueUsers T := ⟨.new size bound, []⟩

end QueueUsers

/-- What the queue is for: a queue that drops its oldest messages when it is full, and receivers that wait for the next
one. -/
structure QueueIntent (T : Type) where
  queue : DropQueue T
  live : List Bool
  deriving DecidableEq, Repr

namespace QueueIntent

open QueueUsers

variable {T : Type}

def take (s : QueueIntent T) (id : Nat) : Output T × QueueIntent T :=
  match s.live[id]? with
  | some true =>
    match s.queue.pop with
    | (some msg, queue) => (.ready (.ok msg), ⟨queue, s.live.set id false⟩)
    | (none, _) => (.pending, s)
  | _ => (.nothing, s)

/-- A full queue is left with one message less than half its capacity. -/
def step (capacity : Nat) (s : QueueIntent T) : Event T → Output T × QueueIntent T
  | .push msg => (.pushed (.ok ()), { s with queue := s.queue.push capacity (capacity / 2 - 1) msg })
  | .tryPop => (.popped (.ok s.queue.pop.1), { s with queue := s.queue.pop.2 })
  | .pop => (.nothing, { s with live := s.live ++ [true] })
  | .poll id => s.take id
  | .drop id => (.nothing, { s with live := s.live.set id false })

def start : QueueIntent T := ⟨.empty, []⟩

end QueueIntent

namespace SharedQueueEnds

variable {T : Type}

theorem makeRoom_borrowed {q : SharedQueueEnds T} (hb : q.rxBorrowed = true) (hfull : q.capacity / 2 ≤ q.length)
    (passes : Nat) : q.makeRoom passes = none := by
  cases passes with
  | zero => rfl
  | succ passes => simp [makeRoom, hfull, tryPop, hb]

/-- Without another borrow the loop ends, with the newest messages left. -/
theorem makeRoom_eq {buffer : List T} {bound capacity keep passes : Nat} (hk : capacity / 2 = keep + 1)
    (h : buffer.length < passes) : makeRoom passes ⟨⟨buffer, bound, false⟩, false, buffer.length, capacity⟩ =
      some ⟨⟨buffer.drop (buffer.length - keep), bound, false⟩, false, (buffer.drop (buffer.length - keep)).length,
        capacity⟩ := by
  induction passes generalizing buffer with
  | zero => exact absurd h (Nat.not_lt_zero _)
  | succ passes ih =>
    unfold makeRoom
    split
    next hle =>
      change capacity / 2 ≤ buffer.length at hle
      cases buffer with
      | nil =>
        rw [List.length_nil] at hle
        omega
      | cons msg buffer =>
        rw [List.length_cons] at hle h
        have hpop : tryPop ⟨⟨msg :: buffer, bound, false⟩, false, (msg :: buffer).length, capacity⟩ =
            some (.ok (some msg), ⟨⟨buffer, bound, false⟩, false, buffer.length, capacity⟩) := rfl
        have hdrop : (msg :: buffer).drop ((msg :: buffer).length - keep) = buffer.drop (buffer.length - keep) := by
          rw [List.length_cons, show buffer.length + 1 - keep = (buffer.length - keep) + 1 by omega]
          rfl
        rw [hpop, hdrop]
        exact ih (Nat.lt_of_succ_lt_succ h)
    next hgt =>
      change ¬capacity / 2 ≤ buffer.length at hgt
      rw [show buffer.length - keep = 0 by omega, List.drop_zero]

variable {items : List T} {bound size : Nat} {borrowed : Bool}

theorem push_of_room {buffer : List T} (h : buffer.length < bound) (hne : buffer.length ≠ size) (msg : T) :
    push ⟨⟨buffer, bound, false⟩, borrowed, buffer.length, size⟩ msg =
      some (.ok (), ⟨⟨buffer ++ [msg], bound, false⟩, borrowed, (buffer ++ [msg]).length, size⟩) := by
  simp [push, hne, Mpsc.trySend, Nat.not_le.mpr h]

/-- A push that finds the queue full leaves what a queue of half the capacity has room for. -/
theorem push_full (h2 : 2 ≤ size) (hb : size ≤ bound) (hfull : items.length = size) (msg : T) :
    push ⟨⟨items, bound, false⟩, false, items.length, size⟩ msg =
      some (.ok (), ⟨⟨items.drop (size - (size / 2 - 1)) ++ [msg], bound, false⟩, false,
        (items.drop (size - (size / 2 - 1)) ++ [msg]).length, size⟩) := by
  have hroom := @makeRoom_eq T items bound size (size / 2 - 1) (items.length + 1) (by omega) (Nat.lt_succ_self _)
  rw [hfull] at hroom
  have hlt : (items.drop (size - (size / 2 - 1))).length < bound := by
    rw [List.length_drop]
    omega
  have hne : (items.drop (size - (size / 2 - 1))).length ≠ size := by
    rw [List.length_drop]
    omega
  have hsend := @push_of_room T bound size false _ hlt hne msg
  rw [push, if_neg hne] at hsend
  rw [push, if_pos hfull, hfull, hroom]
  exact hsend

theorem push_borrowed (h2 : 2 ≤ size) (hfull : items.length = size) (msg : T) :
    push ⟨⟨items, bound, false⟩, true, items.length, size⟩ msg = none := by
  have hroom := @makeRoom_borrowed T ⟨⟨items, bound, false⟩, true, items.length, size⟩ rfl (by
    show size / 2 ≤ items.length
    omega) (items.length + 1)
  rw [push, if_pos hfull, hroom]
  rfl

end SharedQueueEnds

namespace QueueUsers

variable {T : Type}

/-- No `pop` is suspended where a call borrows the receiver: the first poll of another `pop`, a `try_pop`, and a push
that finds the queue full. -/
def Calm (s : QueueUsers T) : Event T → Prop
  | .push _ => s.queue.length = s.queue.capacity → .suspended ∉ s.pops
  | .tryPop => .suspended ∉ s.pops
  | .poll id => s.pops[id]? = some .created → .suspended ∉ s.pops
  | _ => True

/-- The queue holds what it is meant to hold, and one suspended `pop` at most has the borrow. -/
structure Refines (size bound : Nat) (s : QueueUsers T) (d : QueueIntent T) : Prop where
  queue : s.queue = ⟨⟨d.queue.items, bound, false⟩, decide (PopState.suspended ∈ s.pops), d.queue.items.length, size⟩
  fits : d.queue.items.length ≤ size
  live : d.live = s.pops.map fun p => decide (p ≠ PopState.finished)
  single : ∀ i j : Nat, s.pops[i]? = some PopState.suspended → s.pops[j]? = some PopState.suspended → i = j
  ordered : d.queue.Ordered

/-- The call returns what it should and leads to a state that refines the intended one. -/
def Follows (size bound : Nat) (s : QueueUsers T) (d : QueueIntent T) (e : Event T) : Prop :=
  ∃ s', s.step e = some ((d.step size e).1, s') ∧ Refines size bound s' (d.step size e).2

variable {size bound : Nat} {s : QueueUsers T} {d : QueueIntent T}

theorem refines_start : Refines size bound (start size bound : QueueUsers T) .start :=
  ⟨rfl, Nat.zero_le _, rfl, fun i j hi => (by cases hi), DropQueue.ordered_empty⟩

theorem Refines.contents (h : Refines size bound s d) :
    s.queue.contents = ⟨d.queue.items, d.queue.items.length, size⟩ := by
  rw [h.queue]
  rfl

/-- With the borrow where a suspended `pop` is, the rest of the invariant is about the queue alone. -/
theorem Refines.of_queue (h : Refines size bound s d) {fifo : DropQueue T} (hf : fifo.items.length ≤ size)
    (ho : fifo.Ordered) : Refines size bound { s with queue :=
      ⟨⟨fifo.items, bound, false⟩, decide (PopState.suspended ∈ s.pops), fifo.items.length, size⟩ }
      { d with queue := fifo } :=
  ⟨rfl, hf, h.live, h.single, ho⟩

theorem Refines.push (h : Refines size bound s d) (h2 : 2 ≤ size) (hb : size ≤ bound) (msg : T) :
    (s.Calm (.push msg) ∧ Follows size bound s d (.push msg)) ∨ (¬s.Calm (.push msg) ∧ s.step (.push msg) = none) := by
  have hkeep := DropQueue.length_push_le (q := d.queue) (by omega : size / 2 - 1 < size) h.fits msg
  have hnext := h.of_queue hkeep (h.ordered.push size (size / 2 - 1) msg)
  have hq := h.queue
  by_cases hfull : d.queue.items.length = size
  · have hpushed : d.queue.push size (size / 2 - 1) msg = (d.queue.drop (size - (size / 2 - 1))).enqueue msg :=
      if_pos hfull
    by_cases hsusp : PopState.suspended ∈ s.pops
    · rw [decide_eq_true hsusp] at hq
      refine .inr ⟨fun hc => hc (by rw [hq]; exact hfull) hsusp, ?_⟩
      rw [step, hq, SharedQueueEnds.push_borrowed h2 hfull]
      rfl
    · rw [decide_eq_false hsusp] at hq hnext
      refine .inl ⟨fun _ => hsusp, _, ?_, hnext⟩
      rw [step, hq, SharedQueueEnds.push_full h2 hb hfull, hpushed]
      rfl
  · have hpushed : d.queue.push size (size / 2 - 1) msg = d.queue.enqueue msg := if_neg hfull
    have hfits := h.fits
    refine .inl ⟨fun hc => absurd (by rw [hq] at hc; exact hc) hfull, _, ?_, hnext⟩
    rw [step, hq, SharedQueueEnds.push_of_room (by omega) hfull, hpushed]
    rfl

theorem suspended_of_append {pops : List PopState} {i : Nat} (h : (pops ++ [.created])[i]? = some .suspended) :
    pops[i]? = some .suspended := by
  rw [List.getElem?_append] at h
  split at h
  next => exact h
  next => cases List.mem_singleton.mp (List.mem_of_getElem? h)

theorem suspended_of_set {pops : List PopState} {id i : Nat} {p : PopState} (hp : p ≠ .suspended)
    (h : (pops.set id p)[i]? = some .suspended) : i ≠ id ∧ pops[i]? = some .suspended := by
  rw [List.getElem?_set] at h
  split at h
  next hid =>
    split at h
    next => exact absurd (Option.some.inj h) hp
    next => cases h
  next hid => exact ⟨Ne.symm hid, h⟩

theorem Refines.tryPop (h : Refines size bound s d) :
    (s.Calm .tryPop ∧ Follows size bound s d .tryPop) ∨ (¬s.Calm .tryPop ∧ s.step .tryPop = none) := by
  have hq := h.queue
  have hnext := h.of_queue (DropQueue.length_pop_le.trans h.fits) h.ordered.pop
  by_cases hsusp : PopState.suspended ∈ s.pops
  · rw [decide_eq_true hsusp] at hq
    refine .inr ⟨fun hc => hc hsusp, ?_⟩
    rw [step, hq]
    rfl
  · rw [decide_eq_false hsusp] at hq hnext
    refine .inl ⟨hsusp, _, ?_, hnext⟩
    rw [step, hq, QueueIntent.step]
    cases hitems : d.queue.items with
    | nil =>
      have hpop : d.queue.pop = (none, d.queue) := by simp [DropQueue.pop, hitems]
      rw [hpop, hitems]
      rfl
    | cons msg items =>
      simp only [DropQueue.pop, hitems]
      rfl

theorem Refines.pop (h : Refines size bound s d) : Follows size bound s d .pop := by
  refine ⟨_, rfl, ?_, h.fits, ?_, fun i j hi hj => h.single i j ?_ ?_, h.ordered⟩
  · have hmem : PopState.suspended ∈ s.pops ++ [.created] ↔ PopState.suspended ∈ s.pops := by simp
    show s.queue = ⟨_, decide (PopState.suspended ∈ s.pops ++ [.created]), _, _⟩
    rw [h.queue]
    simp only [hmem]
    rfl
  · show d.live ++ [true] = (s.pops ++ [PopState.created]).map _
    rw [List.map_append, h.live]
    rfl
  · exact suspended_of_append hi
  · exact suspended_of_append hj

theorem suspended_mem_set {pops : List PopState} {id : Nat} {p : PopState}
    (hsingle : ∀ i j : Nat, pops[i]? = some .suspended → pops[j]? = some .suspended → i = j) (hp : pops[id]? = some p) :
    PopState.suspended ∈ pops.set id .finished ↔ p ≠ .suspended ∧ PopState.suspended ∈ pops := by
  constructor
  · intro hmem
    obtain ⟨i, hi⟩ := List.mem_iff_getElem?.mp hmem
    obtain ⟨hne, hold⟩ := suspended_of_set (by simp) hi
    refine ⟨?_, List.mem_of_getElem? hold⟩
    rintro rfl
    exact hne (hsingle i id hold hp)
  · rintro ⟨hne, hmem⟩
    obtain ⟨i, hi⟩ := List.mem_iff_getElem?.mp hmem
    refine List.mem_of_getElem? (i := i) ?_
    rw [List.getElem?_set_ne ?_]
    · exact hi
    · rintro rfl
      exact hne (Option.some.inj (hp.symm.trans hi))

/-- A future is over, having returned or been dropped, and has not kept the borrow. -/
theorem Refines.finish (h : Refines size bound s d) {id : Nat} {fifo : DropQueue T} (hf : fifo.items.length ≤ size)
    (ho : fifo.Ordered) {borrowed : Bool} (hb : borrowed = decide (PopState.suspended ∈ s.pops.set id .finished)) :
    Refines size bound ⟨⟨⟨fifo.items, bound, false⟩, borrowed, fifo.items.length, size⟩, s.pops.set id .finished⟩
      ⟨fifo, d.live.set id false⟩ := by
  refine ⟨by rw [hb], hf, ?_, fun i j hi hj => ?_, ho⟩
  · show d.live.set id false = (s.pops.set id .finished).map _
    rw [List.map_set, h.live]
    rfl
  · exact h.single i j (suspended_of_set (by simp) hi).2 (suspended_of_set (by simp) hj).2

/-- A future waits on, or begins to, and keeps the borrow. -/
theorem Refines.suspend (h : Refines size bound s d) {id : Nat} {p : PopState} (hp : s.pops[id]? = some p)
    (hp' : p ≠ .finished) (hothers : ∀ i, s.pops[i]? = some .suspended → i = id) :
    Refines size bound ⟨{ s.queue with rxBorrowed := true }, s.pops.set id .suspended⟩ d := by
  obtain ⟨hlt, hid⟩ := List.getElem?_eq_some_iff.mp hp
  have hmem : PopState.suspended ∈ s.pops.set id .suspended :=
    List.mem_of_getElem? (List.getElem?_set_self hlt)
  have honly : ∀ i, (s.pops.set id .suspended)[i]? = some PopState.suspended → i = id := by
    intro i hi
    by_contra hne
    rw [List.getElem?_set_ne (Ne.symm hne)] at hi
    exact hne (hothers i hi)
  refine ⟨?_, h.fits, ?_, fun i j hi hj => (honly i hi).trans (honly j hj).symm, h.ordered⟩
  · show { s.queue with rxBorrowed := true } = _
    rw [h.queue, decide_eq_true hmem]
  · show d.live = (s.pops.set id .suspended).map _
    have hlive : (s.pops.map fun p => decide (p ≠ PopState.finished))[id]? = some true := by
      rw [List.getElem?_map, hp]
      simp [hp']
    obtain ⟨hlt', hid'⟩ := List.getElem?_eq_some_iff.mp hlive
    rw [List.map_set, h.live]
    exact (List.set_getElem_self hlt').symm.trans (by rw [hid']; rfl)

theorem take_of_finished (h : Refines size bound s d) {id : Nat} (hp : ∀ p, s.pops[id]? = some p → p = .finished) :
    d.take id = (.nothing, d) := by
  have hlive : d.live[id]? ≠ some true := by
    rw [h.live, List.getElem?_map]
    cases hid : s.pops[id]? with
    | none => simp
    | some p => simp [hp p hid]
  unfold QueueIntent.take
  split
  next hid => exact absurd hid hlive
  next => rfl

theorem live_of_pops (h : Refines size bound s d) {id : Nat} {p : PopState} (hp : s.pops[id]? = some p)
    (hp' : p ≠ .finished) : d.live[id]? = some true := by
  rw [h.live, List.getElem?_map, hp]
  simp [hp']

/-- A future that may take the borrow, or has it, gets the oldest message or waits. -/
theorem Refines.next (h : Refines size bound s d) {id : Nat} {p : PopState} (hp : s.pops[id]? = some p)
    (hp' : p ≠ .finished) (hothers : ∀ i, s.pops[i]? = some .suspended → i = id) (hpop : s.queue.pop p = s.queue.next) :
    Follows size bound s d (.poll id) := by
  have hpoll : ∀ {result p' queue}, s.queue.next = some (result, p', queue) →
      s.poll id = some (result.elim .pending .ready, ⟨queue, s.pops.set id p'⟩) := by
    intro result p' queue hnext
    rw [poll, hp]
    cases p with
    | created => simp [hpop, hnext]
    | suspended => simp [hpop, hnext]
    | finished => exact absurd rfl hp'
  have hlive := live_of_pops h hp hp'
  have hfits := h.fits
  have hordered := h.ordered.pop
  cases hitems : d.queue.items with
  | nil =>
    have hnext : s.queue.next = some (none, .suspended, { s.queue with rxBorrowed := true }) := by
      rw [h.queue, hitems]
      rfl
    have htake : d.take id = (.pending, d) := by
      simp [QueueIntent.take, hlive, DropQueue.pop, hitems]
    refine ⟨⟨{ s.queue with rxBorrowed := true }, s.pops.set id .suspended⟩, ?_, ?_⟩
    · show s.poll id = some ((d.take id).1, _)
      rw [hpoll hnext, htake]
      rfl
    · show Refines size bound _ (d.take id).2
      rw [htake]
      exact h.suspend hp hp' hothers
  | cons msg items =>
    have hdeq : d.queue.pop = (some msg,
        { d.queue with items, received := d.queue.received ++ [msg], gone := d.queue.gone ++ [msg] }) := by
      simp [DropQueue.pop, hitems]
    have hnext : s.queue.next = some (some (.ok msg), .finished,
        ⟨⟨items, bound, false⟩, false, items.length, size⟩) := by
      rw [h.queue, hitems]
      rfl
    have htake : d.take id = (.ready (.ok msg), ⟨d.queue.pop.2, d.live.set id false⟩) := by
      simp [QueueIntent.take, hlive, hdeq]
    have hnone : false = decide (PopState.suspended ∈ s.pops.set id .finished) := by
      refine (decide_eq_false fun hmem => ?_).symm
      obtain ⟨i, hi⟩ := List.mem_iff_getElem?.mp hmem
      obtain ⟨hne, hold⟩ := suspended_of_set (by simp) hi
      exact hne (hothers i hold)
    have hfinish := h.finish (DropQueue.length_pop_le.trans hfits) hordered hnone
    rw [hdeq] at hfinish htake
    refine ⟨⟨⟨⟨items, bound, false⟩, false, items.length, size⟩, s.pops.set id .finished⟩, ?_, ?_⟩
    · show s.poll id = some ((d.take id).1, _)
      rw [hpoll hnext, htake]
      rfl
    · show Refines size bound _ (d.take id).2
      rw [htake]
      exact hfinish

theorem Refines.poll (h : Refines size bound s d) (id : Nat) :
    (s.Calm (.poll id) ∧ Follows size bound s d (.poll id)) ∨ (¬s.Calm (.poll id) ∧ s.step (.poll id) = none) := by
  cases hp : s.pops[id]? with
  | none =>
    refine .inl ⟨fun hc => (by rw [hp] at hc; cases hc), s, ?_, ?_⟩
    · show s.poll id = some ((d.take id).1, s)
      rw [take_of_finished h fun p hp' => (by rw [hp] at hp'; cases hp')]
      simp [QueueUsers.poll, hp]
    · show Refines size bound s (d.take id).2
      rw [take_of_finished h fun p hp' => (by rw [hp] at hp'; cases hp')]
      exact h
  | some p =>
    cases p with
    | created =>
      by_cases hsusp : PopState.suspended ∈ s.pops
      · refine .inr ⟨fun hc => hc hp hsusp, ?_⟩
        have hpop : s.queue.pop .created = none := by
          rw [h.queue, decide_eq_true hsusp]
          rfl
        show s.poll id = none
        rw [QueueUsers.poll, hp]
        simp [hpop]
      · refine .inl ⟨fun _ => hsusp, h.next hp (by simp) (fun i hi => absurd (List.mem_of_getElem? hi) hsusp) ?_⟩
        rw [h.queue, decide_eq_false hsusp]
        rfl
    | suspended =>
      refine .inl ⟨fun hc => (by rw [hp] at hc; cases hc), h.next hp (by simp) (fun i hi => h.single i id hi hp) rfl⟩
    | finished =>
      have htake : d.take id = (.nothing, d) := take_of_finished h fun p hp' => (by
        rw [hp] at hp'
        exact (Option.some.inj hp').symm)
      refine .inl ⟨fun hc => (by rw [hp] at hc; cases hc), s, ?_, ?_⟩
      · show s.poll id = some ((d.take id).1, s)
        rw [htake]
        simp [QueueUsers.poll, hp]
      · show Refines size bound s (d.take id).2
        rw [htake]
        exact h

theorem Refines.drop (h : Refines size bound s d) (id : Nat) : Follows size bound s d (.drop id) := by
  refine ⟨s.drop id, rfl, ?_⟩
  unfold QueueUsers.drop
  cases hp : s.pops[id]? with
  | none =>
    have hlen : d.live.length ≤ id := by
      rw [h.live, List.length_map]
      exact List.getElem?_eq_none_iff.mp hp
    have hsame : d.live.set id false = d.live := List.set_eq_of_length_le hlen
    show Refines size bound s ⟨d.queue, d.live.set id false⟩
    rw [hsame]
    exact h
  | some p =>
    have hmem := suspended_mem_set h.single hp
    have hdrop : s.queue.dropPop p = ⟨⟨d.queue.items, bound, false⟩,
        decide (PopState.suspended ∈ s.pops.set id .finished), d.queue.items.length, size⟩ := by
      rw [h.queue]
      cases p with
      | created =>
        simp only [hmem, ne_eq, reduceCtorEq, not_false_eq_true, true_and]
        rfl
      | suspended =>
        simp only [hmem, ne_eq, not_true, false_and]
        rfl
      | finished =>
        simp only [hmem, ne_eq, reduceCtorEq, not_false_eq_true, true_and]
        rfl
    show Refines size bound ⟨s.queue.dropPop p, s.pops.set id .finished⟩ ⟨d.queue, d.live.set id false⟩
    rw [hdrop]
    exact h.finish h.fits h.ordered rfl

theorem Refines.follow (h : Refines size bound s d) (h2 : 2 ≤ size) (hb : size ≤ bound) (e : Event T) :
    (s.Calm e ∧ Follows size bound s d e) ∨ (¬s.Calm e ∧ s.step e = none) := by
  cases e with
  | push msg => exact h.push h2 hb msg
  | tryPop => exact h.tryPop
  | pop => exact .inl ⟨trivial, h.pop⟩
  | poll id => exact h.poll id
  | drop id => exact .inl ⟨trivial, h.drop id⟩

/-- A step with what it returns added to the list of outputs. -/
def record (r : QueueUsers T × List (Output T)) (e : Event T) : Option (QueueUsers T × List (Output T)) :=
  (r.1.step e).map fun x => (x.2, r.2 ++ [x.1])

def intend (size : Nat) (r : QueueIntent T × List (Output T)) (e : Event T) : QueueIntent T × List (Output T) :=
  ((r.1.step size e).2, r.2 ++ [(r.1.step size e).1])

/-- What the calls are meant to lead to and to return. -/
def intended (size : Nat) (es : List (Event T)) : QueueIntent T × List (Output T) := es.foldl (intend size) (.start, [])

theorem Refines.run (h2 : 2 ≤ size) (hb : size ≤ bound) {r r' : QueueUsers T × List (Output T)}
    {i : QueueIntent T × List (Output T)} {es : List (Event T)} (h : Refines size bound r.1 i.1) (ho : r.2 = i.2)
    (hr : Runs.run record r es = some r') :
    Refines size bound r'.1 (es.foldl (intend size) i).1 ∧ r'.2 = (es.foldl (intend size) i).2 := by
  induction es generalizing r i with
  | nil =>
    obtain rfl := Option.some.inj hr
    exact ⟨h, ho⟩
  | cons e es ih =>
    obtain ⟨r₁, he, hr⟩ := Option.bind_eq_some_iff.mp hr
    rcases h.follow h2 hb e with ⟨-, s', hs', hnext⟩ | ⟨-, hnone⟩
    · rw [record, hs'] at he
      obtain rfl := Option.some.inj he
      exact ih hnext (congrArg (fun outs => outs ++ [(i.1.step size e).1]) ho) hr
    · rw [record, hnone] at he
      cases he

/-- Only a push to a full queue drops messages, the oldest ones. -/
theorem dropped_step (d : QueueIntent T) (size : Nat) (e : Event T) :
    (d.step size e).2.queue.dropped = d.queue.dropped ∨ ∃ msg n, e = .push msg ∧ d.queue.items.length = size ∧
      (d.step size e).2.queue.dropped = d.queue.dropped ++ d.queue.items.take n := by
  cases e with
  | push msg =>
    have hd := @DropQueue.dropped_push T d.queue size (size / 2 - 1) msg
    by_cases hfull : d.queue.items.length = size
    · rw [if_pos hfull] at hd
      exact .inr ⟨msg, _, rfl, hfull, hd⟩
    · rw [if_neg hfull, List.append_nil] at hd
      exact .inl hd
  | tryPop => exact .inl DropQueue.dropped_pop
  | pop => exact .inl rfl
  | poll id =>
    left
    show (d.take id).2.queue.dropped = _
    unfold QueueIntent.take
    split
    next =>
      split
      next msg queue hpop =>
        have hd := @DropQueue.dropped_pop T d.queue
        rw [hpop] at hd
        exact hd
      next => rfl
    next => rfl
  | drop id => exact .inl rfl

/-- Calls go through exactly when none meets the borrow of a suspended `pop`, and then they return what they should: the
queue holds, in order, what was pushed and is neither received nor dropped, and the length counts it. -/
theorem sharedQueue_follows (size bound : Nat) (h2 : 2 ≤ size) (hb : size ≤ bound) (es : List (Event T)) :
    ((Runs.run record (start size bound, []) es).isSome = true ↔
      Runs.Admits record (fun r e => r.1.Calm e) (start size bound, []) es) ∧
    ∀ s outs, Runs.run record (start size bound, []) es = some (s, outs) → ∃ d : QueueIntent T,
      intended size es = (d, outs) ∧ s.queue.channel.buffer = d.queue.items ∧ s.queue.length = d.queue.items.length ∧
      s.queue.length ≤ size ∧ d.queue.Ordered ∧
      ∀ e, (d.step size e).2.queue.dropped = d.queue.dropped ∨ ∃ msg n, e = .push msg ∧ d.queue.items.length = size ∧
        (d.step size e).2.queue.dropped = d.queue.dropped ++ d.queue.items.take n := by
  refine ⟨?_, fun s outs hr => ?_⟩
  · have hstep : ∀ (r : QueueUsers T × List (Output T)) e, (∃ d, Refines size bound r.1 d) →
        (r.1.Calm e ∧ ∃ r', record r e = some r' ∧ ∃ d, Refines size bound r'.1 d) ∨
          (¬r.1.Calm e ∧ record r e = none) := by
      rintro r e ⟨d, hd⟩
      rcases hd.follow h2 hb e with ⟨hcalm, s', hs', hnext⟩ | ⟨hbad, hnone⟩
      · exact .inl ⟨hcalm, _, by rw [record, hs']; rfl, _, hnext⟩
      · exact .inr ⟨hbad, by rw [record, hnone]; rfl⟩
    exact Runs.run_isSome_iff hstep ⟨.start, refines_start⟩
  · obtain ⟨href, houts⟩ := Refines.run h2 hb (i := (.start, [])) refines_start rfl hr
    obtain ⟨hbuffer, hlength, -⟩ := SharedQueue.mk.inj href.contents
    exact ⟨(intended size es).1, Prod.ext rfl houts.symm, hbuffer, hlength, hlength.trans_le href.fits, href.ordered,
      dropped_step _ size⟩

/-- A receiver waits, and then a burst comes. -/
def burst : List (Event Nat) := [.pop, .poll 0, .push 1, .push 2]

/-- The push that finds the queue full panics. -/
theorem burst_panics : (Runs.run record (start 2 3, []) burst).isSome = true ∧
    (Runs.run record (start 2 3, []) (burst ++ [.push 3])).isNone = true := by
  decide

theorem sharedQueue_follows_burst :
    (Runs.run record (start 2 3, []) (burst ++ [.poll 0, .push 3, .push 4])).isSome = true ↔
    Runs.Admits record (fun r e => r.1.Calm e) (start 2 3, []) (burst ++ [.poll 0, .push 3, .push 4]) :=
  (sharedQueue_follows 2 3 (by decide) (by decide) (burst ++ [.poll 0, .push 3, .push 4])).1

end QueueUsers

end Capybara
