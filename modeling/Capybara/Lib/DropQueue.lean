import Mathlib.Data.List.Basic

/-- A bounded queue that makes room by dropping its oldest elements, with the history of what came and went: each
element that is gone has been received or dropped. -/
structure DropQueue (α : Type) where
  items : List α
  pushed : List α
  received : List α
  dropped : List α
  gone : List α
  deriving DecidableEq, Repr

namespace DropQueue

variable {α : Type}

def empty : DropQueue α := ⟨[], [], [], [], []⟩

def drop (q : DropQueue α) (n : Nat) : DropQueue α :=
  { q with
    items := q.items.drop n
    dropped := q.dropped ++ q.items.take n
    gone := q.gone ++ q.items.take n }

def enqueue (q : DropQueue α) (a : α) : DropQueue α :=
  { q with items := q.items ++ [a], pushed := q.pushed ++ [a] }

/-- A queue that is full first drops its oldest elements until no more than `keep` are left. -/
def push (q : DropQueue α) (capacity keep : Nat) (a : α) : DropQueue α :=
  if q.items.length = capacity then (q.drop (capacity - keep)).enqueue a else q.enqueue a

def pop (q : DropQueue α) : Option α × DropQueue α :=
  match q.items with
  | [] => (none, q)
  | a :: items => (some a, { q with items, received := q.received ++ [a], gone := q.gone ++ [a] })

/-- Elements leave in the order in which they came, and each is received or dropped. -/
structure Ordered (q : DropQueue α) : Prop where
  order : q.gone ++ q.items = q.pushed
  received : q.received.Sublist q.gone
  dropped : q.dropped.Sublist q.gone
  size : q.received.length + q.dropped.length = q.gone.length

theorem ordered_empty : Ordered (empty : DropQueue α) :=
  ⟨rfl, List.Sublist.refl [], List.Sublist.refl [], rfl⟩

variable {q : DropQueue α}

theorem Ordered.drop (h : Ordered q) (n : Nat) : Ordered (q.drop n) := by
  refine ⟨?_, h.received.trans (List.sublist_append_left ..), h.dropped.append (List.Sublist.refl _), ?_⟩
  · show q.gone ++ q.items.take n ++ q.items.drop n = q.pushed
    rw [List.append_assoc, List.take_append_drop]
    exact h.order
  · show q.received.length + (q.dropped ++ q.items.take n).length = (q.gone ++ q.items.take n).length
    rw [List.length_append, List.length_append, ← h.size]
    omega

theorem Ordered.enqueue (h : Ordered q) (a : α) : Ordered (q.enqueue a) := by
  refine ⟨?_, h.received, h.dropped, h.size⟩
  show q.gone ++ (q.items ++ [a]) = q.pushed ++ [a]
  rw [← List.append_assoc, h.order]

theorem Ordered.push (h : Ordered q) (capacity keep : Nat) (a : α) : Ordered (q.push capacity keep a) := by
  unfold DropQueue.push
  split
  next => exact (h.drop _).enqueue a
  next => exact h.enqueue a

theorem Ordered.pop (h : Ordered q) : Ordered q.pop.2 := by
  unfold DropQueue.pop
  split
  next => exact h
  next a items hitems =>
    refine ⟨?_, h.received.append (List.Sublist.refl _), h.dropped.trans (List.sublist_append_left ..), ?_⟩
    · show q.gone ++ [a] ++ items = q.pushed
      rw [List.append_assoc, List.singleton_append, ← hitems]
      exact h.order
    · show (q.received ++ [a]).length + q.dropped.length = (q.gone ++ [a]).length
      rw [List.length_append, List.length_append, ← h.size]
      omega

theorem length_push_le {capacity keep : Nat} (hkeep : keep < capacity) (h : q.items.length ≤ capacity) (a : α) :
    (q.push capacity keep a).items.length ≤ capacity := by
  unfold push
  split
  next hfull =>
    show ((q.items.drop (capacity - keep)) ++ [a]).length ≤ capacity
    rw [List.length_append, List.length_drop, List.length_singleton]
    omega
  next =>
    show (q.items ++ [a]).length ≤ capacity
    rw [List.length_append, List.length_singleton]
    omega

theorem length_pop_le : q.pop.2.items.length ≤ q.items.length := by
  unfold pop
  split
  next => exact Nat.le_refl _
  next a items hitems =>
    rw [hitems]
    exact Nat.le_succ _

/-- Only a push that finds the queue full drops elements, and these are the oldest. -/
theorem dropped_push (capacity keep : Nat) (a : α) : (q.push capacity keep a).dropped =
    q.dropped ++ if q.items.length = capacity then q.items.take (capacity - keep) else [] := by
  unfold push
  split
  next => rfl
  next => exact (List.append_nil _).symm

theorem dropped_pop : q.pop.2.dropped = q.dropped := by
  unfold pop
  split
  next => rfl
  next => rfl

end DropQueue
