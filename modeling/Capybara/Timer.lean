import Capybara.Basics
import Capybara.Lib.PriorityQueue

namespace Capybara

inductive TimerPollState
  | unregistered
  | registered
  | expired
  deriving DecidableEq, Repr

structure TimerQueueEntry (Waker : Type) where
  expiry : Instant
  task : Option Waker
  state : TimerPollState
  deriving DecidableEq, Repr

structure TimerInner (queue : PriorityQueue Nat Instant) where
  now : Instant
  heap : queue.Heap

/-- The pointer is the one to the timer, until the future is ready. -/
structure WaitFuture (Waker : Type) where
  ptr : Option Unit
  waitNode : TimerQueueEntry Waker
  deriving DecidableEq, Repr

variable {queue : PriorityQueue Nat Instant} {Waker : Type}

namespace WaitFuture

def waitUntil (expiry : Instant) : WaitFuture Waker := ⟨some (), ⟨expiry, none, .unregistered⟩⟩

/-- Polling again after completion panics. The node is the future's place in the heap; two wakers that are equal would
wake the same task. -/
def poll [DecidableEq Waker] (f : WaitFuture Waker) (inner : TimerInner queue) (node : Nat) (waker : Waker) :
    Option (TimerInner queue × WaitFuture Waker × Bool) := do
  let ptr ← f.ptr
  match f.waitNode.state with
  | .unregistered =>
    if f.waitNode.expiry ≤ inner.now then some (inner, ⟨none, { f.waitNode with state := .expired }⟩, true)
    else
      some ({ inner with heap := queue.insert node f.waitNode.expiry inner.heap },
        ⟨ptr, { f.waitNode with task := some waker, state := .registered }⟩, false)
  | .registered =>
    let task := if f.waitNode.task.all (· != waker) then some waker else f.waitNode.task
    some (inner, ⟨ptr, { f.waitNode with task := task }⟩, false)
  | .expired => some (inner, ⟨none, f.waitNode⟩, true)

def drop (f : WaitFuture Waker) (inner : TimerInner queue) (node : Nat) : TimerInner queue :=
  if f.ptr.isSome ∧ f.waitNode.state = .registered then { inner with heap := queue.remove node inner.heap }
  else inner

/-- What the clock does to the entry of a future that has expired. -/
def expire (f : WaitFuture Waker) : WaitFuture Waker :=
  { f with waitNode := { f.waitNode with task := none, state := .expired } }

end WaitFuture

/-- Takes the expired entries out of the heap and wakes their tasks. It fails when an entry's future is gone, and when
there are more entries than steps. -/
def wakeExpired (now : Instant) : Nat → queue.Heap → List (Option (WaitFuture Waker)) → List (Nat × Waker) →
    Option (queue.Heap × List (Option (WaitFuture Waker)) × List (Nat × Waker))
  | 0, _, _, _ => none
  | steps + 1, heap, futures, wakes =>
    match queue.peekMin heap with
    | none => some (heap, futures, wakes)
    | some first =>
      match futures[first]? with
      | some (some f) =>
        if now < f.waitNode.expiry then some (heap, futures, wakes)
        else
          wakeExpired now steps (queue.remove first heap) (futures.set first (some f.expire))
            (wakes ++ (f.waitNode.task.map fun task => (first, task)).toList)
      | _ => none

inductive TimerEvent (Waker : Type)
  | wait (timeout : Duration)
  | waitUntil (expiry : Instant)
  | poll (id : Nat) (waker : Waker)
  | drop (id : Nat)
  | advanceClock (now : Instant)
  deriving DecidableEq, Repr

/-- What a call returns, or the tasks that it wakes, each with its future. -/
inductive TimerOutput (Waker : Type)
  | created
  | polled (ready : Bool)
  | dropped
  | woken (wakes : List (Nat × Waker))
  deriving DecidableEq, Repr

/-- A timer with the futures that it has made, `none` for one that has been dropped, and the calls so far, the last one
first. -/
structure Timers (queue : PriorityQueue Nat Instant) (Waker : Type) where
  inner : TimerInner queue
  futures : List (Option (WaitFuture Waker))
  log : List (TimerEvent Waker × TimerOutput Waker)

namespace Timers

def start (now : Instant) : Timers queue Waker := ⟨⟨now, queue.empty⟩, [], []⟩

def step [DecidableEq Waker] (t : Timers queue Waker) (e : TimerEvent Waker) : Option (Timers queue Waker) :=
  match e with
  | .wait timeout =>
    some ⟨t.inner, t.futures ++ [some (.waitUntil (t.inner.now + timeout))], (e, .created) :: t.log⟩
  | .waitUntil expiry => some ⟨t.inner, t.futures ++ [some (.waitUntil expiry)], (e, .created) :: t.log⟩
  | .poll id waker => do
    let f ← (t.futures[id]?).join
    let (inner, f, ready) ← f.poll t.inner id waker
    some ⟨inner, t.futures.set id (some f), (e, .polled ready) :: t.log⟩
  | .drop id => do
    let f ← (t.futures[id]?).join
    some ⟨f.drop t.inner id, t.futures.set id none, (e, .dropped) :: t.log⟩
  | .advanceClock now =>
    if t.inner.now ≤ now then do
      let (heap, futures, wakes) ← wakeExpired now (queue.size t.inner.heap + 1) t.inner.heap t.futures []
      some ⟨⟨now, heap⟩, futures, (e, .woken wakes) :: t.log⟩
    else none

end Timers

end Capybara
