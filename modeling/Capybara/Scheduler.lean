import Capybara.PinSlab
import Capybara.WakerPage

namespace Capybara

open Runs

/-- What happens to tasks, which have serial numbers; `polled` comes before the calls the task makes. -/
inductive Action
  | inserted (task key : Nat)
  | polled (task key : Nat)
  | completed (task : Nat)
  | dropped (task : Nat)
  | removed (task : Nat)
  deriving DecidableEq, Repr

/-- The calls on a scheduler. Handles are named by the tasks they were returned for, wakers by their keys. -/
inductive Call
  | insert
  | take (task : Nat)
  | drop (task : Nat)
  | wake (key : Nat)
  deriving DecidableEq, Repr

/-- What a task does when it is polled, and the calls that dropping it makes. -/
structure Behaviour where
  calls : List Call
  ready : Bool
  dropCalls : List Call

/-- `handles` are the handles in the hands of callers; `log`, newest first, is what has happened so far. -/
structure Scheduler where
  slab : PinSlab Nat
  pages : List WakerPage
  handles : Nat → Option Nat
  spawned : Nat
  log : List Action

inductive SchedulerEvent
  | call (c : Call)
  | poll (behave : Nat → Behaviour)

namespace Scheduler

def new : Scheduler := ⟨.new, [], fun _ => none, 0, []⟩

/-- Pages are added until there is one for the key. -/
def growPages (pages : List WakerPage) (key : Nat) : List WakerPage :=
  pages ++ List.replicate (key / 64 + 1 - pages.length) .reset

/-- A slab with no keys left refuses the task. -/
def insert (s : Scheduler) : Option Scheduler := do
  let (key, slab) ← s.slab.insert s.spawned
  match key with
  | none => some { s with slab := slab }
  | some key =>
    some { slab := slab
           pages := (growPages s.pages key).modify (key / 64) (·.initializeFlags (key % 64))
           handles := Function.update s.handles s.spawned (some key)
           spawned := s.spawned + 1
           log := .inserted s.spawned key :: s.log }

/-- Nothing happens where there is no handle to give up. -/
def take (s : Scheduler) (task : Nat) : Option Scheduler :=
  match s.handles task with
  | none => some s
  | some key => do
    let page ← s.pages[key / 64]?
    if page.wasDropped (key % 64) then none
    else
      let (future, slab) ← s.slab.removeUnpin key
      let future ← future
      some { s with
        slab := slab
        pages := s.pages.modify (key / 64) (·.clear (key % 64))
        handles := Function.update s.handles task none
        log := .removed future :: s.log }

/-- `impl Drop for SchedulerHandle`. -/
def dropHandle (s : Scheduler) (task : Nat) : Scheduler :=
  match s.handles task with
  | none => s
  | some key =>
    { s with
      pages := s.pages.modify (key / 64) (·.markDropped (key % 64))
      handles := Function.update s.handles task none
      log := .dropped task :: s.log }

/-- `WakerRef::wake`. -/
def wake (s : Scheduler) (key : Nat) : Scheduler :=
  { s with pages := s.pages.modify (key / 64) (·.notify (key % 64)) }

def call (s : Scheduler) : Call → Option Scheduler
  | .insert => s.insert
  | .take task => s.take task
  | .drop task => some (s.dropHandle task)
  | .wake key => some (s.wake key)

/-- Calls made while the scheduler is borrowed: those that borrow it again panic. -/
def borrowedCall (s : Scheduler) : Call → Option Scheduler
  | .insert | .take _ => none
  | .drop task => some (s.dropHandle task)
  | .wake key => some (s.wake key)

/-- Polls the task at a place of a page, which has to be there. -/
def turn (behave : Nat → Behaviour) (pageIx : Nat) (s : Scheduler) (subpageIx : Nat) : Option Scheduler := do
  let ix := pageIx * 64 + subpageIx
  let task ← s.slab.get ix
  let s ← run call { s with log := .polled task ix :: s.log } (behave ix).calls
  if (behave ix).ready then
    some { s with
      pages := s.pages.modify pageIx (·.markCompleted subpageIx)
      log := .completed task :: s.log }
  else some s

/-- `PinSlab::remove` on the slab of the scheduler; the destructor of the task runs first. -/
def removeTask (behave : Nat → Behaviour) (s : Scheduler) (ix : Nat) : Option Scheduler :=
  match s.slab.get ix with
  | none => some s
  | some task => do
    let s ← run borrowedCall s (behave ix).dropCalls
    let (_, slab) ← s.slab.remove ix
    some { s with slab := slab, log := .removed task :: s.log }

/-- The first task of a page is passed over. -/
def reclaim (behave : Nat → Behaviour) (pageIx : Nat) (s : Scheduler) (subpageIx : Nat) : Option Scheduler :=
  if subpageIx ≠ 0 then do
    let s ← s.removeTask behave (pageIx * 64 + subpageIx)
    some { s with pages := s.pages.modify pageIx (·.clear subpageIx) }
  else some s

def takeFlags (s : Scheduler) (pageIx : Nat) : Option ((Waker64 × Waker64) × Scheduler) := do
  let page ← s.pages[pageIx]?
  let (notified, page) := page.takeNotified
  let (dropped, page) := page.takeDropped
  some ((notified, dropped), { s with pages := s.pages.set pageIx page })

def pollPage (behave : Nat → Behaviour) (s : Scheduler) (pageIx : Nat) : Option Scheduler := do
  let ((notified, dropped), s) ← s.takeFlags pageIx
  let s ← run (turn behave pageIx) s notified.bits
  run (reclaim behave pageIx) s dropped.bits

/-- Pages that are added while tasks run are left for the next time. -/
def poll (behave : Nat → Behaviour) (s : Scheduler) : Option Scheduler :=
  run (pollPage behave) s (List.range s.pages.length)

def step (s : Scheduler) : SchedulerEvent → Option Scheduler
  | .call c => s.call c
  | .poll behave => s.poll behave

end Scheduler

end Capybara
