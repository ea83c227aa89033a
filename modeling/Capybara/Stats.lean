import Capybara.Lib.Rows
import Capybara.Lib.Runs
import Capybara.StatsHandle

namespace Capybara

open Rows

def bucketSizeLog2 : Nat := 3

def rollingAvgWindow : Nat := 128

structure RollingAverage where
  values : List Nat
  sum : Nat
  deriving DecidableEq, Repr

namespace RollingAverage

def new : RollingAverage := ⟨List.replicate rollingAvgWindow 0, 0⟩

def update (r : RollingAverage) (value : Nat) : Option RollingAverage :=
  match r.values with
  | [] => none
  | oldest :: values => do
    let sum ← checkedSub r.sum oldest
    some ⟨values ++ [value], sum + value⟩

end RollingAverage

/-- The cells of a handle, those that only the table of handles uses included. -/
structure StatsHandleInner where
  handle : StatsHandle
  bucketListPosition : Option (Nat × Nat)
  handlesIndex : Option Nat
  deriving DecidableEq, Repr

def StatsHandleInner.new : StatsHandleInner := ⟨.new, none, none⟩

/-- The counter of a tracked handle, which goes on counting until a poll takes it out. -/
def Stat.value : Stat → Nat
  | .disabled => 0
  | .enabled val => val
  | .markedForDisable val => val

/-- The table of tracked handles. `H` names the handles, which are shared with the connections. -/
structure Stats (H : Type) where
  globalStat : Nat
  avgGlobalStat : RollingAverage
  buckets : List (List H)
  handles : List H
  cells : H → StatsHandleInner

inductive StatsEvent (H : Type)
  | enable (h : H) (useOldValue : Bool) (initialVal : Nat)
  | disable (h : H)
  | set (h : H) (val : Nat)
  | increment (h : H)
  | poll
  | resetStats

namespace Stats

variable {H : Type} [DecidableEq H]

def new : Stats H := ⟨0, .new, [], [], fun _ => .new⟩

def value (t : Stats H) (h : H) : Nat := (t.cells h).handle.stat.value

def setCell (t : Stats H) (h : H) (cell : StatsHandleInner) : Stats H :=
  { t with cells := Function.update t.cells h cell }

def setHandle (t : Stats H) (h : H) (handle : StatsHandle) : Stats H :=
  t.setCell h { t.cells h with handle := handle }

def setPosition (t : Stats H) (h : H) (position : Option (Nat × Nat)) : Stats H :=
  t.setCell h { t.cells h with bucketListPosition := position }

def setHandlesIndex (t : Stats H) (h : H) (index : Option Nat) : Stats H :=
  t.setCell h { t.cells h with handlesIndex := index }

def pushIntoBucket (t : Stats H) (index : Nat) (h : H) : Stats H :=
  { t with buckets := push t.buckets index h }.setPosition h (some (index, (t.buckets.getD index []).length))

/-- `BucketList::insert`. -/
def insertIntoBuckets (t : Stats H) (h : H) (val : Nat) : Stats H :=
  if val > 0 then t.pushIntoBucket (val >>> bucketSizeLog2) h else t

/-- `BucketList::remove`. -/
def removeFromBuckets (t : Stats H) (position : Nat × Nat) : Option (H × Stats H) := do
  let (removed, buckets) ← remove t.buckets position.1 position.2
  let t := { t with buckets := buckets }.setPosition removed none
  match look buckets position.1 position.2 with
  | some moved => some (removed, t.setPosition moved (some position))
  | none => some (removed, t)

/-- `BucketList::update`. -/
def updateBuckets (t : Stats H) (h : H) (val : Nat) : Option (Stats H) :=
  match (t.cells h).bucketListPosition with
  | none => some (t.insertIntoBuckets h val)
  | some (index, subIndex) =>
    if val = 0 ∨ index ≠ val >>> bucketSizeLog2 then do
      let (h, t) ← t.removeFromBuckets (index, subIndex)
      some (t.insertIntoBuckets h val)
    else some t

/-- A handle that is only marked for disable keeps its places in the table. -/
def enable (t : Stats H) (h : H) (useOldValue : Bool) (initialVal : Nat) : Option (Stats H) := do
  let handle ← (t.cells h).handle.enable useOldValue initialVal
  let old := (t.cells h).handle.stat
  let t := { t.setHandle h handle with globalStat := t.globalStat + handle.stat.value }
  match old with
  | .disabled =>
    let t := { t.setHandlesIndex h (some t.handles.length) with handles := t.handles ++ [h] }
    some (t.insertIntoBuckets h handle.stat.value)
  | _ => some t

def disable (t : Stats H) (h : H) : Stats H :=
  match (t.cells h).handle.stat with
  | .enabled _ => (t.setHandle h (t.cells h).handle.disable).setHandlesIndex h none
  | _ => t

def set (t : Stats H) (h : H) (val : Nat) : Stats H := t.setHandle h ((t.cells h).handle.set val)

def increment (t : Stats H) (h : H) : Stats H := t.setHandle h (t.cells h).handle.increment

/-- `swap_remove` on the handles; the handle that moves learns its new index. -/
def removeHandle (t : Stats H) (i : Nat) : Option (H × Stats H) := do
  let (h, handles) ← swapRemove t.handles i
  let t := { t with handles := handles }.setHandlesIndex h none
  match handles[i]? with
  | some moved => some (h, t.setHandlesIndex moved (some i))
  | none => some (h, t)

def leaveBuckets (t : Stats H) (h : H) : Option (Stats H) :=
  match (t.cells h).bucketListPosition with
  | some position => do
    let (_, t) ← t.removeFromBuckets position
    some (t.setPosition h none)
  | none => some t

/-- Takes the handle at index `i`, which is marked for disable, out of the table. -/
def untrack (t : Stats H) (i : Nat) (val : Nat) : Option (Stats H) := do
  let (h, t) ← t.removeHandle i
  let t ← t.leaveBuckets h
  let t := t.setHandle h { (t.cells h).handle with stat := .disabled }
  let globalStat ← checkedSub t.globalStat val
  some { t with globalStat := globalStat }

/-- Brings the table up to date with the last value set on a handle. -/
def refresh (t : Stats H) (h : H) (val : Nat) : Option (Stats H) :=
  match (t.cells h).handle.statToUpdate with
  | none => some t
  | some statToUpdate =>
    let t := t.setHandle h { (t.cells h).handle with statToUpdate := none }
    if statToUpdate = val then some t
    else do
      let globalStat ← checkedSub (t.globalStat + statToUpdate) val
      let t := { t with globalStat := globalStat }
      let t := t.setHandle h { (t.cells h).handle with stat := .enabled statToUpdate }
      t.updateBuckets h statToUpdate

/-- The loop of `poll` from index `i` on. Every turn either moves on or takes a handle out, so a budget of one
turn for each handle is enough. -/
def pollFrom : Nat → Nat → Stats H → Option (Stats H)
  | budget, i, t =>
    match t.handles[i]? with
    | none => some t
    | some h =>
      match budget with
      | 0 => none
      | budget + 1 =>
        match (t.cells h).handle.stat with
        | .markedForDisable val => (t.untrack i val).bind (pollFrom budget i)
        | .enabled val => (t.refresh h val).bind (pollFrom budget (i + 1))
        | .disabled => none

def poll (t : Stats H) : Option (Stats H) := do
  let t ← pollFrom t.handles.length 0 t
  let avgGlobalStat ← t.avgGlobalStat.update t.globalStat
  some { t with avgGlobalStat := avgGlobalStat }

def resetStats (t : Stats H) : Stats H :=
  t.buckets.flatten.foldl (fun t h => t.setHandle h { (t.cells h).handle with statToUpdate := some 0 }) t

def step (t : Stats H) : StatsEvent H → Option (Stats H)
  | .enable h useOldValue initialVal => t.enable h useOldValue initialVal
  | .disable h => some (t.disable h)
  | .set h val => some (t.set h val)
  | .increment h => some (t.increment h)
  | .poll => t.poll
  | .resetStats => some t.resetStats

end Stats

end Capybara
