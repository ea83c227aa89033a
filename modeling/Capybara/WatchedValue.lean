import Capybara.Lib.HashMap
import Capybara.Lib.Runs

namespace Capybara

open Runs

inductive WatchState
  | unregistered
  | registered
  | completed (polled : Bool)
  deriving DecidableEq, Repr

/-- The data of a future's node. `Task` names the tasks that wakers wake. -/
structure WatchEntry (Task : Type) where
  task : Option Task
  state : WatchState
  deriving DecidableEq, Repr

/-- A value with the futures that are alive and the list of those that wait, front first. The list links the nodes
of the futures; here both go by the number of the future. -/
structure WatchedValue (T Task : Type) where
  value : T
  waiters : List Nat
  futures : HashMap Nat (WatchEntry Task)
  created : Nat

namespace WatchedValue

section

variable {T Task : Type}

def new (value : T) : WatchedValue T Task := ⟨value, [], ∅, 0⟩

def setWithoutNotify (w : WatchedValue T Task) (newValue : T) : WatchedValue T Task := { w with value := newValue }

def setFuture (w : WatchedValue T Task) (id : Nat) (entry : WatchEntry Task) : WatchedValue T Task :=
  { w with futures := w.futures.insert id entry }

/-- What `reverse_drain` does to the nodes, with the tasks it wakes. A node that is gone is a dangling pointer. -/
def complete : List Nat → HashMap Nat (WatchEntry Task) → Option (HashMap Nat (WatchEntry Task) × List Task)
  | [], futures => some (futures, [])
  | id :: waiters, futures => do
    let waiter ← futures.get id
    let (futures, woken) ← complete waiters (futures.insert id ⟨none, .completed false⟩)
    some (futures, waiter.task.toList ++ woken)

def modify (w : WatchedValue T Task) (f : T → T) : Option (WatchedValue T Task × List Task) := do
  let (futures, woken) ← complete w.waiters.reverse w.futures
  some ({ w with value := f w.value, waiters := [], futures := futures }, woken)

def set (w : WatchedValue T Task) (newValue : T) : Option (WatchedValue T Task × List Task) :=
  w.modify fun _ => newValue

def watch (w : WatchedValue T Task) : T × WatchedValue T Task :=
  (w.value, { w.setFuture w.created ⟨none, .unregistered⟩ with created := w.created + 1 })

/-- A poll of a live future by the task of the waker, and whether it is ready. -/
def poll [DecidableEq Task] (w : WatchedValue T Task) (id : Nat) (waker : Task) :
    Option (Bool × WatchedValue T Task) := do
  let waitNode ← w.futures.get id
  match waitNode.state with
  | .unregistered =>
    some (false, { w.setFuture id ⟨some waker, .registered⟩ with waiters := id :: w.waiters })
  | .registered =>
    if waitNode.task = some waker then some (false, w)
    else some (false, w.setFuture id { waitNode with task := some waker })
  | .completed _ => some (true, w.setFuture id { waitNode with state := .completed true })

/-- The drop of a live future, which takes its node out of the list if it waits. -/
def drop (w : WatchedValue T Task) (id : Nat) : Option (WatchedValue T Task) := do
  let waitNode ← w.futures.get id
  let w := { w with futures := w.futures.remove id }
  match waitNode.state with
  | .registered => if id ∈ w.waiters then some { w with waiters := w.waiters.erase id } else none
  | .unregistered | .completed _ => some w

/-- Every live future has been polled. -/
def AllPolled (w : WatchedValue T Task) : Prop := ∀ id entry, w.futures.get id = some entry → entry.state ≠ .unregistered

/-- The nodes in the list are those of the live futures that wait. -/
structure Linked (w : WatchedValue T Task) : Prop where
  nodup : w.waiters.Nodup
  registered : ∀ id, id ∈ w.waiters ↔ ∃ entry, w.futures.get id = some entry ∧ entry.state = .registered
  fresh : ∀ id, w.created ≤ id → w.futures.get id = none

end

end WatchedValue

inductive WatchEvent (T Task : Type)
  | watch
  | poll (id : Nat) (waker : Task)
  | drop (id : Nat)
  | modify (f : T → T)
  | set (newValue : T)
  | setWithoutNotify (newValue : T)

/-- A watched value, and for each future: whether the value was set after the `watch` that made it, the task of its
last poll that was not ready, and whether that task was woken after it. -/
structure WatchRun (T Task : Type) where
  watched : WatchedValue T Task
  setSince : Nat → Bool
  polledBy : Nat → Option Task
  woken : Nat → Bool

namespace WatchRun

section

variable {T Task : Type}

def start (value : T) : WatchRun T Task := ⟨.new value, fun _ => false, fun _ => none, fun _ => false⟩

variable [DecidableEq Task]

/-- A set or modify, and the tasks that it wakes. -/
def notify (r : WatchRun T Task) (w : WatchedValue T Task) (tasks : List Task) : WatchRun T Task where
  watched := w
  setSince := fun _ => true
  polledBy := r.polledBy
  woken := fun id => r.woken id || (r.polledBy id).any fun task => decide (task ∈ tasks)

/-- A poll that was not ready. -/
def waits (r : WatchRun T Task) (w : WatchedValue T Task) (id : Nat) (waker : Task) : WatchRun T Task where
  watched := w
  setSince := r.setSince
  polledBy := Function.update r.polledBy id (some waker)
  woken := Function.update r.woken id false

def step (r : WatchRun T Task) : WatchEvent T Task → Option (WatchRun T Task)
  | .watch => some
    { watched := r.watched.watch.2
      setSince := Function.update r.setSince r.watched.created false
      polledBy := Function.update r.polledBy r.watched.created none
      woken := Function.update r.woken r.watched.created false }
  | .poll id waker => do
    let (ready, w) ← r.watched.poll id waker
    some (if ready then { r with watched := w } else r.waits w id waker)
  | .drop id => do
    let w ← r.watched.drop id
    some { r with watched := w }
  | .modify f => do
    let (w, tasks) ← r.watched.modify f
    some (r.notify w tasks)
  | .set newValue => do
    let (w, tasks) ← r.watched.set newValue
    some (r.notify w tasks)
  | .setWithoutNotify newValue => some { r with watched := r.watched.setWithoutNotify newValue }

/-- A live future is ready for a poll exactly if the value was set since, and then the task that waits for it has been
woken. -/
def MissesNothing (r : WatchRun T Task) : Prop :=
  ∀ id, (r.watched.futures.get id).isSome = true →
    (∀ waker, ∃ w, r.watched.poll id waker = some (r.setSince id, w)) ∧
      (r.setSince id = true → ∀ task, r.polledBy id = some task → r.woken id = true)

/-- The value is set only when every live future has been polled. -/
def SetsWhenPolled (r : WatchRun T Task) : WatchEvent T Task → Prop
  | .modify _ | .set _ => r.watched.AllPolled
  | _ => True

/-- What is recorded of a future agrees with its node. -/
def Agrees (r : WatchRun T Task) (id : Nat) (entry : WatchEntry Task) : Prop :=
  match entry.state with
  | .unregistered => r.setSince id = false
  | .registered => r.setSince id = false ∧ ∃ task, entry.task = some task ∧ r.polledBy id = some task
  | .completed _ => r.setSince id = true ∧ ∀ task, r.polledBy id = some task → r.woken id = true

structure Tracks (r : WatchRun T Task) : Prop where
  linked : r.watched.Linked
  agrees : ∀ id entry, r.watched.futures.get id = some entry → r.Agrees id entry

end

end WatchRun

namespace WatchedValue

section

variable {T Task : Type} {w w' : WatchedValue T Task} {id : Nat} {entry : WatchEntry Task}

/-- All nodes that are drained are completed, and the tasks in them are woken. -/
theorem complete_spec {ids : List Nat} {futures : HashMap Nat (WatchEntry Task)} (hd : ids.Nodup)
    (hlive : ∀ id ∈ ids, (futures.get id).isSome = true) :
    ∃ futures' woken, complete ids futures = some (futures', woken) ∧
      (∀ id, futures'.get id = if id ∈ ids then some ⟨none, .completed false⟩ else futures.get id) ∧
      ∀ id ∈ ids, ∀ entry task, futures.get id = some entry → entry.task = some task → task ∈ woken := by
  induction ids generalizing futures with
  | nil => exact ⟨futures, [], rfl, fun id => (if_neg (List.not_mem_nil)).symm, fun id hid => (by cases hid)⟩
  | cons k ids ih =>
    obtain ⟨hk, hd⟩ := List.nodup_cons.mp hd
    obtain ⟨waiter, hwaiter⟩ := Option.isSome_iff_exists.mp (hlive k List.mem_cons_self)
    have hlive' : ∀ id ∈ ids, ((futures.insert k ⟨none, .completed false⟩).get id).isSome = true := by
      intro id hid
      rw [HashMap.get_insert]
      split
      next => rfl
      next => exact hlive id (List.mem_cons_of_mem k hid)
    obtain ⟨futures', woken, hrest, hget, hwoken⟩ := ih hd hlive'
    refine ⟨futures', waiter.task.toList ++ woken, ?_, fun id => ?_, fun id hid entry task hentry htask => ?_⟩
    · rw [complete, hwaiter, Option.bind_eq_bind, Option.bind_some, hrest]
      rfl
    · rw [hget, HashMap.get_insert]
      by_cases hid : id = k
      · subst hid
        rw [if_neg hk, if_pos rfl, if_pos List.mem_cons_self]
      · rw [if_neg hid]
        simp only [List.mem_cons, hid, false_or]
    · rcases List.mem_cons.mp hid with rfl | hrest
      · cases hentry.symm.trans hwaiter
        rw [htask]
        exact List.mem_append_left woken (List.mem_singleton.mpr rfl)
      · have hne : id ≠ k := fun heq => hk (heq ▸ hrest)
        have hkept : (futures.insert k ⟨none, .completed false⟩).get id = some entry := by
          rw [HashMap.get_insert, if_neg hne, hentry]
        exact List.mem_append_right _ (hwoken id hrest entry task hkept htask)

theorem Linked.modify (hl : w.Linked) {f : T → T} {woken : List Task} (hm : w.modify f = some (w', woken)) :
    w'.Linked ∧
      (∀ id, w'.futures.get id = if id ∈ w.waiters then some ⟨none, .completed false⟩ else w.futures.get id) ∧
      ∀ id ∈ w.waiters, ∀ entry task, w.futures.get id = some entry → entry.task = some task → task ∈ woken := by
  have hlive : ∀ id ∈ w.waiters.reverse, (w.futures.get id).isSome = true := by
    intro id hid
    obtain ⟨entry, hentry, -⟩ := (hl.registered id).mp (List.mem_reverse.mp hid)
    rw [hentry]
    rfl
  obtain ⟨futures, woken', hcomplete, hget, hwoken⟩ := complete_spec (List.nodup_reverse.mpr hl.nodup) hlive
  unfold WatchedValue.modify at hm
  rw [hcomplete] at hm
  cases hm
  simp only [List.mem_reverse] at hget hwoken
  refine ⟨⟨List.nodup_nil, fun id => ⟨fun hmem => (by cases hmem), ?_⟩, fun id hid => ?_⟩, hget, hwoken⟩
  · rintro ⟨entry, hentry, hstate⟩
    dsimp only at hentry
    rw [hget] at hentry
    split at hentry
    next =>
      cases hentry
      cases hstate
    next hnot => exact absurd ((hl.registered id).mpr ⟨entry, hentry, hstate⟩) hnot
  · dsimp only
    rw [hget]
    split
    next hmem =>
      obtain ⟨entry, hentry, -⟩ := (hl.registered id).mp hmem
      rw [hl.fresh id hid] at hentry
      cases hentry
    next => exact hl.fresh id hid

/-- A change of one node that keeps the list. -/
theorem Linked.setFuture {entry' : WatchEntry Task} (hl : w.Linked) (hentry : w.futures.get id = some entry)
    (hstate : entry'.state = .registered ↔ entry.state = .registered) : (w.setFuture id entry').Linked := by
  refine ⟨hl.nodup, fun k => ?_, fun k hk => ?_⟩
  · show k ∈ w.waiters ↔ ∃ e, (w.futures.insert id entry').get k = some e ∧ e.state = .registered
    rw [hl.registered k, HashMap.get_insert]
    split
    next heq =>
      subst heq
      constructor
      · rintro ⟨e, he, hregistered⟩
        cases he.symm.trans hentry
        exact ⟨entry', rfl, hstate.mpr hregistered⟩
      · rintro ⟨e, he, hregistered⟩
        cases he
        exact ⟨entry, hentry, hstate.mp hregistered⟩
    next => exact Iff.rfl
  · show (w.futures.insert id entry').get k = none
    rw [HashMap.get_insert, if_neg]
    · exact hl.fresh k hk
    · rintro rfl
      rw [hl.fresh k hk] at hentry
      cases hentry

theorem Linked.watch (hl : w.Linked) : w.watch.2.Linked := by
  have hnew := hl.fresh w.created (Nat.le_refl _)
  refine ⟨hl.nodup, fun k => ?_, fun k hk => ?_⟩
  · show k ∈ w.waiters ↔ ∃ e, (w.futures.insert w.created ⟨none, .unregistered⟩).get k = some e ∧ _
    rw [hl.registered k, HashMap.get_insert]
    split
    next heq =>
      subst heq
      constructor
      · rintro ⟨e, he, -⟩
        rw [hnew] at he
        cases he
      · rintro ⟨e, he, hregistered⟩
        cases he
        cases hregistered
    next => exact Iff.rfl
  · replace hk : w.created + 1 ≤ k := hk
    show (w.futures.insert w.created ⟨none, .unregistered⟩).get k = none
    rw [HashMap.get_insert, if_neg (by omega)]
    exact hl.fresh k (by omega)

/-- The first poll of a future puts its node into the list. -/
theorem Linked.register (hl : w.Linked) (waker : Task) (hentry : w.futures.get id = some entry)
    (hstate : entry.state ≠ .registered) :
    Linked { w.setFuture id ⟨some waker, .registered⟩ with waiters := id :: w.waiters } := by
  have hnot : id ∉ w.waiters := by
    intro hmem
    obtain ⟨e, he, hregistered⟩ := (hl.registered id).mp hmem
    cases he.symm.trans hentry
    exact hstate hregistered
  refine ⟨List.nodup_cons.mpr ⟨hnot, hl.nodup⟩, fun k => ?_, fun k hk => ?_⟩
  · show k ∈ id :: w.waiters ↔ ∃ e, (w.futures.insert id ⟨some waker, .registered⟩).get k = some e ∧ _
    rw [List.mem_cons, hl.registered k, HashMap.get_insert]
    split
    next heq => exact ⟨fun _ => ⟨_, rfl, rfl⟩, fun _ => .inl heq⟩
    next hne => exact ⟨fun hor => hor.resolve_left hne, .inr⟩
  · show (w.futures.insert id ⟨some waker, .registered⟩).get k = none
    rw [HashMap.get_insert, if_neg]
    · exact hl.fresh k hk
    · rintro rfl
      rw [hl.fresh k hk] at hentry
      cases hentry

theorem Linked.drop (hl : w.Linked) (hd : w.drop id = some w') :
    w'.Linked ∧ w'.futures = w.futures.remove id := by
  obtain ⟨waitNode, hnode, hd⟩ := Option.bind_eq_some_iff.mp hd
  have hfresh : ∀ k, w.created ≤ k → (w.futures.remove id).get k = none := by
    intro k hk
    rw [HashMap.get_remove]
    split
    next => rfl
    next => exact hl.fresh k hk
  have hrest : ∀ k, k ∈ w.waiters ∧ k ≠ id ↔
      ∃ e, (w.futures.remove id).get k = some e ∧ e.state = .registered := by
    intro k
    rw [hl.registered k, HashMap.get_remove]
    split
    next heq => exact ⟨fun hboth => absurd heq hboth.2, fun ⟨e, he, _⟩ => (by cases he)⟩
    next hne => exact ⟨fun hboth => hboth.1, fun hright => ⟨hright, hne⟩⟩
  dsimp only at hd
  split at hd
  next =>
    split at hd
    next =>
      cases hd
      refine ⟨⟨hl.nodup.erase id, fun k => ?_, hfresh⟩, rfl⟩
      show k ∈ w.waiters.erase id ↔ _
      rw [hl.nodup.mem_erase_iff, and_comm]
      exact hrest k
    next => cases hd
  all_goals
    next hstate =>
      cases hd
      refine ⟨⟨hl.nodup, fun k => ?_, hfresh⟩, rfl⟩
      show k ∈ w.waiters ↔ _
      rw [← hrest k]
      refine ⟨fun hmem => ⟨hmem, ?_⟩, fun hboth => hboth.1⟩
      rintro rfl
      obtain ⟨e, he, hregistered⟩ := (hl.registered k).mp hmem
      cases he.symm.trans hnode
      rw [hstate] at hregistered
      cases hregistered

/-- What a poll finds and does. -/
theorem poll_cases [DecidableEq Task] {ready : Bool} {waker : Task} (hp : w.poll id waker = some (ready, w')) :
    ∃ entry, w.futures.get id = some entry ∧
      ((entry.state = .unregistered ∧ ready = false ∧
        w' = { w.setFuture id ⟨some waker, .registered⟩ with waiters := id :: w.waiters }) ∨
      (entry.state = .registered ∧ ready = false ∧
        (w' = w ∧ entry.task = some waker ∨ w' = w.setFuture id { entry with task := some waker })) ∨
      ∃ polled, entry.state = .completed polled ∧ ready = true ∧
        w' = w.setFuture id { entry with state := .completed true }) := by
  obtain ⟨entry, hentry, hp⟩ := Option.bind_eq_some_iff.mp hp
  refine ⟨entry, hentry, ?_⟩
  dsimp only at hp
  split at hp
  next hstate =>
    cases hp
    exact .inl ⟨hstate, rfl, rfl⟩
  next hstate =>
    split at hp
    next htask =>
      cases hp
      exact .inr (.inl ⟨hstate, rfl, .inl ⟨rfl, htask⟩⟩)
    next =>
      cases hp
      exact .inr (.inl ⟨hstate, rfl, .inr rfl⟩)
  next polled hstate =>
    cases hp
    exact .inr (.inr ⟨polled, hstate, rfl, rfl⟩)

end

end WatchedValue

namespace WatchRun

section

variable {T Task : Type} [DecidableEq Task] {r r' : WatchRun T Task} {w : WatchedValue T Task} {id : Nat}
  {entry : WatchEntry Task}

omit [DecidableEq Task] in
/-- A change of one node and of what is recorded of its future. -/
theorem Tracks.setEntry (ht : r.Tracks) (hl : r'.watched.Linked)
    (hget : ∀ k, r'.watched.futures.get k = if k = id then some entry else r.watched.futures.get k)
    (hothers : ∀ k, k ≠ id → r'.setSince k = r.setSince k ∧ r'.polledBy k = r.polledBy k ∧ r'.woken k = r.woken k)
    (hself : r'.Agrees id entry) : r'.Tracks := by
  refine ⟨hl, fun k e he => ?_⟩
  rw [hget] at he
  split at he
  next hk =>
    subst hk
    cases he
    exact hself
  next hk =>
    obtain ⟨hset, hpolled, hwoken⟩ := hothers k hk
    have hagrees := ht.agrees k e he
    unfold Agrees at hagrees ⊢
    rw [hset, hpolled, hwoken]
    exact hagrees

omit [DecidableEq Task] in
theorem waits_others (r : WatchRun T Task) (w : WatchedValue T Task) (waker : Task) (k : Nat)
    (hk : k ≠ id) :
    (r.waits w id waker).setSince k = r.setSince k ∧ (r.waits w id waker).polledBy k = r.polledBy k ∧
      (r.waits w id waker).woken k = r.woken k :=
  ⟨rfl, Function.update_of_ne hk _ _, Function.update_of_ne hk _ _⟩

theorem Tracks.poll {ready : Bool} {waker : Task} (ht : r.Tracks) (hp : r.watched.poll id waker = some (ready, w)) :
    Tracks (if ready then { r with watched := w } else r.waits w id waker) := by
  obtain ⟨entry, hentry, hcases⟩ := WatchedValue.poll_cases hp
  have hagrees := ht.agrees id entry hentry
  unfold Agrees at hagrees
  rcases hcases with ⟨hstate, rfl, rfl⟩ | ⟨hstate, rfl, hw⟩ | ⟨polled, hstate, rfl, rfl⟩
  · rw [hstate] at hagrees
    have hlinked := ht.linked.register waker hentry (by rw [hstate]; exact fun heq => by cases heq)
    exact ht.setEntry hlinked (fun k => HashMap.get_insert _ _ _ _) (waits_others r _ waker)
      ⟨hagrees, waker, rfl, Function.update_self _ _ _⟩
  · rw [hstate] at hagrees
    rcases hw with ⟨rfl, htask⟩ | rfl
    · have hsame : ∀ k, r.watched.futures.get k = if k = id then some entry else r.watched.futures.get k := by
        intro k
        split
        next hk => rw [hk, hentry]
        next => rfl
      refine ht.setEntry ht.linked hsame (waits_others r _ waker) ?_
      unfold Agrees
      rw [hstate]
      exact ⟨hagrees.1, waker, htask, Function.update_self _ _ _⟩
    · have hlinked : (r.watched.setFuture id { entry with task := some waker }).Linked :=
        ht.linked.setFuture hentry Iff.rfl
      refine ht.setEntry hlinked (fun k => HashMap.get_insert _ _ _ _) (waits_others r _ waker) ?_
      unfold Agrees
      rw [hstate]
      exact ⟨hagrees.1, waker, rfl, Function.update_self _ _ _⟩
  · rw [hstate] at hagrees
    have hlinked : (r.watched.setFuture id { entry with state := .completed true }).Linked := by
      refine ht.linked.setFuture hentry ?_
      rw [hstate]
      exact ⟨fun heq => (by cases heq), fun heq => (by cases heq)⟩
    exact ht.setEntry hlinked (fun k => HashMap.get_insert _ _ _ _) (fun _ _ => ⟨rfl, rfl, rfl⟩) hagrees

omit [DecidableEq Task] in
theorem Tracks.watch (ht : r.Tracks) : Tracks
    { watched := r.watched.watch.2
      setSince := Function.update r.setSince r.watched.created false
      polledBy := Function.update r.polledBy r.watched.created none
      woken := Function.update r.woken r.watched.created false } :=
  ht.setEntry ht.linked.watch (fun _ => HashMap.get_insert _ _ _ _)
    (fun _ hk => ⟨Function.update_of_ne hk _ _, Function.update_of_ne hk _ _, Function.update_of_ne hk _ _⟩)
    (Function.update_self _ _ _)

omit [DecidableEq Task] in
theorem Tracks.drop (ht : r.Tracks) (hd : r.watched.drop id = some w) : Tracks { r with watched := w } := by
  obtain ⟨hlinked, hfutures⟩ := ht.linked.drop hd
  refine ⟨hlinked, fun k e he => ?_⟩
  replace he : w.futures.get k = some e := he
  rw [hfutures, HashMap.get_remove] at he
  split at he
  next => cases he
  next => exact ht.agrees k e he

/-- A set completes every future that has been polled. -/
theorem Tracks.notify {f : T → T} {tasks : List Task} (ht : r.Tracks) (hall : r.watched.AllPolled)
    (hm : r.watched.modify f = some (w, tasks)) : (r.notify w tasks).Tracks := by
  obtain ⟨hlinked, hget, hwoken⟩ := ht.linked.modify hm
  refine ⟨hlinked, fun id e he => ?_⟩
  replace he : w.futures.get id = some e := he
  rw [hget] at he
  split at he
  next hmem =>
    cases he
    obtain ⟨entry, hentry, hstate⟩ := (ht.linked.registered id).mp hmem
    have hagrees := ht.agrees id entry hentry
    unfold Agrees at hagrees
    rw [hstate] at hagrees
    obtain ⟨-, task, htask, hpolled⟩ := hagrees
    refine ⟨rfl, fun task' hpolled' => ?_⟩
    cases hpolled.symm.trans hpolled'
    show (r.woken id || (r.polledBy id).any fun task => decide (task ∈ tasks)) = true
    rw [hpolled, Option.any_some, decide_eq_true (hwoken id hmem entry task hentry htask), Bool.or_true]
  next hnot =>
    have hagrees := ht.agrees id e he
    unfold Agrees at hagrees ⊢
    split
    next hstate => exact absurd hstate (hall id e he)
    next hstate => exact absurd ((ht.linked.registered id).mpr ⟨e, he, hstate⟩) hnot
    next polled hstate =>
      rw [hstate] at hagrees
      refine ⟨rfl, fun task hpolled => ?_⟩
      show (r.woken id || _) = true
      rw [hagrees.2 task hpolled, Bool.true_or]

/-- A set while a future has not been polled yet is missed by it. -/
theorem Tracks.missed {f : T → T} {tasks : List Task} (ht : r.Tracks) (hall : ¬r.watched.AllPolled)
    (hm : r.watched.modify f = some (w, tasks)) (task : Task) : ¬(r.notify w tasks).MissesNothing := by
  obtain ⟨-, hget, -⟩ := ht.linked.modify hm
  unfold WatchedValue.AllPolled at hall
  simp only [not_forall, not_not] at hall
  obtain ⟨id, entry, hentry, hstate⟩ := hall
  have hnot : id ∉ r.watched.waiters := by
    intro hmem
    obtain ⟨e, he, hregistered⟩ := (ht.linked.registered id).mp hmem
    cases he.symm.trans hentry
    rw [hstate] at hregistered
    cases hregistered
  have hkept : w.futures.get id = some entry := by rw [hget, if_neg hnot, hentry]
  intro hmisses
  obtain ⟨hready, -⟩ := hmisses id (by rw [show (r.notify w tasks).watched.futures.get id = _ from hkept]; rfl)
  obtain ⟨w', hp⟩ := hready task
  obtain ⟨e, he, hcases⟩ := WatchedValue.poll_cases hp
  cases he.symm.trans hkept
  rcases hcases with ⟨-, hno, -⟩ | ⟨hregistered, -⟩ | ⟨polled, hcompleted, -⟩
  · cases hno
  · rw [hstate] at hregistered
    cases hregistered
  · rw [hstate] at hcompleted
    cases hcompleted

theorem Tracks.missesNothing (ht : r.Tracks) : r.MissesNothing := by
  intro id hlive
  obtain ⟨entry, hentry⟩ := Option.isSome_iff_exists.mp hlive
  have hagrees := ht.agrees id entry hentry
  unfold Agrees at hagrees
  split at hagrees
  next hstate =>
    rw [hagrees]
    refine ⟨fun waker => ?_, fun hset => (by cases hset)⟩
    simp only [WatchedValue.poll, hentry, Option.bind_eq_bind, Option.bind_some, hstate]
    exact ⟨_, rfl⟩
  next hstate =>
    rw [hagrees.1]
    refine ⟨fun waker => ?_, fun hset => (by cases hset)⟩
    simp only [WatchedValue.poll, hentry, Option.bind_eq_bind, Option.bind_some, hstate]
    split
    next => exact ⟨_, rfl⟩
    next => exact ⟨_, rfl⟩
  next polled hstate =>
    rw [hagrees.1]
    refine ⟨fun waker => ?_, fun _ => hagrees.2⟩
    simp only [WatchedValue.poll, hentry, Option.bind_eq_bind, Option.bind_some, hstate]
    exact ⟨_, rfl⟩

theorem tracks_step {e : WatchEvent T Task} (ht : r.Tracks) (hs : step r e = some r') (task : Task) :
    (r'.MissesNothing ↔ r.SetsWhenPolled e) ∧ (r.SetsWhenPolled e → r'.Tracks) := by
  have hkeeps : r'.Tracks → r.SetsWhenPolled e →
      (r'.MissesNothing ↔ r.SetsWhenPolled e) ∧ (r.SetsWhenPolled e → r'.Tracks) :=
    fun ht' hok => ⟨⟨fun _ => hok, fun _ => ht'.missesNothing⟩, fun _ => ht'⟩
  have hnotify : ∀ {f : T → T} {w tasks}, r.watched.modify f = some (w, tasks) →
      ((r.notify w tasks).MissesNothing ↔ r.watched.AllPolled) ∧ (r.watched.AllPolled → (r.notify w tasks).Tracks) := by
    intro f w tasks hm
    refine ⟨⟨fun hmisses => ?_, fun hall => (ht.notify hall hm).missesNothing⟩, fun hall => ht.notify hall hm⟩
    by_contra hall
    exact ht.missed hall hm task hmisses
  cases e with
  | watch =>
    cases hs
    exact hkeeps ht.watch trivial
  | poll id waker =>
    obtain ⟨⟨ready, w⟩, hp, hs⟩ := Option.bind_eq_some_iff.mp hs
    cases hs
    exact hkeeps (ht.poll hp) trivial
  | drop id =>
    obtain ⟨w, hd, hs⟩ := Option.bind_eq_some_iff.mp hs
    cases hs
    exact hkeeps (ht.drop hd) trivial
  | modify f =>
    obtain ⟨⟨w, tasks⟩, hm, hs⟩ := Option.bind_eq_some_iff.mp hs
    cases hs
    exact hnotify hm
  | set newValue =>
    obtain ⟨⟨w, tasks⟩, hm, hs⟩ := Option.bind_eq_some_iff.mp hs
    cases hs
    exact hnotify hm
  | setWithoutNotify newValue =>
    cases hs
    exact hkeeps ⟨⟨ht.linked.nodup, ht.linked.registered, ht.linked.fresh⟩, ht.agrees⟩ trivial

omit [DecidableEq Task] in
theorem tracks_start (value : T) : (start value : WatchRun T Task).Tracks := by
  have hnone : ∀ id, ((start value : WatchRun T Task).watched.futures).get id = none := fun id => HashMap.get_empty id
  refine ⟨⟨List.nodup_nil, fun id => ⟨fun hmem => (by cases hmem), ?_⟩, fun id _ => hnone id⟩, fun id entry he => ?_⟩
  · rintro ⟨entry, he, -⟩
    rw [hnone] at he
    cases he
  · rw [hnone] at he
    cases he

/-- A watched value misses no update throughout a run exactly if it is set only when every live future has been
polled. -/
theorem watchRun_missesNothing_iff [Inhabited Task] {value : T} {es : List (WatchEvent T Task)}
    (hr : run step (start value) es = some r) :
    Always step (fun r : WatchRun T Task => r.MissesNothing) (start value) es ↔
      Admits step SetsWhenPolled (start value) es := by
  have hstep : ∀ (r : WatchRun T Task) e r', r.Tracks → r.MissesNothing → True → step r e = some r' →
      (r'.MissesNothing ↔ r.SetsWhenPolled e) ∧ (r.SetsWhenPolled e → r'.Tracks) :=
    fun r e r' ht _ _ hs => tracks_step ht hs default
  have hstart : (start value : WatchRun T Task).Tracks := tracks_start value
  exact always_iff_admits hstep hstart hstart.missesNothing (admits_of_forall (fun _ _ => trivial) _ es) hr

end

/-- A future is polled before the value is set and after it, and then dropped. -/
def sampleWatch : List (WatchEvent Nat Nat) := [.watch, .poll 0 7, .set 5, .poll 0 7, .drop 0]

theorem watchRun_missesNothing_iff_sample :
    Always step (fun r : WatchRun Nat Nat => r.MissesNothing) (start 3) sampleWatch := by
  have hgoes : (run step (start 3) sampleWatch).isSome = true := rfl
  obtain ⟨r, hr⟩ := Option.isSome_iff_exists.mp hgoes
  refine (watchRun_missesNothing_iff hr).mpr ⟨trivial, fun r₁ h₁ => ⟨trivial, fun r₂ h₂ => ⟨?_,
    fun r₃ _ => ⟨trivial, fun r₄ _ => ⟨trivial, fun r₅ _ => trivial⟩⟩⟩⟩⟩
  cases h₁
  cases h₂
  intro id entry hentry
  have hget := (HashMap.get_insert _ 0 id _).symm.trans hentry
  split at hget
  next =>
    cases hget
    exact fun heq => by cases heq
  next hne =>
    have hold := (HashMap.get_insert (∅ : HashMap Nat (WatchEntry Nat)) 0 id ⟨none, .unregistered⟩).symm.trans hget
    rw [if_neg hne, HashMap.get_empty] at hold
    cases hold

/-- The value is set between the watch and the first poll, which is not ready. -/
theorem watchRun_missesNothing_iff_unpolled : ∃ r : WatchRun Nat Nat, run step (start 3) [.watch, .set 5] = some r ∧
    (∃ w, r.watched.poll 0 7 = some (false, w)) ∧ ¬r.MissesNothing := by
  refine ⟨_, rfl, ⟨_, rfl⟩, fun hmisses => ?_⟩
  obtain ⟨hready, -⟩ := hmisses 0 rfl
  obtain ⟨w, hw⟩ := hready 7
  have hsame : some false = some true := congrArg (Option.map Prod.fst) hw
  cases hsame

end WatchRun

end Capybara
