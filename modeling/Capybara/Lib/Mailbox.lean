import Capybara.Lib.Runs
import Mathlib.Data.Finset.Basic

open Runs

/-- A queue that many operations wait for, with one slot for a waker. Arrivals take the waker out of the slot and wake
its operation; a poll takes an item, or leaves its waker. -/
structure Mailbox (S A B Op : Type) where
  size : S → Nat
  slot : S → Option Op
  push : S → A → Option (Option Op × S)
  poll : S → Op → Option (Option B × S)
  push_spec : ∀ {s a woken s'}, push s a = some (woken, s') → size s < size s' ∧ woken = slot s
  poll_pending : ∀ {s op s'}, poll s op = some (none, s') → size s = 0 ∧ size s' = 0 ∧ slot s' = some op
  poll_ready : ∀ {s op b s'}, poll s op = some (some b, s') → size s = size s' + 1

namespace Mailbox

inductive Event (A Op : Type)
  | register (op : Op)
  | arrive (a : A)
  | poll (op : Op)
  | cancel (op : Op)

/-- The mailbox with the operations that wait for it, and those notified and not polled since. -/
structure Waiting (S Op : Type) where
  box : S
  pending : Finset Op
  notified : Finset Op

section

variable {S A B Op : Type} [DecidableEq Op]

namespace Waiting

/-- Waking an operation that is over has no effect. -/
def wake (w : Waiting S Op) (woken : Option Op) : Finset Op :=
  match woken with
  | some op => if op ∈ w.pending then insert op w.notified else w.notified
  | none => w.notified

/-- An operation is over. -/
def finish (w : Waiting S Op) (box : S) (op : Op) : Waiting S Op := ⟨box, w.pending.erase op, w.notified.erase op⟩

/-- Another pending operation has been notified, if there is another one. -/
def Hands (w : Waiting S Op) (op : Op) : Prop :=
  w.pending.erase op = ∅ ∨ ∃ other ∈ w.pending.erase op, other ∈ w.notified

end Waiting

variable (m : Mailbox S A B Op)

/-- A new operation is notified, so that it is polled once. -/
def step (w : Waiting S Op) : Event A Op → Option (Waiting S Op)
  | .register op =>
    if op ∈ w.pending then none else some ⟨w.box, insert op w.pending, insert op w.notified⟩
  | .arrive a => do
    let (woken, box) ← m.push w.box a
    some ⟨box, w.pending, w.wake woken⟩
  | .poll op =>
    if op ∈ w.pending then do
      let (item, box) ← m.poll w.box op
      match item with
      | some _ => some (w.finish box op)
      | none => some ⟨box, w.pending, w.notified.erase op⟩
    else none
  | .cancel op => if op ∈ w.pending then some (w.finish w.box op) else none

/-- Whenever something is there and an operation waits for it, a waiting operation has been notified. -/
def Served (w : Waiting S Op) : Prop :=
  m.size w.box ≠ 0 → w.pending ≠ ∅ → ∃ op ∈ w.pending, op ∈ w.notified

/-- An arrival finds a waker or a notified operation among those that wait; an operation that completes or is
cancelled leaves nothing behind, or nobody, or a notified one. -/
def Hits (w : Waiting S Op) : Event A Op → Prop
  | .register _ => True
  | .arrive _ => w.pending = ∅ ∨ ∃ op ∈ w.pending, op ∈ w.notified ∨ m.slot w.box = some op
  | .poll op => m.size w.box ≤ 1 ∨ w.Hands op
  | .cancel op => m.size w.box = 0 ∨ w.Hands op

variable {m} {w w' : Waiting S Op} {e : Event A Op} {op : Op}

theorem served_finish {box : S} : m.Served (w.finish box op) ↔ m.size box = 0 ∨ w.Hands op := by
  have hnotified : (∃ other ∈ w.pending.erase op, other ∈ w.notified.erase op) ↔
      ∃ other ∈ w.pending.erase op, other ∈ w.notified := by
    constructor
    · rintro ⟨other, hother, hin⟩
      exact ⟨other, hother, Finset.mem_of_mem_erase hin⟩
    · rintro ⟨other, hother, hin⟩
      exact ⟨other, hother, Finset.mem_erase.mpr ⟨Finset.ne_of_mem_erase hother, hin⟩⟩
  show (m.size box ≠ 0 → w.pending.erase op ≠ ∅ → ∃ other ∈ w.pending.erase op, other ∈ w.notified.erase op) ↔ _
  rw [hnotified]
  unfold Waiting.Hands
  constructor
  · intro hs
    by_cases hempty : m.size box = 0
    · exact .inl hempty
    by_cases hnobody : w.pending.erase op = ∅
    · exact .inr (.inl hnobody)
    · exact .inr (.inr (hs hempty hnobody))
  · rintro (hempty | hnobody | hother) hsize hpending
    · exact absurd hempty hsize
    · exact absurd hnobody hpending
    · exact hother

theorem mem_wake (w : Waiting S Op) (woken : Option Op) (hop : op ∈ w.pending) :
    op ∈ w.wake woken ↔ op ∈ w.notified ∨ woken = some op := by
  unfold Waiting.wake
  cases woken with
  | none => exact ⟨.inl, fun hor => hor.resolve_right fun heq => by cases heq⟩
  | some sleeper =>
    dsimp only
    split
    next =>
      rw [Finset.mem_insert, Option.some.injEq, or_comm, eq_comm]
    next hgone =>
      refine ⟨.inl, fun hor => hor.resolve_right ?_⟩
      rintro ⟨⟩
      exact hgone hop

theorem served_arrive {a : A} {woken : Option Op} {box : S} (hp : m.push w.box a = some (woken, box)) :
    m.Served ⟨box, w.pending, w.wake woken⟩ ↔
      (w.pending = ∅ ∨ ∃ op ∈ w.pending, op ∈ w.notified ∨ m.slot w.box = some op) := by
  obtain ⟨hsize, rfl⟩ := m.push_spec hp
  constructor
  · intro hs
    by_cases hnobody : w.pending = ∅
    · exact .inl hnobody
    · obtain ⟨op, hop, hin⟩ := hs (by show m.size box ≠ 0; omega) hnobody
      exact .inr ⟨op, hop, (mem_wake w _ hop).mp hin⟩
  · rintro (hnobody | ⟨op, hop, hin⟩) - hpending
    · exact absurd hnobody hpending
    · exact ⟨op, hop, (mem_wake w _ hop).mpr hin⟩

/-- A step leaves the operations served exactly if its event hits. -/
theorem served_step (hs : m.step w e = some w') : m.Served w' ↔ m.Hits w e := by
  cases e with
  | register op =>
    rw [step] at hs
    split at hs
    next => cases hs
    next =>
      cases hs
      exact ⟨fun _ => trivial, fun _ _ _ => ⟨op, Finset.mem_insert_self op _, Finset.mem_insert_self op _⟩⟩
  | arrive a =>
    obtain ⟨⟨woken, box⟩, hp, hs⟩ := Option.bind_eq_some_iff.mp hs
    cases hs
    exact served_arrive hp
  | poll op =>
    rw [step] at hs
    split at hs
    next =>
      obtain ⟨⟨item, box⟩, hp, hs⟩ := Option.bind_eq_some_iff.mp hs
      cases item with
      | some b =>
        cases hs
        have hsize := m.poll_ready hp
        have hone : m.size box = 0 ↔ m.size w.box ≤ 1 := by omega
        rw [served_finish, hone]
        exact Iff.rfl
      | none =>
        cases hs
        obtain ⟨hbefore, hafter, -⟩ := m.poll_pending hp
        exact ⟨fun _ => .inl (by omega), fun _ hsize => absurd hafter hsize⟩
    next => cases hs
  | cancel op =>
    rw [step] at hs
    split at hs
    next =>
      cases hs
      exact served_finish
    next => cases hs

/-- Operations are served throughout a run that starts with none exactly if every event of it hits. -/
theorem run_served_iff {box : S} {es : List (Event A Op)} (hr : run m.step ⟨box, ∅, ∅⟩ es = some w) :
    Always m.step m.Served ⟨box, ∅, ∅⟩ es ↔ Admits m.step m.Hits ⟨box, ∅, ∅⟩ es := by
  have hstart : m.Served ⟨box, ∅, ∅⟩ := fun _ hpending => absurd rfl hpending
  have hstep : ∀ w e w', True → m.Served w → True → m.step w e = some w' →
      (m.Served w' ↔ m.Hits w e) ∧ (m.Hits w e → True) :=
    fun w e w' _ _ _ hs => ⟨served_step hs, fun _ => trivial⟩
  exact always_iff_admits hstep trivial hstart (admits_of_forall (fun _ _ => trivial) _ es) hr

omit [DecidableEq Op] in
/-- A mailbox with something in it, that somebody waits for, and nobody notified. -/
theorem not_served {result : Option (Waiting S Op)} {n : Nat} {pending : Finset Op}
    (h : result.map (fun w => (m.size w.box, w.pending, w.notified)) = some (n, pending, ∅)) (hn : n ≠ 0)
    (hpending : pending ≠ ∅) : ∃ w, result = some w ∧ ¬m.Served w := by
  obtain ⟨w, hr, hw⟩ := Option.map_eq_some_iff.mp h
  refine ⟨w, hr, fun hs => ?_⟩
  obtain ⟨rfl, hrest⟩ := Prod.mk.inj hw
  obtain ⟨rfl, hnobody⟩ := Prod.mk.inj hrest
  obtain ⟨op, -, hop⟩ := hs hn hpending
  rw [hnobody] at hop
  exact absurd hop (Finset.notMem_empty op)

variable (m) in
/-- At most one operation waits, and it has been notified or its waker is in the slot. -/
def Alone (w : Waiting S Op) : Prop :=
  ∀ op ∈ w.pending, w.pending = {op} ∧ (op ∈ w.notified ∨ m.slot w.box = some op)

/-- Operations are registered one at a time. -/
def OneByOne (w : Waiting S Op) : Event A Op → Prop
  | .register _ => w.pending = ∅
  | _ => True

theorem Alone.finish (ha : m.Alone w) {box : S} (hop : op ∈ w.pending) : m.Alone (w.finish box op) := by
  intro other hother
  obtain ⟨hne, hin⟩ := Finset.mem_erase.mp hother
  obtain ⟨hsingle, -⟩ := ha op hop
  rw [hsingle, Finset.mem_singleton] at hin
  exact absurd hin hne

theorem Alone.hands (ha : m.Alone w) (hop : op ∈ w.pending) : w.Hands op := by
  left
  rw [(ha op hop).1, Finset.erase_singleton]

theorem Alone.step (ha : m.Alone w) (hone : OneByOne w e) (hs : m.step w e = some w') :
    m.Alone w' ∧ m.Hits w e := by
  cases e with
  | register op =>
    rw [Mailbox.step] at hs
    split at hs
    next => cases hs
    next =>
      cases hs
      refine ⟨fun other hother => ?_, trivial⟩
      replace hone : w.pending = ∅ := hone
      show insert op w.pending = {other} ∧ _
      rw [hone, insert_empty_eq] at hother ⊢
      rw [Finset.mem_singleton.mp hother]
      exact ⟨rfl, .inl (Finset.mem_insert_self op _)⟩
  | arrive a =>
    obtain ⟨⟨woken, box⟩, hp, hs⟩ := Option.bind_eq_some_iff.mp hs
    cases hs
    obtain ⟨-, rfl⟩ := m.push_spec hp
    refine ⟨fun op hop => ⟨(ha op hop).1, .inl ((mem_wake w _ hop).mpr (ha op hop).2)⟩, ?_⟩
    by_cases hnobody : w.pending = ∅
    · exact .inl hnobody
    · obtain ⟨op, hop⟩ := Finset.nonempty_iff_ne_empty.mpr hnobody
      exact .inr ⟨op, hop, (ha op hop).2⟩
  | poll op =>
    rw [Mailbox.step] at hs
    split at hs
    next hop =>
      refine ⟨?_, .inr (ha.hands hop)⟩
      obtain ⟨⟨item, box⟩, hp, hs⟩ := Option.bind_eq_some_iff.mp hs
      cases item with
      | some b =>
        cases hs
        exact ha.finish hop
      | none =>
        cases hs
        obtain ⟨-, -, hslot⟩ := m.poll_pending hp
        intro other hother
        obtain ⟨hsingle, -⟩ := ha op hop
        replace hother : other ∈ w.pending := hother
        rw [hsingle] at hother
        rw [Finset.mem_singleton.mp hother]
        exact ⟨hsingle, .inr hslot⟩
    next => cases hs
  | cancel op =>
    rw [Mailbox.step] at hs
    split at hs
    next hop =>
      cases hs
      exact ⟨ha.finish hop, .inr (ha.hands hop)⟩
    next => cases hs

/-- Every event hits as long as operations are registered one at a time. -/
theorem hits_of_oneByOne {box : S} {es : List (Event A Op)} (hr : run m.step ⟨box, ∅, ∅⟩ es = some w)
    (hone : Admits m.step OneByOne ⟨box, ∅, ∅⟩ es) : Admits m.step m.Hits ⟨box, ∅, ∅⟩ es := by
  have hstep : ∀ w e w', m.Alone w ∧ m.Served w → OneByOne w e → m.step w e = some w' → m.Alone w' ∧ m.Served w' := by
    rintro w e w' ⟨ha, -⟩ hok hs
    obtain ⟨ha', hhits⟩ := ha.step hok hs
    exact ⟨ha', (served_step hs).mpr hhits⟩
  have hstart : m.Alone ⟨box, ∅, ∅⟩ ∧ m.Served ⟨box, ∅, ∅⟩ :=
    ⟨fun op hop => absurd hop (Finset.notMem_empty op), fun _ hpending => absurd rfl hpending⟩
  exact (run_served_iff hr).mp (always_of_admits hstep (fun _ hw => hw.2) hstart hone)

end

end Mailbox
