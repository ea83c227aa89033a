import Capybara.Lib.Mailbox
import Capybara.PassiveOpen
import Capybara.ReceiveCases

namespace Capybara

open Runs

/-- The ready sockets with the waker of the accept that polled last; `Op` names the operations. -/
structure WakingSockets (Op : Type) where
  sockets : ReadySockets
  waker : Option Op

namespace WakingSockets

variable {Op : Type}

/-- A push, and the accept it wakes. -/
def pushOk (r : WakingSockets Op) (cb : ControlBlock) : Option (Option Op × WakingSockets Op) := do
  let sockets ← r.sockets.pushOk cb
  some (r.waker, ⟨sockets, none⟩)

def poll (r : WakingSockets Op) (ctx : Op) : Option (Option (Except Fail ControlBlock) × WakingSockets Op) := do
  let (ready, sockets) ← r.sockets.poll
  match ready with
  | some item => some (some item, ⟨sockets, r.waker⟩)
  | none => some (none, ⟨sockets, some ctx⟩)

end WakingSockets

/-- A control block with the waker of the pop that polled last. -/
structure WakingBlock (Op : Type) where
  cb : ControlBlock
  waker : Option Op

namespace WakingBlock

variable {Op : Type}

def pollRecv (c : WakingBlock Op) (ctx : Op) : Option Buffer × WakingBlock Op :=
  match c.cb.pollRecv with
  | (some buf, cb) => (some buf, ⟨cb, c.waker⟩)
  | (none, cb) => (none, ⟨cb, some ctx⟩)

/-- Whether a stored FIN is now in order, and the pop that is woken. -/
def receiveData (c : WakingBlock Op) (segStart : SeqNumber) (buf : Buffer) :
    Option ((Bool × Option Op) × WakingBlock Op) := do
  let (fin, cb) ← c.cb.receiveData segStart buf
  some ((fin, c.waker), ⟨cb, none⟩)

end WakingBlock

section

variable {Op : Type}

theorem ReadySockets.length_pushOk {r r' : ReadySockets} {cb : ControlBlock} (h : r.pushOk cb = some r') :
    r'.ready.length = r.ready.length + 1 := by
  unfold pushOk at h
  split at h
  next => cases h
  next =>
    cases h
    exact List.length_append

theorem ReadySockets.poll_none {r r' : ReadySockets} (h : r.poll = some (none, r')) :
    r.ready.length = 0 ∧ r'.ready.length = 0 := by
  unfold poll at h
  split at h
  next hempty =>
    cases h
    rw [hempty]
    exact ⟨rfl, rfl⟩
  next =>
    split at h
    next => cases h
    next => cases h
  next => cases h

theorem ReadySockets.poll_some {r r' : ReadySockets} {item : Except Fail ControlBlock}
    (h : r.poll = some (some item, r')) : r.ready.length = r'.ready.length + 1 := by
  unfold poll at h
  split at h
  next => cases h
  next hready =>
    rw [hready]
    split at h
    next =>
      cases h
      rfl
    next => cases h
  next hready =>
    rw [hready]
    cases h
    rfl

theorem ControlBlock.pollRecv_none {cb cb' : ControlBlock} (h : cb.pollRecv = (none, cb')) :
    cb.receiver.recvQueue.length = 0 ∧ cb'.receiver.recvQueue.length = 0 := by
  unfold pollRecv Receiver.pop at h
  cases hqueue : cb.receiver.recvQueue with
  | nil =>
    rw [hqueue] at h
    cases h
    rw [hqueue]
    exact ⟨rfl, rfl⟩
  | cons buf queue =>
    rw [hqueue] at h
    cases h

theorem ControlBlock.pollRecv_some {cb cb' : ControlBlock} {buf : Buffer} (h : cb.pollRecv = (some buf, cb')) :
    cb.receiver.recvQueue.length = cb'.receiver.recvQueue.length + 1 := by
  unfold pollRecv Receiver.pop at h
  cases hqueue : cb.receiver.recvQueue with
  | nil =>
    rw [hqueue] at h
    cases h
  | cons buf queue =>
    rw [hqueue] at h
    cases h
    rfl

/-- In-order data puts at least one buffer into the receive queue. -/
theorem ControlBlock.length_receiveData {cb cb' : ControlBlock} {segStart : SeqNumber} {buf : Buffer} {fin : Bool}
    (h : cb.receiveData segStart buf = some (fin, cb')) :
    cb.receiver.recvQueue.length < cb'.receiver.recvQueue.length := by
  obtain ⟨-, -, h⟩ := Option.bind_eq_some_iff.mp h
  have hpush : (cb.receiver.push buf).receiveNext = cb.receiver.receiveNext + SeqNumber.ofNat buf.length := rfl
  obtain ⟨receiver, hdrain, hqueue, -⟩ := drainOutOfOrder_eq cb.outOfOrder _ _ false hpush
  rw [hdrain] at h
  cases h
  show _ < receiver.recvQueue.length
  rw [hqueue, Receiver.push, List.length_append, List.length_append, List.length_singleton]
  omega

/-- The accepts on a listening socket. -/
def acceptBox (Op : Type) : Mailbox (WakingSockets Op) ControlBlock (Except Fail ControlBlock) Op where
  size r := r.sockets.ready.length
  slot r := r.waker
  push := WakingSockets.pushOk
  poll := WakingSockets.poll
  push_spec := by
    intro r cb woken r' h
    obtain ⟨sockets, hpush, h⟩ := Option.bind_eq_some_iff.mp h
    cases h
    exact ⟨Nat.lt_of_succ_le (ReadySockets.length_pushOk hpush).ge, rfl⟩
  poll_pending := by
    intro r op r' h
    obtain ⟨⟨ready, sockets⟩, hpoll, h⟩ := Option.bind_eq_some_iff.mp h
    cases ready with
    | none =>
      cases h
      obtain ⟨hbefore, hafter⟩ := ReadySockets.poll_none hpoll
      exact ⟨hbefore, hafter, rfl⟩
    | some item => cases h
  poll_ready := by
    intro r op item r' h
    obtain ⟨⟨ready, sockets⟩, hpoll, h⟩ := Option.bind_eq_some_iff.mp h
    cases ready with
    | none => cases h
    | some item =>
      cases h
      exact ReadySockets.poll_some hpoll

/-- The pops on a connection; what arrives is in-order data with the sequence number at which it starts. -/
def popBox (Op : Type) : Mailbox (WakingBlock Op) (SeqNumber × Buffer) Buffer Op where
  size c := c.cb.receiver.recvQueue.length
  slot c := c.waker
  push c segment := (c.receiveData segment.1 segment.2).map fun ((_, woken), c) => (woken, c)
  poll c ctx := some (c.pollRecv ctx)
  push_spec := by
    intro c segment woken c' h
    obtain ⟨⟨⟨fin, woken'⟩, c''⟩, hreceive, h⟩ := Option.map_eq_some_iff.mp h
    cases h
    obtain ⟨⟨fin', cb⟩, hdata, hreceive⟩ := Option.bind_eq_some_iff.mp hreceive
    cases hreceive
    exact ⟨ControlBlock.length_receiveData hdata, rfl⟩
  poll_pending := by
    intro c op c' h
    have hpoll := Option.some.inj h
    unfold WakingBlock.pollRecv at hpoll
    split at hpoll
    next => cases hpoll
    next hnone =>
      cases hpoll
      obtain ⟨hbefore, hafter⟩ := ControlBlock.pollRecv_none hnone
      exact ⟨hbefore, hafter, rfl⟩
  poll_ready := by
    intro c op buf c' h
    have hpoll := Option.some.inj h
    unfold WakingBlock.pollRecv at hpoll
    split at hpoll
    next hsome =>
      cases hpoll
      exact ControlBlock.pollRecv_some hsome
    next => cases hpoll

/-- Accepts and pops are served throughout a run exactly if every event of it hits, and every event does as long as
they are issued one at a time. -/
theorem wakers_served_iff [DecidableEq Op] :
    (∀ sockets es w, run (acceptBox Op).step ⟨⟨sockets, none⟩, ∅, ∅⟩ es = some w →
      (Always (acceptBox Op).step (acceptBox Op).Served ⟨⟨sockets, none⟩, ∅, ∅⟩ es ↔
        Admits (acceptBox Op).step (acceptBox Op).Hits ⟨⟨sockets, none⟩, ∅, ∅⟩ es) ∧
      (Admits (acceptBox Op).step Mailbox.OneByOne ⟨⟨sockets, none⟩, ∅, ∅⟩ es →
        Admits (acceptBox Op).step (acceptBox Op).Hits ⟨⟨sockets, none⟩, ∅, ∅⟩ es)) ∧
    ∀ cb es w, run (popBox Op).step ⟨⟨cb, none⟩, ∅, ∅⟩ es = some w →
      (Always (popBox Op).step (popBox Op).Served ⟨⟨cb, none⟩, ∅, ∅⟩ es ↔
        Admits (popBox Op).step (popBox Op).Hits ⟨⟨cb, none⟩, ∅, ∅⟩ es) ∧
      (Admits (popBox Op).step Mailbox.OneByOne ⟨⟨cb, none⟩, ∅, ∅⟩ es →
        Admits (popBox Op).step (popBox Op).Hits ⟨⟨cb, none⟩, ∅, ∅⟩ es) :=
  ⟨fun _ _ _ hr => ⟨Mailbox.run_served_iff hr, Mailbox.hits_of_oneByOne hr⟩,
    fun _ _ _ hr => ⟨Mailbox.run_served_iff hr, Mailbox.hits_of_oneByOne hr⟩⟩

end

/-- A connection with a client at the given port. -/
def sampleConnection (port : UInt16) : ControlBlock :=
  .new ⟨⟨10, 0, 1, 8⟩, 10000⟩ ⟨⟨10, 0, 1, 7⟩, port⟩ ⟨1⟩ 0 1000 0 ⟨1⟩ 1000 0 536

/-- One accept at a time: it is polled before and after the connection arrives. -/
theorem wakers_served_iff_single : Always (acceptBox Nat).step (acceptBox Nat).Served ⟨⟨.new, none⟩, ∅, ∅⟩
    [.register 0, .poll 0, .arrive (sampleConnection 50000), .poll 0] := by
  obtain ⟨haccepts, -⟩ := @wakers_served_iff Nat _
  have hgoes : (run (acceptBox Nat).step ⟨⟨.new, none⟩, ∅, ∅⟩
    [.register 0, .poll 0, .arrive (sampleConnection 50000), .poll 0]).isSome = true := rfl
  obtain ⟨w, hr⟩ := Option.isSome_iff_exists.mp hgoes
  obtain ⟨hiff, hits⟩ := haccepts .new _ w hr
  exact hiff.mpr (hits ⟨rfl, fun _ _ => ⟨trivial, fun _ _ => ⟨trivial, fun _ _ => ⟨trivial, fun _ _ => trivial⟩⟩⟩⟩)

/-- Two accepts, and two pops, of which the second one left its waker: the first one is not woken by what comes after
the second one is done. -/
theorem wakers_served_iff_two :
    (∃ w, run (acceptBox Nat).step ⟨⟨.new, none⟩, ∅, ∅⟩ [.register 0, .register 1, .poll 0, .poll 1,
      .arrive (sampleConnection 50000), .poll 1, .arrive (sampleConnection 50001)] = some w ∧
        ¬(acceptBox Nat).Served w) ∧
    ∃ w, run (popBox Nat).step ⟨⟨sampleConnection 50000, none⟩, ∅, ∅⟩ [.register 0, .register 1, .poll 0, .poll 1,
      .arrive ⟨⟨1⟩, [7]⟩, .poll 1, .arrive ⟨⟨2⟩, [8]⟩] = some w ∧ ¬(popBox Nat).Served w := by
  constructor
  · have hends : (run (acceptBox Nat).step ⟨⟨.new, none⟩, ∅, ∅⟩ [.register 0, .register 1, .poll 0, .poll 1,
        .arrive (sampleConnection 50000), .poll 1, .arrive (sampleConnection 50001)]).map
        (fun w => ((acceptBox Nat).size w.box, w.pending, w.notified)) = some (1, {0}, ∅) := by decide
    exact Mailbox.not_served hends (by decide) (by decide)
  · have hends : (run (popBox Nat).step ⟨⟨sampleConnection 50000, none⟩, ∅, ∅⟩ [.register 0, .register 1, .poll 0,
        .poll 1, .arrive ⟨⟨1⟩, [7]⟩, .poll 1, .arrive ⟨⟨2⟩, [8]⟩]).map
        (fun w => ((popBox Nat).size w.box, w.pending, w.notified)) = some (1, {0}, ∅) := by decide
    exact Mailbox.not_served hends (by decide) (by decide)

end Capybara
