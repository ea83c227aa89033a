import Capybara.Lib.Runs
import Capybara.RingBuffer

namespace Capybara

open Window

/-- Where the producer is in `try_enqueue`, with its copies of the indices. -/
inductive Enqueuing (α : Type)
  | idle
  | frontLoaded (item : α) (frontCached : Nat)
  | checked (item : α) (backCached : Nat)
  | written (item : α) (backCached : Nat)
  deriving DecidableEq, Repr

/-- Where the consumer is in `try_dequeue`. -/
inductive Dequeuing (α : Type)
  | idle
  | frontLoaded (frontCached : Nat)
  | checked (frontCached : Nat)
  | read (item : α) (frontCached : Nat)
  deriving DecidableEq, Repr

/-- What a call has returned. -/
inductive RingReturn (α : Type)
  | enqueued (item : α)
  | full (item : α)
  | dequeued (item : α)
  | empty
  deriving DecidableEq, Repr

namespace RingReturn

variable {α : Type}

def enqueued? : RingReturn α → Option α
  | .enqueued item => some item
  | _ => none

def dequeued? : RingReturn α → Option α
  | .dequeued item => some item
  | _ => none

end RingReturn

structure SharedRing (α : Type) where
  ring : RingBuffer α
  producer : Enqueuing α
  consumer : Dequeuing α
  returns : List (RingReturn α)
  deriving DecidableEq

/-- The producer calls `try_enqueue` with an item when it has no call under way; else its call goes on. -/
inductive RingEvent (α : Type)
  | producer (item : α)
  | consumer
  deriving DecidableEq, Repr

namespace SharedRing

variable {α : Type} {s : SharedRing α}

/-- One load, slot access or store of `try_enqueue`. -/
def stepProducer (s : SharedRing α) (item : α) : Option (SharedRing α) :=
  match s.producer with
  | .idle => some { s with producer := .frontLoaded item s.ring.frontPtr }
  | .frontLoaded item frontCached => do
    let backCached := s.ring.backPtr
    let next ← s.ring.next backCached
    if next = frontCached then some { s with producer := .idle, returns := s.returns ++ [.full item] }
    else some { s with producer := .checked item backCached }
  | .checked item backCached => do
    let ring ← s.ring.write backCached item
    some { s with ring := ring, producer := .written item backCached }
  | .written item backCached => do
    let next ← s.ring.next backCached
    some { s with
      ring := { s.ring with backPtr := next }, producer := .idle, returns := s.returns ++ [.enqueued item] }

/-- One load, slot access or store of `try_dequeue`. -/
def stepConsumer (s : SharedRing α) : Option (SharedRing α) :=
  match s.consumer with
  | .idle => some { s with consumer := .frontLoaded s.ring.frontPtr }
  | .frontLoaded frontCached =>
    let backCached := s.ring.backPtr
    if backCached = frontCached then some { s with consumer := .idle, returns := s.returns ++ [.empty] }
    else some { s with consumer := .checked frontCached }
  | .checked frontCached => do
    let item ← s.ring.read frontCached
    some { s with consumer := .read item frontCached }
  | .read item frontCached => do
    let next ← s.ring.next frontCached
    some { s with
      ring := { s.ring with frontPtr := next }, consumer := .idle, returns := s.returns ++ [.dequeued item] }

def step (s : SharedRing α) : RingEvent α → Option (SharedRing α)
  | .producer item => s.stepProducer item
  | .consumer => s.stepConsumer

def start (ring : RingBuffer α) : SharedRing α := ⟨ring, .idle, .idle, []⟩

def enqueued (s : SharedRing α) : List α := s.returns.filterMap RingReturn.enqueued?

def dequeued (s : SharedRing α) : List α := s.returns.filterMap RingReturn.dequeued?

/-- A producer that has seen room for its item still has it when it writes, however far the consumer has come. -/
def ProducerFits (ring : RingBuffer α) (n : Nat) : Enqueuing α → Prop
  | .idle => True
  | .frontLoaded _ frontCached => frontCached < ring.buffer.capacity ∧
      ∃ m, n ≤ m ∧ m < ring.buffer.capacity ∧ ring.backPtr = slot ring.buffer.capacity frontCached m
  | .checked _ backCached => backCached = ring.backPtr ∧ n + 1 < ring.buffer.capacity
  | .written item backCached => backCached = ring.backPtr ∧ n + 1 < ring.buffer.capacity ∧
      ring.buffer.data[backCached]? = some item

/-- A consumer that has seen an item still has it in front when it reads and until it has moved the index. -/
def ConsumerFits (ring : RingBuffer α) (n : Nat) : Dequeuing α → Prop
  | .idle => True
  | .frontLoaded frontCached => frontCached = ring.frontPtr
  | .checked frontCached => frontCached = ring.frontPtr ∧ 0 < n
  | .read item frontCached => frontCached = ring.frontPtr ∧ 0 < n ∧ ring.buffer.data[frontCached]? = some item

/-- The ring holds `n` items, which are those enqueued and not yet dequeued. -/
structure Holds (s : SharedRing α) (n : Nat) : Prop where
  front : s.ring.frontPtr < s.ring.buffer.capacity
  back : s.ring.backPtr = slot s.ring.buffer.capacity s.ring.frontPtr n
  room : n < s.ring.buffer.capacity
  items : s.enqueued = s.dequeued ++ window s.ring.buffer.data s.ring.frontPtr n
  producer : ProducerFits s.ring n s.producer
  consumer : ConsumerFits s.ring n s.consumer

/-- The producer disturbs the consumer neither with what it writes behind the front nor with more items. -/
theorem ConsumerFits.congr {ring ring' : RingBuffer α} {n n' : Nat} {consumer : Dequeuing α}
    (h : ConsumerFits ring n consumer) (hfront : ring'.frontPtr = ring.frontPtr) (hn : n ≤ n')
    (hdata : 0 < n → ring'.buffer.data[ring.frontPtr]? = ring.buffer.data[ring.frontPtr]?) :
    ConsumerFits ring' n' consumer := by
  cases consumer with
  | idle => trivial
  | frontLoaded frontCached => exact Eq.trans h hfront.symm
  | checked frontCached => exact ⟨h.1.trans hfront.symm, Nat.lt_of_lt_of_le h.2 hn⟩
  | read item frontCached =>
    obtain ⟨rfl, hpos, hget⟩ := h
    exact ⟨hfront.symm, Nat.lt_of_lt_of_le hpos hn, (hdata hpos).trans hget⟩

/-- The consumer disturbs the producer not by taking items out. -/
theorem ProducerFits.congr {ring ring' : RingBuffer α} {n n' : Nat} {producer : Enqueuing α}
    (h : ProducerFits ring n producer) (hback : ring'.backPtr = ring.backPtr) (hbuffer : ring'.buffer = ring.buffer)
    (hn : n' ≤ n) : ProducerFits ring' n' producer := by
  cases producer with
  | idle => trivial
  | frontLoaded item frontCached =>
    obtain ⟨hf, m, hnm, hm, heq⟩ := h
    refine ⟨hbuffer ▸ hf, m, Nat.le_trans hn hnm, hbuffer ▸ hm, ?_⟩
    rw [hback, hbuffer]
    exact heq
  | checked item backCached =>
    exact ⟨h.1.trans hback.symm, hbuffer ▸ Nat.lt_of_le_of_lt (Nat.succ_le_succ hn) h.2⟩
  | written item backCached =>
    exact ⟨h.1.trans hback.symm, hbuffer ▸ Nat.lt_of_le_of_lt (Nat.succ_le_succ hn) h.2.1, hbuffer ▸ h.2.2⟩

theorem holds_start {ring : RingBuffer α} (hback : ring.backPtr = 0) (hfront : ring.frontPtr = 0) :
    (start ring).Holds 0 := by
  have hpos := ring.buffer.capacity_pos
  refine ⟨by rw [start, hfront]; exact hpos, ?_, hpos, rfl, trivial, trivial⟩
  rw [start, hback, hfront, slot, Nat.zero_mod]

theorem back_lt {n : Nat} (h : s.Holds n) : s.ring.backPtr < s.ring.buffer.capacity := by
  rw [h.back]
  exact slot_lt h.front

/-- Loading the back index decides whether there is room. -/
theorem stepProducer_loaded {item : α} {frontCached n : Nat} (h : s.Holds n)
    (hp : s.producer = .frontLoaded item frontCached) (new : α) : ∃ s', s.stepProducer new = some s' ∧ s'.Holds n := by
  have hfits := h.producer
  rw [hp] at hfits
  obtain ⟨hf, m, hnm, hm, hback⟩ := hfits
  unfold stepProducer
  rw [hp]
  simp only [RingBuffer.next_eq (back_lt h), Option.bind_eq_bind, Option.bind_some]
  split
  next hfull =>
    refine ⟨_, rfl, h.front, h.back, h.room, ?_, trivial, h.consumer⟩
    simpa [enqueued, dequeued, List.filterMap_cons, RingReturn.enqueued?, RingReturn.dequeued?] using h.items
  next hroom =>
    rw [hback, slot_succ_eq_iff hf hm] at hroom
    have hn : n + 1 < s.ring.buffer.capacity := by omega
    exact ⟨_, rfl, h.front, h.back, h.room, h.items, ⟨rfl, hn⟩, h.consumer⟩

/-- The slot that the producer writes is behind every item that the ring holds. -/
theorem stepProducer_checked {item : α} {backCached n : Nat} (h : s.Holds n)
    (hp : s.producer = .checked item backCached) (new : α) : ∃ s', s.stepProducer new = some s' ∧ s'.Holds n := by
  have hfits := h.producer
  rw [hp] at hfits
  obtain ⟨rfl, hn⟩ := hfits
  obtain ⟨written, hwrite, hb, hf, hdata⟩ := RingBuffer.write_eq (back_lt h) item
  have hcap : written.buffer.capacity = s.ring.buffer.capacity := by
    rw [RawArray.capacity, hdata, List.length_set]; rfl
  unfold stepProducer
  rw [hp]
  simp only [hwrite, Option.bind_eq_bind, Option.bind_some]
  refine ⟨_, rfl, ?_, ?_, ?_, ?_, ?_, ?_⟩
  · rw [hf, hcap]; exact h.front
  · rw [hb, hf, hcap]; exact h.back
  · rw [hcap]; exact h.room
  · rw [hdata, hf, h.back]
    exact h.items.trans (congrArg _ (window_set h.front h.room item).symm)
  · refine ⟨hb.symm, hcap ▸ hn, ?_⟩
    rw [hdata]
    exact List.getElem?_set_self (back_lt h)
  · refine h.consumer.congr hf (Nat.le_refl n) fun hpos => ?_
    have hne : s.ring.backPtr ≠ s.ring.frontPtr := by
      intro heq
      have hzero := (slot_eq_front_iff h.front h.room).mp (h.back.symm.trans heq)
      omega
    rw [hdata, List.getElem?_set_ne hne]

/-- Moving the back index hands the written item over. -/
theorem stepProducer_written {item : α} {backCached n : Nat} (h : s.Holds n)
    (hp : s.producer = .written item backCached) (new : α) : ∃ s', s.stepProducer new = some s' ∧ s'.Holds (n + 1) := by
  have hfits := h.producer
  rw [hp] at hfits
  obtain ⟨rfl, hn, hget⟩ := hfits
  unfold stepProducer
  rw [hp]
  simp only [RingBuffer.next_eq (back_lt h), Option.bind_eq_bind, Option.bind_some]
  refine ⟨_, rfl, h.front, ?_, hn, ?_, trivial, ?_⟩
  · show slot s.ring.buffer.capacity s.ring.backPtr 1 = _
    rw [h.back, slot_slot]
  · obtain ⟨a, ha, hwindow⟩ := @window_succ _ s.ring.buffer.data s.ring.frontPtr n h.front
    have hitem : a = item := Option.some.inj (ha.symm.trans ((congrArg _ h.back.symm).trans hget))
    have hitems := h.items
    simp only [enqueued, dequeued] at hitems ⊢
    simp [List.filterMap_cons, RingReturn.enqueued?, RingReturn.dequeued?, hwindow, hitems, hitem]
  · exact h.consumer.congr rfl (Nat.le_succ n) fun _ => rfl

theorem stepProducer_holds {n : Nat} (h : s.Holds n) (new : α) :
    ∃ s' n', s.stepProducer new = some s' ∧ s'.Holds n' := by
  cases hp : s.producer with
  | idle =>
    refine ⟨{ s with producer := .frontLoaded new s.ring.frontPtr }, n, by rw [stepProducer, hp], ?_⟩
    exact ⟨h.front, h.back, h.room, h.items, ⟨h.front, n, Nat.le_refl n, h.room, h.back⟩, h.consumer⟩
  | frontLoaded item frontCached =>
    obtain ⟨s', hs, hholds⟩ := stepProducer_loaded h hp new
    exact ⟨s', n, hs, hholds⟩
  | checked item backCached =>
    obtain ⟨s', hs, hholds⟩ := stepProducer_checked h hp new
    exact ⟨s', n, hs, hholds⟩
  | written item backCached =>
    obtain ⟨s', hs, hholds⟩ := stepProducer_written h hp new
    exact ⟨s', n + 1, hs, hholds⟩

/-- The back index tells whether the ring holds an item. -/
theorem stepConsumer_loaded {frontCached n : Nat} (h : s.Holds n) (hc : s.consumer = .frontLoaded frontCached) :
    ∃ s', s.stepConsumer = some s' ∧ s'.Holds n := by
  have hfits := h.consumer
  rw [hc] at hfits
  obtain rfl : frontCached = s.ring.frontPtr := hfits
  unfold stepConsumer
  rw [hc]
  dsimp only
  split
  next hempty =>
    refine ⟨_, rfl, h.front, h.back, h.room, ?_, h.producer, trivial⟩
    simpa [enqueued, dequeued, List.filterMap_cons, RingReturn.enqueued?, RingReturn.dequeued?] using h.items
  next hsome =>
    rw [h.back, slot_eq_front_iff h.front h.room] at hsome
    exact ⟨_, rfl, h.front, h.back, h.room, h.items, h.producer, rfl, Nat.pos_of_ne_zero hsome⟩

theorem stepConsumer_checked {frontCached n : Nat} (h : s.Holds n) (hc : s.consumer = .checked frontCached) :
    ∃ s', s.stepConsumer = some s' ∧ s'.Holds n := by
  have hfits := h.consumer
  rw [hc] at hfits
  obtain ⟨rfl, hpos⟩ := hfits
  have hget := List.getElem?_eq_getElem h.front
  unfold stepConsumer RingBuffer.read
  rw [hc]
  simp only [hget, Option.bind_eq_bind, Option.bind_some]
  exact ⟨_, rfl, h.front, h.back, h.room, h.items, h.producer, rfl, hpos, hget⟩

/-- Moving the front index takes the item that was read out of the ring. -/
theorem stepConsumer_read {item : α} {frontCached n : Nat} (h : s.Holds (n + 1))
    (hc : s.consumer = .read item frontCached) : ∃ s', s.stepConsumer = some s' ∧ s'.Holds n := by
  have hfits := h.consumer
  rw [hc] at hfits
  obtain ⟨rfl, -, hget⟩ := hfits
  unfold stepConsumer
  rw [hc]
  simp only [RingBuffer.next_eq h.front, Option.bind_eq_bind, Option.bind_some]
  refine ⟨_, rfl, slot_lt h.front, ?_, Nat.lt_of_succ_lt h.room, ?_, ?_, trivial⟩
  · show s.ring.backPtr = slot _ (slot s.ring.buffer.capacity s.ring.frontPtr 1) n
    rw [h.back, slot_slot, Nat.add_comm]
  · obtain ⟨a, ha, hwindow⟩ := @window_cons _ s.ring.buffer.data s.ring.frontPtr n h.front
    have hitem : a = item := Option.some.inj (ha.symm.trans hget)
    have hitems := h.items
    simp only [enqueued, dequeued, hwindow, hitem] at hitems ⊢
    simp [List.filterMap_cons, RingReturn.enqueued?, RingReturn.dequeued?, hitems, RawArray.capacity]
  · exact h.producer.congr rfl rfl (Nat.le_succ n)

theorem stepConsumer_holds {n : Nat} (h : s.Holds n) : ∃ s' n', s.stepConsumer = some s' ∧ s'.Holds n' := by
  cases hc : s.consumer with
  | idle =>
    refine ⟨{ s with consumer := .frontLoaded s.ring.frontPtr }, n, by rw [stepConsumer, hc], ?_⟩
    exact ⟨h.front, h.back, h.room, h.items, h.producer, rfl⟩
  | frontLoaded frontCached =>
    obtain ⟨s', hs, hholds⟩ := stepConsumer_loaded h hc
    exact ⟨s', n, hs, hholds⟩
  | checked frontCached =>
    obtain ⟨s', hs, hholds⟩ := stepConsumer_checked h hc
    exact ⟨s', n, hs, hholds⟩
  | read item frontCached =>
    have hfits := h.consumer
    rw [hc] at hfits
    obtain ⟨m, rfl⟩ := Nat.exists_eq_succ_of_ne_zero (Nat.ne_zero_of_lt hfits.2.1)
    obtain ⟨s', hs, hholds⟩ := stepConsumer_read h hc
    exact ⟨s', m, hs, hholds⟩

theorem step_holds (h : ∃ n, s.Holds n) (e : RingEvent α) : ∃ s', s.step e = some s' ∧ ∃ n, s'.Holds n := by
  obtain ⟨n, h⟩ := h
  cases e with
  | producer item =>
    obtain ⟨s', n', hs, hholds⟩ := stepProducer_holds h item
    exact ⟨s', hs, n', hholds⟩
  | consumer =>
    obtain ⟨s', n', hs, hholds⟩ := stepConsumer_holds h
    exact ⟨s', hs, n', hholds⟩

theorem Holds.held_eq {n : Nat} (h : s.Holds n) : s.ring.held = window s.ring.buffer.data s.ring.frontPtr n := by
  rw [RingBuffer.held, h.back, distance_slot h.front h.room]

/-- With no step of the other side between its own, a call of the producer does what `try_enqueue` does. -/
theorem run_tryEnqueue (ring : RingBuffer α) (consumer : Dequeuing α) (returns : List (RingReturn α)) (item : α) :
    ∃ n, Runs.run step ⟨ring, .idle, consumer, returns⟩ (List.replicate n (.producer item)) =
      (ring.tryEnqueue item).map fun r =>
        ⟨r.1, .idle, consumer, returns ++ [if r.2.isOk then .enqueued item else .full item]⟩ := by
  by_cases hfull : ring.next ring.backPtr = some ring.frontPtr
  · refine ⟨2, ?_⟩
    simp [Runs.run, step, stepProducer, RingBuffer.tryEnqueue, hfull, Except.isOk, Except.toBool]
  · refine ⟨4, ?_⟩
    cases hnext : ring.next ring.backPtr with
    | none => simp [Runs.run, step, stepProducer, RingBuffer.tryEnqueue, hnext]
    | some next =>
      have hne : next ≠ ring.frontPtr := by
        intro heq
        exact hfull (heq ▸ hnext)
      have hfixed : ∀ written, ring.write ring.backPtr item = some written →
          written.next ring.backPtr = some next := by
        intro written hwrite
        obtain ⟨-, hsome⟩ := Option.ite_none_right_eq_some.mp hwrite
        cases hsome
        exact hnext
      cases hwrite : ring.write ring.backPtr item with
      | none => simp [Runs.run, step, stepProducer, RingBuffer.tryEnqueue, hnext, hne, hwrite]
      | some written =>
        simp [Runs.run, step, stepProducer, RingBuffer.tryEnqueue, hnext, hne, hwrite, hfixed written hwrite,
          Except.isOk, Except.toBool]

theorem run_tryDequeue (ring : RingBuffer α) (producer : Enqueuing α) (returns : List (RingReturn α)) :
    ∃ n, Runs.run step ⟨ring, producer, .idle, returns⟩ (List.replicate n .consumer) =
      ring.tryDequeue.map fun r => ⟨r.1, producer, .idle, returns ++ [r.2.elim .empty .dequeued]⟩ := by
  by_cases hempty : ring.backPtr = ring.frontPtr
  · refine ⟨2, ?_⟩
    simp [Runs.run, step, stepConsumer, RingBuffer.tryDequeue, hempty]
  · refine ⟨4, ?_⟩
    cases hread : ring.read ring.frontPtr with
    | none => simp [Runs.run, step, stepConsumer, RingBuffer.tryDequeue, hempty, hread]
    | some item =>
      cases hnext : ring.next ring.frontPtr with
      | none => simp [Runs.run, step, stepConsumer, RingBuffer.tryDequeue, hempty, hread, hnext]
      | some next => simp [Runs.run, step, stepConsumer, RingBuffer.tryDequeue, hempty, hread, hnext]

theorem stepProducer_capacity {s' : SharedRing α} {new : α} (h : s.stepProducer new = some s') :
    s'.ring.capacity = s.ring.capacity := by
  unfold stepProducer at h
  split at h
  next => cases h; rfl
  next =>
    obtain ⟨next, -, h⟩ := Option.bind_eq_some_iff.mp h
    split at h <;> cases h <;> rfl
  next =>
    obtain ⟨ring, hwrite, h⟩ := Option.bind_eq_some_iff.mp h
    obtain ⟨-, hsome⟩ := Option.ite_none_right_eq_some.mp hwrite
    cases hsome
    cases h
    exact congrArg (· - 1) (RawArray.capacity_set _ _ _)
  next =>
    obtain ⟨next, -, h⟩ := Option.bind_eq_some_iff.mp h
    cases h
    rfl

theorem stepConsumer_capacity {s' : SharedRing α} (h : s.stepConsumer = some s') :
    s'.ring.capacity = s.ring.capacity := by
  unfold stepConsumer at h
  split at h
  next => cases h; rfl
  next => dsimp only at h; split at h <;> cases h <;> rfl
  next =>
    obtain ⟨item, -, h⟩ := Option.bind_eq_some_iff.mp h
    cases h
    rfl
  next =>
    obtain ⟨next, -, h⟩ := Option.bind_eq_some_iff.mp h
    cases h
    rfl

theorem step_capacity {s' : SharedRing α} {e : RingEvent α} (h : s.step e = some s') :
    s'.ring.capacity = s.ring.capacity := by
  cases e with
  | producer item => exact stepProducer_capacity h
  | consumer => exact stepConsumer_capacity h

theorem Holds.length_held {n : Nat} (h : s.Holds n) : s.ring.held.length ≤ s.ring.capacity := by
  rw [h.held_eq, length_window h.front]
  exact Nat.le_sub_one_of_lt h.room

/-- What a reading consumer has read is still the first item of the ring. -/
theorem Holds.head_held {item : α} {frontCached n : Nat} (h : s.Holds n) (hc : s.consumer = .read item frontCached) :
    s.ring.held.head? = some item := by
  have hfits := h.consumer
  rw [hc] at hfits
  obtain ⟨rfl, hpos, hget⟩ := hfits
  obtain ⟨m, rfl⟩ := Nat.exists_eq_succ_of_ne_zero (Nat.ne_zero_of_lt hpos)
  obtain ⟨a, ha, hwindow⟩ := @window_cons _ s.ring.buffer.data s.ring.frontPtr m h.front
  rw [h.held_eq, hwindow]
  exact ha.symm.trans hget

theorem run_fifo {ring : RingBuffer α} (hbuilt : ring.Built) (events : List (RingEvent α)) :
    ∃ s, Runs.run step (start ring) events = some s ∧ s.dequeued <+: s.enqueued ∧
      s.enqueued = s.dequeued ++ s.ring.held ∧ s.ring.held.length ≤ ring.capacity ∧
      ∀ item frontCached, s.consumer = .read item frontCached → s.ring.held.head? = some item := by
  obtain ⟨hback, hfront⟩ := hbuilt.empty
  have hstep : ∀ (s : SharedRing α) (e : RingEvent α), ((∃ n, s.Holds n) ∧ s.ring.capacity = ring.capacity) → True →
      ∃ s', s.step e = some s' ∧ (∃ n, s'.Holds n) ∧ s'.ring.capacity = ring.capacity := by
    intro s e hs _
    obtain ⟨s', he, hholds⟩ := step_holds hs.1 e
    exact ⟨s', he, hholds, (step_capacity he).trans hs.2⟩
  have hstart : (∃ n, (start ring).Holds n) ∧ (start ring).ring.capacity = ring.capacity :=
    ⟨⟨0, holds_start hback hfront⟩, rfl⟩
  obtain ⟨s, hrun, hholds, hcap⟩ :=
    Runs.run_invariant hstep hstart (Runs.admits_of_forall (fun _ _ => trivial) _ events)
  obtain ⟨n, hn⟩ := hholds
  have hitems : s.enqueued = s.dequeued ++ s.ring.held := by rw [hn.held_eq]; exact hn.items
  exact ⟨s, hrun, ⟨_, hitems.symm⟩, hitems, hcap ▸ hn.length_held, fun _ _ => hn.head_held⟩

def twoCells : RingBuffer Nat := ⟨0, 0, ⟨[0, 0], by decide, by decide⟩, 1, ⟨1, rfl⟩, rfl⟩

/-- The second item finds the ring full, and the third is written around the end. -/
def twoCellsEvents : List (RingEvent Nat) :=
  List.replicate 4 (.producer 5) ++ List.replicate 2 (.producer 6) ++ List.replicate 4 .consumer ++
    List.replicate 4 (.producer 7) ++ List.replicate 4 .consumer ++ List.replicate 4 (.producer 8)

theorem run_fifo_twoCells : twoCells.Built ∧
    ∃ s, Runs.run step (start twoCells) twoCellsEvents = some s ∧
      s.dequeued = [5, 7] ∧ s.enqueued = [5, 7, 8] ∧ s.dequeued <+: s.enqueued := by
  have hbuilt : twoCells.Built := .new ⟨8, 8⟩ (fun _ => 0) 2 rfl
  obtain ⟨s, hrun, hprefix, -⟩ := run_fifo hbuilt twoCellsEvents
  have hdequeued : (Runs.run step (start twoCells) twoCellsEvents).map dequeued = some [5, 7] := by decide
  have henqueued : (Runs.run step (start twoCells) twoCellsEvents).map enqueued = some [5, 7, 8] := by decide
  rw [hrun] at hdequeued henqueued
  exact ⟨hbuilt, s, hrun, Option.some.inj hdequeued, Option.some.inj henqueued, hprefix⟩

end SharedRing

end Capybara
