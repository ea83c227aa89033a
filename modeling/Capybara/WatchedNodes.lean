import Capybara.LinkedListRuns
import Capybara.WatchedValue

namespace Capybara

/-- A watched value as it lies in memory: its futures are the nodes, and those that wait are linked. -/
structure WatchedNodes (T Task : Type) where
  value : T
  waiters : LinkedList Nat (WatchEntry Task)
  created : Nat

/-- What a future or a setter gets back: whether a poll was ready, or the tasks that were woken. -/
inductive WatchAnswer (Task : Type)
  | nothing
  | polled (ready : Bool)
  | woke (tasks : List Task)
  deriving DecidableEq, Repr

namespace WatchedNodes

section

variable {T Task : Type}

def new (value : T) : WatchedNodes T Task := ⟨value, .empty, 0⟩

def setWithoutNotify (w : WatchedNodes T Task) (newValue : T) : WatchedNodes T Task := { w with value := newValue }

/-- Writes to the data of a future's node. -/
def writeNode (w : WatchedNodes T Task) (id : Nat) (entry : WatchEntry Task) : Option (WatchedNodes T Task) := do
  let n ← w.waiters.nodes.get id
  some { w with waiters := { w.waiters with nodes := w.waiters.nodes.insert id { n with data := entry } } }

def dropNode (w : WatchedNodes T Task) (id : Nat) : WatchedNodes T Task :=
  { w with waiters := { w.waiters with nodes := w.waiters.nodes.remove id } }

def modify (w : WatchedNodes T Task) (f : T → T) : Option (WatchedNodes T Task × List Task) := do
  let (visited, waiters) ← w.waiters.reverseDrain fun _ => ⟨none, .completed false⟩
  some ({ w with value := f w.value, waiters := waiters }, visited.filterMap fun node => node.2.task)

def set (w : WatchedNodes T Task) (newValue : T) : Option (WatchedNodes T Task × List Task) :=
  w.modify fun _ => newValue

def watch (w : WatchedNodes T Task) : T × WatchedNodes T Task :=
  (w.value, { w with
    waiters := { w.waiters with nodes := w.waiters.nodes.insert w.created (.new ⟨none, .unregistered⟩) }
    created := w.created + 1 })

/-- The first poll writes to the node before it is linked. -/
def register (w : WatchedNodes T Task) (id : Nat) (waker : Task) : Option (WatchedNodes T Task) := do
  let w ← w.writeNode id ⟨some waker, .registered⟩
  let waiters ← w.waiters.addFront id
  some { w with waiters := waiters }

def poll [DecidableEq Task] (w : WatchedNodes T Task) (id : Nat) (waker : Task) :
    Option (Bool × WatchedNodes T Task) := do
  let n ← w.waiters.nodes.get id
  match n.data.state with
  | .unregistered => (w.register id waker).map fun w => (false, w)
  | .registered =>
    if n.data.task = some waker then some (false, w)
    else (w.writeNode id { n.data with task := some waker }).map fun w => (false, w)
  | .completed _ => (w.writeNode id { n.data with state := .completed true }).map fun w => (true, w)

/-- A node that waits is taken out of the list before it goes, and a node that is not found there is a panic. -/
def drop (w : WatchedNodes T Task) (id : Nat) : Option (WatchedNodes T Task) := do
  let n ← w.waiters.nodes.get id
  match n.data.state with
  | .registered => do
    let (removed, waiters) ← w.waiters.remove id
    guard (removed = true)
    some (dropNode { w with waiters := waiters } id)
  | .unregistered | .completed _ => some (w.dropNode id)

def turn [DecidableEq Task] (w : WatchedNodes T Task) :
    WatchEvent T Task → Option (WatchedNodes T Task × WatchAnswer Task)
  | .watch => some (w.watch.2, .nothing)
  | .poll id waker => (w.poll id waker).map fun (ready, w) => (w, .polled ready)
  | .drop id => (w.drop id).map fun w => (w, .nothing)
  | .modify f => (w.modify f).map fun (w, tasks) => (w, .woke tasks)
  | .set newValue => (w.set newValue).map fun (w, tasks) => (w, .woke tasks)
  | .setWithoutNotify newValue => some (w.setWithoutNotify newValue, .nothing)

end

end WatchedNodes

def WatchedValue.turn {T Task : Type} [DecidableEq Task] (w : WatchedValue T Task) :
    WatchEvent T Task → Option (WatchedValue T Task × WatchAnswer Task)
  | .watch => some (w.watch.2, .nothing)
  | .poll id waker => (w.poll id waker).map fun (ready, w) => (w, .polled ready)
  | .drop id => (w.drop id).map fun w => (w, .nothing)
  | .modify f => (w.modify f).map fun (w, tasks) => (w, .woke tasks)
  | .set newValue => (w.set newValue).map fun (w, tasks) => (w, .woke tasks)
  | .setWithoutNotify newValue => some (w.setWithoutNotify newValue, .nothing)

/-- A run that keeps what came back. -/
def answered {σ ε α : Type} (turn : σ → ε → Option (σ × α)) (s : σ × List α) (e : ε) : Option (σ × List α) :=
  (turn s.1 e).map fun (s', a) => (s', s.2 ++ [a])

namespace WatchedNodes

/-- The future of a call has not been dropped. -/
def Alive {T Task : Type} (n : WatchedNodes T Task) : WatchEvent T Task → Prop
  | .poll id _ | .drop id => (n.waiters.nodes.get id).isSome = true
  | _ => True

/-- The nodes are the futures of the abstract value, linked in the order of its waiters. -/
structure Refines {T Task : Type} (n : WatchedNodes T Task) (w : WatchedValue T Task) : Prop where
  linked : w.Linked
  value : n.value = w.value
  created : n.created = w.created
  fits : ListRun.Fits ⟨n.waiters, []⟩ ⟨w.futures, w.waiters, []⟩

section

variable {T Task : Type} {n n' : WatchedNodes T Task} {w w' : WatchedValue T Task} {id : Nat}

theorem Refines.gone (h : n.Refines w) (hid : w.futures.get id = none) : n.waiters.nodes.get id = none := by
  have hdata := h.fits.data id
  rw [show (⟨w.futures, w.waiters, []⟩ : ListUse Nat (WatchEntry Task)).nodes = w.futures from rfl, hid] at hdata
  exact Option.map_eq_none_iff.mp hdata

theorem Refines.node {entry : WatchEntry Task} (h : n.Refines w) (hid : w.futures.get id = some entry) :
    ∃ node, n.waiters.nodes.get id = some node ∧ node.data = entry :=
  Option.map_eq_some_iff.mp ((h.fits.data id).trans hid)

theorem Refines.watch (h : n.Refines w) : n.watch.2.Refines w.watch.2 := by
  have hnone := h.linked.fresh w.created (Nat.le_refl _)
  refine ⟨h.linked.watch, h.value, congrArg (· + 1) h.created, ?_⟩
  unfold WatchedNodes.watch WatchedValue.watch WatchedValue.setFuture
  rw [h.created]
  exact h.fits.set_outside (h.fits.not_mem hnone) (fun j hj => by simp [hj]) (by simp)

theorem Refines.writeNode {entry entry' : WatchEntry Task} (h : n.Refines w) (hid : w.futures.get id = some entry)
    (hstate : entry'.state = .registered ↔ entry.state = .registered) :
    ∃ n', n.writeNode id entry' = some n' ∧ n'.Refines (w.setFuture id entry') := by
  obtain ⟨node, hnode, hentry⟩ := h.node hid
  refine ⟨{ n with waiters := { n.waiters with nodes := n.waiters.nodes.insert id { node with data := entry' } } }, ?_,
    h.linked.setFuture hid hstate, h.value, h.created, h.fits.write hnode entry'⟩
  unfold WatchedNodes.writeNode
  rw [hnode]
  rfl

theorem Refines.register {entry : WatchEntry Task} (h : n.Refines w) (hid : w.futures.get id = some entry)
    (hstate : entry.state = .unregistered) (waker : Task) :
    ∃ n', n.register id waker = some n' ∧
      n'.Refines { w.setFuture id ⟨some waker, .registered⟩ with waiters := id :: w.waiters } := by
  have hregistered : entry.state ≠ .registered := by
    rw [hstate]
    exact fun hno => nomatch hno
  have hnot : id ∉ w.waiters := by
    intro hmem
    obtain ⟨entry', hentry', hyes⟩ := (h.linked.registered id).mp hmem
    cases hid.symm.trans hentry'
    exact hregistered hyes
  obtain ⟨node, hnode, -⟩ := h.node hid
  have hwritten := h.fits.write hnode ⟨some waker, .registered⟩
  have hget : (n.waiters.nodes.insert id { node with data := ⟨some waker, .registered⟩ }).get id =
      some { node with data := ⟨some waker, .registered⟩ } := by
    rw [HashMap.get_insert, if_pos rfl]
  obtain ⟨l, hl, hholds, hsame⟩ := hwritten.holds.addFront hget hnot
  refine ⟨{ n with waiters := l }, ?_, h.linked.register waker hid hregistered, h.value, h.created, hholds,
    fun j => (hsame j).trans (hwritten.data j), rfl⟩
  unfold WatchedNodes.register WatchedNodes.writeNode
  rw [hnode]
  change (LinkedList.addFront _ id).bind _ = _
  rw [hl]
  rfl

theorem Refines.drop (h : n.Refines w) {entry : WatchEntry Task} (hid : w.futures.get id = some entry) :
    ∃ n' w', n.drop id = some n' ∧ w.drop id = some w' ∧ n'.Refines w' := by
  obtain ⟨node, hnode, rfl⟩ := h.node hid
  by_cases hstate : node.data.state = .registered
  · have hmem := (h.linked.registered id).mpr ⟨node.data, hid, hstate⟩
    have hw : w.drop id = some { w with futures := w.futures.remove id, waiters := w.waiters.erase id } := by
      unfold WatchedValue.drop
      rw [hid, Option.bind_eq_bind, Option.bind_some]
      dsimp only
      rw [hstate]
      exact if_pos hmem
    obtain ⟨l, hl, hholds, hsame⟩ := h.fits.holds.remove_mem hmem
    have hfits : ListRun.Fits ⟨l, []⟩ ⟨w.futures, w.waiters.erase id, []⟩ :=
      ⟨hholds, fun j => (hsame j).trans (h.fits.data j), rfl⟩
    have hnot : id ∉ w.waiters.erase id := h.linked.nodup.not_mem_erase
    refine ⟨WatchedNodes.dropNode { n with waiters := l } id, _, ?_, hw, (h.linked.drop hw).1, h.value, h.created,
      hfits.set_outside hnot (fun j hj => by simp [hj]) (by simp)⟩
    unfold WatchedNodes.drop
    rw [hnode, Option.bind_eq_bind, Option.bind_some, hstate]
    change (n.waiters.remove id).bind _ = _
    rw [hl]
    rfl
  · have hnot : id ∉ w.waiters := by
      intro hmem
      obtain ⟨entry, hentry, hyes⟩ := (h.linked.registered id).mp hmem
      cases hid.symm.trans hentry
      exact hstate hyes
    have hw : w.drop id = some { w with futures := w.futures.remove id } := by
      unfold WatchedValue.drop
      rw [hid, Option.bind_eq_bind, Option.bind_some]
      dsimp only
      split
      next hyes => exact absurd hyes hstate
      all_goals rfl
    refine ⟨n.dropNode id, _, ?_, hw, (h.linked.drop hw).1, h.value, h.created,
      h.fits.set_outside hnot (fun j hj => by simp [hj]) (by simp)⟩
    unfold WatchedNodes.drop
    rw [hnode, Option.bind_eq_bind, Option.bind_some]
    split
    next hyes => exact absurd hyes hstate
    all_goals rfl

/-- The tasks that are woken, in the order in which the nodes are met. -/
theorem complete_woken {ids : List Nat} {futures futures' : HashMap Nat (WatchEntry Task)} {woken : List Task}
    (hnodup : ids.Nodup) (h : WatchedValue.complete ids futures = some (futures', woken)) :
    woken = ids.filterMap fun id => (futures.get id).bind WatchEntry.task := by
  induction ids generalizing futures futures' woken with
  | nil =>
    cases h
    rfl
  | cons id ids ih =>
    obtain ⟨hnot, hnodup⟩ := List.nodup_cons.mp hnodup
    obtain ⟨waiter, hwaiter, h⟩ := Option.bind_eq_some_iff.mp h
    obtain ⟨⟨rest, woken'⟩, hrest, h⟩ := Option.bind_eq_some_iff.mp h
    cases h
    have hsame : (ids.filterMap fun j => ((futures.insert id ⟨none, .completed false⟩).get j).bind WatchEntry.task) =
        ids.filterMap fun j => (futures.get j).bind WatchEntry.task := by
      refine List.filterMap_congr fun j hj => ?_
      rw [HashMap.get_insert, if_neg]
      rintro rfl
      exact hnot hj
    rw [ih hnodup hrest, hsame, List.filterMap_cons, hwaiter, Option.bind_some]
    cases waiter.task <;> rfl

/-- A set completes the same futures and wakes the same tasks, in the order in which the futures began to wait. -/
theorem Refines.modify (h : n.Refines w) (f : T → T) :
    ∃ n' w' woken, n.modify f = some (n', woken) ∧ w.modify f = some (w', woken) ∧ n'.Refines w' := by
  have hnodup := List.nodup_reverse.mpr h.linked.nodup
  have hlive : ∀ id ∈ w.waiters.reverse, (w.futures.get id).isSome = true := by
    intro id hid
    obtain ⟨entry, hentry, -⟩ := (h.linked.registered id).mp (List.mem_reverse.mp hid)
    rw [hentry]
    rfl
  obtain ⟨futures, woken, hcomplete, hget, -⟩ := WatchedValue.complete_spec hnodup hlive
  have hw : w.modify f = some ({ w with value := f w.value, waiters := [], futures := futures }, woken) := by
    unfold WatchedValue.modify
    rw [hcomplete]
    rfl
  obtain ⟨l, hl, hdrained⟩ := h.fits.holds.reverseDrain fun _ => (⟨none, .completed false⟩ : WatchEntry Task)
  have hwoken : ((contents n.waiters.nodes w.waiters.reverse).filterMap fun node => node.2.task) = woken := by
    rw [show contents n.waiters.nodes w.waiters.reverse = _ from h.fits.contents w.waiters.reverse,
      complete_woken hnodup hcomplete, ListUse.items, List.filterMap_filterMap]
    refine List.filterMap_congr fun id _ => ?_
    cases w.futures.get id <;> rfl
  refine ⟨{ n with value := f n.value, waiters := l }, _, woken, ?_, hw, (h.linked.modify hw).1, congrArg f h.value,
    h.created, hdrained.holds, fun id => ?_, rfl⟩
  · unfold WatchedNodes.modify
    change (n.waiters.reverseDrain _).bind _ = _
    rw [show n.waiters.reverseDrain _ = _ from hl, ← hwoken]
    rfl
  · have hdata := h.fits.data id
    dsimp only at hdata ⊢
    rw [hdrained.get, hget]
    simp only [List.mem_reverse]
    split
    next hid =>
      have hsome := hlive id (List.mem_reverse.mpr hid)
      rw [← hdata, Option.isSome_map] at hsome
      obtain ⟨node, hnode⟩ := Option.isSome_iff_exists.mp hsome
      rw [hnode]
      rfl
    next => exact hdata

variable [DecidableEq Task] {e : WatchEvent T Task} {answer : WatchAnswer Task}

theorem Refines.poll (h : n.Refines w) {waker : Task} {entry : WatchEntry Task} (hid : w.futures.get id = some entry) :
    ∃ n' w' ready, n.poll id waker = some (ready, n') ∧ w.poll id waker = some (ready, w') ∧ n'.Refines w' := by
  obtain ⟨⟨prev, next, ⟨task, state⟩⟩, hnode, rfl⟩ := h.node hid
  unfold WatchedNodes.poll WatchedValue.poll
  rw [hnode, hid, Option.bind_eq_bind, Option.bind_some, Option.bind_eq_bind, Option.bind_some]
  cases state with
  | unregistered =>
    obtain ⟨n', hn', hrefines⟩ := h.register hid rfl waker
    exact ⟨n', _, false, by dsimp only; rw [hn']; rfl, rfl, hrefines⟩
  | registered =>
    dsimp only
    split
    next => exact ⟨n, w, false, rfl, rfl, h⟩
    next =>
      obtain ⟨n', hn', hrefines⟩ := @Refines.writeNode T Task n w id _ ⟨some waker, .registered⟩ h hid Iff.rfl
      exact ⟨n', _, false, by rw [hn']; rfl, rfl, hrefines⟩
  | completed polled =>
    obtain ⟨n', hn', hrefines⟩ := @Refines.writeNode T Task n w id _ ⟨task, .completed true⟩ h hid
      ⟨fun hno => (nomatch hno), fun hno => (nomatch hno)⟩
    exact ⟨n', _, true, by dsimp only; rw [hn']; rfl, rfl, hrefines⟩

/-- A call on a future that is gone fails, on the nodes and on the abstract value; every other one has the same answer
on both. -/
theorem refines_turn (h : n.Refines w) (e : WatchEvent T Task) :
    (¬n.Alive e ∧ n.turn e = none ∧ w.turn e = none) ∨ (n.Alive e ∧
      ∃ n' w' answer, n.turn e = some (n', answer) ∧ w.turn e = some (w', answer) ∧ n'.Refines w') := by
  cases e with
  | watch => exact .inr ⟨trivial, _, _, .nothing, rfl, rfl, h.watch⟩
  | poll id waker =>
    cases hid : w.futures.get id with
    | none =>
      have hgone := h.gone hid
      refine .inl ⟨by simp [Alive, hgone], ?_, ?_⟩
      · rw [WatchedNodes.turn, WatchedNodes.poll, hgone]
        rfl
      · rw [WatchedValue.turn, WatchedValue.poll, hid]
        rfl
    | some entry =>
      obtain ⟨node, hnode, -⟩ := h.node hid
      obtain ⟨n', w', ready, hn', hw', hrefines⟩ := @Refines.poll T Task n w id _ h waker entry hid
      refine .inr ⟨by rw [Alive, hnode]; rfl, n', w', .polled ready, ?_, ?_, hrefines⟩
      · rw [WatchedNodes.turn, hn']
        rfl
      · rw [WatchedValue.turn, hw']
        rfl
  | drop id =>
    cases hid : w.futures.get id with
    | none =>
      have hgone := h.gone hid
      refine .inl ⟨by simp [Alive, hgone], ?_, ?_⟩
      · rw [WatchedNodes.turn, WatchedNodes.drop, hgone]
        rfl
      · rw [WatchedValue.turn, WatchedValue.drop, hid]
        rfl
    | some entry =>
      obtain ⟨node, hnode, -⟩ := h.node hid
      obtain ⟨n', w', hn', hw', hrefines⟩ := h.drop hid
      refine .inr ⟨by rw [Alive, hnode]; rfl, n', w', .nothing, ?_, ?_, hrefines⟩
      · rw [WatchedNodes.turn, hn']
        rfl
      · rw [WatchedValue.turn, hw']
        rfl
  | modify f =>
    obtain ⟨n', w', woken, hn', hw', hrefines⟩ := h.modify f
    refine .inr ⟨trivial, n', w', .woke woken, ?_, ?_, hrefines⟩
    · rw [WatchedNodes.turn, hn']
      rfl
    · rw [WatchedValue.turn, hw']
      rfl
  | set newValue =>
    obtain ⟨n', w', woken, hn', hw', hrefines⟩ := h.modify fun _ => newValue
    refine .inr ⟨trivial, n', w', .woke woken, ?_, ?_, hrefines⟩
    · rw [WatchedNodes.turn, WatchedNodes.set, hn']
      rfl
    · rw [WatchedValue.turn, WatchedValue.set, hw']
      rfl
  | setWithoutNotify newValue =>
    exact .inr ⟨trivial, _, _, .nothing, rfl, rfl,
      ⟨⟨h.linked.nodup, h.linked.registered, h.linked.fresh⟩, rfl, h.created, h.fits⟩⟩

omit [DecidableEq Task] in
theorem refines_new (value : T) : (new value : WatchedNodes T Task).Refines (.new value) := by
  refine ⟨⟨List.nodup_nil, fun id => ⟨fun hmem => (by cases hmem), ?_⟩, fun id _ => HashMap.get_empty id⟩, rfl, rfl,
    LinkedList.holds_empty, fun id => ?_, rfl⟩
  · rintro ⟨entry, hentry, -⟩
    cases (HashMap.get_empty id).symm.trans hentry
  · exact (congrArg _ (HashMap.get_empty id)).trans (HashMap.get_empty id).symm

/-- Runs on the nodes and on the abstract value fail together, and else come to states that match, with the same
answers. -/
theorem refines_run {es : List (WatchEvent T Task)} (h : n.Refines w) (answers : List (WatchAnswer Task)) :
    (Runs.run (answered turn) (n, answers) es = none ∧ Runs.run (answered WatchedValue.turn) (w, answers) es = none) ∨
      ∃ n' w' answers', Runs.run (answered turn) (n, answers) es = some (n', answers') ∧
        Runs.run (answered WatchedValue.turn) (w, answers) es = some (w', answers') ∧ n'.Refines w' := by
  induction es generalizing n w answers with
  | nil => exact .inr ⟨n, w, answers, rfl, rfl, h⟩
  | cons e es ih =>
    rcases refines_turn h e with ⟨-, hn, hw⟩ | ⟨-, n', w', answer, hn, hw, hrefines⟩
    · refine .inl ⟨?_, ?_⟩
      · rw [Runs.run, answered, hn]
        rfl
      · rw [Runs.run, answered, hw]
        rfl
    · have hstep : answered turn (n, answers) e = some (n', answers ++ [answer]) := by
        rw [answered, hn]
        rfl
      have hstep' : answered WatchedValue.turn (w, answers) e = some (w', answers ++ [answer]) := by
        rw [answered, hw]
        rfl
      rw [Runs.run_cons hstep, Runs.run_cons hstep']
      exact ih hrefines _

theorem run_alive_iff {es : List (WatchEvent T Task)} (h : n.Refines w) (answers : List (WatchAnswer Task)) :
    (Runs.run (answered turn) (n, answers) es).isSome = true ↔
      Runs.Admits (answered turn) (fun s e => s.1.Alive e) (n, answers) es := by
  refine @Runs.run_isSome_iff _ _ _ (fun s => ∃ w, s.1.Refines w) _ (fun s e hs => ?_) _ _ ⟨w, h⟩
  obtain ⟨w, hs⟩ := hs
  rcases refines_turn hs e with ⟨hgone, hn, -⟩ | ⟨halive, n', w', answer, hn, -, hrefines⟩
  · refine .inr ⟨hgone, ?_⟩
    rw [answered, hn]
    rfl
  · refine .inl ⟨halive, (n', s.2 ++ [answer]), ?_, w', hrefines⟩
    rw [answered, hn]
    rfl

/-- However futures are made, polled and dropped between the sets of a value: only a call on a future that is gone
fails, and the linked nodes answer every call as the list of waiters does, with the same tasks woken in the same
order. -/
theorem run_as_listed (value : T) (es : List (WatchEvent T Task)) :
    ((Runs.run (answered turn) ((new value : WatchedNodes T Task), []) es).isSome = true ↔
      Runs.Admits (answered turn) (fun s e => s.1.Alive e) ((new value : WatchedNodes T Task), []) es) ∧
    (Runs.run (answered turn) ((new value : WatchedNodes T Task), []) es).map Prod.snd =
        (Runs.run (answered WatchedValue.turn) (WatchedValue.new value, []) es).map Prod.snd ∧
    ∀ n answers, Runs.run (answered turn) ((new value : WatchedNodes T Task), []) es = some (n, answers) →
      ∃ w, Runs.run (answered WatchedValue.turn) (WatchedValue.new value, []) es = some (w, answers) ∧
        n.waiters.Holds w.waiters := by
  refine ⟨run_alive_iff (refines_new value) [], ?_⟩
  rcases @refines_run T Task _ _ _ es (refines_new value) [] with ⟨hn, hw⟩ | ⟨n', w', answers', hn, hw, hrefines⟩
  · rw [hn, hw]
    exact ⟨rfl, fun n answers hno => nomatch hno⟩
  · rw [hn, hw]
    refine ⟨rfl, fun n answers heq => ?_⟩
    cases heq
    exact ⟨w', rfl, hrefines.fits.holds⟩

end

end WatchedNodes

end Capybara
