import Capybara.DoubleLinkedList
import Capybara.Lib.Runs
import Mathlib.Data.Option.Basic

namespace Capybara

/-- A call on the list, or one on a node: it is made, written to through `DerefMut`, or dropped. -/
inductive ListCall (ι α : Type)
  | new (i : ι) (data : α)
  | addFront (i : ι)
  | removeFirst
  | removeLast
  | remove (i : ι)
  | drain (f : α → α)
  | reverseDrain (f : α → α)
  | write (i : ι) (data : α)
  | drop (i : ι)

/-- What those who use a list know: the data of each node, the nodes in the list from the front on, and the nodes that
came out of it, with their data. -/
structure ListUse (ι α : Type) where
  nodes : HashMap ι α
  order : List ι
  taken : List (ι × α)

/-- A list, and the nodes that came out of it. -/
structure ListRun (ι α : Type) where
  list : LinkedList ι α
  taken : List (ι × α)

section

variable {ι α : Type} [DecidableEq ι]

def ListUse.items (use : ListUse ι α) (xs : List ι) : List (ι × α) :=
  xs.filterMap fun i => (use.nodes.get i).map fun data => (i, data)

/-- What the callback of a drain makes of the data of the nodes. -/
def applyAt (f : α → α) (nodes : HashMap ι α) : List ι → HashMap ι α
  | [] => nodes
  | i :: xs => applyAt f ((nodes.get i).elim nodes fun data => nodes.insert i (f data)) xs

/-- The calls that are safe: a node in the list is neither added again nor dropped. -/
def ListUse.step (use : ListUse ι α) : ListCall ι α → Option (ListUse ι α)
  | .new i data => do
    guard ((use.nodes.get i).isNone)
    some { use with nodes := use.nodes.insert i data }
  | .addFront i => do
    guard ((use.nodes.get i).isSome)
    guard (i ∉ use.order)
    some { use with order := i :: use.order }
  | .removeFirst => some
    { use with order := use.order.tail, taken := use.taken ++ use.items use.order.head?.toList }
  | .removeLast => some
    { use with order := use.order.dropLast, taken := use.taken ++ use.items use.order.getLast?.toList }
  | .remove i => do
    guard ((use.nodes.get i).isSome)
    some { use with order := use.order.erase i, taken := use.taken ++ use.items (if i ∈ use.order then [i] else []) }
  | .drain f => some
    { nodes := applyAt f use.nodes use.order, order := [], taken := use.taken ++ use.items use.order }
  | .reverseDrain f => some
    { nodes := applyAt f use.nodes use.order, order := [], taken := use.taken ++ use.items use.order.reverse }
  | .write i data => do
    guard ((use.nodes.get i).isSome)
    some { use with nodes := use.nodes.insert i data }
  | .drop i => do
    guard ((use.nodes.get i).isSome)
    guard (i ∉ use.order)
    some { use with nodes := use.nodes.remove i }

namespace ListRun

/-- What a removal returned, if anything. -/
def takes (r : ListRun ι α) (xs : List ι) (l : LinkedList ι α) : ListRun ι α :=
  ⟨l, r.taken ++ contents r.list.nodes xs⟩

def step (r : ListRun ι α) : ListCall ι α → Option (ListRun ι α)
  | .new i data => some { r with list := { r.list with nodes := r.list.nodes.insert i (.new data) } }
  | .addFront i => do
    let l ← r.list.addFront i
    some { r with list := l }
  | .removeFirst => do
    let (node, l) ← r.list.removeFirst
    some (r.takes node.toList l)
  | .removeLast => do
    let (node, l) ← r.list.removeLast
    some (r.takes node.toList l)
  | .remove i => do
    let (removed, l) ← r.list.remove i
    some (r.takes (if removed then [i] else []) l)
  | .drain f => do
    let (visited, l) ← r.list.drain f
    some ⟨l, r.taken ++ visited⟩
  | .reverseDrain f => do
    let (visited, l) ← r.list.reverseDrain f
    some ⟨l, r.taken ++ visited⟩
  | .write i data => do
    let n ← r.list.nodes.get i
    some { r with list := { r.list with nodes := r.list.nodes.insert i { n with data := data } } }
  | .drop i => some { r with list := { r.list with nodes := r.list.nodes.remove i } }

/-- The pointers are those of the nodes in order, with the data that is known of them. -/
structure Fits (r : ListRun ι α) (use : ListUse ι α) : Prop where
  holds : r.list.Holds use.order
  data : ∀ i, (r.list.nodes.get i).map ListNode.data = use.nodes.get i
  taken : r.taken = use.taken

variable {r : ListRun ι α} {use use' : ListUse ι α} {l : LinkedList ι α} {xs : List ι} {call : ListCall ι α}

theorem Fits.contents (h : r.Fits use) (xs : List ι) : contents r.list.nodes xs = use.items xs := by
  refine List.filterMap_congr fun i _ => ?_
  rw [← h.data i, Option.map_map]
  rfl

/-- Nodes come out of the list in the order in which the users expect them. -/
theorem Fits.takes {order : List ι} (h : r.Fits use) (hholds : l.Holds order) (hsame : SameData r.list.nodes l.nodes)
    (xs : List ι) : (r.takes xs l).Fits { use with order := order, taken := use.taken ++ use.items xs } := by
  refine ⟨hholds, fun i => (hsame i).trans (h.data i), ?_⟩
  change r.taken ++ Capybara.contents r.list.nodes xs = _
  rw [h.taken, h.contents]

theorem get_applyAt (f : α → α) (nodes : HashMap ι α) (hnodup : xs.Nodup) (i : ι) :
    (applyAt f nodes xs).get i = if i ∈ xs then (nodes.get i).map f else nodes.get i := by
  induction xs generalizing nodes with
  | nil => rfl
  | cons x xs ih =>
    obtain ⟨hnot, hnodup⟩ := List.nodup_cons.mp hnodup
    rw [applyAt, ih _ hnodup]
    cases hx : nodes.get x with
    | none =>
      by_cases hi : i = x
      · subst hi
        rw [Option.elim_none, hx]
        simp
      · simp [hi]
    | some data =>
      rw [Option.elim_some, HashMap.get_insert]
      by_cases hi : i = x
      · subst hi
        simp [hnot, hx]
      · simp [hi]

theorem Fits.drained {f : α → α} (h : r.Fits use) (hd : r.list.Drained use.order f l) (xs : List ι) :
    Fits ⟨l, r.taken ++ Capybara.contents r.list.nodes xs⟩
      { nodes := applyAt f use.nodes use.order, order := [], taken := use.taken ++ use.items xs } := by
  refine ⟨hd.holds, fun i => ?_, by rw [h.taken, h.contents]⟩
  rw [get_applyAt f use.nodes h.holds.nodup, hd.get, ← h.data i]
  split <;> simp [ListNode.new, Option.map_map, Function.comp_def]

/-- A call on a node that is not in the list: the list is as before. -/
theorem Fits.set_outside {i : ι} {nodes : HashMap ι α} {listNodes : ListNodes ι α} (h : r.Fits use) (hi : i ∉ use.order)
    (hsame : ∀ j, j ≠ i → nodes.get j = use.nodes.get j ∧ listNodes.get j = r.list.nodes.get j)
    (hnode : listNodes.get i = (nodes.get i).map .new) :
    Fits { r with list := { r.list with nodes := listNodes } } { use with nodes := nodes } := by
  have hother : ∀ j ∈ use.order, listNodes.get j = r.list.nodes.get j := by
    intro j hj
    refine (hsame j ?_).2
    rintro rfl
    exact hi hj
  refine ⟨⟨h.holds.nodup, h.holds.head, h.holds.tail, h.holds.row.congr hother, fun j n hj hn => ?_⟩, fun j => ?_,
    h.taken⟩
  · dsimp only at hn
    by_cases heq : j = i
    · subst heq
      rw [hnode] at hn
      obtain ⟨data, -, rfl⟩ := Option.map_eq_some_iff.mp hn
      rfl
    · rw [(hsame j heq).2] at hn
      exact h.holds.outside j n hj hn
  · dsimp only
    by_cases heq : j = i
    · subst heq
      rw [hnode, Option.map_map]
      cases nodes.get j <;> rfl
    · rw [(hsame j heq).2, (hsame j heq).1]
      exact h.data j

/-- A node may be written to wherever it is. -/
theorem Fits.write {i : ι} {n : ListNode ι α} (h : r.Fits use) (hi : r.list.nodes.get i = some n) (data : α) :
    Fits { r with list := { r.list with nodes := r.list.nodes.insert i { n with data := data } } }
      { use with nodes := use.nodes.insert i data } := by
  refine ⟨⟨h.holds.nodup, h.holds.head, h.holds.tail, h.holds.row.write hi data, fun j m hj hm => ?_⟩, fun j => ?_,
    h.taken⟩
  · dsimp only at hm
    rw [HashMap.get_insert] at hm
    split at hm
    next heq =>
      subst heq
      cases hm
      rw [h.holds.outside j n hj hi]
      rfl
    next => exact h.holds.outside j m hj hm
  · dsimp only
    rw [HashMap.get_insert, HashMap.get_insert]
    split
    next => rfl
    next => exact h.data j

theorem Fits.not_mem {i : ι} (h : r.Fits use) (hi : use.nodes.get i = none) : i ∉ use.order := by
  intro hmem
  have hsome := h.holds.row.isSome hmem
  have hdata := h.data i
  rw [hi] at hdata
  rw [Option.map_eq_none_iff.mp hdata] at hsome
  cases hsome

theorem Fits.node {i : ι} (h : r.Fits use) (hi : (use.nodes.get i).isSome = true) :
    ∃ n, r.list.nodes.get i = some n := by
  rw [← h.data i, Option.isSome_map] at hi
  exact Option.isSome_iff_exists.mp hi

theorem Fits.step (h : r.Fits use) (hstep : use.step call = some use') :
    ∃ r', r.step call = some r' ∧ r'.Fits use' := by
  cases call with
  | new i data =>
    obtain ⟨_, hguard, heq⟩ := Option.bind_eq_some_iff.mp hstep
    cases heq
    have hnone : use.nodes.get i = none := by simpa using hguard
    exact ⟨_, rfl, h.set_outside (h.not_mem hnone) (fun j hj => by simp [hj]) (by simp)⟩
  | addFront i =>
    obtain ⟨_, hguard, hrest⟩ := Option.bind_eq_some_iff.mp hstep
    obtain ⟨_, hguard', heq⟩ := Option.bind_eq_some_iff.mp hrest
    cases heq
    obtain ⟨n, hn⟩ := h.node (by simpa using hguard)
    obtain ⟨l, hl, hholds, hsame⟩ := h.holds.addFront hn (by simpa using hguard')
    refine ⟨{ r with list := l }, ?_, hholds, fun i => (hsame i).trans (h.data i), h.taken⟩
    rw [ListRun.step, hl]
    rfl
  | removeFirst =>
    cases hstep
    have hholds := h.holds
    cases horder : use.order with
    | nil =>
      rw [horder] at hholds
      refine ⟨r.takes [] r.list, ?_, h.takes hholds (fun _ => rfl) []⟩
      rw [ListRun.step, LinkedList.removeFirst, hholds.head]
      rfl
    | cons i xs =>
      rw [horder] at hholds
      obtain ⟨l, hl, hafter, hsame⟩ := hholds.removeFirst
      refine ⟨r.takes [i] l, ?_, h.takes hafter hsame [i]⟩
      rw [ListRun.step, hl]
      rfl
  | removeLast =>
    cases hstep
    have hholds := h.holds
    rcases List.eq_nil_or_concat use.order with hnil | ⟨xs, i, hconcat⟩
    · rw [hnil] at hholds ⊢
      refine ⟨r.takes [] r.list, ?_, h.takes hholds (fun _ => rfl) []⟩
      rw [ListRun.step, LinkedList.removeLast, hholds.tail]
      rfl
    · rw [List.concat_eq_append] at hconcat
      rw [hconcat] at hholds ⊢
      obtain ⟨l, hl, hafter, hsame⟩ := hholds.removeLast
      rw [List.dropLast_concat, List.getLast?_concat]
      refine ⟨r.takes [i] l, ?_, h.takes hafter hsame [i]⟩
      rw [ListRun.step, hl]
      rfl
  | remove i =>
    obtain ⟨_, hguard, heq⟩ := Option.bind_eq_some_iff.mp hstep
    cases heq
    obtain ⟨n, hn⟩ := h.node (by simpa using hguard)
    by_cases hi : i ∈ use.order
    · obtain ⟨l, hl, hafter, hsame⟩ := h.holds.remove_mem hi
      rw [if_pos hi]
      refine ⟨r.takes [i] l, ?_, h.takes hafter hsame [i]⟩
      rw [ListRun.step, hl]
      rfl
    · rw [if_neg hi, List.erase_of_not_mem hi]
      refine ⟨r.takes [] r.list, ?_, h.takes h.holds (fun _ => rfl) []⟩
      rw [ListRun.step, h.holds.remove_absent hn hi]
      rfl
  | drain f =>
    cases hstep
    obtain ⟨l, hl, hdrained⟩ := h.holds.drain f
    refine ⟨_, ?_, h.drained hdrained _⟩
    rw [ListRun.step, hl]
    rfl
  | reverseDrain f =>
    cases hstep
    obtain ⟨l, hl, hdrained⟩ := h.holds.reverseDrain f
    refine ⟨_, ?_, h.drained hdrained _⟩
    rw [ListRun.step, hl]
    rfl
  | write i data =>
    obtain ⟨_, hguard, heq⟩ := Option.bind_eq_some_iff.mp hstep
    cases heq
    obtain ⟨n, hn⟩ := h.node (by simpa using hguard)
    refine ⟨_, ?_, h.write hn data⟩
    rw [ListRun.step, hn]
    rfl
  | drop i =>
    obtain ⟨_, hguard, hrest⟩ := Option.bind_eq_some_iff.mp hstep
    obtain ⟨_, hguard', heq⟩ := Option.bind_eq_some_iff.mp hrest
    cases heq
    exact ⟨_, rfl, h.set_outside (by simpa using hguard') (fun j hj => by simp [hj]) (by simp)⟩

theorem run_fits {calls : List (ListCall ι α)} (h : r.Fits use) (hrun : Runs.run ListUse.step use calls = some use') :
    ∃ r', Runs.run step r calls = some r' ∧ r'.Fits use' := by
  induction calls generalizing r use with
  | nil =>
    cases hrun
    exact ⟨r, rfl, h⟩
  | cons call calls ih =>
    obtain ⟨use₁, hstep, hrest⟩ := Option.bind_eq_some_iff.mp hrun
    obtain ⟨r₁, hstep', hfits⟩ := h.step hstep
    obtain ⟨r', hrun', hfits'⟩ := ih hfits hrest
    exact ⟨r', (Runs.run_cons hstep').trans hrun', hfits'⟩

/-- Safe calls never fail an assertion and follow no dangling pointer; the pointers are always those of the nodes in
order, each with its data, and the nodes come out at both ends, from the middle and in a drain as the order says. -/
theorem run_linked (calls : List (ListCall ι α)) (use : ListUse ι α)
    (hrun : Runs.run ListUse.step (⟨∅, [], []⟩ : ListUse ι α) calls = some use) :
    ∃ r : ListRun ι α, Runs.run step ⟨.empty, []⟩ calls = some r ∧ r.list.Holds use.order ∧
      (∀ i, (r.list.nodes.get i).map ListNode.data = use.nodes.get i) ∧ r.taken = use.taken ∧
      r.list.isEmpty = some (decide (use.order = [])) := by
  have hstart : Fits (⟨.empty, []⟩ : ListRun ι α) ⟨∅, [], []⟩ :=
    ⟨LinkedList.holds_empty, fun i => by rw [LinkedList.empty, HashMap.get_empty, HashMap.get_empty]; rfl, rfl⟩
  obtain ⟨r, hrun', h⟩ := run_fits hstart hrun
  exact ⟨r, hrun', h.holds, h.data, h.taken, h.holds.isEmpty⟩

/-- Nodes leave from the middle and from both ends before the rest is drained in the order in which it was added. -/
def sampleCalls : List (ListCall Nat Nat) :=
  [.new 0 10, .new 1 11, .new 2 12, .new 3 13, .new 4 14, .addFront 0, .addFront 1, .addFront 2, .addFront 3,
    .addFront 4, .remove 2, .remove 2, .removeFirst, .write 0 20, .addFront 4, .drop 2, .removeLast, .reverseDrain (· + 1)]

theorem run_linked_sample : ∃ r : ListRun Nat Nat, Runs.run step ⟨.empty, []⟩ sampleCalls = some r ∧ r.list.Holds [] ∧
    r.taken = [(2, 12), (4, 14), (0, 20), (1, 11), (3, 13), (4, 14)] := by
  obtain ⟨r, hrun, hholds, -, htaken, -⟩ := run_linked sampleCalls _ rfl
  exact ⟨r, hrun, hholds, htaken⟩

end ListRun

end

end Capybara
