import Capybara.Lib.PriorityQueue
import Capybara.Lib.Runs
import Capybara.PairingHeapRefines

namespace Capybara

open scoped List

variable {ι κ : Type} [DecidableEq ι]

/-- A call on the heap, or one on a node: it is made, written to through `DerefMut`, or dropped. -/
inductive HeapCall (ι κ : Type)
  | new (i : ι) (data : κ)
  | insert (i : ι)
  | remove (i : ι)
  | write (i : ι) (data : κ)
  | drop (i : ι)
  deriving DecidableEq, Repr

/-- What those who use a heap know: the data of each node, and that of the nodes in the heap. -/
structure HeapUse (ι κ : Type) where
  nodes : HashMap ι κ
  members : HashMap ι κ

/-- The calls that are safe. A node in the heap is neither written to nor dropped, nor inserted again, and no other
node is removed. -/
def HeapUse.step (use : HeapUse ι κ) : HeapCall ι κ → Option (HeapUse ι κ)
  | .new i data => do
    guard ((use.nodes.get i).isNone)
    some { use with nodes := use.nodes.insert i data }
  | .insert i => do
    let data ← use.nodes.get i
    guard ((use.members.get i).isNone)
    some { use with members := use.members.insert i data }
  | .remove i => do
    guard ((use.members.get i).isSome)
    some { use with members := use.members.remove i }
  | .write i data => do
    guard ((use.nodes.get i).isSome)
    guard ((use.members.get i).isNone)
    some { use with nodes := use.nodes.insert i data }
  | .drop i => do
    guard ((use.nodes.get i).isSome)
    guard ((use.members.get i).isNone)
    some { use with nodes := use.nodes.remove i }

variable [LinearOrder κ]

def PairingHeap.step (heap : PairingHeap ι κ) : HeapCall ι κ → Option (PairingHeap ι κ)
  | .new i data => some { heap with nodes := heap.nodes.insert i (.new data) }
  | .insert i => heap.insert i
  | .remove i => heap.remove i
  | .write i data => do
    let nodes ← heap.nodes.modify i fun n => { n with data := data }
    some { heap with nodes := nodes }
  | .drop i => some { heap with nodes := heap.nodes.remove i }

namespace PairingHeap

/-- The members are the nodes of the tree, every other node is by itself. -/
structure Fits (heap : PairingHeap ι κ) (use : HeapUse ι κ) (t : Option (PairingTree ι κ)) : Prop where
  holds : heap.Holds t
  members : ∀ i k, use.members.get i = some k ↔ (i, k) ∈ t.elim [] PairingTree.entries
  outside : ∀ i, use.members.get i = none → heap.nodes.get i = (use.nodes.get i).map .new
  data : ∀ i k, use.members.get i = some k → use.nodes.get i = some k

variable {heap : PairingHeap ι κ} {use : HeapUse ι κ} {t : Option (PairingTree ι κ)}

omit [LinearOrder κ] in
theorem tree_data {nodes : HeapNodes ι κ} {parent prev next : Option ι} {u : PairingTree ι κ} {i : ι} {k : κ}
    (h : TreeLinked nodes parent prev next u) (hmem : (i, k) ∈ u.entries) : ∃ n, nodes.get i = some n ∧ n.data = k := by
  rcases List.mem_cons.mp hmem with heq | hmem
  · cases heq
    exact ⟨_, h.1, rfl⟩
  · exact linked_data h.2 hmem

theorem Fits.not_mem_ids (h : heap.Fits use t) {i : ι} (hi : use.members.get i = none) :
    i ∉ t.elim [] PairingTree.ids := by
  intro hmem
  have hex : ∃ k, (i, k) ∈ t.elim [] PairingTree.entries := by
    cases t with
    | none => cases hmem
    | some u =>
      obtain ⟨e, he, rfl⟩ := List.mem_map.mp hmem
      exact ⟨e.2, he⟩
  obtain ⟨k, hk⟩ := hex
  rw [(h.members i k).mpr hk] at hi
  cases hi

theorem Fits.mem_ids (h : heap.Fits use t) {i : ι} {k : κ} (hi : use.members.get i = some k) :
    ∃ u, t = some u ∧ i ∈ u.ids := by
  have hmem := (h.members i k).mp hi
  cases t with
  | none => cases hmem
  | some u => exact ⟨u, rfl, List.mem_map_of_mem hmem⟩

theorem fits_new : (⟨∅, none⟩ : PairingHeap ι κ).Fits ⟨∅, ∅⟩ none := by
  refine ⟨⟨rfl, nofun, nofun, nofun⟩, fun i k => ?_, fun i _ => ?_, fun i k hi => ?_⟩
  · simp
  · simp
  · simp at hi

/-- What is written to a node outside the heap. -/
theorem Fits.set_outside (h : heap.Fits use t) {i : ι} (hi : use.members.get i = none) {nodes : HeapNodes ι κ}
    {data : HashMap ι κ} (hget : nodes.get i = (data.get i).map .new)
    (hsame : ∀ j, j ≠ i → nodes.get j = heap.nodes.get j ∧ data.get j = use.nodes.get j) :
    Fits { heap with nodes := nodes } { use with nodes := data } t := by
  have hnot := h.not_mem_ids hi
  refine ⟨⟨h.holds.root, fun u hu => ?_, h.holds.nodup, h.holds.ordered⟩, h.members, fun j hj => ?_, fun j k hj => ?_⟩
  · have hu' := h.holds.linked u hu
    rw [Option.mem_def.mp hu] at hnot
    have hsame' : SameOutside [i] heap.nodes nodes := fun j hj => (hsame j (List.ne_of_not_mem_cons hj)).1
    exact hu'.frame hsame' (List.disjoint_singleton.mpr hnot)
  · by_cases heq : j = i
    · rw [heq]
      exact hget
    · rw [(hsame j heq).1, (hsame j heq).2]
      exact h.outside j hj
  · have hne : j ≠ i := by
      intro heq
      rw [heq, hi] at hj
      cases hj
    rw [(hsame j hne).2]
    exact h.data j k hj

theorem Fits.insert (h : heap.Fits use t) {i : ι} {k : κ} (hnode : use.nodes.get i = some k)
    (hi : use.members.get i = none) : ∃ heap' t', heap.insert i = some heap' ∧
      heap'.Fits { use with members := use.members.insert i k } t' := by
  have hget : heap.nodes.get i = some (.new k) := by rw [h.outside i hi, hnode]; rfl
  have hnot := h.not_mem_ids hi
  obtain ⟨heap', hrun, hholds, hsame⟩ := insert_holds h.holds hget hnot
  have hperm := PairingTree.entries_maybeMeld t ⟨i, k, .nil⟩
  refine ⟨heap', _, hrun, hholds, fun j l => ?_, fun j hj => ?_, fun j l hj => ?_⟩
  · rw [Option.elim_some, hperm.mem_iff, List.mem_append, ← h.members, HashMap.get_insert]
    by_cases heq : j = i
    · subst heq
      simp [hi, PairingTree.entries, PairingForest.entries, eq_comm]
    · simp [heq, PairingTree.entries, PairingForest.entries]
  · rw [HashMap.get_insert] at hj
    split at hj
    next => cases hj
    next hne =>
      rw [hsame j, h.outside j hj]
      exact List.not_mem_cons_of_ne_of_not_mem hne (h.not_mem_ids hj)
  · rw [HashMap.get_insert] at hj
    split at hj
    next heq =>
      cases hj
      rw [heq]
      exact hnode
    next => exact h.data j l hj

theorem Fits.remove (h : heap.Fits use t) {i : ι} {k : κ} (hi : use.members.get i = some k) :
    ∃ heap' t', heap.remove i = some heap' ∧ heap'.Fits { use with members := use.members.remove i } t' := by
  obtain ⟨u, rfl, hmem⟩ := h.mem_ids hi
  obtain ⟨heap', n, hn, hrun, hholds, hi', hsame⟩ := remove_holds h.holds hmem
  obtain ⟨l, hperm⟩ := PairingTree.entries_remove (h.holds.nodup u rfl) hmem
  have hdata : n.data = k := by
    obtain ⟨m, hm, hmk⟩ := tree_data (h.holds.linked u rfl) ((h.members i k).mp hi)
    rw [hn] at hm
    exact Option.some.inj hm ▸ hmk
  have hids : u.ids ~ i :: ((u.remove i).elim [] PairingTree.entries).map Prod.fst := hperm.map Prod.fst
  have hnot := (List.nodup_cons.mp ((hids.nodup_iff).mp (h.holds.nodup u rfl))).1
  refine ⟨heap', _, hrun, hholds, fun j m => ?_, fun j hj => ?_, fun j m hj => ?_⟩
  · rw [HashMap.get_remove]
    split
    next heq =>
      refine iff_of_false (fun hno => ?_) fun hmem' => hnot (List.mem_map.mpr ⟨(j, m), hmem', heq⟩)
      cases hno
    next hne =>
      rw [h.members, Option.elim_some, hperm.mem_iff, List.mem_cons, or_iff_right]
      exact fun heq => hne (congrArg Prod.fst heq)
  · rw [HashMap.get_remove] at hj
    split at hj
    next heq =>
      rw [heq, hi', hdata, h.data i k hi]
      rfl
    next => rw [hsame j (h.not_mem_ids hj), h.outside j hj]
  · rw [HashMap.get_remove] at hj
    split at hj
    next => cases hj
    next => exact h.data j m hj

theorem Fits.step (h : heap.Fits use t) {call : HeapCall ι κ} {use' : HeapUse ι κ} (hstep : use.step call = some use') :
    ∃ heap' t', heap.step call = some heap' ∧ heap'.Fits use' t' := by
  cases call with
  | new i data =>
    obtain ⟨_, hfresh, heq⟩ := Option.bind_eq_some_iff.mp hstep
    cases heq
    have hnone : use.members.get i = none := by
      cases hi : use.members.get i with
      | none => rfl
      | some k =>
        rw [h.data i k hi] at hfresh
        cases hfresh
    refine ⟨_, t, rfl, h.set_outside hnone ?_ fun j hj => ?_⟩
    · simp
    · simp [hj]
  | insert i =>
    obtain ⟨k, hnode, hrest⟩ := Option.bind_eq_some_iff.mp hstep
    obtain ⟨_, hguard, heq⟩ := Option.bind_eq_some_iff.mp hrest
    cases heq
    exact h.insert hnode (by simpa using hguard)
  | remove i =>
    obtain ⟨_, hguard, heq⟩ := Option.bind_eq_some_iff.mp hstep
    cases heq
    have hsome : (use.members.get i).isSome := by simpa using hguard
    obtain ⟨k, hk⟩ := Option.isSome_iff_exists.mp hsome
    exact h.remove hk
  | write i data =>
    obtain ⟨_, hguard, hrest⟩ := Option.bind_eq_some_iff.mp hstep
    obtain ⟨_, hguard', heq⟩ := Option.bind_eq_some_iff.mp hrest
    cases heq
    have hsome : (use.nodes.get i).isSome := by simpa using hguard
    have hnone : use.members.get i = none := by simpa using hguard'
    obtain ⟨k, hk⟩ := Option.isSome_iff_exists.mp hsome
    have hget : heap.nodes.get i = some (.new k) := by
      rw [h.outside i hnone, hk]
      rfl
    refine ⟨{ heap with nodes := heap.nodes.insert i (.new data) }, t, ?_, h.set_outside hnone ?_ fun j hj => ?_⟩
    · simp [PairingHeap.step, HeapNodes.modify_eq hget, HeapNode.new]
    · simp
    · simp [hj]
  | drop i =>
    obtain ⟨-, -, hrest⟩ := Option.bind_eq_some_iff.mp hstep
    obtain ⟨_, hguard, heq⟩ := Option.bind_eq_some_iff.mp hrest
    cases heq
    refine ⟨_, t, rfl, h.set_outside (by simpa using hguard) ?_ fun j hj => ?_⟩
    · simp
    · simp [hj]

theorem Fits.peekMin_none (h : heap.Fits use t) (hpeek : heap.peekMin = none) (i : ι) : use.members.get i = none := by
  cases hi : use.members.get i with
  | none => rfl
  | some k =>
    obtain ⟨u, rfl, -⟩ := h.mem_ids hi
    cases hpeek.symm.trans h.holds.root

theorem Fits.peekMin_some (h : heap.Fits use t) {i : ι} (hpeek : heap.peekMin = some i) :
    ∃ k, use.members.get i = some k ∧ ∀ j l, use.members.get j = some l → k ≤ l := by
  have hroot := hpeek.symm.trans h.holds.root
  cases t with
  | none => cases hroot
  | some u =>
    cases hroot
    refine ⟨u.key, (h.members u.id u.key).mpr List.mem_cons_self, fun j l hj => ?_⟩
    exact (h.holds.ordered u rfl).key_le ((h.members j l).mp hj)

theorem run_fits {heap : PairingHeap ι κ} {calls : List (HeapCall ι κ)} (h : heap.Fits use t) {use' : HeapUse ι κ}
    (hrun : Runs.run HeapUse.step use calls = some use') :
    ∃ heap' t', Runs.run PairingHeap.step heap calls = some heap' ∧ heap'.Fits use' t' := by
  induction calls generalizing heap use t with
  | nil =>
    cases hrun
    exact ⟨heap, t, rfl, h⟩
  | cons call calls ih =>
    obtain ⟨use₁, hstep, hrest⟩ := Option.bind_eq_some_iff.mp hrun
    obtain ⟨heap₁, t₁, hstep', hfits⟩ := h.step hstep
    obtain ⟨heap', t', hrun', hfits'⟩ := ih hfits hrest
    exact ⟨heap', t', (Runs.run_cons hstep').trans hrun', hfits'⟩

/-- Safe calls never fail an assertion, and the heap is that of the members: its pointers are those of a tree in order,
and what it finds first is a least member. -/
theorem run_safe (calls : List (HeapCall ι κ)) (use : HeapUse ι κ)
    (hrun : Runs.run HeapUse.step (⟨∅, ∅⟩ : HeapUse ι κ) calls = some use) :
    ∃ heap : PairingHeap ι κ, Runs.run PairingHeap.step ⟨∅, none⟩ calls = some heap ∧
      (∃ t, heap.Holds t ∧ ∀ i k, use.members.get i = some k ↔ (i, k) ∈ t.elim [] PairingTree.entries) ∧
      (∀ i, use.members.get i = none → heap.nodes.get i = (use.nodes.get i).map .new) ∧
      (heap.peekMin = none → ∀ i, use.members.get i = none) ∧
      ∀ i, heap.peekMin = some i → ∃ k, use.members.get i = some k ∧ ∀ j l, use.members.get j = some l → k ≤ l := by
  obtain ⟨heap, t, hrun', h⟩ := run_fits fits_new hrun
  exact ⟨heap, hrun', ⟨t, h.holds, h.members⟩, h.outside, h.peekMin_none, fun i hi => h.peekMin_some hi⟩

/-- Nodes that are taken out from below the root, from the root and again after they were written to. -/
def churn : List (HeapCall Nat Nat) :=
  [.new 0 5, .new 1 3, .new 2 8, .new 3 1, .new 4 9, .insert 0, .insert 1, .insert 2, .insert 3, .insert 4, .remove 3,
    .remove 2, .write 3 7, .insert 3, .drop 2, .remove 1]

theorem run_safe_churn : ∃ heap : PairingHeap Nat Nat, Runs.run PairingHeap.step ⟨∅, none⟩ churn = some heap ∧
    (∃ t, heap.Holds t) ∧ heap.peekMin ≠ none ∧ heap.peekMin ≠ some 4 := by
  obtain ⟨heap, hrun, ⟨t, ht, -⟩, -, hnone, hmin⟩ := run_safe churn _ rfl
  refine ⟨heap, hrun, ⟨t, ht⟩, fun hpeek => ?_, fun hpeek => ?_⟩
  · cases hnone hpeek 0
  · obtain ⟨k, hk, hle⟩ := hmin 4 hpeek
    cases hk
    exact absurd (hle 0 5 rfl) (by decide)

end PairingHeap

end Capybara
