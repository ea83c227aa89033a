import Mathlib.Data.List.MinMax
import Capybara.Lib.HashMap

/-- Elements can be removed from any place; each of them has its key. -/
structure PriorityQueue (ι κ : Type) [DecidableEq ι] [LinearOrder κ] where
  Heap : Type
  empty : Heap
  insert : ι → κ → Heap → Heap
  remove : ι → Heap → Heap
  peekMin : Heap → Option ι
  key : Heap → ι → Option κ
  size : Heap → Nat
  key_empty : ∀ i, key empty i = none
  key_insert : ∀ h i k j, key h i = none → key (insert i k h) j = if j = i then some k else key h j
  key_remove : ∀ h i j, key h i ≠ none → key (remove i h) j = if j = i then none else key h j
  size_remove : ∀ h i, key h i ≠ none → size (remove i h) < size h
  key_of_peekMin_none : ∀ h i, peekMin h = none → key h i = none
  key_of_peekMin_some : ∀ h i, peekMin h = some i → ∃ k, key h i = some k ∧ ∀ j k', key h j = some k' → k ≤ k'

namespace PriorityQueue

variable {ι κ : Type} [DecidableEq ι] [LinearOrder κ]

theorem key_remove_self (queue : PriorityQueue ι κ) {h : queue.Heap} {i : ι} (hi : queue.key h i ≠ none) :
    queue.key (queue.remove i h) i = none := by
  rw [queue.key_remove h i i hi, if_pos rfl]

theorem key_remove_ne (queue : PriorityQueue ι κ) {h : queue.Heap} {i j : ι} (hi : queue.key h i ≠ none) (hj : j ≠ i) :
    queue.key (queue.remove i h) j = queue.key h j := by
  rw [queue.key_remove h i j hi, if_neg hj]

/-- The entries in no order, from which the minimum is searched for. -/
def ofEntries (ι κ : Type) [DecidableEq ι] [LinearOrder κ] : PriorityQueue ι κ where
  Heap := HashMap ι κ
  empty := ∅
  insert i k h := HashMap.insert h i k
  remove i h := HashMap.remove h i
  peekMin h := (List.argmin (fun e => e.2) h.entries).map (·.1)
  key h i := HashMap.get h i
  size h := HashMap.size h
  key_empty := HashMap.get_empty
  key_insert h i k j _ := HashMap.get_insert h i j k
  key_remove h i j _ := HashMap.get_remove h i j
  size_remove h i hi := by
    obtain ⟨k, hk⟩ := Option.ne_none_iff_exists'.mp hi
    exact Nat.lt_of_succ_le (Nat.le_of_eq (HashMap.size_remove hk))
  key_of_peekMin_none h i hnone := by
    rw [Option.map_eq_none_iff, List.argmin_eq_none] at hnone
    rw [HashMap.get, AList.lookup_eq_none, AList.mem_keys, AList.keys, hnone]
    exact List.not_mem_nil
  key_of_peekMin_some h i hsome := by
    obtain ⟨e, he, rfl⟩ := Option.map_eq_some_iff.mp hsome
    refine ⟨e.2, AList.mem_lookup_iff.mpr (List.argmin_mem he), fun j k' hj => ?_⟩
    exact List.le_of_mem_argmin (AList.mem_lookup_iff.mp hj) he

end PriorityQueue
