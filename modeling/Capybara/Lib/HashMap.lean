import Mathlib.Data.List.AList

/-- A finite map without repeated keys, read by `get`. -/
abbrev HashMap (K V : Type) : Type := AList fun _ : K => V

namespace HashMap

variable {K V : Type} [DecidableEq K]

def get (m : HashMap K V) (k : K) : Option V := AList.lookup k m

def insert (m : HashMap K V) (k : K) (v : V) : HashMap K V := AList.insert k v m

def remove (m : HashMap K V) (k : K) : HashMap K V := AList.erase k m

def size (m : HashMap K V) : Nat := m.entries.length

def any (m : HashMap K V) (p : V → Bool) : Bool := m.entries.any fun e => p e.2

@[simp] theorem get_empty (k : K) : get (∅ : HashMap K V) k = none := AList.lookup_empty k

@[simp] theorem get_insert (m : HashMap K V) (k k' : K) (v : V) :
    (m.insert k v).get k' = if k' = k then some v else m.get k' := by
  by_cases h : k' = k
  · subst k'
    simp [get, insert]
  · simp [get, insert, h]

@[simp] theorem get_remove (m : HashMap K V) (k k' : K) :
    (m.remove k).get k' = if k' = k then none else m.get k' := by
  by_cases h : k' = k
  · subst k'
    simp [get, remove]
  · simp [get, remove, h]

omit [DecidableEq K] in
theorem size_eq (m : HashMap K V) : m.size = m.keys.length := (List.length_map _).symm

theorem mem_keys_iff (m : HashMap K V) (k : K) : k ∈ m.keys ↔ (m.get k).isSome = true :=
  AList.mem_keys.symm.trans AList.lookup_isSome.symm

theorem size_insert {m : HashMap K V} {k : K} (h : m.get k = none) (v : V) : (m.insert k v).size = m.size + 1 := by
  have hnot : k ∉ m.keys := by
    rw [mem_keys_iff, h]
    exact Bool.false_ne_true
  rw [size_eq, size_eq, insert, AList.keys_insert, List.erase_of_not_mem hnot, List.length_cons]

theorem size_remove {m : HashMap K V} {k : K} {v : V} (h : m.get k = some v) : (m.remove k).size + 1 = m.size := by
  have hmem : k ∈ m.keys := by
    rw [mem_keys_iff, h]
    rfl
  rw [size_eq, size_eq, remove, AList.keys_erase]
  exact List.length_erase_add_one hmem

theorem insert_ne {m : HashMap K V} {k : K} {v : V} (h : m.get k ≠ some v) : m.insert k v ≠ m := by
  intro heq
  rw [← heq, get_insert, if_pos rfl] at h
  exact h rfl

theorem remove_ne {m : HashMap K V} {k : K} {v : V} (h : m.get k = some v) : m.remove k ≠ m := by
  intro heq
  rw [← heq, get_remove, if_pos rfl] at h
  cases h

end HashMap
