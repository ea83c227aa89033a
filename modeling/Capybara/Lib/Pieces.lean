import Mathlib.Data.List.GetD
import Mathlib.Data.List.Perm.Basic
import Mathlib.Tactic.Ring

namespace Pieces

variable {α : Type}

/-- The piece number `i` of a list cut every `size` elements. -/
def piece (size : Nat) (xs : List α) (i : Nat) : List α := (xs.drop (i * size)).take size

/-- How many pieces there are; the empty list still makes one. -/
def count (size len : Nat) : Nat := (len - 1) / size + 1

theorem count_pos (size len : Nat) : 0 < count size len := Nat.succ_pos _

theorem lt_count_iff {size len i : Nat} (hs : 0 < size) (hi : 0 < i) : i < count size len ↔ i * size < len := by
  have h := Nat.le_div_iff_mul_le (x := i) (y := len - 1) hs
  have hp : 0 < i * size := Nat.mul_pos hi hs
  unfold count
  omega

theorem le_count_mul {size : Nat} (hs : 0 < size) (len : Nat) : len ≤ count size len * size := by
  have h := @lt_count_iff _ len _ hs (count_pos size len)
  omega

theorem length_piece (size : Nat) (xs : List α) (i : Nat) :
    (piece size xs i).length = min size (xs.length - i * size) := by
  simp [piece]

theorem flatten_pieces (size : Nat) (xs : List α) (n : Nat) :
    ((List.range n).map (piece size xs)).flatten = xs.take (n * size) := by
  induction n with
  | zero => simp
  | succ n ih =>
    rw [List.range_succ, List.map_append, List.flatten_append, ih, Nat.succ_mul, List.take_add]
    simp [piece]

/-- All pieces in order make up the list again. -/
theorem flatten_all {size : Nat} (hs : 0 < size) (xs : List α) :
    ((List.range (count size xs.length)).map (piece size xs)).flatten = xs := by
  rw [flatten_pieces, List.take_of_length_le (le_count_mul hs xs.length)]

/-- Puts a value into a slot, adding empty slots up to it where there are too few. -/
def store (empty : α) (slots : List α) (i : Nat) (a : α) : List α :=
  (slots ++ List.replicate (i + 1 - slots.length) empty).set i a

theorem length_store (empty : α) (slots : List α) (i : Nat) (a : α) :
    (store empty slots i a).length = max slots.length (i + 1) := by
  simp [store]
  omega

theorem getD_store (empty : α) (slots : List α) (i j : Nat) (a : α) :
    (store empty slots i a).getD j empty = if j = i then a else slots.getD j empty := by
  have hl := length_store empty slots i a
  by_cases hj : j = i
  · subst j
    simp only [store, List.getD_eq_getElem?_getD, List.getElem?_set, if_true]
    split
    next => rfl
    next h =>
      simp only [List.length_append, List.length_replicate] at h
      omega
  · simp only [store, List.getD_eq_getElem?_getD, List.getElem?_set, hj, Ne.symm hj, if_false]
    by_cases hlt : j < slots.length
    · rw [List.getElem?_append_left hlt]
    · rw [List.getElem?_append_right (by omega), List.getElem?_eq_none (Nat.le_of_not_lt hlt)]
      by_cases hr : j - slots.length < i + 1 - slots.length
      · simp [hr]
      · rw [List.getElem?_eq_none (by simp only [List.length_replicate]; omega)]

theorem length_flatten_set_le (slots : List (List α)) (i : Nat) (xs : List α) :
    (slots.set i xs).flatten.length ≤ slots.flatten.length + xs.length := by
  induction slots generalizing i with
  | nil => exact Nat.zero_le _
  | cons slot slots ih =>
    cases i with
    | zero =>
      simp only [List.set_cons_zero, List.flatten_cons, List.length_append]
      omega
    | succ i =>
      have hrest := ih i
      simp only [List.set_cons_succ, List.flatten_cons, List.length_append]
      omega

theorem length_flatten_store_le (slots : List (List α)) (i : Nat) (xs : List α) :
    (store [] slots i xs).flatten.length ≤ slots.flatten.length + xs.length := by
  have hset := length_flatten_set_le (slots ++ List.replicate (i + 1 - slots.length) []) i xs
  rw [List.flatten_append, List.flatten_replicate_nil, List.append_nil] at hset
  exact hset

/-- Slots that all hold the right value are the list of these values. -/
theorem eq_map_range {empty : α} {slots : List α} {n : Nat} {f : Nat → α} (hl : slots.length = n)
    (h : ∀ i, i < n → slots.getD i empty = f i) : slots = (List.range n).map f := by
  apply List.ext_getElem
  · simp [hl]
  · intro i hi hi'
    have hv := h i (by omega)
    rw [List.getD_eq_getElem _ _ hi] at hv
    simp [hv]

/-- Distinct numbers below `n`, as many as there are, are all of them. -/
theorem perm_range {is : List Nat} {n : Nat} (hd : is.Nodup) (hb : ∀ i ∈ is, i < n) (hl : is.length = n) :
    is.Perm (List.range n) := by
  apply List.Subperm.perm_of_length_le
  · exact List.subperm_of_subset hd fun i hi => List.mem_range.mpr (hb i hi)
  · simp [hl]

theorem exists_map_of_perm {β : Type} {f : α → β} {ys : List β} {xs : List α} (h : ys.Perm (xs.map f)) :
    ∃ zs : List α, ys = zs.map f ∧ zs.Perm xs := by
  have he := congrFun (congrFun (List.eq_map_comp_perm f) ys) xs
  exact he.mpr h

end Pieces
