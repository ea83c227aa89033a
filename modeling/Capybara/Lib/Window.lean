import Mathlib.Data.List.Basic
import Mathlib.Data.List.GetD

namespace Window

variable {α : Type} {buffer : List α} {len front i j n : Nat}

/-- The place in an array of the element `i` places after the front, around the end. -/
def slot (len front i : Nat) : Nat := (front + i) % len

theorem slot_eq (hf : front < len) (hi : i ≤ len) :
    slot len front i = if front + i < len then front + i else front + i - len := by
  unfold slot
  split
  next hlt => exact Nat.mod_eq_of_lt hlt
  next hge =>
    rw [Nat.mod_eq_sub_mod (Nat.le_of_not_lt hge), Nat.mod_eq_of_lt (by omega)]

theorem slot_lt (hf : front < len) : slot len front i < len := Nat.mod_lt _ (Nat.zero_lt_of_lt hf)

theorem slot_inj (hf : front < len) (hi : i < len) (hj : j < len) : slot len front i = slot len front j ↔ i = j := by
  rw [slot_eq hf (Nat.le_of_lt hi), slot_eq hf (Nat.le_of_lt hj)]
  split <;> split <;> omega

theorem slot_slot (len front i j : Nat) : slot len (slot len front i) j = slot len front (i + j) := by
  rw [slot, slot, slot, Nat.mod_add_mod, Nat.add_assoc]

/-- The next place is the front again exactly when the array is full. -/
theorem slot_succ_eq_iff (hf : front < len) (hi : i < len) : slot len (slot len front i) 1 = front ↔ i + 1 = len := by
  rw [slot_slot, slot_eq hf hi]
  split <;> omega

theorem slot_eq_front_iff (hf : front < len) (hi : i < len) : slot len front i = front ↔ i = 0 := by
  rw [slot_eq hf (Nat.le_of_lt hi)]
  split <;> omega

/-- How far a place is behind the front. -/
def distance (len front back : Nat) : Nat := (back + len - front) % len

theorem distance_slot (hf : front < len) (hi : i < len) : distance len front (slot len front i) = i := by
  rw [distance, slot_eq hf (Nat.le_of_lt hi)]
  split
  next hlt =>
    rw [show front + i + len - front = i + len by omega, Nat.add_mod_right, Nat.mod_eq_of_lt hi]
  next hge => rw [show front + i - len + len - front = i by omega, Nat.mod_eq_of_lt hi]

/-- The `n` elements from the front on. -/
def window (buffer : List α) (front n : Nat) : List α :=
  (List.range n).filterMap fun i => buffer[slot buffer.length front i]?

theorem window_succ (hf : front < buffer.length) : ∃ a, buffer[slot buffer.length front n]? = some a ∧
    window buffer front (n + 1) = window buffer front n ++ [a] := by
  have hget := List.getElem?_eq_getElem (slot_lt (i := n) hf)
  refine ⟨_, hget, ?_⟩
  rw [window, List.range_succ, List.filterMap_append]
  simp [window, hget]

theorem length_window (hf : front < buffer.length) (n : Nat) : (window buffer front n).length = n := by
  induction n with
  | zero => rfl
  | succ n ih =>
    obtain ⟨a, -, hw⟩ := @window_succ _ buffer front n hf
    rw [hw, List.length_append, ih, List.length_singleton]

theorem window_cons (hf : front < buffer.length) : ∃ a, buffer[front]? = some a ∧
    window buffer front (n + 1) = a :: window buffer (slot buffer.length front 1) n := by
  have hget := List.getElem?_eq_getElem hf
  refine ⟨_, hget, ?_⟩
  have hzero : slot buffer.length front 0 = front := Nat.mod_eq_of_lt hf
  rw [window, List.range_succ_eq_map, List.filterMap_cons, hzero, hget, List.filterMap_map, window]
  refine congrArg _ (List.filterMap_congr fun i _ => ?_)
  rw [slot_slot, Nat.add_comm]
  rfl

/-- Writing behind the window leaves it as it is. -/
theorem window_set (hf : front < buffer.length) (hn : n < buffer.length) (a : α) :
    window (buffer.set (slot buffer.length front n) a) front n = window buffer front n := by
  unfold window
  refine List.filterMap_congr fun i hi => ?_
  have hlt := List.mem_range.mp hi
  rw [List.length_set, List.getElem?_set_ne]
  intro heq
  have hsame := (slot_inj hf hn (by omega)).mp heq
  omega

end Window
