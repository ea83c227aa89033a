import Mathlib.Data.List.Basic

namespace Slice

variable {α : Type}

/-- The part of a list between two positions. -/
def slice (xs : List α) (lo hi : Nat) : List α := (xs.take hi).drop lo

@[simp] theorem length_slice (xs : List α) (lo hi : Nat) : (slice xs lo hi).length = min hi xs.length - lo := by
  simp [slice]

theorem length_slice_of_le {xs : List α} {hi : Nat} (h : hi ≤ xs.length) (lo : Nat) :
    (slice xs lo hi).length = hi - lo := by
  rw [length_slice, Nat.min_eq_left h]

theorem slice_zero (xs : List α) (hi : Nat) : slice xs 0 hi = xs.take hi := rfl

theorem slice_self (xs : List α) (n : Nat) : slice xs n n = [] := by
  apply List.eq_nil_of_length_eq_zero
  rw [length_slice]
  omega

theorem slice_append (xs : List α) {lo mid hi : Nat} (h : lo ≤ mid) (h' : mid ≤ hi) :
    slice xs lo mid ++ slice xs mid hi = slice xs lo hi := by
  have hm : xs.take mid = (xs.take hi).take mid := by rw [List.take_take, Nat.min_eq_left h']
  have ht : slice xs mid hi = ((xs.take hi).drop lo).drop (mid - lo) := by
    rw [slice, List.drop_drop, Nat.add_sub_cancel' h]
  rw [ht, slice, hm, List.drop_take]
  exact List.take_append_drop (mid - lo) ((xs.take hi).drop lo)

theorem drop_slice (xs : List α) (lo hi n : Nat) : (slice xs lo hi).drop n = slice xs (lo + n) hi := by
  rw [slice, slice, List.drop_drop]

theorem take_slice {xs : List α} {lo hi n : Nat} (h : lo + n ≤ hi) : (slice xs lo hi).take n = slice xs lo (lo + n) := by
  have hm : xs.take (lo + n) = (xs.take hi).take (lo + n) := by rw [List.take_take, Nat.min_eq_left h]
  rw [slice, slice, hm, List.take_drop]

end Slice
