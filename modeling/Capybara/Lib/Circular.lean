import Mathlib.Data.UInt
import Mathlib.Tactic.Ring

namespace Circular

theorem toInt_toInt32 (d : UInt32) :
    d.toInt32.toInt = if d.toNat < 2 ^ 31 then (d.toNat : Int) else (d.toNat : Int) - 2 ^ 32 := by
  have hd : d.toNat < 2 ^ 32 := UInt32.toNat_lt d
  have he : d.toInt32.toInt = d.toBitVec.toInt := rfl
  rw [he, BitVec.toInt_eq_toNat_cond]
  change (if 2 * d.toNat < 2 ^ 32 then (d.toNat : Int) else (d.toNat : Int) - ((2 ^ 32 : Nat) : Int)) = _
  split <;> split <;> omega

theorem toInt32_lt_zero (d : UInt32) : d.toInt32 < 0 ↔ 2 ^ 31 ≤ d.toNat := by
  have hd : d.toNat < 2 ^ 32 := UInt32.toNat_lt d
  rw [Int32.lt_iff_toInt_lt, toInt_toInt32]
  change _ < (0 : Int) ↔ _
  split <;> omega

theorem toInt32_le_zero (d : UInt32) : d.toInt32 ≤ 0 ↔ d.toNat = 0 ∨ 2 ^ 31 ≤ d.toNat := by
  have hd : d.toNat < 2 ^ 32 := UInt32.toNat_lt d
  rw [Int32.le_iff_toInt_le, toInt_toInt32]
  change _ ≤ (0 : Int) ↔ _
  split <;> omega

theorem toInt32_nonneg (d : UInt32) : 0 ≤ d.toInt32 ↔ d.toNat < 2 ^ 31 := by
  have hd : d.toNat < 2 ^ 32 := UInt32.toNat_lt d
  rw [Int32.le_iff_toInt_le, toInt_toInt32]
  change (0 : Int) ≤ _ ↔ _
  split <;> omega

/-- The value reached from `base` after `n` steps around the circle. -/
def after (base : UInt32) (n : Nat) : UInt32 := base + UInt32.ofNat n

@[simp] theorem after_zero (base : UInt32) : after base 0 = base := by
  simp [after]

theorem after_add (base : UInt32) (m n : Nat) :
    after base (m + n) = after base m + UInt32.ofNat n := by
  simp [after, UInt32.ofNat_add, UInt32.add_assoc]

theorem sub_toNat (base : UInt32) (m n : Nat) :
    ((after base m - after base n).toNat + n) % 2 ^ 32 = m % 2 ^ 32 := by
  have hb : base.toNat < 2 ^ 32 := UInt32.toNat_lt base
  simp only [after, UInt32.toNat_sub, UInt32.toNat_add, UInt32.toNat_ofNat']
  omega

/-- Ahead of a position the unsigned distance is the number of steps between them. -/
theorem sub_toNat_of_le {base : UInt32} {m n : Nat} (h : n ≤ m) (hb : m < n + 2 ^ 32) :
    (after base m - after base n).toNat = m - n := by
  have hs := sub_toNat base m n
  have hd : (after base m - after base n).toNat < 2 ^ 32 := UInt32.toNat_lt _
  omega

theorem sub_toNat_of_lt {base : UInt32} {m n : Nat} (h : m < n) (hb : n ≤ m + 2 ^ 32) :
    (after base m - after base n).toNat = 2 ^ 32 - (n - m) := by
  have hs := sub_toNat base m n
  have hd : (after base m - after base n).toNat < 2 ^ 32 := UInt32.toNat_lt _
  omega

theorem after_eq_iff {base : UInt32} {m n : Nat} :
    after base m = after base n ↔ m % 2 ^ 32 = n % 2 ^ 32 := by
  have hs := sub_toNat base m n
  constructor
  · intro h
    have hz : (after base m - after base n).toNat = 0 := by simp [h]
    omega
  · intro h
    have hd : (after base m - after base n).toNat < 2 ^ 32 := UInt32.toNat_lt _
    have hz : (after base m - after base n).toNat = 0 := by omega
    have hr := UInt32.toNat_sub (after base m) (after base n)
    have hm : (after base m).toNat < 2 ^ 32 := UInt32.toNat_lt _
    have hn : (after base n).toNat < 2 ^ 32 := UInt32.toNat_lt _
    apply UInt32.toNat_inj.mp
    omega

/-- Within one turn of the circle equal values are equal positions. -/
theorem after_inj {base : UInt32} {m n : Nat} (h : m < n + 2 ^ 32) (h' : n < m + 2 ^ 32) :
    after base m = after base n ↔ m = n := by
  rw [after_eq_iff]
  omega

end Circular
