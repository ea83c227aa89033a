import Capybara.Lib.Circular

namespace Capybara

/-- A TCP sequence number; all arithmetic on it wraps around. -/
structure SeqNumber where
  value : UInt32
  deriving DecidableEq, Repr

namespace SeqNumber

instance : Add SeqNumber := ⟨fun a b => ⟨a.value + b.value⟩⟩

instance : Sub SeqNumber := ⟨fun a b => ⟨a.value - b.value⟩⟩

/-- `SeqNumber::from(n as u32)`. -/
def ofNat (n : Nat) : SeqNumber := ⟨UInt32.ofNat n⟩

/-- `u32::from(s)`, as a number. -/
def toNat (s : SeqNumber) : Nat := s.value.toNat

/-- The four comparisons are on the signed difference, so none is transitive. -/
def lt (a b : SeqNumber) : Bool := decide ((a.value - b.value).toInt32 < 0)

def le (a b : SeqNumber) : Bool := decide ((a.value - b.value).toInt32 ≤ 0)

def gt (a b : SeqNumber) : Bool := decide (0 < (a.value - b.value).toInt32)

def ge (a b : SeqNumber) : Bool := decide (0 ≤ (a.value - b.value).toInt32)

theorem toNat_lt (s : SeqNumber) : s.toNat < 2 ^ 32 := UInt32.toNat_lt s.value

theorem sub_value (a b : SeqNumber) : (a - b).value = a.value - b.value := rfl

theorem lt_iff {a b : SeqNumber} : a.lt b = true ↔ 2 ^ 31 ≤ (a - b).toNat := by
  simpa [lt, toNat, sub_value] using Circular.toInt32_lt_zero (a.value - b.value)

theorem le_iff {a b : SeqNumber} : a.le b = true ↔ (a - b).toNat = 0 ∨ 2 ^ 31 ≤ (a - b).toNat := by
  simpa only [le, toNat, sub_value, decide_eq_true_eq] using Circular.toInt32_le_zero (a.value - b.value)

theorem ge_iff {a b : SeqNumber} : a.ge b = true ↔ (a - b).toNat < 2 ^ 31 := by
  simpa [ge, toNat, sub_value] using Circular.toInt32_nonneg (a.value - b.value)

theorem toNat_inj {a b : SeqNumber} : a.toNat = b.toNat ↔ a = b := by
  constructor
  · intro h
    exact congrArg SeqNumber.mk (UInt32.toNat_inj.mp h)
  · intro h
    rw [h]

theorem toNat_sub (a b : SeqNumber) : (a - b).toNat = (2 ^ 32 - b.toNat + a.toNat) % 2 ^ 32 :=
  UInt32.toNat_sub a.value b.value

theorem toNat_ofNat (n : Nat) : (ofNat n).toNat = n % 2 ^ 32 := UInt32.toNat_ofNat'

theorem toNat_add_ofNat (a : SeqNumber) (n : Nat) : (a + ofNat n).toNat = (a.toNat + n) % 2 ^ 32 := by
  have hadd : (a + ofNat n).toNat = (a.toNat + (ofNat n).toNat) % 2 ^ 32 := UInt32.toNat_add a.value (ofNat n).value
  rw [hadd, toNat_ofNat]
  omega

/-- The sequence number of the stream position `n` when position 0 is numbered `isn`. -/
def atPos (isn : SeqNumber) (n : Nat) : SeqNumber := ⟨Circular.after isn.value n⟩

@[simp] theorem atPos_zero (isn : SeqNumber) : isn.atPos 0 = isn := by
  simp [atPos]

theorem atPos_add (isn : SeqNumber) (m n : Nat) : isn.atPos (m + n) = isn.atPos m + ofNat n := by
  simp only [atPos, Circular.after_add]
  rfl

theorem atPos_sub {isn : SeqNumber} {m n : Nat} (h : n ≤ m) : isn.atPos m - ofNat n = isn.atPos (m - n) := by
  obtain ⟨d, rfl⟩ := Nat.exists_eq_add_of_le h
  rw [Nat.add_sub_cancel_left, Nat.add_comm, atPos_add]
  exact congrArg SeqNumber.mk (UInt32.add_sub_cancel _ _)

theorem atPos_inj {isn : SeqNumber} {m n : Nat} (h : m < n + 2 ^ 32) (h' : n < m + 2 ^ 32) :
    isn.atPos m = isn.atPos n ↔ m = n := by
  simpa [atPos] using @Circular.after_inj isn.value m n h h'

theorem atPos_eq_iff {isn : SeqNumber} {m n : Nat} :
    isn.atPos m = isn.atPos n ↔ m % 2 ^ 32 = n % 2 ^ 32 := by
  simpa [atPos] using @Circular.after_eq_iff isn.value m n

theorem atPos_sub_toNat {isn : SeqNumber} {m n : Nat} (h : n ≤ m) (hb : m < n + 2 ^ 32) :
    (isn.atPos m - isn.atPos n).toNat = m - n :=
  Circular.sub_toNat_of_le h hb

theorem atPos_sub_toNat_of_lt {isn : SeqNumber} {m n : Nat} (h : m < n) (hb : n ≤ m + 2 ^ 32) :
    (isn.atPos m - isn.atPos n).toNat = 2 ^ 32 - (n - m) :=
  Circular.sub_toNat_of_lt h hb

/-- Between positions less than half a turn apart the comparison is the order of the positions. -/
theorem lt_atPos {isn : SeqNumber} {m n : Nat} (h : m < n + 2 ^ 31) (h' : n ≤ m + 2 ^ 31) :
    (isn.atPos m).lt (isn.atPos n) = true ↔ m < n := by
  rw [lt_iff]
  rcases Nat.lt_or_ge m n with hlt | hge
  · rw [atPos_sub_toNat_of_lt hlt (by omega)]
    omega
  · rw [atPos_sub_toNat hge (by omega)]
    omega

theorem le_atPos {isn : SeqNumber} {m n : Nat} (h : m < n + 2 ^ 31) (h' : n ≤ m + 2 ^ 31) :
    (isn.atPos m).le (isn.atPos n) = true ↔ m ≤ n := by
  rw [le_iff]
  rcases Nat.lt_or_ge m n with hlt | hge
  · rw [atPos_sub_toNat_of_lt hlt (by omega)]
    omega
  · rw [atPos_sub_toNat hge (by omega)]
    omega

theorem ge_atPos {isn : SeqNumber} {m n : Nat} (h : m < n + 2 ^ 31) (h' : n ≤ m + 2 ^ 31) :
    (isn.atPos m).ge (isn.atPos n) = true ↔ n ≤ m := by
  rw [ge_iff]
  rcases Nat.lt_or_ge m n with hlt | hge
  · rw [atPos_sub_toNat_of_lt hlt (by omega)]
    omega
  · rw [atPos_sub_toNat hge (by omega)]
    omega

end SeqNumber

end Capybara
