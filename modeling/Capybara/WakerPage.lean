import Mathlib.Data.List.Basic
import Mathlib.Logic.Function.Basic

namespace Capybara

abbrev Waker64 := BitVec 64

namespace Waker64

def fetchOr (w val : Waker64) : Waker64 := w ||| val

def fetchAnd (w val : Waker64) : Waker64 := w &&& val

/-- `1 << ix`. -/
def bit (ix : Nat) : Waker64 := BitVec.twoPow 64 ix

def isSet (w : Waker64) (ix : Nat) : Bool := w.getLsbD ix

/-- `BitIter`: the set bits, from the lowest one on. -/
def bits (w : Waker64) : List Nat := (List.range 64).filter w.isSet

theorem mem_bits {w : Waker64} {ix : Nat} : ix ∈ w.bits ↔ w.isSet ix = true := by
  simp only [bits, List.mem_filter, List.mem_range]
  exact and_iff_right_of_imp BitVec.lt_of_getLsbD

theorem bits_lt {w : Waker64} {ix : Nat} (h : ix ∈ w.bits) : ix < 64 := BitVec.lt_of_getLsbD (mem_bits.mp h)

theorem bits_sorted (w : Waker64) : w.bits.Pairwise (· < ·) := List.pairwise_lt_range.filter _

@[simp] theorem isSet_zero (ix : Nat) : isSet 0 ix = false := by simp [isSet]

theorem isSet_fetchOr_bit (w : Waker64) {ix : Nat} (h : ix < 64) (jx : Nat) :
    (w.fetchOr (bit ix)).isSet jx = if jx = ix then true else w.isSet jx := by
  simp only [isSet, fetchOr, bit, BitVec.getLsbD_or, BitVec.getLsbD_twoPow, h, decide_true, Bool.true_and]
  by_cases hj : jx = ix
  · simp [hj]
  · simp [hj, Ne.symm hj]

theorem isSet_fetchAnd_not_bit (w : Waker64) (ix jx : Nat) :
    (w.fetchAnd (~~~bit ix)).isSet jx = if jx = ix then false else w.isSet jx := by
  simp only [isSet, fetchAnd, bit, BitVec.getLsbD_and, BitVec.getLsbD_not, BitVec.getLsbD_twoPow]
  by_cases hlt : jx < 64
  · by_cases hj : jx = ix
    · subst jx
      simp [hlt]
    · simp [hlt, hj, Ne.symm hj]
  · simp [hlt, BitVec.getLsbD_of_ge w jx (Nat.not_lt.mp hlt)]

end Waker64

open Waker64

/-- The status of 64 tasks; the reference count is left out. -/
structure WakerPage where
  notified : Waker64
  completed : Waker64
  dropped : Waker64
  deriving DecidableEq

namespace WakerPage

def reset : WakerPage := ⟨0, 0, 0⟩

def notify (p : WakerPage) (ix : Nat) : WakerPage := { p with notified := p.notified.fetchOr (bit ix) }

/-- Completed and dropped tasks are masked out of what is returned. -/
def takeNotified (p : WakerPage) : Waker64 × WakerPage :=
  ((p.notified.fetchAnd (~~~p.completed)).fetchAnd (~~~p.dropped), { p with notified := 0 })

def markCompleted (p : WakerPage) (ix : Nat) : WakerPage := { p with completed := p.completed.fetchOr (bit ix) }

def markDropped (p : WakerPage) (ix : Nat) : WakerPage := { p with dropped := p.dropped.fetchOr (bit ix) }

def takeDropped (p : WakerPage) : Waker64 × WakerPage := (p.dropped, { p with dropped := 0 })

def wasDropped (p : WakerPage) (ix : Nat) : Bool := p.dropped.isSet ix

def initializeFlags (p : WakerPage) (ix : Nat) : WakerPage where
  notified := p.notified.fetchOr (bit ix)
  completed := p.completed.fetchAnd (~~~bit ix)
  dropped := p.dropped.fetchAnd (~~~bit ix)

def clear (p : WakerPage) (ix : Nat) : WakerPage where
  notified := p.notified.fetchAnd (~~~bit ix)
  completed := p.completed.fetchAnd (~~~bit ix)
  dropped := p.dropped.fetchAnd (~~~bit ix)

theorem isSet_takeNotified (p : WakerPage) (ix : Nat) : p.takeNotified.1.isSet ix =
    (p.notified.isSet ix && !p.completed.isSet ix && !p.dropped.isSet ix) := by
  simp only [takeNotified, isSet, fetchAnd, BitVec.getLsbD_and, BitVec.getLsbD_not]
  by_cases hlt : ix < 64
  · simp [hlt]
  · simp [BitVec.getLsbD_of_ge p.notified ix (Nat.not_lt.mp hlt)]

end WakerPage

/-- The status of one task. -/
@[ext] structure Flags where
  notified : Bool
  completed : Bool
  dropped : Bool
  deriving DecidableEq

namespace Flags

def clear : Flags := ⟨false, false, false⟩

def ofPage (p : WakerPage) (ix : Nat) : Flags := ⟨p.notified.isSet ix, p.completed.isSet ix, p.dropped.isSet ix⟩

section

variable (p : WakerPage) {ix : Nat} (h : ix < 64) (jx : Nat)

include h

theorem ofPage_notify : ofPage (p.notify ix) jx =
    if jx = ix then { ofPage p jx with notified := true } else ofPage p jx := by
  simp only [ofPage, WakerPage.notify, isSet_fetchOr_bit _ h]
  split <;> rfl

theorem ofPage_markCompleted : ofPage (p.markCompleted ix) jx =
    if jx = ix then { ofPage p jx with completed := true } else ofPage p jx := by
  simp only [ofPage, WakerPage.markCompleted, isSet_fetchOr_bit _ h]
  split <;> rfl

theorem ofPage_markDropped : ofPage (p.markDropped ix) jx =
    if jx = ix then { ofPage p jx with dropped := true } else ofPage p jx := by
  simp only [ofPage, WakerPage.markDropped, isSet_fetchOr_bit _ h]
  split <;> rfl

theorem ofPage_initializeFlags : ofPage (p.initializeFlags ix) jx = if jx = ix then ⟨true, false, false⟩ else ofPage p jx := by
  simp only [ofPage, WakerPage.initializeFlags, isSet_fetchOr_bit _ h, isSet_fetchAnd_not_bit]
  split <;> rfl

omit h in
theorem ofPage_clear : ofPage (p.clear ix) jx = if jx = ix then clear else ofPage p jx := by
  simp only [ofPage, WakerPage.clear, isSet_fetchAnd_not_bit]
  split <;> rfl

end

/-- The status of the task with a key; a page that is not there yet has no flags set. -/
def ofKey (pages : List WakerPage) (key : Nat) : Flags :=
  match pages[key / 64]? with
  | some p => ofPage p (key % 64)
  | none => clear

theorem ofKey_of_getElem? {pages : List WakerPage} {key : Nat} {p : WakerPage} (h : pages[key / 64]? = some p) :
    ofKey pages key = ofPage p (key % 64) := by
  rw [ofKey, h]

/-- What an operation on one flag of a page does to the status of all tasks. -/
theorem ofKey_modify {pages : List WakerPage} {key : Nat} {f : WakerPage → WakerPage} {g : Flags → Flags}
    (hlt : key / 64 < pages.length)
    (hf : ∀ p jx, ofPage (f p) jx = if jx = key % 64 then g (ofPage p jx) else ofPage p jx) :
    ofKey (pages.modify (key / 64) f) = Function.update (ofKey pages) key (g (ofKey pages key)) := by
  have hget : pages[key / 64]? = some pages[key / 64] := List.getElem?_eq_getElem hlt
  funext k
  by_cases hk : k = key
  · subst k
    rw [Function.update_self, ofKey_of_getElem? hget, ofKey, List.getElem?_modify_eq, hget]
    exact (hf _ _).trans (if_pos rfl)
  · rw [Function.update_of_ne hk]
    by_cases hpage : k / 64 = key / 64
    · have hne : k % 64 ≠ key % 64 := fun he => hk (by omega)
      rw [ofKey, ofKey, hpage, List.getElem?_modify_eq, hget]
      exact (hf _ _).trans (if_neg hne)
    · rw [ofKey, List.getElem?_modify_ne _ _ (Ne.symm hpage)]
      rfl

theorem ofKey_append_reset (pages : List WakerPage) (n : Nat) :
    ofKey (pages ++ List.replicate n .reset) = ofKey pages := by
  funext k
  unfold ofKey
  by_cases hk : k / 64 < pages.length
  · rw [List.getElem?_append_left hk]
  · rw [List.getElem?_append_right (Nat.not_lt.mp hk), List.getElem?_eq_none (Nat.not_lt.mp hk), List.getElem?_replicate]
    split
    next p hp =>
      split at hp
      next =>
        cases hp
        simp only [ofPage, WakerPage.reset, isSet_zero]
        rfl
      next => cases hp
    next => rfl

end Flags

end Capybara
