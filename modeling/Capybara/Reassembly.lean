import Mathlib.Data.List.Pairwise
import Mathlib.Data.List.InsertIdx
import Capybara.OutOfOrder

namespace Capybara

/-- Stream positions from the first to one past the last. -/
abbrev Range := Nat × Nat

/-- The receiver seen over stream positions: RCV.NXT, the position up to which the application has read, and the
ranges in the out-of-order store. -/
structure Reassembly where
  next : Nat
  popped : Nat
  store : List Range
  deriving DecidableEq, Repr

/-- How the circular comparison of sequence numbers orders two positions. -/
def before (x y : Nat) : Prop := x < y ∨ y + 2 ^ 31 ≤ x

instance (x y : Nat) : Decidable (before x y) := inferInstanceAs (Decidable (_ ∨ _))

inductive RangePlacement
  | duplicate
  | insertAt (actionIndex lo hi : Nat)
  | removeAt (actionIndex lo hi : Nat)
  deriving DecidableEq, Repr

/-- `findPlace` over positions. -/
def findRange (len : Nat) : List Range → Nat → Nat → Nat → RangePlacement
  | [], _, lo, hi => .insertAt len lo hi
  | (p, q) :: rest, index, lo, hi =>
    if before lo p then
      if before (hi - 1) p then .insertAt index lo hi
      else if before (q - 1) (hi - 1) then .removeAt index lo hi
      else .insertAt len lo p
    else if hi = q ∨ before hi q then .duplicate
    else if before (q - 1) lo then findRange len rest (index + 1) lo hi
    else findRange len rest (index + 1) (q - 1) hi

/-- `placeSegment` over positions. -/
def placeRange : Nat → List Range → Nat → Nat → List Range
  | 0, store, _, _ => store
  | passes + 1, store, lo, hi =>
    match findRange store.length store 0 lo hi with
    | .duplicate => store
    | .insertAt actionIndex lo hi => (store.insertIdx actionIndex (lo, hi)).take maxOutOfOrder
    | .removeAt actionIndex lo hi => placeRange passes (store.eraseIdx actionIndex) lo hi

/-- `drainOutOfOrder` over positions. -/
def drainRanges : List Range → Nat → List Range × Nat
  | [], next => ([], next)
  | (p, q) :: rest, next => if p = next then drainRanges rest q else ((p, q) :: rest, next)

namespace Reassembly

/-- Takes in the part of a segment that lies in the window, which ends at `limit`. -/
def accept (r : Reassembly) (limit lo hi : Nat) : Reassembly :=
  if min hi limit ≤ max lo r.next then r
  else if lo ≤ r.next then
    let (store, next) := drainRanges r.store (min hi limit)
    { r with next := next, store := store }
  else { r with store := placeRange (r.store.length + 1) r.store lo (min hi limit) }

@[simp] theorem accept_popped (r : Reassembly) (limit lo hi : Nat) : (r.accept limit lo hi).popped = r.popped := by
  unfold accept
  split
  · rfl
  · split <;> rfl

/-- Whatever overlaps did to the store, its ranges are not empty and end within `bound`. -/
def Bounded (bound : Nat) (store : List Range) : Prop := ∀ r ∈ store, 0 < r.1 ∧ r.1 < r.2 ∧ r.2 ≤ bound

end Reassembly

/-- What is left of the new range `lo..hi` at the end of a pass over the ranges below `size`. -/
def RangePlacement.Proper (lo hi size : Nat) : RangePlacement → Prop
  | .duplicate => True
  | .insertAt _ lo' hi' => lo ≤ lo' ∧ lo' < hi' ∧ hi' ≤ hi
  | .removeAt actionIndex lo' hi' => lo ≤ lo' ∧ lo' < hi' ∧ hi' = hi ∧ actionIndex < size

theorem RangePlacement.Proper.mono {lo lo' hi size size' : Nat} {place : RangePlacement}
    (h : place.Proper lo' hi size) (hlo : lo ≤ lo') (hs : size ≤ size') : place.Proper lo hi size' := by
  cases place with
  | duplicate => trivial
  | insertAt => exact ⟨Nat.le_trans hlo h.1, h.2⟩
  | removeAt => exact ⟨Nat.le_trans hlo h.1, h.2.1, h.2.2.1, Nat.lt_of_lt_of_le h.2.2.2 hs⟩

open Reassembly

theorem findRange_proper {len bound index lo hi : Nat} {store : List Range} (hb : Bounded bound store)
    (hlt : lo < hi) (hclose : ∀ r ∈ store, hi ≤ r.1 + 2 ^ 32) (hwin : bound ≤ lo + 2 ^ 31) :
    (findRange len store index lo hi).Proper lo hi (index + store.length) := by
  induction store generalizing index lo with
  | nil => exact ⟨Nat.le_refl lo, hlt, Nat.le_refl hi⟩
  | cons r rest ih =>
    obtain ⟨p, q⟩ := r
    obtain ⟨hp, hpq, hq⟩ := hb (p, q) List.mem_cons_self
    have hc : hi ≤ p + 2 ^ 32 := hclose (p, q) List.mem_cons_self
    have hrest : Bounded bound rest := fun r hr => hb r (List.mem_cons_of_mem _ hr)
    have hcrest : ∀ r ∈ rest, hi ≤ r.1 + 2 ^ 32 := fun r hr => hclose r (List.mem_cons_of_mem _ hr)
    have hsize : index + 1 + rest.length ≤ index + ((p, q) :: rest).length := by
      rw [List.length_cons]
      omega
    simp only at hp hpq hq
    by_cases hfront : before lo p
    · by_cases hend : before (hi - 1) p
      · rw [findRange, if_pos hfront, if_pos hend]
        exact ⟨Nat.le_refl lo, hlt, Nat.le_refl hi⟩
      · by_cases hover : before (q - 1) (hi - 1)
        · rw [findRange, if_pos hfront, if_neg hend, if_pos hover]
          exact ⟨Nat.le_refl lo, hlt, rfl, by simp⟩
        · rw [findRange, if_pos hfront, if_neg hend, if_neg hover]
          simp only [before] at hfront hend
          exact ⟨Nat.le_refl lo, by omega, by omega⟩
    · by_cases hdup : hi = q ∨ before hi q
      · rw [findRange, if_neg hfront, if_pos hdup]
        trivial
      · by_cases hgap : before (q - 1) lo
        · rw [findRange, if_neg hfront, if_neg hdup, if_pos hgap]
          exact (ih hrest hlt hcrest hwin).mono (Nat.le_refl lo) hsize
        · rw [findRange, if_neg hfront, if_neg hdup, if_neg hgap]
          simp only [before] at hdup hgap
          exact (ih hrest (by omega) hcrest (by omega)).mono (by omega) hsize

/-- Every range in the store was there before or lies within the new one. -/
theorem placeRange_mem {bound passes lo hi : Nat} {store : List Range} (hb : Bounded bound store)
    (hlt : lo < hi) (hclose : ∀ r ∈ store, hi ≤ r.1 + 2 ^ 32) (hwin : bound ≤ lo + 2 ^ 31) :
    ∀ r ∈ placeRange passes store lo hi, r ∈ store ∨ (lo ≤ r.1 ∧ r.1 < r.2 ∧ r.2 ≤ hi) := by
  induction passes generalizing store lo hi with
  | zero => exact fun r hr => .inl hr
  | succ passes ih =>
    have hp := @findRange_proper store.length bound 0 lo hi store hb hlt hclose hwin
    unfold placeRange
    split
    next => exact fun r hr => .inl hr
    next i lo' hi' hf =>
      rw [hf] at hp
      intro r hr
      rcases List.eq_or_mem_of_mem_insertIdx (List.mem_of_mem_take hr) with rfl | hm
      · exact .inr hp
      · exact .inl hm
    next i lo' hi' hf =>
      rw [hf] at hp
      obtain ⟨h₁, h₂, rfl, -⟩ := hp
      intro r hr
      rcases ih (fun r hr => hb r (List.mem_of_mem_eraseIdx hr)) h₂
        (fun r hr => hclose r (List.mem_of_mem_eraseIdx hr)) (by omega) r hr with hm | hnew
      · exact .inl (List.mem_of_mem_eraseIdx hm)
      · exact .inr ⟨by omega, hnew.2⟩

theorem placeRange_bounded {bound passes lo hi : Nat} {store : List Range} (hb : Bounded bound store) (hpos : 0 < lo)
    (hlt : lo < hi) (hhi : hi ≤ bound) (hclose : ∀ r ∈ store, hi ≤ r.1 + 2 ^ 32) (hwin : bound ≤ lo + 2 ^ 31) :
    Bounded bound (placeRange passes store lo hi) := by
  intro r hr
  rcases placeRange_mem hb hlt hclose hwin r hr with hm | hnew
  · exact hb r hm
  · exact ⟨by omega, by omega, by omega⟩

theorem drainRanges_suffix (store : List Range) (next : Nat) : (drainRanges store next).1 <:+ store := by
  induction store generalizing next with
  | nil => exact List.suffix_refl _
  | cons r rest ih =>
    obtain ⟨p, q⟩ := r
    by_cases hn : p = next
    · rw [drainRanges, if_pos hn]
      exact (ih q).trans (List.suffix_cons _ _)
    · rw [drainRanges, if_neg hn]

theorem drainRanges_bounded {bound next : Nat} {store : List Range} (hb : Bounded bound store) :
    Bounded bound (drainRanges store next).1 ∧ next ≤ (drainRanges store next).2 ∧
      ((drainRanges store next).2 = next ∨ (drainRanges store next).2 ≤ bound) := by
  refine ⟨fun r hr => hb r ((drainRanges_suffix store next).subset hr), ?_⟩
  induction store generalizing next with
  | nil => exact ⟨Nat.le_refl _, .inl rfl⟩
  | cons r rest ih =>
    obtain ⟨p, q⟩ := r
    obtain ⟨hp, hpq, hq⟩ := hb (p, q) List.mem_cons_self
    simp only at hpq hq
    by_cases hn : p = next
    · obtain ⟨h₂, h₃⟩ := @ih q fun r hr => hb r (List.mem_cons_of_mem _ hr)
      rw [drainRanges, if_pos hn]
      exact ⟨by omega, .inr (by omega)⟩
    · rw [drainRanges, if_neg hn]
      exact ⟨Nat.le_refl _, .inl rfl⟩

end Capybara
