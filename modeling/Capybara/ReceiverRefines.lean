import Capybara.Lib.Slice
import Capybara.CleanStore
import Capybara.Receive

namespace Capybara

open Slice Reassembly

theorem SeqNumber.lt_atPos_before {isn : SeqNumber} {m n : Nat} (h : n ≤ m + 2 ^ 31) (h' : m < n + 2 ^ 32) :
    (isn.atPos m).lt (isn.atPos n) = true ↔ before m n := by
  rw [lt_iff]
  unfold before
  rcases Nat.lt_or_ge m n with hlt | hge
  · rw [atPos_sub_toNat_of_lt hlt (by omega)]
    omega
  · rw [atPos_sub_toNat hge (by omega)]
    omega

theorem SeqNumber.le_atPos_before {isn : SeqNumber} {m n : Nat} (h : n ≤ m + 2 ^ 31) (h' : m < n + 2 ^ 32) :
    (isn.atPos m).le (isn.atPos n) = true ↔ m = n ∨ before m n := by
  rw [le_iff]
  unfold before
  rcases Nat.lt_or_ge m n with hlt | hge
  · rw [atPos_sub_toNat_of_lt hlt (by omega)]
    omega
  · rw [atPos_sub_toNat hge (by omega)]
    omega

/-- The store entry that holds a range of the stream. -/
def entry (stream : Buffer) (isn : SeqNumber) (r : Range) : SeqNumber × Buffer :=
  (isn.atPos r.1, slice stream r.1 r.2)

def RangePlacement.entries (stream : Buffer) (isn : SeqNumber) : RangePlacement → Placement
  | .duplicate => .duplicate
  | .insertAt actionIndex lo hi => .insertAt actionIndex (isn.atPos lo) (slice stream lo hi)
  | .removeAt actionIndex lo hi => .removeAt actionIndex (isn.atPos lo) (isn.atPos (hi - 1)) (slice stream lo hi)

section

variable {stream : Buffer} {isn : SeqNumber}

theorem findPlace_refines {len bound index lo hi : Nat} {store : List Range} (hb : Bounded bound store)
    (hlt : lo < hi) (hs : bound ≤ stream.length) (hhi : hi ≤ bound) (hclose : ∀ r ∈ store, hi ≤ r.1 + 2 ^ 32)
    (hwin : bound ≤ lo + 2 ^ 31) :
    findPlace len (store.map (entry stream isn)) index (isn.atPos lo) (isn.atPos (hi - 1)) (slice stream lo hi) =
      some ((findRange len store index lo hi).entries stream isn) := by
  induction store generalizing index lo with
  | nil => rfl
  | cons r rest ih =>
    obtain ⟨p, q⟩ := r
    obtain ⟨hp, hpq, hq⟩ := hb (p, q) List.mem_cons_self
    have hc : hi ≤ p + 2 ^ 32 := hclose (p, q) List.mem_cons_self
    have hrest : Bounded bound rest := fun r hr => hb r (List.mem_cons_of_mem _ hr)
    have hcrest : ∀ r ∈ rest, hi ≤ r.1 + 2 ^ 32 := fun r hr => hclose r (List.mem_cons_of_mem _ hr)
    simp only at hp hpq hq
    have hlen : (slice stream p q).length = q - p := length_slice_of_le (by omega) p
    have hnew : (slice stream lo hi).length = hi - lo := length_slice_of_le (by omega) lo
    have hend : isn.atPos p + SeqNumber.ofNat (q - p - 1) = isn.atPos (q - 1) := by
      rw [← SeqNumber.atPos_add]
      congr 1
      omega
    have hfront := @SeqNumber.lt_atPos_before isn lo p (by omega) (by omega)
    have hbehind := @SeqNumber.lt_atPos_before isn (hi - 1) p (by omega) (by omega)
    have hinside := @SeqNumber.le_atPos_before isn (hi - 1) (q - 1) (by omega) (by omega)
    rw [List.map_cons]
    change findPlace len ((isn.atPos p, slice stream p q) :: _) _ _ _ _ = _
    rw [findPlace, hlen, hend, if_neg (by omega), findRange]
    simp only [hfront]
    by_cases h₁ : before lo p
    · simp only [h₁, hbehind, if_true]
      by_cases h₂ : before (hi - 1) p
      · simp only [h₂, if_true, RangePlacement.entries]
      · have hpos : lo < p ∧ p ≤ hi - 1 ∧ hi - 1 < p + 2 ^ 31 := by
          simp only [before] at h₁ h₂
          omega
        have hover := @SeqNumber.lt_atPos_before isn (q - 1) (hi - 1) (by omega) (by omega)
        simp only [h₂, hover, if_false]
        by_cases h₃ : before (q - 1) (hi - 1)
        · simp only [h₃, if_true, RangePlacement.entries]
        · have hex : (isn.atPos (hi - 1) - isn.atPos p).toNat + 1 = hi - p := by
            rw [SeqNumber.atPos_sub_toNat hpos.2.1 (by omega)]
            omega
          have hkeep : hi - lo - (hi - p) = p - lo := by omega
          have htake : (slice stream lo hi).take (p - lo) = slice stream lo p := by
            rw [take_slice (by omega), Nat.add_sub_cancel' (Nat.le_of_lt hpos.1)]
          simp only [h₃, if_false, hex, trim_of_le (show hi - p ≤ (slice stream lo hi).length by omega), hnew, hkeep,
            htake, RangePlacement.entries, Option.bind_eq_bind, Option.bind_some]
    · have hpos : p ≤ lo ∧ lo < p + 2 ^ 31 := by
        simp only [before] at h₁
        omega
      have hshift : (hi - 1 = q - 1 ∨ before (hi - 1) (q - 1)) ↔ (hi = q ∨ before hi q) := by
        simp only [before]
        omega
      have hgap := @SeqNumber.lt_atPos_before isn (q - 1) lo (by omega) (by omega)
      simp only [h₁, hinside, hshift, hgap, if_false]
      by_cases h₂ : hi = q ∨ before hi q
      · simp only [h₂, if_true, RangePlacement.entries]
      · simp only [h₂, if_false]
        by_cases h₃ : before (q - 1) lo
        · simp only [h₃, if_true]
          exact ih hrest hlt hcrest hwin
        · have hpos' : lo ≤ q - 1 ∧ q < hi := by
            simp only [before] at h₂ h₃
            omega
          have hdup : (isn.atPos (q - 1) - isn.atPos lo).toNat = q - 1 - lo :=
            SeqNumber.atPos_sub_toNat hpos'.1 (by omega)
          have hstart : isn.atPos lo + SeqNumber.ofNat (q - 1 - lo) = isn.atPos (q - 1) := by
            rw [← SeqNumber.atPos_add]
            congr 1
            omega
          have hdrop : (slice stream lo hi).drop (q - 1 - lo) = slice stream (q - 1) hi := by
            rw [drop_slice]
            congr 1
            omega
          simp only [h₃, if_false, hdup, hstart, hdrop, Option.bind_eq_bind, Option.bind_some,
            adjust_of_le (show q - 1 - lo ≤ (slice stream lo hi).length by omega)]
          exact ih hrest (by omega) hcrest (by omega)

theorem placeSegment_refines {passes bound lo hi : Nat} {store : List Range} (hb : Bounded bound store)
    (hlt : lo < hi) (hs : bound ≤ stream.length) (hhi : hi ≤ bound) (hclose : ∀ r ∈ store, hi ≤ r.1 + 2 ^ 32)
    (hwin : bound ≤ lo + 2 ^ 31) (hp : store.length < passes) :
    placeSegment passes (store.map (entry stream isn)) (isn.atPos lo) (isn.atPos (hi - 1)) (slice stream lo hi) =
      some ((placeRange passes store lo hi).map (entry stream isn)) := by
  induction passes generalizing store lo hi with
  | zero => omega
  | succ passes ih =>
    have hf := @findPlace_refines stream isn store.length bound 0 lo hi store hb hlt hs hhi hclose hwin
    have hproper := @findRange_proper store.length bound 0 lo hi store hb hlt hclose hwin
    rw [placeSegment, List.length_map, hf, placeRange]
    cases hplace : findRange store.length store 0 lo hi with
    | duplicate => rfl
    | insertAt i lo' hi' =>
      simp only [RangePlacement.entries, Option.bind_eq_bind, Option.bind_some, List.map_take, List.map_insertIdx]
      rfl
    | removeAt i lo' hi' =>
      rw [hplace] at hproper
      obtain ⟨h₁, h₂, rfl, h₃⟩ := hproper
      have hlen : (store.eraseIdx i).length < passes := by
        rw [List.length_eraseIdx_of_lt (by omega)]
        omega
      simp only [RangePlacement.entries, Option.bind_eq_bind, Option.bind_some, List.eraseIdx_map]
      exact ih (fun r hr => hb r (List.mem_of_mem_eraseIdx hr)) h₂ hhi
        (fun r hr => hclose r (List.mem_of_mem_eraseIdx hr)) (by omega) hlen

theorem drainOutOfOrder_refines {bound next : Nat} {store : List Range} {receiver : Receiver} {added : Bool}
    (hb : Bounded bound store) (hs : bound ≤ stream.length) (hnext : bound ≤ next + 2 ^ 32)
    (halias : ∀ r ∈ store, next < r.1 + 2 ^ 32 ∧ bound < r.1 + 2 ^ 32)
    (hr : receiver.receiveNext = isn.atPos next) :
    ∃ receiver' added', drainOutOfOrder (store.map (entry stream isn)) (isn.atPos next) receiver added =
        ((drainRanges store next).1.map (entry stream isn), isn.atPos (drainRanges store next).2, receiver', added') ∧
      receiver'.receiveNext = isn.atPos (drainRanges store next).2 ∧ receiver'.readerNext = receiver.readerNext ∧
      receiver'.recvQueue.flatten = receiver.recvQueue.flatten ++ slice stream next (drainRanges store next).2 := by
  induction store generalizing next receiver added with
  | nil => exact ⟨receiver, added, rfl, hr, rfl, by simp [drainRanges, slice_self]⟩
  | cons r rest ih =>
    obtain ⟨p, q⟩ := r
    obtain ⟨hp, hpq, hq⟩ := hb (p, q) List.mem_cons_self
    obtain ⟨ha, ha'⟩ := halias (p, q) List.mem_cons_self
    simp only at hp hpq hq ha ha'
    have heq := @SeqNumber.atPos_inj isn p next (by omega) ha
    by_cases hn : p = next
    · subst hn
      have hlen : (slice stream p q).length = q - p := length_slice_of_le (by omega) p
      have hend : isn.atPos p + SeqNumber.ofNat (q - p) = isn.atPos q := by
        rw [← SeqNumber.atPos_add, Nat.add_sub_cancel' (Nat.le_of_lt hpq)]
      have hpush : (receiver.push (slice stream p q)).receiveNext = isn.atPos q := by
        simp only [Receiver.push, hr, hlen, hend]
      have hrest : ∀ r ∈ rest, q < r.1 + 2 ^ 32 ∧ bound < r.1 + 2 ^ 32 := by
        intro r hm
        have h := halias r (List.mem_cons_of_mem _ hm)
        omega
      have hb' : Bounded bound rest := fun r hm => hb r (List.mem_cons_of_mem _ hm)
      obtain ⟨receiver', added', h₁, h₂, h₃, h₄⟩ := @ih q (receiver.push (slice stream p q)) true hb' (by omega) hrest hpush
      have hle := (@drainRanges_bounded bound q rest hb').2.1
      refine ⟨receiver', added', ?_, ?_, h₃, ?_⟩
      · change drainOutOfOrder ((isn.atPos p, slice stream p q) :: _) _ _ _ = _
        rw [drainOutOfOrder, if_pos rfl, hlen, hend, h₁, drainRanges, if_pos rfl]
      · rw [drainRanges, if_pos rfl, h₂]
      · rw [drainRanges, if_pos rfl, h₄]
        simp [Receiver.push, ← slice_append stream (Nat.le_of_lt hpq) hle]
    · refine ⟨receiver, added, ?_, ?_, rfl, ?_⟩
      · change drainOutOfOrder ((isn.atPos p, slice stream p q) :: _) _ _ _ = _
        rw [drainOutOfOrder, if_neg (fun h => hn (heq.mp h)), drainRanges, if_neg hn]
        rfl
      · rw [drainRanges, if_neg hn, hr]
      · rw [drainRanges, if_neg hn, slice_self, List.append_nil]

end

end Capybara
