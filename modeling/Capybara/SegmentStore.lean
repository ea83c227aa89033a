import Capybara.InFlight

namespace Capybara

open ControlBlock

/-- The text of a segment, not empty and no longer than an IP packet can hold. -/
def SegmentText (buf : Buffer) : Prop := 0 < buf.length ∧ buf.length < 2 ^ 16

/-- What a pass over the store leaves of a segment. -/
def Placement.Shaped (size : Nat) : Placement → Prop
  | .duplicate => True
  | .insertAt _ _ buf => SegmentText buf
  | .removeAt actionIndex newStart newEnd buf => actionIndex < size ∧ SegmentText buf ∧
      newEnd = newStart + SeqNumber.ofNat (buf.length - 1)

theorem Placement.Shaped.mono {place : Placement} {size size' : Nat} (h : place.Shaped size) (hs : size ≤ size') :
    place.Shaped size' := by
  cases place with
  | duplicate => trivial
  | insertAt => exact h
  | removeAt => exact ⟨Nat.lt_of_lt_of_le h.1 hs, h.2⟩

/-- A pass over a store of segments never fails. -/
theorem findPlace_shaped {store : List (SeqNumber × Buffer)} {len index : Nat} {newStart newEnd : SeqNumber} {buf : Buffer}
    (hstore : ∀ x ∈ store, SegmentText x.2) (hbuf : SegmentText buf)
    (hend : newEnd = newStart + SeqNumber.ofNat (buf.length - 1)) :
    ∃ place, findPlace len store index newStart newEnd buf = some place ∧ place.Shaped (index + store.length) := by
  induction store generalizing index newStart newEnd buf with
  | nil => exact ⟨_, rfl, hbuf⟩
  | cons segment rest ih =>
    obtain ⟨storedStart, stored⟩ := segment
    obtain ⟨hpos, hshort⟩ := hstore _ List.mem_cons_self
    obtain ⟨hbpos, hbshort⟩ := hbuf
    have hrest : ∀ x ∈ rest, SegmentText x.2 := fun x hx => hstore x (List.mem_cons_of_mem _ hx)
    have hn := newStart.toNat_lt
    have hst := storedStart.toNat_lt
    have hsize : index + 1 + rest.length ≤ index + ((storedStart, stored) :: rest).length := by
      rw [List.length_cons]
      omega
    simp only at hpos hshort
    rw [findPlace, if_neg (by omega)]
    dsimp only
    split
    next hfront =>
      split
      next => exact ⟨_, rfl, hbpos, hbshort⟩
      next hbehind =>
        split
        next =>
          refine ⟨_, rfl, ?_, ⟨hbpos, hbshort⟩, hend⟩
          rw [List.length_cons]
          omega
        next =>
          rw [SeqNumber.lt_iff] at hfront hbehind
          rw [hend] at hbehind
          simp only [SeqNumber.toNat_sub, SeqNumber.toNat_add_ofNat] at hfront hbehind
          have hexcess : (newEnd - storedStart).toNat + 1 < buf.length := by
            rw [hend]
            simp only [SeqNumber.toNat_sub, SeqNumber.toNat_add_ofNat]
            omega
          rw [trim_of_le (by omega)]
          refine ⟨_, rfl, ?_, ?_⟩
          · simp only [List.length_take]
            omega
          · simp only [List.length_take]
            omega
    next hfront =>
      split
      next => exact ⟨_, rfl, trivial⟩
      next hinside =>
        split
        next =>
          obtain ⟨place, hplace, hshaped⟩ := ih hrest ⟨hbpos, hbshort⟩ hend
          exact ⟨place, hplace, hshaped.mono hsize⟩
        next hgap =>
          rw [SeqNumber.lt_iff] at hfront hgap
          rw [SeqNumber.le_iff, hend] at hinside
          simp only [SeqNumber.toNat_sub, SeqNumber.toNat_add_ofNat] at hfront hinside hgap
          have hdup : (storedStart + SeqNumber.ofNat (stored.length - 1) - newStart).toNat < buf.length := by
            simp only [SeqNumber.toNat_sub, SeqNumber.toNat_add_ofNat]
            omega
          rw [adjust_of_le (by omega)]
          generalize (storedStart + SeqNumber.ofNat (stored.length - 1) - newStart).toNat = duplicate at hdup
          have hlen : (buf.drop duplicate).length = buf.length - duplicate := List.length_drop
          obtain ⟨place, hplace, hshaped⟩ := @ih (index + 1) (newStart + SeqNumber.ofNat duplicate) newEnd
            (buf.drop duplicate) hrest ⟨by omega, by omega⟩ (by
              rw [hend, hlen, SeqNumber.add_ofNat_add]
              congr 2
              omega)
          exact ⟨place, hplace, hshaped.mono hsize⟩

/-- Storing a segment never fails and keeps a store of segments. -/
theorem placeSegment_shaped {passes : Nat} {store : List (SeqNumber × Buffer)} {newStart newEnd : SeqNumber}
    {buf : Buffer} (hstore : ∀ x ∈ store, SegmentText x.2) (hbuf : SegmentText buf)
    (hend : newEnd = newStart + SeqNumber.ofNat (buf.length - 1)) (hp : store.length < passes) :
    ∃ store', placeSegment passes store newStart newEnd buf = some store' ∧ ∀ x ∈ store', SegmentText x.2 := by
  induction passes generalizing store newStart newEnd buf with
  | zero => omega
  | succ passes ih =>
    obtain ⟨place, hplace, hshaped⟩ := @findPlace_shaped store store.length 0 newStart newEnd buf hstore hbuf hend
    rw [placeSegment, hplace, Option.bind_eq_bind, Option.bind_some]
    cases place with
    | duplicate => exact ⟨store, rfl, hstore⟩
    | insertAt actionIndex newStart' buf' =>
      refine ⟨_, rfl, fun x hx => ?_⟩
      rcases List.eq_or_mem_of_mem_insertIdx (List.mem_of_mem_take hx) with rfl | hm
      · exact hshaped
      · exact hstore x hm
    | removeAt actionIndex newStart' newEnd' buf' =>
      obtain ⟨hlt, hbuf', hend'⟩ := hshaped
      apply ih (fun x hx => hstore x (List.mem_of_mem_eraseIdx hx)) hbuf' hend'
      rw [List.length_eraseIdx_of_lt (by omega)]
      omega

end Capybara
