import Capybara.ReceiverRefines

namespace Capybara

open Slice Reassembly

/-- A header of a data segment that starts at the given stream position. -/
structure DataHeader (isn : SeqNumber) (header : TcpHeader) (lo : Nat) : Prop where
  seqNum : header.seqNum = isn.atPos lo
  noSyn : header.syn = false
  noFin : header.fin = false
  noRst : header.rst = false

instance (isn : SeqNumber) (header : TcpHeader) (lo : Nat) : Decidable (DataHeader isn header lo) :=
  decidable_of_iff (header.seqNum = isn.atPos lo ∧ header.syn = false ∧ header.fin = false ∧ header.rst = false)
    ⟨fun ⟨h₁, h₂, h₃, h₄⟩ => ⟨h₁, h₂, h₃, h₄⟩, fun h => ⟨h.seqNum, h.noSyn, h.noFin, h.noRst⟩⟩

theorem SeqNumber.sub_one_lt (s : SeqNumber) : (s - SeqNumber.ofNat 1).lt s = true := by
  have hd : s - SeqNumber.ofNat 1 - s = ⟨0 - 1⟩ := by
    apply congrArg SeqNumber.mk
    change s.value - 1 - s.value = 0 - 1
    rw [UInt32.sub_eq_add_neg, UInt32.sub_eq_add_neg, UInt32.sub_eq_add_neg, UInt32.add_assoc,
      UInt32.add_comm (-1), ← UInt32.add_assoc, UInt32.add_right_neg]
  rw [lt_iff, hd]
  decide

theorem SeqNumber.atPos_sub_beyond {isn : SeqNumber} {m k : Nat} :
    isn.atPos (m + k) - SeqNumber.ofNat (k + 1) = isn.atPos m - SeqNumber.ofNat 1 := by
  rw [atPos_add]
  apply congrArg SeqNumber.mk
  change (isn.atPos m).value + UInt32.ofNat k - UInt32.ofNat (k + 1) = (isn.atPos m).value - UInt32.ofNat 1
  rw [UInt32.ofNat_add, UInt32.sub_eq_add_neg, UInt32.neg_add, UInt32.sub_eq_add_neg, UInt32.add_assoc,
    ← UInt32.add_assoc (UInt32.ofNat k), ← UInt32.sub_eq_add_neg (UInt32.ofNat k)]
  simp [UInt32.sub_eq_add_neg]

namespace ControlBlock

section

variable {stream : Buffer} {isn : SeqNumber} {header : TcpHeader} {lo hi next limit : Nat}

/-- The data segment `lo..hi` as `receive` first sees it. -/
def dataSegment (stream : Buffer) (isn : SeqNumber) (header : TcpHeader) (lo hi : Nat) : Incoming :=
  ⟨header, slice stream lo hi, isn.atPos lo, isn.atPos (hi - 1), hi - lo⟩

theorem incoming_data (hh : DataHeader isn header lo) (hlt : lo < hi) (hs : hi ≤ stream.length) (hb : hi < lo + 2 ^ 32) :
    incoming header (slice stream lo hi) = some (dataSegment stream isn header lo hi) := by
  have hlen : (slice stream lo hi).length = hi - lo := length_slice_of_le hs lo
  have hm : (hi - lo) % 2 ^ 32 = hi - lo := Nat.mod_eq_of_lt (by omega)
  have hend : isn.atPos lo + SeqNumber.ofNat (hi - lo - 1) = isn.atPos (hi - 1) := by
    rw [← SeqNumber.atPos_add]
    congr 1
    omega
  have hpos : hi - lo > 0 := by omega
  simp only [incoming, dataSegment, hlen, hm, hh.noSyn, hh.noFin, hh.seqNum, hend, hpos, Bool.false_eq_true, if_false,
    if_true, Option.bind_eq_bind, Option.bind_some]

theorem trimFront_data (hsyn : header.syn = false) (hlt : lo < hi) (hs : hi ≤ stream.length)
    (hback : next < lo + 2 ^ 31) (hahead : hi ≤ next + 2 ^ 31) (hlim : next ≤ limit) (hwin : limit < next + 2 ^ 31) :
    trimFront (isn.atPos next) (isn.atPos limit) (dataSegment stream isn header lo hi) =
      some (if hi ≤ next ∨ next < lo ∧ limit ≤ lo then none
        else some (dataSegment stream isn header (max lo next) hi)) := by
  have hstart := @SeqNumber.atPos_inj isn lo next (by omega) (by omega)
  have hbefore := @SeqNumber.lt_atPos isn lo next (by omega) (by omega)
  have hold := @SeqNumber.lt_atPos isn (hi - 1) next (by omega) (by omega)
  have hbeyond := @SeqNumber.ge_atPos isn lo limit
  rcases Nat.lt_trichotomy lo next with hl | he | hg
  · have hmax : max lo next = next := Nat.max_eq_right (Nat.le_of_lt hl)
    by_cases hz : hi ≤ next
    · simp [trimFront, dataSegment, hstart, hbefore, hold, Nat.ne_of_lt hl, hl, hz, show hi - 1 < next by omega]
    · have hdup : (isn.atPos next - isn.atPos lo).toNat = next - lo :=
        SeqNumber.atPos_sub_toNat (Nat.le_of_lt hl) (by omega)
      have hlen : (slice stream lo hi).length = hi - lo := length_slice_of_le hs lo
      have hadv : isn.atPos lo + SeqNumber.ofNat (next - lo) = isn.atPos next := by
        rw [← SeqNumber.atPos_add, Nat.add_sub_cancel' (Nat.le_of_lt hl)]
      have hdrop : (slice stream lo hi).drop (next - lo) = slice stream next hi := by
        rw [drop_slice, Nat.add_sub_cancel' (Nat.le_of_lt hl)]
      have hsub : hi - lo - (next - lo) = hi - next := by omega
      have hnot : ¬next < lo := by omega
      have hnold : ¬hi - 1 < next := by omega
      simp [trimFront, dataSegment, hstart, hbefore, hold, Nat.ne_of_lt hl, hl, hz, hnot, hnold, hdup, hadv, hmax,
        hsyn, checkedSub_of_le (show next - lo ≤ hi - lo by omega), hsub,
        adjust_of_le (show next - lo ≤ (slice stream lo hi).length by omega), hdrop]
  · subst he
    have hz : ¬hi ≤ lo := by omega
    simp [trimFront, dataSegment, hz]
  · have hmax : max lo next = lo := Nat.max_eq_left (Nat.le_of_lt hg)
    have hz : ¬hi ≤ next := by omega
    have hbeyond' := hbeyond (by omega) (by omega)
    by_cases hw : limit ≤ lo
    · simp [trimFront, dataSegment, hstart, hbefore, Nat.ne_of_gt hg, Nat.lt_asymm hg, hbeyond', hw, hg]
    · simp [trimFront, dataSegment, hstart, hbefore, Nat.ne_of_gt hg, Nat.lt_asymm hg, hbeyond', hw, hz, hmax]

theorem trimBack_data (hf : header.fin = false) (hlt : lo < hi) (hs : hi ≤ stream.length) (hlo : lo ≤ limit)
    (hlim : limit < lo + 2 ^ 31) (hahead : hi ≤ limit + 2 ^ 31) :
    trimBack (isn.atPos limit) (dataSegment stream isn header lo hi) =
      some (if hi ≤ limit then dataSegment stream isn header lo hi
        else ⟨header, slice stream lo limit, isn.atPos lo, isn.atPos limit - SeqNumber.ofNat 1, limit - lo⟩) := by
  have hbeyond := @SeqNumber.ge_atPos isn (hi - 1) limit (by omega) (by omega)
  by_cases hw : hi ≤ limit
  · have hnot : ¬limit ≤ hi - 1 := by omega
    simp [trimBack, dataSegment, hbeyond, hnot, hw]
  · have hlen : (slice stream lo hi).length = hi - lo := length_slice_of_le hs lo
    have hex : (isn.atPos (hi - 1) - isn.atPos limit).toNat + 1 = hi - limit := by
      rw [SeqNumber.atPos_sub_toNat (by omega) (by omega)]
      omega
    have hend : isn.atPos (hi - 1) - SeqNumber.ofNat (hi - limit) = isn.atPos limit - SeqNumber.ofNat 1 := by
      have h := @SeqNumber.atPos_sub_beyond isn limit (hi - 1 - limit)
      rwa [show limit + (hi - 1 - limit) = hi - 1 by omega, show hi - 1 - limit + 1 = hi - limit by omega] at h
    have hsub : hi - lo - (hi - limit) = limit - lo := by omega
    have htake : (slice stream lo hi).take (limit - lo) = slice stream lo limit := by
      rw [take_slice (by omega), Nat.add_sub_cancel' hlo]
    have hpast : limit ≤ hi - 1 := by omega
    simp only [trimBack, dataSegment, hbeyond, hpast, hw, hex, hend, hf, hlen, hsub, htake, and_true,
      show hi - lo > 0 by omega, checkedSub_of_le (show hi - limit ≤ hi - lo by omega),
      trim_of_le (show hi - limit ≤ (slice stream lo hi).length by omega), if_true, if_false, Bool.false_eq_true,
      Option.bind_eq_bind, Option.bind_some]

theorem trimToWindow_data {cb : ControlBlock} (hh : DataHeader isn header lo) (hlt : lo < hi) (hs : hi ≤ stream.length)
    (hback : next < lo + 2 ^ 31) (hahead : hi ≤ next + 2 ^ 31) (hr : cb.receiver.receiveNext = isn.atPos next)
    (hw : cb.getReceiveWindowSize = some (limit - next)) (hlim : next ≤ limit) (hwin : limit < next + 2 ^ 31) :
    (min hi limit ≤ max lo next ∧ (cb.trimToWindow header (slice stream lo hi) = some none ∨
      ∃ s, cb.trimToWindow header (slice stream lo hi) = some (some s) ∧ s.header = header ∧
        s.segStart = isn.atPos next ∧ s.data = [])) ∨
    (max lo next < min hi limit ∧ cb.trimToWindow header (slice stream lo hi) =
      some (some (dataSegment stream isn header (max lo next) (min hi limit)))) := by
  have hafter : isn.atPos next + SeqNumber.ofNat (limit - next) = isn.atPos limit := by
    rw [← SeqNumber.atPos_add, Nat.add_sub_cancel' hlim]
  have hfront := @trimFront_data stream isn header lo hi next limit hh.noSyn hlt hs hback hahead hlim hwin
  have hunfold : cb.trimToWindow header (slice stream lo hi) =
      (if hi ≤ next ∨ next < lo ∧ limit ≤ lo then some none else do
        let s ← trimBack (isn.atPos limit) (dataSegment stream isn header (max lo next) hi)
        debugAssert ((isn.atPos next).le s.segStart && s.segEnd.lt (isn.atPos limit))
        some (some s)) := by
    simp only [trimToWindow, incoming_data hh hlt hs (by omega), hr, hw, hafter, hfront, Option.bind_eq_bind,
      Option.bind_some]
    by_cases hreject : hi ≤ next ∨ next < lo ∧ limit ≤ lo
    · simp only [hreject, if_true]
    · simp only [hreject, if_false]
  by_cases hreject : hi ≤ next ∨ next < lo ∧ limit ≤ lo
  · exact .inl ⟨by omega, .inl (by rw [hunfold, if_pos hreject])⟩
  · have hlo : max lo next ≤ limit := by omega
    have hback' := @trimBack_data stream isn header (max lo next) hi limit hh.noFin (by omega) hs hlo (by omega) (by omega)
    have hle := (@SeqNumber.le_atPos isn next (max lo next) (by omega) (by omega)).mpr (by omega)
    rw [if_neg hreject, hback', Option.bind_eq_bind, Option.bind_some] at hunfold
    by_cases hfits : hi ≤ limit
    · have hend := (@SeqNumber.lt_atPos isn (hi - 1) limit (by omega) (by omega)).mpr (by omega)
      refine .inr ⟨by omega, ?_⟩
      rw [hunfold, if_pos hfits, Nat.min_eq_left hfits]
      simp [dataSegment, hle, hend, debugAssert]
    · have hend := SeqNumber.sub_one_lt (isn.atPos limit)
      rw [if_neg hfits] at hunfold
      simp only [hle, hend, debugAssert, Bool.and_self, if_true, Option.bind_eq_bind, Option.bind_some] at hunfold
      rcases Nat.lt_or_ge (max lo next) limit with hsome | hnone
      · refine .inr ⟨by omega, ?_⟩
        rw [hunfold, Nat.min_eq_right (Nat.le_of_not_le hfits), dataSegment]
        have hlast : isn.atPos limit - SeqNumber.ofNat 1 = isn.atPos (limit - 1) := SeqNumber.atPos_sub (by omega)
        rw [hlast]
      · have hmax : max lo next = next := by omega
        have hlimit : limit = next := by omega
        refine .inl ⟨by omega, .inr ⟨_, hunfold, rfl, by rw [hmax], ?_⟩⟩
        rw [hmax, hlimit, slice_self]

end

end ControlBlock

end Capybara
