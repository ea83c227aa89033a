import Capybara.Receive

namespace Capybara

namespace ControlBlock

/-- A segment whose length counts its bytes and its SYN and FIN. -/
structure Parsed (s : Incoming) : Prop where
  segLen : s.segLen = s.data.length + s.header.syn.toNat + s.header.fin.toNat
  short : s.data.length < 2 ^ 16
  segEnd : 0 < s.segLen → s.segEnd = s.segStart + SeqNumber.ofNat (s.segLen - 1)

/-- A segment inside the receive window. -/
structure Kept (receiveNext : SeqNumber) (windowSize : Nat) (s : Incoming) : Prop where
  parsed : Parsed s
  start : receiveNext.le s.segStart = true
  inWindow : s.segEnd.lt (receiveNext + SeqNumber.ofNat windowSize) = true

/-- What a zero window takes for a segment beyond it: one at RCV.NXT without length or with a SYN. -/
def ZeroWindowMisfit (receiveNext : SeqNumber) (windowSize : Nat) (header : TcpHeader) (data : Buffer) : Prop :=
  windowSize = 0 ∧ header.seqNum = receiveNext ∧ (header.syn = true ∨ (data = [] ∧ header.fin = false))

instance (receiveNext : SeqNumber) (windowSize : Nat) (header : TcpHeader) (data : Buffer) :
    Decidable (ZeroWindowMisfit receiveNext windowSize header data) :=
  inferInstanceAs (Decidable (_ ∧ _))

variable {receiveNext after : SeqNumber} {windowSize : Nat} {header : TcpHeader} {data : Buffer} {s : Incoming}

theorem incoming_parsed (header : TcpHeader) (hd : data.length < 2 ^ 16) :
    ∃ s, incoming header data = some s ∧ Parsed s ∧ s.header = header ∧ s.data = data ∧ s.segStart = header.seqNum ∧
      (s.segLen = 0 → s.segEnd = s.segStart) := by
  have hmod : data.length % 2 ^ 32 = data.length := Nat.mod_eq_of_lt (by omega)
  have hone : addU32 data.length 1 = some (data.length + 1) := addU32_of_lt (by omega)
  have htwo : addU32 (data.length + 1) 1 = some (data.length + 1 + 1) := addU32_of_lt (by omega)
  have hseg : incoming header data = some ⟨header, data, header.seqNum,
      if data.length + header.syn.toNat + header.fin.toNat > 0 then
        header.seqNum + SeqNumber.ofNat (data.length + header.syn.toNat + header.fin.toNat - 1)
      else header.seqNum,
      data.length + header.syn.toNat + header.fin.toNat⟩ := by
    cases hsyn : header.syn <;> cases hfin : header.fin <;>
      simp only [incoming, hmod, hsyn, hfin, hone, htwo, Bool.false_eq_true, if_true, if_false, Option.bind_eq_bind,
        Option.bind_some, Bool.toNat_true, Bool.toNat_false, Nat.add_zero]
  refine ⟨_, hseg, ⟨rfl, hd, fun hpos => if_pos hpos⟩, rfl, rfl, rfl, fun hzero => if_neg ?_⟩
  simp only at hzero
  omega

/-- The front trimming never fails. What it keeps starts at RCV.NXT, unchanged or without SYN and with some length
left, or starts after RCV.NXT and before the end of the window. -/
theorem trimFront_parsed (hs : Parsed s) (hzero : s.segLen = 0 → s.segEnd = s.segStart) :
    ∃ t, trimFront receiveNext after s = some t ∧ ∀ s', t = some s' → Parsed s' ∧
      ((s' = s ∧ s.segStart = receiveNext) ∨ (s'.segStart = receiveNext ∧ s'.header.syn = false ∧ 0 < s'.segLen) ∨
        (s' = s ∧ s.segStart ≠ receiveNext ∧ s.segStart.lt receiveNext = false ∧ s.segStart.ge after = false)) := by
  have hlen := hs.segLen
  have hshort := hs.short
  have hend := hs.segEnd
  have hsyn := Bool.toNat_le s.header.syn
  have hfin := Bool.toNat_le s.header.fin
  have hn := receiveNext.toNat_lt
  have hst := s.segStart.toNat_lt
  unfold trimFront
  by_cases heq : s.segStart = receiveNext
  · rw [if_pos heq]
    exact ⟨_, rfl, fun s' h => by cases h; exact ⟨hs, .inl ⟨rfl, heq⟩⟩⟩
  · rw [if_neg heq]
    have hne : s.segStart.toNat ≠ receiveNext.toNat := fun h => heq (SeqNumber.toNat_inj.mp h)
    by_cases hbefore : s.segStart.lt receiveNext = true
    · rw [if_pos hbefore]
      by_cases hold : s.segEnd.lt receiveNext = true
      · rw [if_pos hold]
        exact ⟨none, rfl, fun s' h => by cases h⟩
      · rw [if_neg hold]
        have hpos : 0 < s.segLen := by
          by_contra hz
          rw [hzero (by omega)] at hold
          exact hold hbefore
        rw [hend hpos] at hold
        simp only [SeqNumber.lt_iff, SeqNumber.toNat_sub, SeqNumber.toNat_add_ofNat] at hbefore hold
        have hdup : (receiveNext - s.segStart).toNat < s.segLen ∧ 0 < (receiveNext - s.segStart).toNat := by
          rw [SeqNumber.toNat_sub]
          omega
        generalize hd : (receiveNext - s.segStart).toNat = duplicate at hdup
        rw [SeqNumber.toNat_sub] at hd
        have hstart : s.segStart + SeqNumber.ofNat duplicate = receiveNext := by
          apply SeqNumber.toNat_inj.mp
          rw [SeqNumber.toNat_add_ofNat]
          omega
        have hends : s.segEnd = receiveNext + SeqNumber.ofNat (s.segLen - duplicate - 1) := by
          rw [hend hpos, ← hstart]
          apply SeqNumber.toNat_inj.mp
          simp only [SeqNumber.toNat_add_ofNat]
          omega
        dsimp only
        rw [checkedSub_of_le (by omega), hstart]
        by_cases hs₁ : s.header.syn = true
        · rw [hs₁, Bool.toNat_true] at hlen
          simp only [hs₁, if_true, Option.bind_eq_bind, Option.bind_some, checkedSub_of_le (show 1 ≤ duplicate by omega),
            adjust_of_le (show duplicate - 1 ≤ s.data.length by omega)]
          refine ⟨_, rfl, fun s' h => ?_⟩
          cases h
          refine ⟨⟨?_, ?_, fun _ => hends⟩, .inr (.inl ⟨rfl, rfl, ?_⟩)⟩
          · simp only [List.length_drop, Bool.toNat_false]
            omega
          · simp only [List.length_drop]
            omega
          · simp only
            omega
        · have hs₀ : s.header.syn = false := by simpa using hs₁
          rw [hs₀, Bool.toNat_false] at hlen
          simp only [hs₀, Bool.false_eq_true, if_false, Option.bind_eq_bind, Option.bind_some,
            adjust_of_le (show duplicate ≤ s.data.length by omega)]
          refine ⟨_, rfl, fun s' h => ?_⟩
          cases h
          refine ⟨⟨?_, ?_, fun _ => hends⟩, .inr (.inl ⟨rfl, hs₀, ?_⟩)⟩
          · simp only [List.length_drop, hs₀, Bool.toNat_false]
            omega
          · simp only [List.length_drop]
            omega
          · simp only
            omega
    · rw [if_neg hbefore]
      by_cases hbeyond : s.segStart.ge after = true
      · rw [if_pos hbeyond]
        exact ⟨none, rfl, fun s' h => by cases h⟩
      · rw [if_neg hbeyond]
        refine ⟨_, rfl, fun s' h => ?_⟩
        cases h
        exact ⟨hs, .inr (.inr ⟨rfl, heq, by simpa using hbefore, by simpa using hbeyond⟩)⟩

/-- A start at RCV.NXT or inside the window is so many sequence numbers after RCV.NXT. -/
theorem window_offset {start : SeqNumber} (hw : windowSize < 2 ^ 31)
    (hstart : start = receiveNext ∨ (start.lt receiveNext = false ∧
      start.ge (receiveNext + SeqNumber.ofNat windowSize) = false)) :
    ∃ d, start = receiveNext + SeqNumber.ofNat d ∧ (d = 0 ∨ d < windowSize) ∧ receiveNext.le start = true := by
  have hn := receiveNext.toNat_lt
  have hst := start.toNat_lt
  have hself : start = receiveNext + SeqNumber.ofNat (start - receiveNext).toNat := by
    apply SeqNumber.toNat_inj.mp
    simp only [SeqNumber.toNat_add_ofNat, SeqNumber.toNat_sub]
    omega
  refine ⟨(start - receiveNext).toNat, hself, ?_⟩
  rw [SeqNumber.le_iff]
  rcases hstart with heq | ⟨hge, hbelow⟩
  · rw [heq, SeqNumber.toNat_sub]
    omega
  · rw [← Bool.not_eq_true, SeqNumber.lt_iff] at hge
    rw [← Bool.not_eq_true, SeqNumber.ge_iff] at hbelow
    simp only [SeqNumber.toNat_sub, SeqNumber.toNat_add_ofNat] at hge hbelow ⊢
    omega

/-- What the back trimming cuts off a segment that starts `d` after RCV.NXT and ends beyond the window: everything from
the end of the window on. -/
theorem excess_eq {d : Nat} (hs : Parsed s) (hw : windowSize < 2 ^ 31) (hpos : 0 < s.segLen)
    (hd : s.segStart = receiveNext + SeqNumber.ofNat d) (hin : d = 0 ∨ d < windowSize)
    (hge : s.segEnd.ge (receiveNext + SeqNumber.ofNat windowSize) = true) :
    (s.segEnd - (receiveNext + SeqNumber.ofNat windowSize)).toNat + 1 = d + s.segLen - windowSize ∧
      windowSize < d + s.segLen ∧ s.segEnd - SeqNumber.ofNat (d + s.segLen - windowSize) =
        receiveNext + SeqNumber.ofNat windowSize - SeqNumber.ofNat 1 := by
  have hlen := hs.segLen
  have hshort := hs.short
  have hsyn := Bool.toNat_le s.header.syn
  have hfin := Bool.toNat_le s.header.fin
  have hn := receiveNext.toNat_lt
  have hend := hs.segEnd hpos
  rw [hend, hd, SeqNumber.ge_iff] at hge
  simp only [SeqNumber.toNat_sub, SeqNumber.toNat_add_ofNat] at hge
  refine ⟨?_, by omega, ?_⟩
  · rw [hend, hd]
    simp only [SeqNumber.toNat_sub, SeqNumber.toNat_add_ofNat]
    omega
  · rw [hend, hd]
    apply SeqNumber.toNat_inj.mp
    simp only [SeqNumber.toNat_sub, SeqNumber.toNat_add_ofNat, SeqNumber.toNat_ofNat]
    omega

/-- A segment cut off at the end of the window lies in it. -/
theorem kept_of_cut {d : Nat} {t : Incoming} (hd : t.segStart = receiveNext + SeqNumber.ofNat d)
    (hle : receiveNext.le t.segStart = true) (hshort : t.data.length < 2 ^ 16) (hlen : t.segLen = windowSize - d)
    (hcount : t.segLen = t.data.length + t.header.syn.toNat + t.header.fin.toNat)
    (hend : t.segEnd = receiveNext + SeqNumber.ofNat windowSize - SeqNumber.ofNat 1) :
    Kept receiveNext windowSize t := by
  have hn := receiveNext.toNat_lt
  refine ⟨⟨hcount, hshort, fun hpos => ?_⟩, hle, ?_⟩
  · rw [hend, hd, hlen]
    apply SeqNumber.toNat_inj.mp
    simp only [SeqNumber.toNat_sub, SeqNumber.toNat_add_ofNat, SeqNumber.toNat_ofNat]
    omega
  · rw [hend, SeqNumber.lt_iff]
    simp only [SeqNumber.toNat_sub, SeqNumber.toNat_add_ofNat, SeqNumber.toNat_ofNat]
    omega

/-- The back trimming fails only for a SYN at RCV.NXT and a zero window. -/
theorem trimBack_parsed (hs : Parsed s) (hw : windowSize < 2 ^ 31) (hzero : s.segLen = 0 → s.segEnd = s.segStart)
    (hstart : s.segStart = receiveNext ∨ (s.segStart.lt receiveNext = false ∧
      s.segStart.ge (receiveNext + SeqNumber.ofNat windowSize) = false))
    (hfit : windowSize = 0 → s.segStart = receiveNext → s.header.syn = false ∧ 0 < s.segLen) :
    ∃ s', trimBack (receiveNext + SeqNumber.ofNat windowSize) s = some s' ∧ s'.segStart = s.segStart ∧
      Kept receiveNext windowSize s' := by
  have hlen := hs.segLen
  have hshort := hs.short
  have hsyn := Bool.toNat_le s.header.syn
  have hn := receiveNext.toNat_lt
  obtain ⟨d, hd, hin, hle⟩ := window_offset hw hstart
  have hfit' : windowSize = 0 → s.header.syn.toNat = 0 ∧ 0 < s.segLen := by
    intro hz
    have h := hfit hz (by rw [hd, show d = 0 by omega]; exact SeqNumber.toNat_inj.mp (by rw [SeqNumber.toNat_add_ofNat]; omega))
    exact ⟨by rw [h.1]; rfl, h.2⟩
  unfold trimBack
  by_cases hover : s.segLen > 0 ∧ s.segEnd.ge (receiveNext + SeqNumber.ofNat windowSize) = true
  · rw [if_pos hover]
    obtain ⟨hexcess, hlong, hlast⟩ := excess_eq hs hw hover.1 hd hin hover.2
    have hsub : s.segLen - (d + s.segLen - windowSize) = windowSize - d := by omega
    dsimp only
    rw [hexcess, hlast, checkedSub_of_le (by omega), hsub]
    cases hf : s.header.fin with
    | true =>
      rw [hf, Bool.toNat_true] at hlen
      simp only [if_true, Option.bind_eq_bind, Option.bind_some,
        trim_of_le (show d + s.segLen - windowSize - 1 ≤ s.data.length by omega)]
      refine ⟨_, rfl, rfl, kept_of_cut hd hle ?_ rfl ?_ rfl⟩
      · simp only [List.length_take]
        omega
      · simp only [List.length_take, Bool.toNat_false]
        omega
    | false =>
      rw [hf, Bool.toNat_false] at hlen
      simp only [Bool.false_eq_true, if_false, Option.bind_eq_bind, Option.bind_some,
        trim_of_le (show d + s.segLen - windowSize ≤ s.data.length by omega)]
      refine ⟨_, rfl, rfl, kept_of_cut hd hle ?_ rfl ?_ rfl⟩
      · simp only [List.length_take]
        omega
      · simp only [List.length_take, hf, Bool.toNat_false]
        omega
  · rw [if_neg hover]
    refine ⟨s, rfl, rfl, hs, hle, ?_⟩
    by_cases hpos : 0 < s.segLen
    · have hge : ¬s.segEnd.ge (receiveNext + SeqNumber.ofNat windowSize) = true := fun h => hover ⟨hpos, h⟩
      rw [SeqNumber.ge_iff] at hge
      rw [SeqNumber.lt_iff]
      omega
    · rw [hzero (by omega), hd, SeqNumber.lt_iff]
      simp only [SeqNumber.toNat_sub, SeqNumber.toNat_add_ofNat]
      omega

theorem trimToWindow_of_misfit {cb : ControlBlock} (hd : data.length < 2 ^ 16)
    (hw : cb.getReceiveWindowSize = some windowSize)
    (hm : ZeroWindowMisfit cb.receiver.receiveNext windowSize header data) : cb.trimToWindow header data = none := by
  obtain ⟨hzero, hseq, hbad⟩ := hm
  obtain ⟨s, hs, hp, rfl, rfl, hstart, hempty⟩ := incoming_parsed header hd
  have hlen := hp.segLen
  have hn := cb.receiver.receiveNext.toNat_lt
  have hst := s.segStart.toNat_lt
  have hfront : trimFront cb.receiver.receiveNext (cb.receiver.receiveNext + SeqNumber.ofNat windowSize) s =
      some (some s) := by
    rw [trimFront, if_pos (hstart.trans hseq)]
  have hself : cb.receiver.receiveNext + SeqNumber.ofNat windowSize = s.segStart := by
    rw [hstart, hseq, hzero]
    apply SeqNumber.toNat_inj.mp
    rw [SeqNumber.toNat_add_ofNat]
    omega
  simp only [trimToWindow, hs, hw, Option.bind_eq_bind, Option.bind_some, hfront]
  rw [hself]
  by_cases hsyn : s.header.syn = true
  · have hshort := hp.short
    have hbound := Bool.toNat_le s.header.fin
    rw [hsyn, Bool.toNat_true] at hlen
    have hend := hp.segEnd (by omega)
    have hge : s.segEnd.ge s.segStart = true := by
      rw [SeqNumber.ge_iff, hend]
      simp only [SeqNumber.toNat_sub, SeqNumber.toNat_add_ofNat]
      omega
    have hexcess : (s.segEnd - s.segStart).toNat + 1 = s.segLen := by
      rw [hend]
      simp only [SeqNumber.toNat_sub, SeqNumber.toNat_add_ofNat]
      omega
    have hnone : trimBack s.segStart s = none := by
      rw [trimBack, if_pos ⟨by omega, hge⟩]
      dsimp only
      rw [hexcess, checkedSub_of_le (Nat.le_refl _)]
      cases hf : s.header.fin with
      | true =>
        rw [hf, Bool.toNat_true] at hlen
        simp [trim, show s.data.length < s.segLen - 1 by omega]
      | false =>
        rw [hf, Bool.toNat_false] at hlen
        simp [trim, show s.data.length < s.segLen by omega]
    rw [hnone]
    rfl
  · obtain ⟨hdata, hfin⟩ := hbad.resolve_left hsyn
    have hlt : s.segStart.lt s.segStart = false := by
      rw [← Bool.not_eq_true, SeqNumber.lt_iff, SeqNumber.toNat_sub]
      omega
    have hnil : s.segLen = 0 := by simp [hlen, hdata, hfin, hsyn]
    have hkeep : trimBack s.segStart s = some s := by
      rw [trimBack, if_neg (by omega)]
    rw [hkeep]
    simp [debugAssert, hempty hnil, hlt]

/-- The trimming panics exactly for a misfit, and what it keeps lies in the window. -/
theorem trimToWindow_kept {cb : ControlBlock} (hd : data.length < 2 ^ 16)
    (hw : cb.getReceiveWindowSize = some windowSize) (hb : windowSize < 2 ^ 31)
    (hm : ¬ZeroWindowMisfit cb.receiver.receiveNext windowSize header data) :
    ∃ t, cb.trimToWindow header data = some t ∧ ∀ s, t = some s → Kept cb.receiver.receiveNext windowSize s := by
  obtain ⟨s, hs, hp, rfl, rfl, hstart, hempty⟩ := incoming_parsed header hd
  obtain ⟨t, hfront, hcases⟩ := @trimFront_parsed cb.receiver.receiveNext
    (cb.receiver.receiveNext + SeqNumber.ofNat windowSize) s hp hempty
  simp only [trimToWindow, hs, hw, Option.bind_eq_bind, Option.bind_some, hfront]
  cases t with
  | none => exact ⟨none, rfl, fun s' h => by cases h⟩
  | some s₁ =>
    obtain ⟨hp₁, hcase⟩ := hcases s₁ rfl
    have hback : ∃ s₂, trimBack (cb.receiver.receiveNext + SeqNumber.ofNat windowSize) s₁ = some s₂ ∧
        s₂.segStart = s₁.segStart ∧ Kept cb.receiver.receiveNext windowSize s₂ := by
      rcases hcase with ⟨rfl, heq⟩ | ⟨heq, hsyn, hpos⟩ | ⟨rfl, hne, hlt, hge⟩
      · refine trimBack_parsed hp₁ hb hempty (.inl heq) fun hz _ => ?_
        have hlen := hp₁.segLen
        have hfits : ¬(s₁.header.syn = true ∨ (s₁.data = [] ∧ s₁.header.fin = false)) :=
          fun hbad => hm ⟨hz, hstart.symm.trans heq, hbad⟩
        push Not at hfits
        refine ⟨by simpa using hfits.1, ?_⟩
        by_cases hdata : s₁.data = []
        · have hfin : s₁.header.fin = true := by simpa using hfits.2 hdata
          rw [hlen, hfin, Bool.toNat_true]
          omega
        · have hpos := List.length_pos_iff.mpr hdata
          omega
      · exact trimBack_parsed hp₁ hb (fun h => by omega) (.inl heq) fun _ _ => ⟨hsyn, hpos⟩
      · exact trimBack_parsed hp₁ hb hempty (.inr ⟨hlt, hge⟩) fun _ h => absurd h hne
    obtain ⟨s₂, hs₂, -, hkept⟩ := hback
    refine ⟨some s₂, ?_, fun s' h => by cases h; exact hkept⟩
    simp [hs₂, debugAssert, hkept.start, hkept.inWindow]

theorem trimToWindow_parsed {cb : ControlBlock} (hd : data.length < 2 ^ 16) (hb : cb.receiveBufferSize.toNat < 2 ^ 31)
    (hk : cb.trimToWindow header data = some (some s)) : Parsed s := by
  cases hw : cb.getReceiveWindowSize with
  | none => simp [trimToWindow, hw] at hk
  | some windowSize =>
    have hle : windowSize ≤ cb.receiveBufferSize.toNat := by
      obtain ⟨-, hsize⟩ := Option.ite_none_right_eq_some.mp hw
      rw [← Option.some.inj hsize]
      exact Nat.sub_le _ _
    by_cases hm : ZeroWindowMisfit cb.receiver.receiveNext windowSize header data
    · rw [trimToWindow_of_misfit hd hw hm] at hk
      cases hk
    · obtain ⟨t, ht, hkept⟩ := trimToWindow_kept hd hw (by omega) hm
      rw [ht] at hk
      exact (hkept s (Option.some.inj hk)).parsed

end ControlBlock

end Capybara
