import Capybara.Lib.Wire

namespace Wire

/-- The sum of the big-endian words; a last odd byte counts as the high byte of one. -/
def wordSum : Bytes → UInt16
  | a :: b :: bytes => ofBe16 a b + wordSum bytes
  | [a] => ofBe16 a 0
  | [] => 0

/-- Two strings of one length that differ in the bytes of the aligned word number `k` and nowhere else. -/
structure ChangesWord (k : Nat) (bytes bytes' : Bytes) : Prop where
  length : bytes'.length = bytes.length
  same : ∀ i, i / 2 ≠ k → bytes'[i]? = bytes[i]?
  ne : bytes' ≠ bytes

theorem ofBe16_inj {a b a' b' : UInt8} (h : ofBe16 a b = ofBe16 a' b') : a = a' ∧ b = b' := by
  have hn := congrArg UInt16.toNat h
  have ha := UInt8.toNat_lt a
  have hb := UInt8.toNat_lt b
  have ha' := UInt8.toNat_lt a'
  have hb' := UInt8.toNat_lt b'
  simp only [ofBe16, UInt16.toNat_ofNat'] at hn
  exact ⟨UInt8.toNat_inj.mp (by omega), UInt8.toNat_inj.mp (by omega)⟩

theorem wordSum_append {front : Bytes} (h : front.length % 2 = 0) (back : Bytes) :
    wordSum (front ++ back) = wordSum front + wordSum back := by
  induction front using wordSum.induct with
  | case1 a b front ih =>
    have hfront : front.length % 2 = 0 := by
      simp only [List.length_cons] at h
      omega
    simp only [List.cons_append, wordSum, ih hfront, add_assoc]
  | case2 a => simp at h
  | case3 => simp [wordSum]

theorem sum_words_of_even {bytes : Bytes} (h : bytes.length % 2 = 0) : (words bytes).sum = wordSum bytes := by
  induction bytes using wordSum.induct with
  | case1 a b bytes ih =>
    have hbytes : bytes.length % 2 = 0 := by
      simp only [List.length_cons] at h
      omega
    simp only [words, List.sum_cons, wordSum, ih hbytes]
  | case2 a => simp at h
  | case3 => rfl

/-- The remainder of the chunks, filled up with a zero byte, makes the sum whole. -/
theorem sum_words_padded (bytes : Bytes) :
    (words bytes).sum + (words (if bytes.length % 2 = 0 then [0, 0] else [bytes.getLastD 0, 0])).sum =
      wordSum bytes := by
  induction bytes using wordSum.induct with
  | case1 a b bytes ih =>
    have hpad : (if (a :: b :: bytes).length % 2 = 0 then [0, 0] else [(a :: b :: bytes).getLastD 0, 0]) =
        if bytes.length % 2 = 0 then [0, 0] else [bytes.getLastD 0, (0 : UInt8)] := by
      have hparity : (a :: b :: bytes).length % 2 = bytes.length % 2 := by
        simp only [List.length_cons]
        omega
      rw [hparity]
      split
      next => rfl
      next hodd =>
        cases bytes with
        | nil => exact absurd rfl hodd
        | cons c bytes => rfl
    rw [hpad]
    simp only [words, List.sum_cons, wordSum, add_assoc, ih]
  | case2 a => simp [words, wordSum]
  | case3 => decide

theorem ChangesWord.tail {k : Nat} {a b a' b' : UInt8} {bytes bytes' : Bytes}
    (h : ChangesWord (k + 1) (a :: b :: bytes) (a' :: b' :: bytes')) :
    a' = a ∧ b' = b ∧ ChangesWord k bytes bytes' := by
  have ha : a' = a := Option.some.inj (h.same 0 (by omega))
  have hb : b' = b := Option.some.inj (h.same 1 (by omega))
  refine ⟨ha, hb, Nat.succ.inj (Nat.succ.inj h.length), fun i hi => h.same (i + 2) (by omega), fun heq => ?_⟩
  exact h.ne (by rw [ha, hb, heq])

/-- A change of one word changes the sum. -/
theorem ChangesWord.wordSum_ne {k : Nat} {bytes bytes' : Bytes} (h : ChangesWord k bytes bytes') :
    wordSum bytes' ≠ wordSum bytes := by
  induction bytes using wordSum.induct generalizing k bytes' with
  | case1 a b bytes ih =>
    obtain ⟨a', b', rest', rfl⟩ : ∃ a' b' rest', bytes' = a' :: b' :: rest' := by
      have hlength := h.length
      cases bytes' with
      | nil => cases hlength
      | cons a' bytes' =>
        cases bytes' with
        | nil => cases hlength
        | cons b' rest' => exact ⟨a', b', rest', rfl⟩
    cases k with
    | zero =>
      have hrest : rest' = bytes := by
        apply List.ext_getElem?
        intro i
        exact h.same (i + 2) (by omega)
      subst hrest
      intro hsum
      obtain ⟨ha, hb⟩ := ofBe16_inj (add_right_cancel hsum)
      exact h.ne (by rw [ha, hb])
    | succ k =>
      obtain ⟨rfl, rfl, hrest⟩ := h.tail
      intro hsum
      exact ih hrest (add_left_cancel hsum)
  | case2 a =>
    obtain ⟨a', rfl⟩ := List.length_eq_one_iff.mp h.length
    intro hsum
    obtain ⟨ha, -⟩ := ofBe16_inj hsum
    exact h.ne (by rw [ha])
  | case3 => exact absurd (List.length_eq_zero_iff.mp h.length) h.ne

theorem ChangesWord.take {k n : Nat} {bytes bytes' : Bytes} (h : ChangesWord k bytes bytes') (hk : k < n) :
    ChangesWord k (bytes.take (2 * n)) (bytes'.take (2 * n)) := by
  refine ⟨?_, fun i hi => ?_, fun heq => h.ne ?_⟩
  · rw [List.length_take, List.length_take, h.length]
  · rw [List.getElem?_take, List.getElem?_take, h.same i hi]
  · apply List.ext_getElem?
    intro i
    by_cases hi : i / 2 = k
    · have hget := congrArg (fun l => l[i]?) heq
      simp only [List.getElem?_take, if_pos (show i < 2 * n by omega)] at hget
      exact hget
    · exact h.same i hi

theorem ChangesWord.drop {k n : Nat} {bytes bytes' : Bytes} (h : ChangesWord (n + k) bytes bytes') :
    ChangesWord k (bytes.drop (2 * n)) (bytes'.drop (2 * n)) := by
  refine ⟨?_, fun i hi => ?_, fun heq => h.ne ?_⟩
  · rw [List.length_drop, List.length_drop, h.length]
  · rw [List.getElem?_drop, List.getElem?_drop]
    exact h.same (2 * n + i) (by omega)
  · apply List.ext_getElem?
    intro i
    by_cases hi : i / 2 = n + k
    · have hget := congrArg (fun l => l[i - 2 * n]?) heq
      simp only [List.getElem?_drop, show 2 * n + (i - 2 * n) = i by omega] at hget
      exact hget
    · exact h.same i hi

theorem ChangesWord.take_eq {k n : Nat} {bytes bytes' : Bytes} (h : ChangesWord k bytes bytes') (hk : n ≤ k) :
    bytes'.take (2 * n) = bytes.take (2 * n) := by
  apply List.ext_getElem?
  intro i
  rw [List.getElem?_take, List.getElem?_take]
  split
  next hi => exact h.same i (by omega)
  next => rfl

theorem ChangesWord.drop_eq {k n : Nat} {bytes bytes' : Bytes} (h : ChangesWord k bytes bytes') (hk : k < n) :
    bytes'.drop (2 * n) = bytes.drop (2 * n) := by
  apply List.ext_getElem?
  intro i
  rw [List.getElem?_drop, List.getElem?_drop]
  exact h.same (2 * n + i) (by omega)

end Wire
