import Capybara.Lib.Wire
import Mathlib.Data.List.GetD

namespace Wire

/-- Addition with the carry added back in. -/
def onesAdd (a b : UInt16) : UInt16 :=
  UInt16.ofNat ((a.toNat + b.toNat) % 2 ^ 16 + (a.toNat + b.toNat) / 2 ^ 16)

def onesSum (ws : List UInt16) : UInt16 := ws.foldl onesAdd 0

/-- The one's complement of the one's complement sum. -/
def internetChecksum (ws : List UInt16) : UInt16 := UInt16.ofNat (0xffff - (onesSum ws).toNat)

/-- The big-endian words; a last odd byte is the high byte of one. -/
def paddedWords : Bytes → List UInt16
  | a :: b :: bytes => ofBe16 a b :: paddedWords bytes
  | [a] => [ofBe16 a 0]
  | [] => []

/-- The string with zeros in the place of the two bytes at `i`. -/
def zeroWordAt (bytes : Bytes) (i : Nat) : Bytes := bytes.take i ++ 0 :: 0 :: bytes.drop (i + 2)

def wordTotal (ws : List UInt16) : Nat := (ws.map UInt16.toNat).sum

/-- The representative of a total modulo `0xffff`; only zero stands for itself. -/
def residue (n : Nat) : Nat := if n = 0 then 0 else (n - 1) % 0xffff + 1

theorem residue_of_pos {n : Nat} (h : 0 < n) : residue n = (n - 1) % 0xffff + 1 := if_neg (by omega)

theorem residue_le (n : Nat) : residue n ≤ 0xffff := by
  unfold residue
  split
  next => omega
  next => omega

theorem residue_of_le {n : Nat} (h : n ≤ 0xffff) : residue n = n := by
  unfold residue
  split
  next => omega
  next => omega

theorem residue_add (m n : Nat) : residue (residue m + n) = residue (m + n) := by
  rcases Nat.eq_zero_or_pos m with rfl | hm
  · rfl
  · have h := residue_of_pos hm
    rw [residue_of_pos (show 0 < residue m + n by omega), residue_of_pos (show 0 < m + n by omega), h]
    omega

theorem residue_sub {n : Nat} (h : 0xffff < n) : residue (n - 0xffff) = residue n := by
  rw [residue_of_pos (show 0 < n - 0xffff by omega), residue_of_pos (show 0 < n by omega)]
  omega

theorem residue_add_carry {n : Nat} (h : 0 < n) : residue (0xffff + n) = residue n := by
  rw [← residue_sub (show 0xffff < 0xffff + n by omega), Nat.add_sub_cancel_left]

/-- A total that is not zero reduces to the largest word exactly when it is a multiple. -/
theorem residue_eq_max_iff {n : Nat} (h : 0 < n) : residue n = 0xffff ↔ n % 0xffff = 0 := by
  rw [residue_of_pos h]
  omega

/-- Two totals reduce to the same word when they differ by a multiple. -/
theorem residue_add_eq_iff {m : Nat} (h : 0 < m) (n : Nat) : residue (m + n) = residue m ↔ n % 0xffff = 0 := by
  rw [residue_of_pos h, residue_of_pos (Nat.add_pos_left h n)]
  omega

theorem toNat_onesAdd (a b : UInt16) : (onesAdd a b).toNat = residue (a.toNat + b.toNat) := by
  have ha := UInt16.toNat_lt a
  have hb := UInt16.toNat_lt b
  rw [onesAdd, UInt16.toNat_ofNat']
  rcases Nat.eq_zero_or_pos (a.toNat + b.toNat) with h | h
  · rw [h]
    rfl
  · rw [residue_of_pos h]
    rcases Nat.lt_or_ge (a.toNat + b.toNat) (2 ^ 16) with hs | hs
    · rw [Nat.div_eq_of_lt hs, Nat.mod_eq_of_lt hs]
      omega
    · have hd : (a.toNat + b.toNat) / 2 ^ 16 = 1 := by omega
      rw [hd]
      omega

theorem wordTotal_append (ws ws' : List UInt16) : wordTotal (ws ++ ws') = wordTotal ws + wordTotal ws' := by
  rw [wordTotal, List.map_append, List.sum_append]
  rfl

theorem wordTotal_le (ws : List UInt16) : wordTotal ws ≤ 0xffff * ws.length := by
  induction ws with
  | nil => exact Nat.le_refl 0
  | cons w ws ih =>
    have hw := UInt16.toNat_lt w
    simp only [wordTotal, List.map_cons, List.sum_cons, List.length_cons] at ih ⊢
    omega

theorem le_wordTotal {ws : List UInt16} {w : UInt16} (h : w ∈ ws) : w.toNat ≤ wordTotal ws := by
  induction ws with
  | nil => cases h
  | cons v ws ih =>
    simp only [wordTotal, List.map_cons, List.sum_cons] at ih ⊢
    rcases List.mem_cons.mp h with rfl | h
    · omega
    · have hle := ih h
      omega

theorem toNat_foldl_onesAdd (ws : List UInt16) (w : UInt16) :
    (ws.foldl onesAdd w).toNat = residue (w.toNat + wordTotal ws) := by
  induction ws generalizing w with
  | nil =>
    have hw := UInt16.toNat_lt w
    exact (residue_of_le (show w.toNat + 0 ≤ 0xffff by omega)).symm
  | cons v ws ih =>
    have hv : wordTotal (v :: ws) = v.toNat + wordTotal ws := by
      simp only [wordTotal, List.map_cons, List.sum_cons]
    rw [List.foldl_cons, ih, toNat_onesAdd, residue_add, hv, Nat.add_assoc]

/-- End-around carries at every addition or one reduction at the end. -/
theorem toNat_onesSum (ws : List UInt16) : (onesSum ws).toNat = residue (wordTotal ws) := by
  rw [onesSum, toNat_foldl_onesAdd]
  congr 1
  exact Nat.zero_add (wordTotal ws)

theorem toNat_internetChecksum (ws : List UInt16) :
    (internetChecksum ws).toNat = 0xffff - residue (wordTotal ws) := by
  rw [internetChecksum, UInt16.toNat_ofNat', toNat_onesSum]
  omega

/-- A receiver that compares with the computed checksum accepts what a receiver that adds everything up accepts,
apart from the second representation of zero. -/
theorem residue_add_eq_max_iff {n : Nat} (c : UInt16) (h : 0 < n) :
    residue (n + c.toNat) = 0xffff ↔ c.toNat = 0xffff - residue n ∨ c.toNat = 0xffff ∧ residue n = 0xffff := by
  have hc := UInt16.toNat_lt c
  rw [residue_eq_max_iff (Nat.add_pos_left h _), residue_of_pos h]
  omega

theorem paddedWords_append {front : Bytes} (h : front.length % 2 = 0) (back : Bytes) :
    paddedWords (front ++ back) = paddedWords front ++ paddedWords back := by
  induction front using paddedWords.induct with
  | case1 a b front ih =>
    have hfront : front.length % 2 = 0 := by
      simp only [List.length_cons] at h
      omega
    simp only [List.cons_append, paddedWords, ih hfront]
  | case2 a => simp at h
  | case3 => rfl

theorem paddedWords_of_even {bytes : Bytes} (h : bytes.length % 2 = 0) : paddedWords bytes = words bytes := by
  induction bytes using paddedWords.induct with
  | case1 a b bytes ih =>
    have hbytes : bytes.length % 2 = 0 := by
      simp only [List.length_cons] at h
      omega
    simp only [paddedWords, words, ih hbytes]
  | case2 a => simp at h
  | case3 => rfl

theorem length_paddedWords_le (bytes : Bytes) : 2 * (paddedWords bytes).length ≤ bytes.length + 1 := by
  induction bytes using paddedWords.induct with
  | case1 a b bytes ih =>
    simp only [paddedWords, List.length_cons]
    omega
  | case2 a => exact Nat.le_refl 2
  | case3 => exact Nat.zero_le 1

theorem wordTotal_replicate (n : Nat) : wordTotal (paddedWords (List.replicate (2 * n) 0xff)) = n * 0xffff := by
  induction n with
  | zero => rfl
  | succ n ih =>
    have hs : List.replicate (2 * (n + 1)) (0xff : UInt8) = 0xff :: 0xff :: List.replicate (2 * n) 0xff := rfl
    have hw : (ofBe16 0xff 0xff).toNat = 0xffff := by decide
    rw [hs, paddedWords]
    simp only [wordTotal, List.map_cons, List.sum_cons, hw] at ih ⊢
    omega

/-- The words of a string that is long enough can be read at their offsets. -/
theorem paddedWords_eq_offsets {bytes : Bytes} (n : Nat) (h : 2 * n ≤ bytes.length) :
    paddedWords bytes = (List.range n).map (fun k => u16At bytes (2 * k)) ++ paddedWords (bytes.drop (2 * n)) := by
  induction n generalizing bytes with
  | zero => rfl
  | succ n ih =>
    cases bytes with
    | nil =>
      simp only [List.length_nil] at h
      omega
    | cons a bytes =>
      cases bytes with
      | nil =>
        simp only [List.length_cons, List.length_nil] at h
        omega
      | cons b bytes =>
        simp only [List.length_cons] at h
        have htail := ih (show 2 * n ≤ bytes.length by omega)
        rw [paddedWords, htail, List.range_succ_eq_map, List.map_cons, List.map_map]
        rfl

theorem u16At_eq_head {bytes : Bytes} {i : Nat} (h : i + 2 ≤ bytes.length) :
    ∃ a b, bytes.drop i = a :: b :: bytes.drop (i + 2) ∧ u16At bytes i = ofBe16 a b := by
  refine ⟨bytes[i], bytes[i + 1], ?_, ?_⟩
  · rw [List.drop_eq_getElem_cons (show i < bytes.length by omega),
      List.drop_eq_getElem_cons (show i + 1 < bytes.length by omega)]
  · rw [u16At, byteAt, byteAt, List.getD_eq_getElem _ _ (show i < bytes.length by omega),
      List.getD_eq_getElem _ _ (show i + 1 < bytes.length by omega)]

/-- What a word contributes to the total. -/
theorem wordTotal_zeroWordAt {bytes : Bytes} {i : Nat} (he : i % 2 = 0) (h : i + 2 ≤ bytes.length) :
    wordTotal (paddedWords bytes) = wordTotal (paddedWords (zeroWordAt bytes i)) + (u16At bytes i).toNat := by
  obtain ⟨a, b, hd, hw⟩ := u16At_eq_head h
  have hl : (bytes.take i).length % 2 = 0 := by
    rw [List.length_take, Nat.min_eq_left (by omega)]
    exact he
  have hz : (ofBe16 0 0).toNat = 0 := by decide
  have hs : paddedWords bytes = paddedWords (bytes.take i) ++ paddedWords (bytes.drop i) := by
    rw [← paddedWords_append hl, List.take_append_drop]
  rw [hs, zeroWordAt, paddedWords_append hl, hd, hw]
  simp only [paddedWords, wordTotal, List.map_append, List.map_cons, List.sum_append, List.sum_cons, hz]
  omega

theorem length_zeroWordAt {bytes : Bytes} {i : Nat} (h : i + 2 ≤ bytes.length) :
    (zeroWordAt bytes i).length = bytes.length := by
  simp only [zeroWordAt, List.length_append, List.length_take, List.length_cons, List.length_drop]
  omega

end Wire
