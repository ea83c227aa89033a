import Capybara.Reassembly

namespace Capybara

/-- Ranges in order, none empty and none overlapping another. -/
structure Ordered (store : List Range) : Prop where
  nonempty : ∀ r ∈ store, r.1 < r.2
  apart : store.Pairwise fun a b => a.2 ≤ b.1

/-- The new range overlaps no stored one, or lies inside one, or reaches beyond it at both ends. -/
def Clean (store : List Range) (lo hi : Nat) : Prop :=
  ∀ r ∈ store, (hi ≤ r.1 ∨ r.2 ≤ lo) ∨ (r.1 ≤ lo ∧ hi ≤ r.2) ∨ (lo < r.1 ∧ r.2 < hi)

/-- There is room for the new range once the ranges it swallows are gone, or it needs none. -/
def HasRoom (store : List Range) (lo hi : Nat) : Prop :=
  (∃ r ∈ store, r.1 ≤ lo ∧ hi ≤ r.2) ∨
    (store.filter fun r => decide ¬(lo < r.1 ∧ r.2 < hi)).length < maxOutOfOrder

/-- All positions in play are less than half the sequence space apart. -/
def Near (store : List Range) (lo hi : Nat) : Prop :=
  ∀ r ∈ store, hi < r.1 + 2 ^ 31 ∧ r.2 < lo + 2 ^ 31

theorem before_iff {x y : Nat} (h : x < y + 2 ^ 31) : before x y ↔ x < y := by
  unfold before
  omega

/-- How a pass over a clean store ends. -/
def RangePlacement.Exact (store : List Range) (index lo hi : Nat) : RangePlacement → Prop
  | .duplicate => ∃ r ∈ store, r.1 ≤ lo ∧ hi ≤ r.2
  | .insertAt actionIndex lo' hi' => lo' = lo ∧ hi' = hi ∧ ∃ front back, store = front ++ back ∧
      actionIndex = index + front.length ∧ (∀ r ∈ front, r.2 ≤ lo) ∧ ∀ r ∈ back, hi ≤ r.1
  | .removeAt actionIndex lo' hi' => lo' = lo ∧ hi' = hi ∧ ∃ front r back, store = front ++ r :: back ∧
      actionIndex = index + front.length ∧ lo < r.1 ∧ r.2 < hi

theorem RangePlacement.Exact.cons {store : List Range} {index lo hi : Nat} {place : RangePlacement} {r : Range}
    (h : place.Exact store (index + 1) lo hi) (hr : r.2 ≤ lo) : place.Exact (r :: store) index lo hi := by
  cases place with
  | duplicate =>
    obtain ⟨r', hm, hin⟩ := h
    exact ⟨r', List.mem_cons_of_mem _ hm, hin⟩
  | insertAt i lo' hi' =>
    obtain ⟨h₁, h₂, front, back, rfl, hi, hf, hb⟩ := h
    refine ⟨h₁, h₂, r :: front, back, rfl, by rw [hi, List.length_cons]; omega, ?_, hb⟩
    intro x hx
    rcases List.mem_cons.mp hx with rfl | hm
    · exact hr
    · exact hf x hm
  | removeAt i lo' hi' =>
    obtain ⟨h₁, h₂, front, x, back, rfl, hi, hx⟩ := h
    exact ⟨h₁, h₂, r :: front, x, back, rfl, by rw [hi, List.length_cons]; omega, hx⟩

theorem findRange_exact {store : List Range} {index lo hi : Nat} (ho : Ordered store) (hc : Clean store lo hi)
    (hn : Near store lo hi) (hlt : lo < hi) :
    (findRange (index + store.length) store index lo hi).Exact store index lo hi := by
  induction store generalizing index with
  | nil => exact ⟨rfl, rfl, [], [], rfl, rfl, by simp, by simp⟩
  | cons r rest ih =>
    obtain ⟨p, q⟩ := r
    have hpq : p < q := ho.nonempty (p, q) List.mem_cons_self
    have hcr := hc (p, q) List.mem_cons_self
    obtain ⟨hn₁, hn₂⟩ := hn (p, q) List.mem_cons_self
    simp only at hcr hn₁ hn₂
    have hrest : Ordered rest :=
      ⟨fun x hx => ho.nonempty x (List.mem_cons_of_mem _ hx), (List.pairwise_cons.mp ho.apart).2⟩
    have hlater : ∀ x ∈ rest, q ≤ x.1 := (List.pairwise_cons.mp ho.apart).1
    have hfront := before_iff (x := lo) (y := p) (by omega)
    have hend := before_iff (x := hi - 1) (y := p) (by omega)
    have hover := before_iff (x := q - 1) (y := hi - 1) (by omega)
    have hshort := before_iff (x := hi) (y := q) (by omega)
    have hgap := before_iff (x := q - 1) (y := lo) (by omega)
    by_cases hlp : lo < p
    · by_cases hhp : hi ≤ p
      · rw [findRange, if_pos (hfront.mpr hlp), if_pos (hend.mpr (by omega))]
        refine ⟨rfl, rfl, [], (p, q) :: rest, rfl, rfl, by simp, ?_⟩
        intro x hx
        rcases List.mem_cons.mp hx with rfl | hm
        · exact hhp
        · have hq := hlater x hm
          omega
      · rw [findRange, if_pos (hfront.mpr hlp), if_neg (fun h => hhp (by have := hend.mp h; omega)),
          if_pos (hover.mpr (by omega))]
        exact ⟨rfl, rfl, [], (p, q), rest, rfl, rfl, hlp, by simp only; omega⟩
    · by_cases hin : hi ≤ q
      · rw [findRange, if_neg (fun h => hlp (hfront.mp h))]
        rw [if_pos (by rcases Nat.lt_or_eq_of_le hin with h | h; exact .inr (hshort.mpr h); exact .inl h)]
        exact ⟨(p, q), List.mem_cons_self, by simp only; omega, hin⟩
      · have hql : q ≤ lo := by omega
        rw [findRange, if_neg (fun h => hlp (hfront.mp h)),
          if_neg (by rintro (h | h); exact hin (by omega); exact hin (by have := hshort.mp h; omega)),
          if_pos (hgap.mpr (by omega))]
        have hlen : index + ((p, q) :: rest).length = index + 1 + rest.length := by
          rw [List.length_cons]
          omega
        rw [hlen]
        exact (ih hrest (fun x hx => hc x (List.mem_cons_of_mem _ hx))
          (fun x hx => hn x (List.mem_cons_of_mem _ hx))).cons hql

theorem Ordered.sublist {store store' : List Range} (h : Ordered store) (hs : store'.Sublist store) :
    Ordered store' :=
  ⟨fun r hr => h.nonempty r (hs.subset hr), h.apart.sublist hs⟩

theorem ordered_insert {front back : List Range} {lo hi : Nat} (h : Ordered (front ++ back)) (hlt : lo < hi)
    (hf : ∀ r ∈ front, r.2 ≤ lo) (hb : ∀ r ∈ back, hi ≤ r.1) : Ordered (front ++ (lo, hi) :: back) := by
  obtain ⟨hfront, hback, hcross⟩ := List.pairwise_append.mp h.apart
  refine ⟨?_, List.pairwise_append.mpr ⟨hfront, List.pairwise_cons.mpr ⟨hb, hback⟩, ?_⟩⟩
  · intro r hr
    rcases List.mem_append.mp hr with hm | hm
    · exact h.nonempty r (List.mem_append_left _ hm)
    · rcases List.mem_cons.mp hm with rfl | hm
      · exact hlt
      · exact h.nonempty r (List.mem_append_right _ hm)
  · intro a ha b hb'
    rcases List.mem_cons.mp hb' with rfl | hm
    · exact hf a ha
    · exact hcross a ha b hm

theorem insertIdx_append_length (front back : List Range) (r : Range) :
    (front ++ back).insertIdx front.length r = front ++ r :: back := by
  induction front with
  | nil => rfl
  | cons a front ih => exact congrArg (List.cons a) ih

theorem eraseIdx_append_length (front back : List Range) (r : Range) :
    (front ++ r :: back).eraseIdx front.length = front ++ back := by
  rw [List.eraseIdx_append_of_length_le (Nat.le_refl _), Nat.sub_self, List.eraseIdx_cons_zero]

/-- The store after a clean range went in is in order and holds nothing but old ranges and the new one. -/
theorem placeRange_ordered {passes lo hi : Nat} {store : List Range} (ho : Ordered store) (hc : Clean store lo hi)
    (hn : Near store lo hi) (hlt : lo < hi) :
    Ordered (placeRange passes store lo hi) ∧ ∀ r ∈ placeRange passes store lo hi, r = (lo, hi) ∨ r ∈ store := by
  induction passes generalizing store with
  | zero => exact ⟨ho, fun r hr => .inr hr⟩
  | succ passes ih =>
    have he := @findRange_exact store 0 lo hi ho hc hn hlt
    rw [Nat.zero_add] at he
    unfold placeRange
    split
    next => exact ⟨ho, fun r hr => .inr hr⟩
    next i lo' hi' hf =>
      rw [hf] at he
      obtain ⟨rfl, rfl, front, back, rfl, rfl, hfront, hback⟩ := he
      rw [Nat.zero_add, insertIdx_append_length]
      refine ⟨(ordered_insert ho hlt hfront hback).sublist (List.take_sublist _ _), ?_⟩
      intro r hr
      have hm := List.mem_of_mem_take hr
      simp only [List.mem_append, List.mem_cons] at hm ⊢
      tauto
    next i lo' hi' hf =>
      rw [hf] at he
      obtain ⟨rfl, rfl, front, x, back, rfl, rfl, -, -⟩ := he
      rw [Nat.zero_add, eraseIdx_append_length]
      have hsub : (front ++ back).Sublist (front ++ x :: back) :=
        List.Sublist.append_left (List.sublist_cons_self x back) front
      obtain ⟨h₁, h₂⟩ := ih (ho.sublist hsub) (fun r hr => hc r (hsub.subset hr)) (fun r hr => hn r (hsub.subset hr))
      exact ⟨h₁, fun r hr => (h₂ r hr).imp_right fun hm => hsub.subset hm⟩

theorem HasRoom.erase {front back : List Range} {x : Range} {lo hi : Nat}
    (h : HasRoom (front ++ x :: back) lo hi) (hlo : lo < x.1) (hhi : x.2 < hi) (hlt : x.1 < x.2) :
    HasRoom (front ++ back) lo hi := by
  rcases h with ⟨r, hm, hin⟩ | hlen
  · refine .inl ⟨r, ?_, hin⟩
    simp only [List.mem_append, List.mem_cons] at hm ⊢
    rcases hm with hm | rfl | hm
    · exact .inl hm
    · omega
    · exact .inr hm
  · refine .inr ?_
    rwa [List.filter_append, List.filter_cons_of_neg (by simp [hlo, hhi]), ← List.filter_append] at hlen

/-- With room for it the new range is stored, and every old range stays or is swallowed by it. -/
theorem placeRange_keeps {passes lo hi : Nat} {store : List Range} (ho : Ordered store) (hc : Clean store lo hi)
    (hn : Near store lo hi) (hlt : lo < hi) (hroom : HasRoom store lo hi) (hp : store.length < passes) :
    (∃ r ∈ placeRange passes store lo hi, r.1 ≤ lo ∧ hi ≤ r.2) ∧
      ∀ r ∈ store, r ∈ placeRange passes store lo hi ∨ (lo < r.1 ∧ r.2 < hi) := by
  induction passes generalizing store with
  | zero => omega
  | succ passes ih =>
    have he := @findRange_exact store 0 lo hi ho hc hn hlt
    rw [Nat.zero_add] at he
    unfold placeRange
    split
    next hf =>
      rw [hf] at he
      exact ⟨he, fun r hr => .inl hr⟩
    next i lo' hi' hf =>
      rw [hf] at he
      obtain ⟨rfl, rfl, front, back, rfl, rfl, hfront, hback⟩ := he
      have hnone : ∀ r ∈ front ++ back, ¬(lo' < r.1 ∧ r.2 < hi') ∧ ¬(r.1 ≤ lo' ∧ hi' ≤ r.2) := by
        intro r hr
        have hne := ho.nonempty r hr
        rcases List.mem_append.mp hr with hm | hm
        · have hb := hfront r hm
          omega
        · have hb := hback r hm
          omega
      have hlen : (front ++ back).length < maxOutOfOrder := by
        rcases hroom with ⟨r, hm, hin⟩ | hlen
        · exact absurd hin (hnone r hm).2
        · rwa [List.filter_eq_self.mpr fun r hr => decide_eq_true (hnone r hr).1] at hlen
      have htake : (front ++ (lo', hi') :: back).take maxOutOfOrder = front ++ (lo', hi') :: back := by
        apply List.take_of_length_le
        simp only [List.length_append, List.length_cons] at hlen ⊢
        omega
      rw [Nat.zero_add, insertIdx_append_length, htake]
      refine ⟨⟨(lo', hi'), by simp, Nat.le_refl _, Nat.le_refl _⟩, ?_⟩
      intro r hr
      simp only [List.mem_append, List.mem_cons] at hr ⊢
      tauto
    next i lo' hi' hf =>
      rw [hf] at he
      obtain ⟨rfl, rfl, front, x, back, rfl, rfl, hlo, hhi⟩ := he
      rw [Nat.zero_add, eraseIdx_append_length]
      have hsub : (front ++ back).Sublist (front ++ x :: back) :=
        List.Sublist.append_left (List.sublist_cons_self x back) front
      obtain ⟨h₁, h₂⟩ := ih (ho.sublist hsub) (fun r hr => hc r (hsub.subset hr)) (fun r hr => hn r (hsub.subset hr))
        (hroom.erase hlo hhi (ho.nonempty x (by simp)))
        (by simp only [List.length_append, List.length_cons] at hp ⊢; omega)
      refine ⟨h₁, ?_⟩
      intro r hr
      simp only [List.mem_append, List.mem_cons] at hr
      rcases hr with hm | rfl | hm
      · exact h₂ r (List.mem_append_left _ hm)
      · exact .inr ⟨hlo, hhi⟩
      · exact h₂ r (List.mem_append_right _ hm)

/-- Draining an ordered store from a position that none of its ranges lies before. -/
theorem drainRanges_ordered {store : List Range} {next : Nat} (ho : Ordered store) (hb : ∀ r ∈ store, next ≤ r.1) :
    Ordered (drainRanges store next).1 ∧ (∀ r ∈ (drainRanges store next).1, r ∈ store ∧ (drainRanges store next).2 < r.1) ∧
      next ≤ (drainRanges store next).2 ∧
      ∀ r ∈ store, r ∈ (drainRanges store next).1 ∨ r.2 ≤ (drainRanges store next).2 := by
  induction store generalizing next with
  | nil => exact ⟨ho, by simp [drainRanges], Nat.le_refl _, by simp⟩
  | cons r rest ih =>
    obtain ⟨p, q⟩ := r
    have hpq : p < q := ho.nonempty (p, q) List.mem_cons_self
    have hnp : next ≤ p := hb (p, q) List.mem_cons_self
    have hlater : ∀ x ∈ rest, q ≤ x.1 := (List.pairwise_cons.mp ho.apart).1
    by_cases he : p = next
    · obtain ⟨h₁, h₂, h₃, h₄⟩ := ih (ho.sublist (List.sublist_cons_self _ _)) hlater
      rw [drainRanges, if_pos he]
      refine ⟨h₁, fun r hr => ⟨List.mem_cons_of_mem _ (h₂ r hr).1, (h₂ r hr).2⟩, by omega, ?_⟩
      intro r hr
      rcases List.mem_cons.mp hr with rfl | hm
      · exact .inr h₃
      · exact h₄ r hm
    · rw [drainRanges, if_neg he]
      refine ⟨ho, ?_, Nat.le_refl _, fun r hr => .inl hr⟩
      intro r hr
      refine ⟨hr, ?_⟩
      rcases List.mem_cons.mp hr with rfl | hm
      · exact Nat.lt_of_le_of_ne hnp (Ne.symm he)
      · have hq := hlater r hm
        omega

/-- The bytes that a list of ranges holds. -/
def Holds (store : List Range) (b : Nat) : Prop := ∃ r ∈ store, r.1 ≤ b ∧ b < r.2

theorem holds_append (store store' : List Range) (b : Nat) : Holds (store ++ store') b ↔ Holds store b ∨ Holds store' b := by
  simp [Holds, or_and_right, exists_or]

@[simp] theorem holds_singleton (r : Range) (b : Nat) : Holds [r] b ↔ r.1 ≤ b ∧ b < r.2 := by
  simp [Holds]

theorem placeRange_holds {passes lo hi b : Nat} {store : List Range} (ho : Ordered store) (hc : Clean store lo hi)
    (hn : Near store lo hi) (hlt : lo < hi) (hroom : HasRoom store lo hi) (hp : store.length < passes) :
    Holds (placeRange passes store lo hi) b ↔ Holds store b ∨ (lo ≤ b ∧ b < hi) := by
  obtain ⟨-, hmem⟩ := @placeRange_ordered passes lo hi store ho hc hn hlt
  obtain ⟨⟨y, hy, hy₁, hy₂⟩, hkept⟩ := placeRange_keeps ho hc hn hlt hroom hp
  constructor
  · rintro ⟨r, hr, hb⟩
    rcases hmem r hr with rfl | hold
    · exact .inr hb
    · exact .inl ⟨r, hold, hb⟩
  · rintro (⟨r, hr, hb⟩ | hb)
    · rcases hkept r hr with hstays | hgone
      · exact ⟨r, hstays, hb⟩
      · exact ⟨y, hy, by omega⟩
    · exact ⟨y, hy, by omega⟩

theorem drainRanges_holds {next b : Nat} {store : List Range} (ho : Ordered store) (hb : ∀ r ∈ store, next ≤ r.1) :
    Holds (drainRanges store next).1 b ↔ (drainRanges store next).2 ≤ b ∧ Holds store b := by
  obtain ⟨-, hmem, -, hkept⟩ := drainRanges_ordered ho hb
  constructor
  · rintro ⟨r, hr, hlo, hhi⟩
    obtain ⟨hold, hahead⟩ := hmem r hr
    exact ⟨by omega, r, hold, hlo, hhi⟩
  · rintro ⟨hdone, r, hr, hlo, hhi⟩
    rcases hkept r hr with hstays | hgone
    · exact ⟨r, hstays, hlo, hhi⟩
    · omega

end Capybara
