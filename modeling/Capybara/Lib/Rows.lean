import Capybara.Lib.Pieces
import Mathlib.Data.List.Nodup
import Mathlib.Data.List.Perm.Basic
import Mathlib.Logic.Function.Basic

namespace Rows

open Pieces

variable {α : Type}

/-- `Vec::swap_remove`. -/
def swapRemove (l : List α) (i : Nat) : Option (α × List α) :=
  match l[i]?, l.getLast? with
  | some a, some last => some (a, (l.set i last).dropLast)
  | _, _ => none

theorem swapRemove_of_lt {l : List α} {i : Nat} (h : i < l.length) :
    ∃ last, l[l.length - 1]? = some last ∧ swapRemove l i = some (l[i], (l.set i last).dropLast) := by
  have hlast : l[l.length - 1]? = some l[l.length - 1] := List.getElem?_eq_getElem (by omega)
  refine ⟨l[l.length - 1], hlast, ?_⟩
  simp [swapRemove, List.getLast?_eq_getElem?, hlast, h]

theorem length_swapRemove {l rest : List α} {i : Nat} {a : α} (h : swapRemove l i = some (a, rest)) :
    i < l.length ∧ rest.length + 1 = l.length := by
  unfold swapRemove at h
  split at h
  next b last hb _ =>
    obtain ⟨hi, -⟩ := List.getElem?_eq_some_iff.mp hb
    cases Option.some.inj h
    simp only [List.length_dropLast, List.length_set]
    omega
  next => cases h

theorem getElem?_swapRemove {l rest : List α} {i : Nat} {a : α} (h : swapRemove l i = some (a, rest)) (j : Nat) :
    rest[j]? = if rest.length ≤ j then none else if j = i then l[rest.length]? else l[j]? := by
  obtain ⟨hi, hl⟩ := length_swapRemove h
  obtain ⟨last, hlast, hs⟩ := swapRemove_of_lt hi
  obtain ⟨-, rfl⟩ := Prod.mk.inj (Option.some.inj (hs.symm.trans h))
  simp only [List.length_dropLast, List.length_set] at hl ⊢
  rw [List.getElem?_dropLast, List.length_set]
  by_cases hj : j < l.length - 1
  · rw [if_pos hj, if_neg (by omega)]
    by_cases hji : j = i
    · subst j
      rw [List.getElem?_set_self hi, if_pos rfl, hlast]
    · rw [List.getElem?_set_ne (Ne.symm hji), if_neg hji]
  · rw [if_neg hj, if_pos (by omega)]

theorem swapRemove_perm {l rest : List α} {i : Nat} {a : α} (h : swapRemove l i = some (a, rest)) :
    l.Perm (a :: rest) := by
  obtain ⟨hi, -⟩ := length_swapRemove h
  obtain ⟨last, hlast, hs⟩ := swapRemove_of_lt hi
  obtain ⟨rfl, rfl⟩ := Prod.mk.inj (Option.some.inj (hs.symm.trans h))
  rcases List.eq_nil_or_concat' l with rfl | ⟨init, z, rfl⟩
  · simp at hi
  · obtain rfl : z = last := by simpa using hlast
    simp only [List.length_append, List.length_singleton] at hi
    rcases Nat.lt_succ_iff_lt_or_eq.mp hi with hlt | rfl
    · rw [List.set_append_left _ _ hlt, List.dropLast_concat, List.getElem_append_left hlt]
      have hset := (List.set_perm_cons_eraseIdx hlt z).symm
      have hget := (List.getElem_cons_eraseIdx_perm hlt).symm
      calc
        List.Perm (init ++ [z]) (z :: init) := List.perm_append_singleton z init
        List.Perm _ (z :: init[i] :: init.eraseIdx i) := hget.cons z
        List.Perm _ (init[i] :: z :: init.eraseIdx i) := .swap _ _ _
        List.Perm _ (init[i] :: init.set i z) := hset.cons _
    · simp

/-- The element at place `j` of row `i`. -/
def look (rows : List (List α)) (i j : Nat) : Option α := (rows.getD i [])[j]?

/-- Appends to a row, which is added where there is none yet. -/
def push (rows : List (List α)) (i : Nat) (a : α) : List (List α) := store [] rows i (rows.getD i [] ++ [a])

def remove (rows : List (List α)) (i j : Nat) : Option (α × List (List α)) :=
  (swapRemove (rows.getD i []) j).map fun (a, row) => (a, rows.set i row)

theorem look_push (rows : List (List α)) (i : Nat) (a : α) (k j : Nat) :
    look (push rows i a) k j = if k = i ∧ j = (rows.getD i []).length then some a else look rows k j := by
  unfold look push
  rw [getD_store]
  by_cases hk : k = i
  · subst k
    simp only [if_true, true_and]
    by_cases hj : j = (rows.getD i []).length
    · subst j
      simp
    · rw [if_neg hj, List.getElem?_append]
      split
      next => rfl
      next hlt =>
        rw [List.getElem?_eq_none (by simp only [List.length_singleton]; omega), List.getElem?_eq_none (by omega)]
  · simp [hk]

theorem look_remove {rows rows' : List (List α)} {i j : Nat} {a : α} (h : remove rows i j = some (a, rows'))
    (k m : Nat) : look rows' k m =
      if k = i then
        if (rows'.getD i []).length ≤ m then none
        else if m = j then look rows i (rows'.getD i []).length else look rows i m
      else look rows k m := by
  obtain ⟨⟨b, row⟩, hs, he⟩ := Option.map_eq_some_iff.mp h
  cases he
  have hi : i < rows.length := by
    by_contra hn
    rw [List.getD_eq_default _ _ (by omega)] at hs
    cases hs
  unfold look
  by_cases hk : k = i
  · subst k
    have hrow : (rows.set i row).getD i [] = row := by simp [hi]
    rw [if_pos rfl, hrow]
    exact getElem?_swapRemove hs m
  · rw [if_neg hk, List.getD_eq_getElem?_getD, List.getElem?_set_ne (Ne.symm hk), ← List.getD_eq_getElem?_getD]

/-- `place` is where the elements are. -/
def Placed (rows : List (List α)) (place : α → Option (Nat × Nat)) : Prop :=
  ∀ a i j, look rows i j = some a ↔ place a = some (i, j)

theorem Placed.mem_flatten {rows : List (List α)} {place : α → Option (Nat × Nat)} (h : Placed rows place) (a : α) :
    a ∈ rows.flatten ↔ (place a).isSome = true := by
  constructor
  · intro ha
    obtain ⟨row, hrow, ha⟩ := List.mem_flatten.mp ha
    obtain ⟨i, hi, rfl⟩ := List.getElem_of_mem hrow
    obtain ⟨j, hj, rfl⟩ := List.getElem_of_mem ha
    have hat : look rows i j = some rows[i][j] := by
      rw [look, List.getD_eq_getElem _ _ hi, List.getElem?_eq_getElem hj]
    rw [(h _ i j).mp hat]
    rfl
  · intro ha
    obtain ⟨⟨i, j⟩, hplace⟩ := Option.isSome_iff_exists.mp ha
    have hat := (h a i j).mpr hplace
    have hi : i < rows.length := by
      by_contra hn
      rw [look, List.getD_eq_default _ _ (by omega)] at hat
      cases hat
    rw [look, List.getD_eq_getElem _ _ hi] at hat
    exact List.mem_flatten.mpr ⟨rows[i], List.getElem_mem hi, List.mem_of_getElem? hat⟩

theorem Placed.flatten_nodup {rows : List (List α)} {place : α → Option (Nat × Nat)} (h : Placed rows place) :
    rows.flatten.Nodup := by
  have hat : ∀ i j (hi : i < rows.length) (hj : j < rows[i].length), place rows[i][j] = some (i, j) := by
    intro i j hi hj
    refine (h _ i j).mp ?_
    rw [look, List.getD_eq_getElem _ _ hi, List.getElem?_eq_getElem hj]
  rw [List.nodup_flatten]
  constructor
  · intro row hrow
    obtain ⟨i, hi, rfl⟩ := List.getElem_of_mem hrow
    refine List.pairwise_iff_getElem.mpr fun j k hj hk hlt heq => ?_
    have hsame := (hat i j hi hj).symm.trans ((congrArg place heq).trans (hat i k hi hk))
    obtain ⟨-, hjk⟩ := Prod.mk.inj (Option.some.inj hsame)
    omega
  · refine List.pairwise_iff_getElem.mpr fun i k hi hk hlt => ?_
    intro a ha ha'
    obtain ⟨j, hj, rfl⟩ := List.getElem_of_mem ha
    obtain ⟨m, hm, heq⟩ := List.getElem_of_mem ha'
    have hsame := (hat i j hi hj).symm.trans ((congrArg place heq.symm).trans (hat k m hk hm))
    obtain ⟨hik, -⟩ := Prod.mk.inj (Option.some.inj hsame)
    omega

section

variable [DecidableEq α] {rows : List (List α)} {place : α → Option (Nat × Nat)} {a : α} {i j : Nat}

theorem Placed.push (h : Placed rows place) (ha : place a = none) (i : Nat) :
    Placed (push rows i a) (Function.update place a (some (i, (rows.getD i []).length))) := by
  intro b k m
  rw [look_push]
  by_cases hb : b = a
  · subst b
    rw [Function.update_self]
    have hno : look rows k m ≠ some a := by
      rw [Ne, h a k m, ha]
      simp
    split
    next hkm =>
      obtain ⟨rfl, rfl⟩ := hkm
      simp
    next hkm =>
      refine ⟨fun hs => absurd hs hno, fun hs => absurd ?_ hkm⟩
      obtain ⟨hk, hm⟩ := Prod.mk.inj (Option.some.inj hs)
      exact ⟨hk.symm, hm.symm⟩
  · rw [Function.update_of_ne hb, ← h b k m]
    split
    next hkm =>
      obtain ⟨rfl, rfl⟩ := hkm
      have hend : look rows k (rows.getD k []).length = none := List.getElem?_eq_none (Nat.le_refl _)
      rw [hend]
      simp [Ne.symm hb]
    next => rfl

/-- The place of an element that may have moved. -/
def settle (place : α → Option (Nat × Nat)) (moved : Option α) (i j : Nat) : α → Option (Nat × Nat) :=
  match moved with
  | some b => Function.update place b (some (i, j))
  | none => place

theorem Placed.remove (h : Placed rows place) (ha : place a = some (i, j)) :
    ∃ rows', remove rows i j = some (a, rows') ∧
      Placed rows' (settle (Function.update place a none) (look rows' i j) i j) := by
  have hat := (h a i j).mpr ha
  obtain ⟨hj, hget⟩ := List.getElem?_eq_some_iff.mp hat
  obtain ⟨last, hlast, hs⟩ := swapRemove_of_lt hj
  rw [hget] at hs
  have hremove : Rows.remove rows i j = some (a, rows.set i (((rows.getD i []).set j last).dropLast)) := by
    rw [Rows.remove, hs]
    rfl
  refine ⟨_, hremove, ?_⟩
  generalize rows.set i (((rows.getD i []).set j last).dropLast) = rows' at hremove
  have hlook := look_remove hremove
  have hlen : (rows'.getD i []).length + 1 = (rows.getD i []).length := by
    obtain ⟨⟨b, row⟩, hs', he⟩ := Option.map_eq_some_iff.mp hremove
    cases he
    have hi : i < rows.length := by
      by_contra hn
      rw [List.getD_eq_default _ _ (by omega)] at hj
      simp at hj
    have hrow : (rows.set i row).getD i [] = row := by simp [hi]
    rw [hrow]
    exact (length_swapRemove hs').2
  generalize hn : (rows'.getD i []).length = n at hlook hlen
  have hlastAt : look rows i n = some last := by
    rw [← hlast, ← hlen]
    rfl
  have hmoved : look rows' i j = if n ≤ j then none else some last := by
    rw [hlook, if_pos rfl, if_pos rfl, hlastAt]
  have hlastPlace := (h last i n).mp hlastAt
  have hbeyond : ∀ m, n < m → look rows i m = none := fun m hm => List.getElem?_eq_none (by omega)
  intro b k m
  rw [hlook k m, hmoved, hlastAt]
  have hb := h b k m
  rcases Nat.lt_or_ge j n with hjn | hjn
  · have hne : last ≠ a := by
      rintro rfl
      have hij := Option.some.inj (ha.symm.trans hlastPlace)
      cases hij
      omega
    rw [if_neg (Nat.not_le.mpr hjn)]
    simp only [settle, Function.update_apply]
    grind
  · have hjn : j = n := by omega
    subst j
    rw [if_pos (Nat.le_refl n)]
    simp only [settle, Function.update_apply]
    grind

end

end Rows
