import Mathlib.Data.List.Nodup
import Mathlib.Logic.ExistsUnique

namespace Pool

variable {α κ : Type} [DecidableEq α]

/-- Every resource is once in the pool and held by nobody, or not in the pool and held by exactly one holder. -/
structure Conserved (initial pool : List α) (held : κ → Option α) : Prop where
  within : pool ⊆ initial
  once : ∀ x ∈ initial, (pool.count x = 1 ∧ ∀ k, held k ≠ some x) ∨ (pool.count x = 0 ∧ ∃! k, held k = some x)

variable {initial pool pool' : List α} {held held' : κ → Option α} {x : α} {k k' : κ}

omit [DecidableEq α] in
theorem perm_dropLast (h : pool.getLast? = some x) : pool.Perm (x :: pool.dropLast) := by
  have hl := List.dropLast_append_getLast? x h
  calc pool.Perm (pool.dropLast ++ [x]) := by rw [hl]
    List.Perm _ (x :: pool.dropLast) := List.perm_append_singleton x _

theorem Conserved.start (hn : initial.Nodup) (hnone : ∀ k, held k = none) : Conserved initial initial held := by
  refine ⟨List.Subset.refl _, fun x hx => .inl ⟨List.count_eq_one_of_mem hn hx, fun k => ?_⟩⟩
  rw [hnone k]
  exact nofun

theorem Conserved.nodup (h : Conserved initial pool held) : pool.Nodup := by
  refine List.nodup_iff_count_le_one.mpr fun x => ?_
  by_cases hx : x ∈ initial
  · rcases h.once x hx with ⟨hcount, -⟩ | ⟨hcount, -⟩ <;> omega
  · rw [List.count_eq_zero.mpr fun hp => hx (h.within hp)]
    exact Nat.zero_le 1

theorem Conserved.free (h : Conserved initial pool held) (hx : x ∈ pool) (k : κ) : held k ≠ some x := by
  rcases h.once x (h.within hx) with ⟨-, hfree⟩ | ⟨hcount, -⟩
  · exact hfree k
  · exact absurd hx (List.count_eq_zero.mp hcount)

theorem Conserved.unique (h : Conserved initial pool held) (hx : x ∈ initial) (hk : held k = some x)
    (hk' : held k' = some x) : k = k' := by
  rcases h.once x hx with ⟨-, hfree⟩ | ⟨-, hholder⟩
  · exact absurd hk (hfree k)
  · exact hholder.unique hk hk'

/-- The order of the pool does not matter, and of the holders only who holds what. -/
theorem Conserved.congr (h : Conserved initial pool held) (hp : pool'.Perm pool)
    (hheld : ∀ x ∈ initial, ∀ k, held' k = some x ↔ held k = some x) : Conserved initial pool' held' := by
  refine ⟨fun x hx => h.within (hp.subset hx), fun x hx => ?_⟩
  have hsame := hheld x hx
  simp only [hp.count_eq, ExistsUnique, Ne, hsame]
  exact h.once x hx

theorem Conserved.perm (h : Conserved initial pool held) (hp : pool'.Perm pool) : Conserved initial pool' held :=
  h.congr hp fun _ _ _ => Iff.rfl

/-- A holder without a resource takes one from the pool. -/
theorem Conserved.take (h : Conserved initial pool held) (hp : pool.Perm (x :: pool')) (hbefore : held k = none)
    (hafter : held' k = some x) (hothers : ∀ k', k' ≠ k → held' k' = held k') : Conserved initial pool' held' := by
  have hx : x ∈ pool := hp.mem_iff.mpr List.mem_cons_self
  refine ⟨fun y hy => h.within (hp.mem_iff.mpr (List.mem_cons_of_mem x hy)), fun y hy => ?_⟩
  have hcount : pool.count y = pool'.count y + if x = y then 1 else 0 := by
    rw [hp.count_eq, List.count_cons]
    simp only [beq_iff_eq]
  by_cases hxy : x = y
  · subst hxy
    rw [if_pos rfl] at hcount
    have hone := List.count_eq_one_of_mem h.nodup hx
    refine .inr ⟨by omega, k, hafter, fun k' hk' => ?_⟩
    by_contra hne
    exact h.free hx k' ((hothers k' hne).symm.trans hk')
  · rw [if_neg hxy] at hcount
    have hheld : ∀ k', held' k' = some y ↔ held k' = some y := by
      intro k'
      by_cases hk : k' = k
      · subst hk
        rw [hafter, hbefore, Option.some.injEq]
        exact ⟨fun heq => absurd heq hxy, nofun⟩
      · rw [hothers k' hk]
    simp only [ExistsUnique, Ne, hheld]
    rcases h.once y hy with ⟨hone, hfree⟩ | ⟨hzero, hholder⟩
    · exact .inl ⟨by omega, hfree⟩
    · exact .inr ⟨by omega, hholder⟩

/-- A holder may only go away without giving anything back if it holds no resource of the pool. -/
theorem Conserved.drop_iff (h : Conserved initial pool held) (hafter : held' k = none)
    (hothers : ∀ k', k' ≠ k → held' k' = held k') :
    Conserved initial pool held' ↔ ∀ x, held k = some x → x ∉ initial := by
  constructor
  · intro h' x hk hx
    rcases h'.once x hx with ⟨hone, -⟩ | ⟨-, k', hk', -⟩
    · have hmem : x ∈ pool := List.count_pos_iff.mp (by omega)
      exact h.free hmem k hk
    · by_cases heq : k' = k
      · rw [heq, hafter] at hk'
        cases hk'
      · rw [hothers k' heq] at hk'
        exact heq (h.unique hx hk' hk)
  · intro hno
    refine h.congr (List.Perm.refl pool) fun x hx k' => ?_
    by_cases heq : k' = k
    · subst heq
      rw [hafter]
      exact ⟨nofun, fun hk => absurd hx (hno x hk)⟩
    · rw [hothers k' heq]

end Pool
