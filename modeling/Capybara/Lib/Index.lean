import Mathlib.Data.Option.Basic
import Mathlib.Logic.Function.Basic

namespace Index

variable {K D : Type}

/-- Both indices say the same, and of a key in the set, and of no other, there is exactly one holder. -/
structure Agree (holder : K → Option D) (key : D → Option K) (live : K → Prop) : Prop where
  inverse : ∀ k d, holder k = some d ↔ key d = some k
  only : ∀ k d, key d = some k ↔ live k ∧ ∀ d', key d' = some k ↔ d' = d

variable {holder holder' : K → Option D} {key key' : D → Option K} {live live' : K → Prop} {k : K} {d : D}

/-- Indices that are inverse to each other leave no second holder. -/
theorem Agree.of_inverse (hi : ∀ k d, holder k = some d ↔ key d = some k) (hl : ∀ k d, key d = some k → live k) :
    Agree holder key live := by
  refine ⟨hi, fun k d => ⟨fun hd => ⟨hl k d hd, fun d' => ?_⟩, fun h => (h.2 d).mpr rfl⟩⟩
  have hk := (hi k d).mpr hd
  constructor
  · intro hd'
    exact Option.some.inj (((hi k d').mpr hd').symm.trans hk)
  · rintro rfl
    exact hd

theorem Agree.live_of (h : Agree holder key live) (hd : key d = some k) : live k := ((h.only k d).mp hd).1

theorem Agree.congr (h : Agree holder key live) (hh : ∀ k, holder' k = holder k) (hk : ∀ d, key' d = key d)
    (hl : ∀ k, live' k ↔ live k) : Agree holder' key' live' := by
  rw [show holder' = holder from funext hh, show key' = key from funext hk, show live' = live from funext fun k => propext (hl k)]
  exact h

/-- A new key gets a holder that had none. -/
theorem Agree.add (h : Agree holder key live) (hk : holder k = none) (hd : key d = none) (hk₁ : holder' k = some d)
    (hd₁ : key' d = some k) (hholders : ∀ k', k' ≠ k → holder' k' = holder k')
    (hkeys : ∀ d', d' ≠ d → key' d' = key d') (hlive : live' k) (hgrows : ∀ k', live k' → live' k') :
    Agree holder' key' live' := by
  apply Agree.of_inverse
  · intro k' d'
    by_cases hkk : k' = k
    · subst hkk
      rw [hk₁]
      by_cases hdd : d' = d
      · subst hdd
        exact ⟨fun _ => hd₁, fun _ => rfl⟩
      · rw [hkeys d' hdd, ← h.inverse, hk]
        exact ⟨fun heq => absurd (Option.some.inj heq).symm hdd, nofun⟩
    · rw [hholders k' hkk]
      by_cases hdd : d' = d
      · subst hdd
        rw [h.inverse, hd, hd₁]
        exact ⟨nofun, fun heq => absurd (Option.some.inj heq).symm hkk⟩
      · rw [hkeys d' hdd]
        exact h.inverse k' d'
  · intro k' d' hd'
    by_cases hdd : d' = d
    · subst hdd
      rw [← Option.some.inj (hd₁.symm.trans hd')]
      exact hlive
    · rw [hkeys d' hdd] at hd'
      exact hgrows k' (h.live_of hd')

/-- A key goes away with its holder. -/
theorem Agree.remove (h : Agree holder key live) (hd : key d = some k) (hk₁ : holder' k = none) (hd₁ : key' d = none)
    (hholders : ∀ k', k' ≠ k → holder' k' = holder k') (hkeys : ∀ d', d' ≠ d → key' d' = key d')
    (hlive : ∀ k', k' ≠ k → live k' → live' k') : Agree holder' key' live' := by
  have hk := (h.inverse k d).mpr hd
  have hnot : ∀ k' d', key' d' = some k' → d' ≠ d ∧ k' ≠ k := by
    intro k' d' hd'
    have hdd : d' ≠ d := fun heq => by
      rw [heq, hd₁] at hd'
      cases hd'
    refine ⟨hdd, fun heq => hdd ?_⟩
    rw [hkeys d' hdd, heq] at hd'
    exact ((h.only k d).mp hd).2 d' |>.mp hd'
  apply Agree.of_inverse
  · intro k' d'
    constructor
    · intro hk'
      have hkk : k' ≠ k := fun heq => by
        rw [heq, hk₁] at hk'
        cases hk'
      rw [hholders k' hkk] at hk'
      have hd' := (h.inverse k' d').mp hk'
      have hdd : d' ≠ d := fun heq => hkk (Option.some.inj ((heq ▸ hd').symm.trans hd))
      rw [hkeys d' hdd]
      exact hd'
    · intro hd'
      obtain ⟨hdd, hkk⟩ := hnot k' d' hd'
      rw [hkeys d' hdd] at hd'
      rw [hholders k' hkk]
      exact (h.inverse k' d').mpr hd'
  · intro k' d' hd'
    obtain ⟨hdd, hkk⟩ := hnot k' d' hd'
    rw [hkeys d' hdd] at hd'
    exact hlive k' hkk (h.live_of hd')

end Index
