import Mathlib.Order.Basic

namespace Token

variable {P : Type} {f f' : P → Nat} {p q : P}

/-- It is nowhere. -/
def Gone (f : P → Nat) : Prop := ∀ p, f p = 0

/-- It is at one place at most, and there once. -/
def Sole (f : P → Nat) : Prop := ∀ p q, 0 < f p → 0 < f q → p = q ∧ f p = 1

theorem Gone.sole (h : Gone f) : Sole f := fun p _ hp => absurd (h p) (by omega)

theorem Gone.mono (h : Gone f) (hle : ∀ r, f' r ≤ f r) : Gone f' := by
  intro r
  have hzero := h r
  have hr := hle r
  omega

theorem Sole.mono (h : Sole f) (hle : ∀ r, f' r ≤ f r) : Sole f' := by
  intro p q hp hq
  have hple := hle p
  have hqle := hle q
  obtain ⟨heq, hone⟩ := h p q (by omega) (by omega)
  exact ⟨heq, by omega⟩

/-- It is taken from where it is. -/
theorem Sole.take (h : Sole f) (hp : f' p + 1 ≤ f p) (hle : ∀ r, f' r ≤ f r) : Gone f' := by
  intro r
  have hr := hle r
  by_cases hpos : 0 < f r
  · obtain ⟨rfl, hone⟩ := h p r (by omega) hpos
    omega
  · omega

/-- It is put somewhere. -/
theorem Gone.put (h : Gone f) (hq : f' q ≤ f q + 1) (hle : ∀ r, r ≠ q → f' r ≤ f r) : Sole f' := by
  have hat : ∀ r, 0 < f' r → r = q := by
    intro r hr
    by_contra hne
    have hzero := h r
    have hrle := hle r hne
    omega
  intro r s hr hs
  have hzero := h q
  have hrq := hat r hr
  have hsq := hat s hs
  rw [hrq] at hr ⊢
  exact ⟨hsq.symm, by omega⟩

/-- It moves from one place to another. -/
theorem Sole.move (h : Sole f) (hne : p ≠ q) (hp : f' p + 1 ≤ f p) (hq : f' q ≤ f q + 1)
    (hle : ∀ r, r ≠ q → f' r ≤ f r) : Sole f' := by
  have hfree : f q = 0 := by
    by_contra hpos
    exact hne (h p q (by omega) (by omega)).1
  have hat : ∀ r, 0 < f' r → r = q := by
    intro r hr
    by_contra hnot
    have hrle := hle r hnot
    obtain ⟨rfl, hone⟩ := h p r (by omega) (by omega)
    omega
  intro r s hr hs
  have hrq := hat r hr
  have hsq := hat s hs
  rw [hrq] at hr ⊢
  exact ⟨hsq.symm, by omega⟩

end Token
