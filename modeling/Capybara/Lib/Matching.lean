import Capybara.Lib.Runs

namespace Matching

open Runs

variable {α β γ δ : Type}

/-- Wherever the first ends in a result that meets the condition, the second ends in a related one. -/
def Matches (p : α → Prop) (r : α → β → Prop) (o : Option α) (o' : Option β) : Prop :=
  ∀ a, o = some a → p a → ∃ b, o' = some b ∧ r a b

/-- The results of a computation that may also decline. -/
def Both (r : α → β → Prop) : Option α → Option β → Prop
  | none, none => True
  | some a, some b => r a b
  | _, _ => False

variable {p : α → Prop} {r : α → β → Prop} {o : Option α} {o' : Option β}

theorem Matches.ret {a : α} {b : β} (h : r a b) : Matches p r (some a) (some b) := by
  intro x hx _
  cases Option.some.inj hx
  exact ⟨b, rfl, h⟩

theorem Matches.fail : Matches p r none o' := by
  intro a ha
  cases ha

theorem Matches.same (o : Option α) : Matches p Eq o o := fun a ha _ => ⟨a, ha, rfl⟩

theorem Matches.of_eq {o o' : Option α} (h : o' = o) : Matches p Eq o o' := fun a ha _ => ⟨a, h.trans ha, rfl⟩

theorem Matches.any (h : Matches (fun _ => True) r o o') : Matches p r o o' := fun a ha _ => h a ha trivial

theorem Matches.bind {q : γ → Prop} {s : γ → δ → Prop} {f : α → Option γ} {g : β → Option δ}
    (h : Matches (fun _ => True) r o o') (hf : ∀ a b, r a b → Matches q s (f a) (g b)) :
    Matches q s (o.bind f) (o'.bind g) := by
  intro c hc hq
  obtain ⟨a, ha, hc⟩ := Option.bind_eq_some_iff.mp hc
  obtain ⟨b, rfl, hab⟩ := h a ha trivial
  obtain ⟨d, hd, hcd⟩ := hf a b hab c hc hq
  exact ⟨d, hd, hcd⟩

theorem Matches.ite_iff {c c' : Prop} [Decidable c] [Decidable c'] (hcc : c' ↔ c) {o₁ o₂ : Option α}
    {o₁' o₂' : Option β} (h : c → Matches p r o₁ o₁') (h' : ¬c → Matches p r o₂ o₂') :
    Matches p r (if c then o₁ else o₂) (if c' then o₁' else o₂') := by
  by_cases hc : c
  · rw [if_pos hc, if_pos (hcc.mpr hc)]
    exact h hc
  · rw [if_neg hc, if_neg (fun hc' => hc (hcc.mp hc'))]
    exact h' hc

theorem Matches.ite {c : Prop} [Decidable c] {o₁ o₂ : Option α} {o₁' o₂' : Option β} (h : c → Matches p r o₁ o₁')
    (h' : ¬c → Matches p r o₂ o₂') : Matches p r (if c then o₁ else o₂) (if c then o₁' else o₂') :=
  .ite_iff Iff.rfl h h'

variable {σ τ ε ζ : Type} {step : σ → ε → Option σ} {step' : τ → ζ → Option τ}

/-- Two machines whose steps match run in lockstep, as long as the states of the first meet the condition. -/
theorem run_matches {fit : σ → Prop} {alike : ε → ζ → Prop} {r : σ → τ → Prop}
    (h : ∀ s t e e', fit s → r s t → alike e e' → Matches fit r (step s e) (step' t e'))
    {s : σ} {t : τ} {es : List ε} {es' : List ζ} (hf : fit s) (hr : r s t) (hl : List.Forall₂ alike es es')
    (ha : Admits step (fun s e => ∀ s', step s e = some s' → fit s') s es) :
    Matches (fun _ => True) r (run step s es) (run step' t es') := by
  induction hl generalizing s t with
  | nil => exact .ret hr
  | cons he _ ih =>
    intro s' hs _
    obtain ⟨s₁, hstep, hs⟩ := Option.bind_eq_some_iff.mp hs
    have hf₁ := ha.1 s₁ hstep
    obtain ⟨t₁, ht, hr₁⟩ := h s t _ _ hf hr he s₁ hstep hf₁
    rw [run_cons ht]
    exact ih hf₁ hr₁ (ha.2 s₁ hstep) s' hs trivial

end Matching
