import Mathlib.Data.List.Basic

namespace Runs

variable {σ ε : Type} (step : σ → ε → Option σ)

/-- Steps that can fail, one for each event of a list. -/
def run : σ → List ε → Option σ
  | s, [] => some s
  | s, e :: es => (step s e).bind fun s' => run s' es

/-- Every event of the list meets the condition in the state in which it comes. -/
def Admits (ok : σ → ε → Prop) : σ → List ε → Prop
  | _, [] => True
  | s, e :: es => ok s e ∧ ∀ s', step s e = some s' → Admits ok s' es

instance Admits.decidable (ok : σ → ε → Prop) [∀ s e, Decidable (ok s e)] :
    (s : σ) → (es : List ε) → Decidable (Admits step ok s es)
  | _, [] => inferInstanceAs (Decidable True)
  | s, e :: es =>
    have : ∀ s', Decidable (Admits step ok s' es) := fun s' => Admits.decidable ok s' es
    inferInstanceAs (Decidable (ok s e ∧ ∀ s', step s e = some s' → Admits step ok s' es))

/-- The property holds in every state that the run visits. -/
def Always (p : σ → Prop) : σ → List ε → Prop
  | s, [] => p s
  | s, e :: es => p s ∧ ∀ s', step s e = some s' → Always p s' es

variable {step}

theorem run_cons {s s' : σ} {e : ε} {es : List ε} (h : step s e = some s') : run step s (e :: es) = run step s' es := by
  simp [run, h]

theorem run_append (s : σ) (es es' : List ε) : run step s (es ++ es') = (run step s es).bind fun s' => run step s' es' := by
  induction es generalizing s with
  | nil => rfl
  | cons e es ih =>
    simp only [List.cons_append, run, Option.bind_assoc]
    exact congrArg _ (funext fun s' => ih s')

theorem Admits.mono {ok ok' : σ → ε → Prop} (h : ∀ s e, ok s e → ok' s e) {s : σ} {es : List ε}
    (ha : Admits step ok s es) : Admits step ok' s es := by
  induction es generalizing s with
  | nil => trivial
  | cons e es ih => exact ⟨h s e ha.1, fun s' hs => ih (ha.2 s' hs)⟩

theorem admits_congr {ok ok' : σ → ε → Prop} (h : ∀ s e, ok s e ↔ ok' s e) {s : σ} {es : List ε} :
    Admits step ok s es ↔ Admits step ok' s es :=
  ⟨.mono fun s e => (h s e).mp, .mono fun s e => (h s e).mpr⟩

/-- Conditions that agree wherever an invariant of the steps holds admit the same runs. -/
theorem admits_congr_of_invariant {inv : σ → Prop} {ok ok' : σ → ε → Prop}
    (hstep : ∀ s e s', inv s → step s e = some s' → inv s') (h : ∀ s e, inv s → (ok s e ↔ ok' s e))
    {s : σ} {es : List ε} (hs : inv s) : Admits step ok s es ↔ Admits step ok' s es := by
  induction es generalizing s with
  | nil => exact Iff.rfl
  | cons e es ih =>
    exact and_congr (h s e hs) (forall_congr' fun s' => imp_congr_right fun he => ih (hstep s e s' hs he))

theorem admits_of_forall {ok : σ → ε → Prop} (h : ∀ s e, ok s e) (s : σ) (es : List ε) : Admits step ok s es := by
  induction es generalizing s with
  | nil => trivial
  | cons e es ih => exact ⟨h s e, fun s' _ => ih s'⟩

theorem admits_of_mem {ok : σ → ε → Prop} {es : List ε} (h : ∀ e ∈ es, ∀ s, ok s e) (s : σ) : Admits step ok s es := by
  induction es generalizing s with
  | nil => trivial
  | cons e es ih =>
    exact ⟨h e List.mem_cons_self s, fun s' _ => ih (fun e' he => h e' (List.mem_cons_of_mem e he)) s'⟩

theorem Admits.and {ok ok' : σ → ε → Prop} {s : σ} {es : List ε} (ha : Admits step ok s es)
    (ha' : Admits step ok' s es) : Admits step (fun s e => ok s e ∧ ok' s e) s es := by
  induction es generalizing s with
  | nil => trivial
  | cons e es ih => exact ⟨⟨ha.1, ha'.1⟩, fun s' hs => ih (ha.2 s' hs) (ha'.2 s' hs)⟩

theorem Admits.of_append {ok : σ → ε → Prop} {s : σ} {es es' : List ε} (ha : Admits step ok s (es ++ es')) :
    Admits step ok s es ∧ ∀ s', run step s es = some s' → Admits step ok s' es' := by
  induction es generalizing s with
  | nil => exact ⟨trivial, fun s' hr => Option.some.inj hr ▸ ha⟩
  | cons e es ih =>
    refine ⟨⟨ha.1, fun s₁ he => (ih (ha.2 s₁ he)).1⟩, fun s' hr => ?_⟩
    obtain ⟨s₁, he, hr⟩ := Option.bind_eq_some_iff.mp hr
    exact (ih (ha.2 s₁ he)).2 s' hr

/-- A step that goes through and keeps the invariant wherever its event is admitted makes every admitted run go
through and keep it. -/
theorem run_invariant {inv : σ → Prop} {ok : σ → ε → Prop}
    (h : ∀ s e, inv s → ok s e → ∃ s', step s e = some s' ∧ inv s') {s : σ} {es : List ε}
    (hs : inv s) (ha : Admits step ok s es) : ∃ s', run step s es = some s' ∧ inv s' := by
  induction es generalizing s with
  | nil => exact ⟨s, rfl, hs⟩
  | cons e es ih =>
    obtain ⟨s₁, he, hi⟩ := h s e hs ha.1
    obtain ⟨s₂, hr, hi₂⟩ := ih hi (ha.2 s₁ he)
    exact ⟨s₂, (run_cons he).trans hr, hi₂⟩

/-- An invariant that steps with an admitted event keep holds wherever an admitted run gets to. -/
theorem run_reaches {inv : σ → Prop} {ok : σ → ε → Prop} (h : ∀ s e s', inv s → ok s e → step s e = some s' → inv s')
    {s s' : σ} {es : List ε} (hs : inv s) (ha : Admits step ok s es) (hr : run step s es = some s') : inv s' := by
  induction es generalizing s with
  | nil => exact Option.some.inj hr ▸ hs
  | cons e es ih =>
    obtain ⟨s₁, he, hr⟩ := Option.bind_eq_some_iff.mp hr
    exact ih (h s e s₁ hs ha.1 he) (ha.2 s₁ he) hr

/-- The same for steps that only fail where `fine` does not hold: an admitted run keeps the invariant as far as it
goes, and goes through when every event is fine. -/
theorem run_keeps {inv : σ → Prop} {ok fine : σ → ε → Prop}
    (h : ∀ s e, inv s → ok s e → (step s e = none ∧ ¬fine s e) ∨ ∃ s', step s e = some s' ∧ inv s')
    {s : σ} {es : List ε} (hs : inv s) (ha : Admits step ok s es) :
    (∀ s', run step s es = some s' → inv s') ∧ (Admits step fine s es → (run step s es).isSome) := by
  induction es generalizing s with
  | nil => exact ⟨fun s' hr => Option.some.inj hr ▸ hs, fun _ => rfl⟩
  | cons e es ih =>
    rcases h s e hs ha.1 with ⟨hnone, hbad⟩ | ⟨s₁, he, hi⟩
    · refine ⟨fun s' hr => ?_, fun hf => absurd hf.1 hbad⟩
      rw [run, hnone] at hr
      cases hr
    · rw [run_cons he]
      obtain ⟨hkeep, hgo⟩ := ih hi (ha.2 s₁ he)
      exact ⟨hkeep, fun hf => hgo (hf.2 s₁ he)⟩

/-- If a step from a state with the invariant goes through and keeps it exactly where its event is admitted, so does a
run. -/
theorem run_isSome_iff {inv : σ → Prop} {ok : σ → ε → Prop}
    (h : ∀ s e, inv s → (ok s e ∧ ∃ s', step s e = some s' ∧ inv s') ∨ (¬ok s e ∧ step s e = none))
    {s : σ} {es : List ε} (hs : inv s) : (run step s es).isSome = true ↔ Admits step ok s es := by
  induction es generalizing s with
  | nil => exact ⟨fun _ => trivial, fun _ => rfl⟩
  | cons e es ih =>
    rcases h s e hs with ⟨hok, s₁, he, hi⟩ | ⟨hbad, hnone⟩
    · rw [run_cons he, ih hi]
      refine ⟨fun ha => ⟨hok, fun s' hs' => ?_⟩, fun ha => ha.2 s₁ he⟩
      rw [Option.some.inj (hs'.symm.trans he)]
      exact ha
    · refine ⟨fun hr => ?_, fun ha => absurd ha.1 hbad⟩
      rw [run, hnone] at hr
      cases hr

theorem Always.head {p : σ → Prop} {s : σ} {es : List ε} (h : Always step p s es) : p s := by
  cases es with
  | nil => exact h
  | cons e es => exact h.1

/-- What an invariant that admitted steps keep implies holds throughout an admitted run. -/
theorem always_of_admits {inv p : σ → Prop} {ok : σ → ε → Prop}
    (h : ∀ s e s', inv s → ok s e → step s e = some s' → inv s') (hp : ∀ s, inv s → p s) {s : σ} {es : List ε}
    (hs : inv s) (ha : Admits step ok s es) : Always step p s es := by
  induction es generalizing s with
  | nil => exact hp s hs
  | cons e es ih => exact ⟨hp s hs, fun s' he => ih (h s e s' hs ha.1 he) (ha.2 s' he)⟩

/-- If a step keeps the property exactly when its event meets the condition, and then also the invariant, then a run
that goes through has the property throughout exactly when every event meets the condition. -/
theorem always_iff_admits {inv p : σ → Prop} {pre ok : σ → ε → Prop}
    (h : ∀ s e s', inv s → p s → pre s e → step s e = some s' → (p s' ↔ ok s e) ∧ (ok s e → inv s'))
    {s s' : σ} {es : List ε} (hs : inv s) (hp : p s) (ha : Admits step pre s es) (hr : run step s es = some s') :
    Always step p s es ↔ Admits step ok s es := by
  induction es generalizing s with
  | nil => exact ⟨fun _ => trivial, fun _ => hp⟩
  | cons e es ih =>
    obtain ⟨s₁, he, hr⟩ := Option.bind_eq_some_iff.mp hr
    obtain ⟨hiff, hinv⟩ := h s e s₁ hs hp ha.1 he
    constructor
    · intro hall
      have hrest := hall.2 s₁ he
      have hok := hiff.mp hrest.head
      refine ⟨hok, fun s₂ he₂ => ?_⟩
      rw [Option.some.inj (he₂.symm.trans he)]
      exact (ih (hinv hok) hrest.head (ha.2 s₁ he) hr).mp hrest
    · intro hok
      refine ⟨hp, fun s₂ he₂ => ?_⟩
      rw [Option.some.inj (he₂.symm.trans he)]
      exact (ih (hinv hok.1) (hiff.mpr hok.1) (ha.2 s₁ he) hr).mpr (hok.2 s₁ he)

end Runs
