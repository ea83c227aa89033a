import Mathlib.Logic.Function.Basic
import Capybara.Lib.Runs

/-- What a node does by itself and when it hears a message, and all that it has sent: this can arrive anywhere, at any
time and any number of times, or never. -/
structure Network (N S M E : Type) where
  act : N → S → E → Option S
  hear : N → S → M → Option S
  sent : S → List M

namespace Network

inductive Event (N E : Type)
  | act (node : N) (e : E)
  | deliver (sender receiver : N) (k : Nat)

variable {N S M E : Type} [DecidableEq N] (net : Network N S M E)

def step (n : N → S) : Event N E → Option (N → S)
  | .act node e => (net.act node (n node) e).map (Function.update n node)
  | .deliver sender receiver k =>
    match (net.sent (n sender))[k]? with
    | none => some n
    | some m => (net.hear receiver (n receiver) m).map (Function.update n receiver)

/-- An invariant of one node, given what is said in the network, and what a node stands for when it says it. Nodes never
take back what they have said. -/
structure Honest (claims : N → S → M → Prop) (inv : (M → Prop) → N → S → Prop) : Prop where
  mono : ∀ {P P' : M → Prop} {node s}, (∀ m, P m → P' m) → inv P node s → inv P' node s
  sent : ∀ {P node s m}, inv P node s → m ∈ net.sent s → claims node s m
  act : ∀ {P node s e s'}, inv P node s → net.act node s e = some s' →
    (∀ m, claims node s m → claims node s' m) ∧ inv (fun m => P m ∨ claims node s' m) node s'
  hear : ∀ {P node s m s'}, inv P node s → P m → (∃ sender t, claims sender t m) → net.hear node s m = some s' →
    (∀ m, claims node s m → claims node s' m) ∧ inv (fun m => P m ∨ claims node s' m) node s'

def Said (claims : N → S → M → Prop) (n : N → S) (m : M) : Prop := ∃ node, claims node (n node) m

def Inv (claims : N → S → M → Prop) (inv : (M → Prop) → N → S → Prop) (n : N → S) : Prop :=
  ∀ node, inv (Said claims n) node (n node)

variable {net} {claims : N → S → M → Prop} {inv : (M → Prop) → N → S → Prop}

theorem said_update {n : N → S} {node : N} {s' : S} (h : ∀ m, claims node (n node) m → claims node s' m) (m : M) :
    Said claims n m ∨ claims node s' m ↔ Said claims (Function.update n node s') m := by
  constructor
  · rintro (⟨node', hm⟩ | hm)
    · refine ⟨node', ?_⟩
      by_cases heq : node' = node
      · subst heq
        rw [Function.update_self]
        exact h m hm
      · rw [Function.update_of_ne heq]
        exact hm
    · exact ⟨node, by rw [Function.update_self]; exact hm⟩
  · rintro ⟨node', hm⟩
    by_cases heq : node' = node
    · subst heq
      rw [Function.update_self] at hm
      exact .inr hm
    · rw [Function.update_of_ne heq] at hm
      exact .inl ⟨node', hm⟩

/-- One node has moved, and the others hear of it. -/
theorem Honest.update (hon : Honest net claims inv) {n : N → S} (h : Inv claims inv n) {node : N} {s' : S}
    (hclaims : ∀ m, claims node (n node) m → claims node s' m)
    (hinv : inv (fun m => Said claims n m ∨ claims node s' m) node s') :
    Inv claims inv (Function.update n node s') := by
  intro node'
  by_cases heq : node' = node
  · subst heq
    rw [Function.update_self]
    exact hon.mono (fun m => (said_update hclaims m).mp) hinv
  · rw [Function.update_of_ne heq]
    exact hon.mono (fun m hm => (said_update hclaims m).mp (.inl hm)) (h node')

theorem Honest.step (hon : Honest net claims inv) {n n' : N → S} {e : Event N E} (h : Inv claims inv n)
    (hs : net.step n e = some n') : Inv claims inv n' := by
  cases e with
  | act node e =>
    obtain ⟨s', hact, rfl⟩ := Option.map_eq_some_iff.mp hs
    obtain ⟨hclaims, hinv⟩ := hon.act (h node) hact
    exact hon.update h hclaims hinv
  | deliver sender receiver k =>
    simp only [Network.step] at hs
    split at hs
    next => exact Option.some.inj hs ▸ h
    next m hm =>
      obtain ⟨s', hhear, rfl⟩ := Option.map_eq_some_iff.mp hs
      have hsaid := hon.sent (h sender) (List.mem_of_getElem? hm)
      obtain ⟨hclaims, hinv⟩ := hon.hear (h receiver) ⟨sender, hsaid⟩ ⟨sender, _, hsaid⟩ hhear
      exact hon.update h hclaims hinv

theorem Honest.run (hon : Honest net claims inv) {n n' : N → S} {es : List (Event N E)} (h : Inv claims inv n)
    (hr : Runs.run net.step n es = some n') : Inv claims inv n' := by
  have hall : Runs.Admits net.step (fun _ _ => True) n es := Runs.admits_of_forall (fun _ _ => trivial) n es
  exact Runs.run_reaches (fun _ _ _ hi _ hs => hon.step hi hs) h hall hr

/-- A node can act; it can always hear. -/
def Event.Can (can : N → S → E → Prop) (n : N → S) : Event N E → Prop
  | .act node e => can node (n node) e
  | .deliver _ _ _ => True

/-- Where nodes that are told what is said never fail to hear it, a run fails only where one cannot act. -/
theorem Honest.run_isSome_iff (hon : Honest net claims inv) {can : N → S → E → Prop}
    (hact : ∀ {P node s e}, inv P node s → ((net.act node s e).isSome = true ↔ can node s e))
    (hhear : ∀ {P node s m}, inv P node s → P m → (net.hear node s m).isSome = true) {n : N → S}
    {es : List (Event N E)} (h : Inv claims inv n) :
    (Runs.run net.step n es).isSome = true ↔ Runs.Admits net.step (Event.Can can) n es := by
  refine Runs.run_isSome_iff (fun n e h => ?_) h
  have hsome : (net.step n e).isSome = true ↔ Event.Can can n e := by
    cases e with
    | act node e =>
      rw [Network.step, Option.isSome_map]
      exact hact (h node)
    | deliver sender receiver k =>
      simp only [Network.step, Event.Can, iff_true]
      split
      next => rfl
      next m hm =>
        rw [Option.isSome_map]
        exact hhear (h receiver) ⟨sender, hon.sent (h sender) (List.mem_of_getElem? hm)⟩
  cases hs : net.step n e with
  | none =>
    rw [hs] at hsome
    exact .inr ⟨fun hcan => (by cases hsome.mpr hcan), rfl⟩
  | some n' =>
    rw [hs] at hsome
    exact .inl ⟨hsome.mp rfl, n', rfl, hon.step h hs⟩

end Network
