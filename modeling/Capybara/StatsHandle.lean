import Capybara.Basics

namespace Capybara

inductive Stat
  | disabled
  | enabled (val : Nat)
  | markedForDisable (val : Nat)
  deriving DecidableEq, Repr

/-- The cells of one connection's handle; the table that polls the handles is not part of it. -/
structure StatsHandle where
  stat : Stat
  statToUpdate : Option Nat
  statRightBeforeDisable : Option Nat
  deriving DecidableEq, Repr

namespace StatsHandle

def new : StatsHandle := ⟨.disabled, none, none⟩

def set (h : StatsHandle) (val : Nat) : StatsHandle :=
  match h.stat with
  | .enabled _ => { h with statToUpdate := some val }
  | _ => h

def increment (h : StatsHandle) : StatsHandle :=
  match h.stat with
  | .enabled val =>
    match h.statToUpdate with
    | some val => { h with statToUpdate := some (val + 1) }
    | none => { h with statToUpdate := some (val + 1) }
  | _ => h

/-- Enabling an enabled handle panics. -/
def enable (h : StatsHandle) (useOldValue : Bool) (initialVal : Nat) : Option StatsHandle :=
  let val := if useOldValue then h.statRightBeforeDisable.getD initialVal else initialVal
  let old := if useOldValue then none else h.statRightBeforeDisable
  match h.stat with
  | .enabled _ => none
  | _ => some { h with stat := .enabled val, statRightBeforeDisable := old }

def disable (h : StatsHandle) : StatsHandle :=
  match h.stat with
  | .enabled val => { h with stat := .markedForDisable val, statRightBeforeDisable := some val }
  | _ => h

def isEnabled (h : StatsHandle) : Bool :=
  match h.stat with
  | .enabled _ => true
  | _ => false

theorem enable_isSome (h : StatsHandle) (useOldValue : Bool) (initialVal : Nat) :
    (h.enable useOldValue initialVal).isSome ↔ h.isEnabled = false := by
  unfold enable isEnabled
  cases h.stat <;> simp

end StatsHandle

end Capybara
