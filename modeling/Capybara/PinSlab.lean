import Capybara.Basics
import Capybara.Lib.Runs
import Mathlib.Logic.Function.Basic

namespace Capybara

open Runs

inductive Entry (α : Type)
  | none
  | vacant (next : Nat)
  | occupied (val : α)
  deriving DecidableEq, Repr

/-- The slots of memory one after the other; all the places of a slot that is not allocated yet are `none`. -/
structure PinSlab (α : Type) where
  entries : Nat → Entry α
  len : Nat
  next : Nat

namespace PinSlab

variable {α : Type}

/-- `calculate_key` refuses keys from here on. -/
def keyLimit : Nat := 2 ^ 63

def new : PinSlab α := ⟨fun _ => .none, 0, 0⟩

def get (s : PinSlab α) (key : Nat) : Option α :=
  if key < keyLimit then
    match s.entries key with
    | .occupied val => some val
    | _ => none
  else none

/-- Finding the next place occupied panics. -/
def insert (s : PinSlab α) (val : α) : Option (Option Nat × PinSlab α) :=
  let key := s.next
  if key < keyLimit then
    match s.entries key with
    | .none => some (some key, ⟨Function.update s.entries key (.occupied val), s.len + 1, key + 1⟩)
    | .vacant next => some (some key, ⟨Function.update s.entries key (.occupied val), s.len + 1, next⟩)
    | .occupied _ => none
  else some (none, s)

def vacate (s : PinSlab α) (key : Nat) : Option (PinSlab α) := do
  let len ← checkedSub s.len 1
  some ⟨Function.update s.entries key (.vacant s.next), len, key⟩

def remove (s : PinSlab α) (key : Nat) : Option (Option Bool × PinSlab α) :=
  if key < keyLimit then
    match s.entries key with
    | .occupied _ => do
      let s ← s.vacate key
      some (some true, s)
    | _ => some (some false, s)
  else some (none, s)

def removeUnpin (s : PinSlab α) (key : Nat) : Option (Option α × PinSlab α) :=
  if key < keyLimit then
    match s.entries key with
    | .occupied val => do
      let s ← s.vacate key
      some (some val, s)
    | _ => some (none, s)
  else some (none, s)

/-- The vacant places from `next` on, each pointing to the following one and the last one to `last`. -/
def Chain (entries : Nat → Entry α) (last : Nat) : Nat → List Nat → Prop
  | next, [] => next = last
  | next, key :: keys => next = key ∧ ∃ next', entries key = .vacant next' ∧ Chain entries last next' keys

/-- `free` are the vacant places in the order in which they are handed out, `last` is the first place never used. -/
structure Frees (s : PinSlab α) (free : List Nat) (last : Nat) : Prop where
  chain : Chain s.entries last s.next free
  nodup : free.Nodup
  mem : ∀ key, key ∈ free ↔ ∃ next, s.entries key = .vacant next
  unused : ∀ key, last ≤ key ↔ s.entries key = .none
  limit : last ≤ keyLimit

structure Holds (s : PinSlab α) (keys : List Nat) : Prop where
  nodup : keys.Nodup
  mem : ∀ key, key ∈ keys ↔ ∃ val, s.entries key = .occupied val
  len : s.len = keys.length

structure Wf (s : PinSlab α) : Prop where
  frees : ∃ free last, s.Frees free last
  holds : ∃ keys, s.Holds keys

theorem Chain.congr {entries entries' : Nat → Entry α} {last next : Nat} {keys : List Nat}
    (h : Chain entries last next keys) (he : ∀ key ∈ keys, entries' key = entries key) :
    Chain entries' last next keys := by
  induction keys generalizing next with
  | nil => exact h
  | cons key keys ih =>
    obtain ⟨rfl, next', hn, hc⟩ := h
    refine ⟨rfl, next', (he next List.mem_cons_self).trans hn, ih hc ?_⟩
    intro key hk
    exact he key (List.mem_cons_of_mem next hk)

theorem wf_new : (new : PinSlab α).Wf where
  frees := ⟨[], 0, rfl, List.nodup_nil, by simp [new], by simp [new], Nat.zero_le _⟩
  holds := ⟨[], List.nodup_nil, by simp [new], rfl⟩

variable {s : PinSlab α} {key : Nat} {val : α}

theorem Wf.lt_limit (hw : s.Wf) (h : s.entries key ≠ .none) : key < keyLimit := by
  obtain ⟨free, last, hf⟩ := hw.frees
  have hlast := mt (hf.unused key).mp h
  have := hf.limit
  omega

theorem get_eq_some (hw : s.Wf) : s.get key = some val ↔ s.entries key = .occupied val := by
  unfold get
  constructor
  · intro h
    split at h
    next =>
      split at h
      next hv => rw [hv, Option.some.inj h]
      next => cases h
    next => cases h
  · intro h
    rw [if_pos (hw.lt_limit (by rw [h]; simp)), h]

variable {s' : PinSlab α} {free keys : List Nat} {last : Nat}

theorem Frees.extend (hf : s.Frees [] last) (hl : last < keyLimit)
    (he : s'.entries = Function.update s.entries last (.occupied val)) (hn : s'.next = last + 1) :
    s'.Frees [] (last + 1) where
  chain := hn
  nodup := List.nodup_nil
  mem := by
    intro k
    rw [he]
    by_cases hk : k = last
    · subst k
      simp
    · rw [Function.update_of_ne hk]
      exact hf.mem k
  unused := by
    intro k
    rw [he]
    by_cases hk : k = last
    · subst k
      simp
    · rw [Function.update_of_ne hk, ← hf.unused k]
      omega
  limit := hl

theorem Frees.reuse (hf : s.Frees (key :: free) last) (he : s'.entries = Function.update s.entries key (.occupied val))
    (hv : s.entries key = .vacant s'.next) : s'.Frees free last := by
  obtain ⟨-, next, hv', hc⟩ := hf.chain
  obtain ⟨hnot, hd⟩ := List.nodup_cons.mp hf.nodup
  rw [hv] at hv'
  cases hv'
  refine ⟨?_, hd, ?_, ?_, hf.limit⟩
  · apply hc.congr
    intro k hk
    rw [he, Function.update_of_ne fun heq => hnot (by rwa [← heq])]
  · intro k
    rw [he]
    by_cases hk : k = key
    · subst k
      simp [hnot]
    · rw [Function.update_of_ne hk, ← hf.mem k]
      simp [hk]
  · intro k
    rw [he]
    by_cases hk : k = key
    · subst k
      have hu := hf.unused key
      rw [hv] at hu
      simpa using hu
    · rw [Function.update_of_ne hk]
      exact hf.unused k

theorem Frees.vacate (hf : s.Frees free last) (ho : s.entries key = .occupied val)
    (he : s'.entries = Function.update s.entries key (.vacant s.next)) (hn : s'.next = key) :
    s'.Frees (key :: free) last := by
  have hnot : key ∉ free := by
    intro hm
    obtain ⟨next, hv⟩ := (hf.mem key).mp hm
    rw [ho] at hv
    cases hv
  refine ⟨⟨hn, s.next, ?_, ?_⟩, List.nodup_cons.mpr ⟨hnot, hf.nodup⟩, ?_, ?_, hf.limit⟩
  · rw [he, Function.update_self]
  · apply hf.chain.congr
    intro k hk
    rw [he, Function.update_of_ne fun heq => hnot (by rwa [← heq])]
  · intro k
    rw [he]
    by_cases hk : k = key
    · subst k
      simp
    · rw [Function.update_of_ne hk, ← hf.mem k]
      simp [hk]
  · intro k
    rw [he]
    by_cases hk : k = key
    · subst k
      have hu := hf.unused key
      rw [ho] at hu
      simpa using hu
    · rw [Function.update_of_ne hk]
      exact hf.unused k

theorem Holds.insert (hh : s.Holds keys) (hk : ∀ a, s.entries key ≠ .occupied a)
    (he : s'.entries = Function.update s.entries key (.occupied val)) (hl : s'.len = s.len + 1) :
    s'.Holds (key :: keys) where
  nodup := List.nodup_cons.mpr ⟨fun hm => (hh.mem key).mp hm |>.elim hk, hh.nodup⟩
  mem := by
    intro k
    rw [he]
    by_cases hkk : k = key
    · subst k
      simp
    · simp [hkk, hh.mem k]
  len := by simp [hl, hh.len]

theorem Holds.vacate (hh : s.Holds keys) (ho : s.entries key = .occupied val) {next : Nat}
    (he : s'.entries = Function.update s.entries key (.vacant next)) (hl : s'.len = s.len - 1) :
    s'.Holds (keys.erase key) where
  nodup := hh.nodup.erase key
  mem := by
    intro k
    rw [he, hh.nodup.mem_erase_iff]
    by_cases hk : k = key
    · subst k
      simp
    · rw [Function.update_of_ne hk, ← hh.mem k]
      simp [hk]
  len := by rw [hl, hh.len, List.length_erase_of_mem ((hh.mem key).mpr ⟨val, ho⟩)]

theorem Frees.next_eq (hf : s.Frees free last) : s.next = free.headD last := by
  cases free with
  | nil => exact hf.chain
  | cons key free => exact hf.chain.1

theorem Frees.insert (hf : s.Frees free last) (hl : s.next < keyLimit) (val : α) :
    ∃ s' last', s.insert val = some (some s.next, s') ∧ s'.Frees free.tail last' ∧ s'.len = s.len + 1 ∧
      s'.entries = Function.update s.entries s.next (.occupied val) ∧ ∀ a, s.entries s.next ≠ .occupied a := by
  cases free with
  | nil =>
    obtain rfl : s.next = last := hf.next_eq
    have hnone := (hf.unused s.next).mp (Nat.le_refl _)
    refine ⟨⟨Function.update s.entries s.next (.occupied val), s.len + 1, s.next + 1⟩, s.next + 1, ?_,
      hf.extend hl rfl rfl, rfl, rfl, by simp [hnone]⟩
    simp [PinSlab.insert, hl, hnone]
  | cons key free =>
    obtain rfl : s.next = key := hf.next_eq
    obtain ⟨-, next, hv, -⟩ := hf.chain
    refine ⟨⟨Function.update s.entries s.next (.occupied val), s.len + 1, next⟩, last, ?_, hf.reuse rfl hv, rfl, rfl,
      by simp [hv]⟩
    simp [PinSlab.insert, hl, hv]

theorem Wf.insert (hw : s.Wf) (val : α) : s.insert val = some (none, s) ∨
    ∃ s', s.insert val = some (some s.next, s') ∧ s'.Wf ∧ (∀ a, s.entries s.next ≠ .occupied a) ∧
      s'.entries = Function.update s.entries s.next (.occupied val) := by
  obtain ⟨free, last, hf⟩ := hw.frees
  obtain ⟨keys, hh⟩ := hw.holds
  by_cases hl : s.next < keyLimit
  · right
    obtain ⟨s', last', hi, hf', hlen, he, hnot⟩ := hf.insert hl val
    exact ⟨s', hi, ⟨⟨_, last', hf'⟩, _, hh.insert hnot he hlen⟩, hnot, he⟩
  · left
    simp [PinSlab.insert, hl]

theorem Wf.vacate (hw : s.Wf) (ho : s.entries key = .occupied val) : ∃ s', s.vacate key = some s' ∧ s'.Wf ∧
    s'.entries = Function.update s.entries key (.vacant s.next) := by
  obtain ⟨free, last, hf⟩ := hw.frees
  obtain ⟨keys, hh⟩ := hw.holds
  have hpos := List.length_pos_of_mem ((hh.mem key).mpr ⟨val, ho⟩)
  have hlen := hh.len
  refine ⟨⟨Function.update s.entries key (.vacant s.next), s.len - 1, key⟩, ?_,
    ⟨⟨_, last, hf.vacate ho rfl rfl⟩, _, hh.vacate ho rfl rfl⟩, rfl⟩
  simp only [PinSlab.vacate, checkedSub, if_pos (show 1 ≤ s.len by omega)]
  rfl

theorem Wf.remove (hw : s.Wf) (ho : s.entries key = .occupied val) : ∃ s', s.remove key = some (some true, s') ∧ s'.Wf ∧
    s'.entries = Function.update s.entries key (.vacant s.next) := by
  obtain ⟨s', hv, h⟩ := hw.vacate ho
  refine ⟨s', ?_, h⟩
  have hlimit : key < keyLimit := hw.lt_limit (by simp [ho])
  simp [PinSlab.remove, hlimit, ho, hv]

theorem Wf.removeUnpin (hw : s.Wf) (ho : s.entries key = .occupied val) : ∃ s', s.removeUnpin key = some (some val, s') ∧
    s'.Wf ∧ s'.entries = Function.update s.entries key (.vacant s.next) := by
  obtain ⟨s', hv, h⟩ := hw.vacate ho
  refine ⟨s', ?_, h⟩
  have hlimit : key < keyLimit := hw.lt_limit (by simp [ho])
  simp [PinSlab.removeUnpin, hlimit, ho, hv]

/-- Some number of insertions from now, the key is handed out. -/
def CanHandOut (s : PinSlab α) (key : Nat) : Prop :=
  ∀ val, ∃ n s', run (fun s a => (s.insert a).map Prod.snd) s (List.replicate n val) = some s' ∧
    ∃ s'', s'.insert val = some (some key, s'')

theorem Frees.canHandOut {rest : List Nat} (hf : s.Frees (free ++ key :: rest) last) (hv : s.entries key ≠ .none) :
    s.CanHandOut key := by
  intro val
  have hlast := hf.limit
  induction free generalizing s last with
  | nil =>
    obtain rfl : s.next = key := hf.next_eq
    have hlt := mt (hf.unused s.next).mp hv
    obtain ⟨s', -, hi, -⟩ := hf.insert (by omega) val
    exact ⟨0, s, rfl, s', hi⟩
  | cons k free ih =>
    obtain rfl : s.next = k := hf.next_eq
    obtain ⟨-, next, hvac, -⟩ := hf.chain
    have hlt := mt (hf.unused s.next).mp (by rw [hvac]; simp)
    obtain ⟨s', last', hi, hf', -, he, -⟩ := hf.insert (by omega) val
    have hne : key ≠ s.next := by
      rintro rfl
      exact (List.nodup_cons.mp hf.nodup).1 (List.mem_append_right _ List.mem_cons_self)
    obtain ⟨n, s₁, hr, hout⟩ := ih hf' (by rwa [he, Function.update_of_ne hne]) hf'.limit
    refine ⟨n + 1, s₁, ?_, hout⟩
    have hfirst : (s.insert val).map Prod.snd = some s' := by simp [hi]
    rw [List.replicate_succ, run_cons hfirst]
    exact hr

theorem Wf.canHandOut (hw : s.Wf) {next : Nat} (hv : s.entries key = .vacant next) : s.CanHandOut key := by
  obtain ⟨free, last, hf⟩ := hw.frees
  obtain ⟨before, after, rfl⟩ := List.append_of_mem ((hf.mem key).mpr ⟨next, hv⟩)
  exact hf.canHandOut (by simp [hv])

end PinSlab

end Capybara
