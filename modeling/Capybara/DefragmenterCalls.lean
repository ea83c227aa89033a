import Capybara.Defragmenter
import Capybara.Lib.Runs

namespace Capybara

open Pieces Runs

/-- A part of a message that was cut into several. -/
def TcpMigHeader.IsFragment (hdr : TcpMigHeader) : Prop :=
  hdr.flagNextFragment = true ∨ hdr.fragmentOffset.toNat ≠ 0

instance (hdr : TcpMigHeader) : Decidable hdr.IsFragment := inferInstanceAs (Decidable (_ ∨ _))

namespace TcpMigDefragmenter

/-- The last fragment tells the total. -/
def noted (d : TcpMigDefragmenter) (hdr : TcpMigHeader) : TcpMigDefragmenter :=
  if hdr.flagNextFragment = true then d else { d with totalFragments := some (hdr.fragmentOffset.toNat + 1) }

def stored (d : TcpMigDefragmenter) (hdr : TcpMigHeader) (buf : Buffer) : TcpMigDefragmenter :=
  (d.noted hdr).insertFragment hdr.fragmentOffset.toNat buf

/-- The slots one after the other, filled up with zeros to the counted size. -/
def padded (d : TcpMigDefragmenter) : Buffer :=
  d.fragments.flatten ++ List.replicate (d.currentSize - d.fragments.flatten.length) 0

/-- The counted size covers what the slots hold. -/
def Covers (d : TcpMigDefragmenter) : Prop := d.fragments.flatten.length ≤ d.currentSize

/-- As many fragments as there are in all have arrived with this one. -/
def Completes (d : TcpMigDefragmenter) (hdr : TcpMigHeader) : Prop :=
  (d.noted hdr).totalFragments = some (d.currentFragments + 1)

/-- The last fragment is not before one that has arrived. -/
def Orderly (d : TcpMigDefragmenter) (hdr : TcpMigHeader) : Prop :=
  hdr.flagNextFragment = true ∨ d.fragments.length ≤ hdr.fragmentOffset.toNat + 1

/-- The last fragment does not come before one that has arrived, and a message is not empty when it is complete. -/
def Bears (d : TcpMigDefragmenter) (input : TcpMigHeader × Buffer) : Prop :=
  input.1.IsFragment → d.Orderly input.1 ∧ (d.Completes input.1 → 0 < d.currentSize + input.2.length)

def next (d : TcpMigDefragmenter) (input : TcpMigHeader × Buffer) : Option TcpMigDefragmenter :=
  (d.defragment input.1 input.2).map Prod.snd

/-- What the calls return, or nothing if one of them panics. -/
def outputs (d : TcpMigDefragmenter) (inputs : List (TcpMigHeader × Buffer)) :
    Option (List (Option (TcpMigHeader × Buffer))) := (d.defragmentAll inputs).map Prod.fst

instance (d : TcpMigDefragmenter) (hdr : TcpMigHeader) : Decidable (d.Completes hdr) :=
  inferInstanceAs (Decidable (_ = _))

instance (d : TcpMigDefragmenter) (hdr : TcpMigHeader) : Decidable (d.Orderly hdr) :=
  inferInstanceAs (Decidable (_ ∨ _))

section

variable {d d' : TcpMigDefragmenter} {hdr : TcpMigHeader} {buf : Buffer}

theorem noted_fragments (d : TcpMigDefragmenter) (hdr : TcpMigHeader) :
    (d.noted hdr).fragments = d.fragments ∧ (d.noted hdr).currentSize = d.currentSize ∧
      (d.noted hdr).currentFragments = d.currentFragments := by
  unfold noted
  split
  next => exact ⟨rfl, rfl, rfl⟩
  next => exact ⟨rfl, rfl, rfl⟩

theorem stored_size (d : TcpMigDefragmenter) (hdr : TcpMigHeader) (buf : Buffer) :
    (d.stored hdr buf).currentSize = d.currentSize + buf.length :=
  congrArg (· + buf.length) (d.noted_fragments hdr).2.1

theorem Covers.stored (hc : d.Covers) (hdr : TcpMigHeader) (buf : Buffer) : (d.stored hdr buf).Covers := by
  have hslots := length_flatten_store_le (d.noted hdr).fragments hdr.fragmentOffset.toNat buf
  have hsize := d.stored_size hdr buf
  rw [(d.noted_fragments hdr).1] at hslots
  change (store [] (d.noted hdr).fragments hdr.fragmentOffset.toNat buf).flatten.length ≤ (d.stored hdr buf).currentSize
  rw [(d.noted_fragments hdr).1]
  unfold Covers at hc
  omega

theorem covers_reset (d : TcpMigDefragmenter) : d.reset.Covers := Nat.zero_le _

theorem assemble_of_covers (hc : d.Covers) :
    d.assemble = if d.currentSize = 0 then none else some d.padded := by
  have hnot : ¬d.currentSize < d.fragments.flatten.length := Nat.not_lt.mpr hc
  unfold assemble
  simp only [hnot, or_false]
  rfl

theorem storeFragment_noted (hc : d.Covers) (hdr : TcpMigHeader) (buf : Buffer) :
    (d.noted hdr).storeFragment hdr buf =
      if d.Completes hdr then
        if d.currentSize + buf.length = 0 then none
        else some (some (hdr.whole, (d.stored hdr buf).padded), (d.stored hdr buf).reset)
      else some (none, d.stored hdr buf) := by
  have hnumber : (d.stored hdr buf).currentFragments = d.currentFragments + 1 :=
    congrArg (· + 1) (d.noted_fragments hdr).2.2
  have htotal : (d.stored hdr buf).totalFragments = (d.noted hdr).totalFragments := rfl
  have hassemble := assemble_of_covers (hc.stored hdr buf)
  rw [stored_size] at hassemble
  have hstored : (d.noted hdr).insertFragment hdr.fragmentOffset.toNat buf = d.stored hdr buf := rfl
  unfold storeFragment
  dsimp only
  rw [hstored, htotal, hnumber, hassemble]
  by_cases hcomplete : d.Completes hdr
  · have hknown : (d.noted hdr).totalFragments = some (d.currentFragments + 1) := hcomplete
    rw [if_pos hcomplete, hknown]
    simp only [ne_eq, not_true_eq_false, if_false]
    split
    next => rfl
    next => rfl
  · rw [if_neg hcomplete]
    cases hknown : (d.noted hdr).totalFragments with
    | none => rfl
    | some count => exact if_pos fun heq => hcomplete (hknown.trans (congrArg some heq))

/-- What a call does with a fragment. -/
theorem defragment_of_fragment (hc : d.Covers) (hf : hdr.IsFragment) (buf : Buffer) :
    d.defragment hdr buf =
      if d.Orderly hdr then
        if d.Completes hdr then
          if d.currentSize + buf.length = 0 then none
          else some (some (hdr.whole, (d.stored hdr buf).padded), (d.stored hdr buf).reset)
        else some (none, d.stored hdr buf)
      else none := by
  rw [← storeFragment_noted hc]
  unfold defragment
  by_cases hnext : hdr.flagNextFragment = true
  · have horderly : d.Orderly hdr := .inl hnext
    have hnoted : d.noted hdr = d := if_pos hnext
    rw [if_pos hnext, if_pos horderly, hnoted]
  · have hoffset : hdr.fragmentOffset.toNat ≠ 0 := hf.resolve_left hnext
    have hnoted : d.noted hdr = { d with totalFragments := some (hdr.fragmentOffset.toNat + 1) } := if_neg hnext
    rw [if_neg hnext, if_neg hoffset, hnoted]
    dsimp only
    by_cases hlength : d.fragments.length ≤ hdr.fragmentOffset.toNat + 1
    · have horderly : d.Orderly hdr := .inr hlength
      rw [checkedSub_of_le hlength, if_pos horderly]
      rfl
    · have hdisorder : ¬d.Orderly hdr := fun h => h.elim hnext hlength
      have hsub : checkedSub (hdr.fragmentOffset.toNat + 1) d.fragments.length = none := if_neg hlength
      rw [hsub, if_neg hdisorder]
      rfl

/-- A message that was not cut goes through at once. -/
theorem defragment_of_whole (hf : ¬hdr.IsFragment) (d : TcpMigDefragmenter) (buf : Buffer) :
    d.defragment hdr buf = some (some (hdr, buf), d.reset) := by
  obtain ⟨hnext, hoffset⟩ := not_or.mp hf
  unfold defragment
  rw [if_neg hnext, if_pos (not_not.mp hoffset)]

theorem defragment_isSome_iff (hc : d.Covers) : (d.defragment hdr buf).isSome = true ↔ d.Bears (hdr, buf) := by
  by_cases hf : hdr.IsFragment
  · rw [defragment_of_fragment hc hf]
    by_cases ho : d.Orderly hdr
    · rw [if_pos ho]
      by_cases hcomplete : d.Completes hdr
      · rw [if_pos hcomplete]
        split
        next hzero =>
          refine ⟨fun h => (by cases h), fun h => ?_⟩
          have hpos := (h hf).2 hcomplete
          dsimp only at hpos
          omega
        next hne => exact ⟨fun _ _ => ⟨ho, fun _ => Nat.pos_of_ne_zero hne⟩, fun _ => rfl⟩
      · rw [if_neg hcomplete]
        exact ⟨fun _ _ => ⟨ho, fun h => absurd h hcomplete⟩, fun _ => rfl⟩
    · rw [if_neg ho]
      exact ⟨fun h => (by cases h), fun h => absurd (h hf).1 ho⟩
  · rw [defragment_of_whole hf]
    exact ⟨fun _ h => absurd h hf, fun _ => rfl⟩

theorem Covers.defragment {out : Option (TcpMigHeader × Buffer)} (hc : d.Covers)
    (h : d.defragment hdr buf = some (out, d')) : d'.Covers := by
  by_cases hf : hdr.IsFragment
  · rw [defragment_of_fragment hc hf] at h
    split at h
    next =>
      split at h
      next =>
        split at h
        next => cases h
        next =>
          cases h
          exact covers_reset _
      next =>
        cases h
        exact hc.stored hdr buf
    next => cases h
  · rw [defragment_of_whole hf] at h
    cases h
    exact covers_reset d

theorem defragmentAll_cons_eq (d : TcpMigDefragmenter) (input : TcpMigHeader × Buffer)
    (rest : List (TcpMigHeader × Buffer)) :
    d.defragmentAll (input :: rest) = (d.defragment input.1 input.2).bind fun r =>
      (r.2.defragmentAll rest).map fun rs => (r.1 :: rs.1, rs.2) := by
  change ((d.defragment input.1 input.2).bind fun r =>
    (r.2.defragmentAll rest).bind fun rs => some (r.1 :: rs.1, rs.2)) = _
  congr 1
  funext r
  exact Option.map_eq_bind.symm

theorem Covers.bears_iff {inputs : List (TcpMigHeader × Buffer)} (hc : d.Covers) :
    (d.defragmentAll inputs).isSome = true ↔ Admits next Bears d inputs := by
  induction inputs generalizing d with
  | nil => exact ⟨fun _ => trivial, fun _ => rfl⟩
  | cons input rest ih =>
    have hone := @defragment_isSome_iff d input.1 input.2 hc
    rw [defragmentAll_cons_eq, Admits, ← hone]
    cases hstep : d.defragment input.1 input.2 with
    | none => exact ⟨fun h => (by cases h), fun h => (by cases h.1)⟩
    | some r =>
      have hnext : d.next input = some r.2 := by rw [next, hstep, Option.map_some]
      rw [Option.bind_some, Option.isSome_map, ih (hc.defragment hstep)]
      constructor
      · intro hrest
        refine ⟨rfl, fun d' hd' => ?_⟩
        cases hnext.symm.trans hd'
        exact hrest
      · intro h
        exact h.2 r.2 hnext

end

/-- A sequence of inputs goes through exactly if no last fragment comes before one that has arrived and no message is
empty when its last fragment is counted. -/
theorem defragmentAll_isSome_iff (inputs : List (TcpMigHeader × Buffer)) :
    (new.defragmentAll inputs).isSome = true ↔ Admits next Bears new inputs :=
  Covers.bears_iff (Nat.zero_le _)

/-- The header of a fragment of some connection state. -/
def sampleFragment (fragmentOffset : UInt16) (flagNextFragment : Bool) : TcpMigHeader where
  origin := ⟨⟨10, 0, 1, 8⟩, 10000⟩
  client := ⟨⟨10, 0, 1, 7⟩, 201⟩
  length := 28
  fragmentOffset := fragmentOffset
  flagLoad := false
  flagNextFragment := flagNextFragment
  stage := .connectionState
  sourceUdpPort := 10000
  destUdpPort := 10001

/-- Fragment 5 and then fragment 1 as the last one; and two empty fragments. -/
theorem defragmentAll_isSome_iff_disorder :
    new.defragmentAll [(sampleFragment 5 true, [7]), (sampleFragment 1 false, [8])] = none ∧
      new.defragmentAll [(sampleFragment 0 true, []), (sampleFragment 1 false, [])] = none := ⟨rfl, rfl⟩

/-- A defragmenter after a reset: only the counted size may differ from that of a new one. -/
def counting (size : Nat) : TcpMigDefragmenter := { new with currentSize := size }

/-- What an input adds to the counted size. -/
def counted (input : TcpMigHeader × Buffer) : Nat := if input.1.IsFragment then input.2.length else 0

section

variable {d d' : TcpMigDefragmenter} {input : TcpMigHeader × Buffer} {inputs : List (TcpMigHeader × Buffer)}
  {out : Option (TcpMigHeader × Buffer)} {outs : List (Option (TcpMigHeader × Buffer))}

theorem covers_counting (size : Nat) : (counting size).Covers := Nat.zero_le size

theorem reset_eq (d : TcpMigDefragmenter) : d.reset = counting d.currentSize := rfl

theorem defragment_size (hc : d.Covers) (h : d.defragment input.1 input.2 = some (out, d')) :
    d'.currentSize = d.currentSize + counted input := by
  unfold counted
  by_cases hf : input.1.IsFragment
  · rw [if_pos hf]
    rw [defragment_of_fragment hc hf] at h
    split at h
    next =>
      split at h
      next =>
        split at h
        next => cases h
        next =>
          cases h
          exact d.stored_size input.1 input.2
      next =>
        cases h
        exact d.stored_size input.1 input.2
    next => cases h
  · rw [if_neg hf]
    rw [defragment_of_whole hf] at h
    cases h
    rfl

/-- Whatever completes a message resets. -/
theorem defragment_resets {m : TcpMigHeader × Buffer} (hc : d.Covers)
    (h : d.defragment input.1 input.2 = some (some m, d')) : d' = counting d'.currentSize := by
  by_cases hf : input.1.IsFragment
  · rw [defragment_of_fragment hc hf] at h
    split at h
    next =>
      split at h
      next =>
        split at h
        next => cases h
        next =>
          cases h
          exact reset_eq _
      next => cases h
    next => cases h
  · rw [defragment_of_whole hf] at h
    cases h
    exact reset_eq d

theorem defragmentAll_inv (h : d.defragmentAll (input :: inputs) = some (outs, d')) :
    ∃ out d₁ rest, d.defragment input.1 input.2 = some (out, d₁) ∧ d₁.defragmentAll inputs = some (rest, d') ∧
      outs = out :: rest := by
  rw [defragmentAll_cons_eq] at h
  obtain ⟨⟨out, d₁⟩, hstep, h⟩ := Option.bind_eq_some_iff.mp h
  obtain ⟨⟨rest, d₂⟩, hrest, h⟩ := Option.map_eq_some_iff.mp h
  cases h
  exact ⟨out, d₁, rest, hstep, hrest, rfl⟩

theorem defragmentAll_size (hc : d.Covers) (h : d.defragmentAll inputs = some (outs, d')) :
    d'.currentSize = d.currentSize + (inputs.map counted).sum := by
  induction inputs generalizing d outs with
  | nil =>
    cases h
    rfl
  | cons input rest ih =>
    obtain ⟨out, d₁, outs₁, hstep, hrest, -⟩ := defragmentAll_inv h
    have hone := defragment_size hc hstep
    have hall := ih (hc.defragment hstep) hrest
    rw [List.map_cons, List.sum_cons]
    omega

theorem defragmentAll_length (h : d.defragmentAll inputs = some (outs, d')) : outs.length = inputs.length := by
  induction inputs generalizing d outs with
  | nil =>
    cases h
    rfl
  | cons input rest ih =>
    obtain ⟨out, d₁, outs₁, -, hrest, rfl⟩ := defragmentAll_inv h
    rw [List.length_cons, List.length_cons, ih hrest]

theorem defragmentAll_resets {m : TcpMigHeader × Buffer} (hc : d.Covers)
    (h : d.defragmentAll inputs = some (outs ++ [some m], d')) : d' = counting d'.currentSize := by
  induction inputs generalizing d outs with
  | nil =>
    obtain ⟨hnil, -⟩ := Prod.mk.inj (Option.some.inj h)
    exact absurd hnil.symm (by simp)
  | cons input rest ih =>
    obtain ⟨out, d₁, outs₁, hstep, hrest, heq⟩ := defragmentAll_inv h
    cases outs with
    | nil =>
      obtain ⟨rfl, rfl⟩ := List.cons.inj heq
      cases rest with
      | nil =>
        cases hrest
        exact defragment_resets hc hstep
      | cons input' rest' =>
        have hlength := defragmentAll_length hrest
        cases hlength
    | cons out' outs' =>
      obtain ⟨-, rfl⟩ := List.cons.inj heq
      exact ih (hc.defragment hstep) hrest

/-- Two short fragments tell the counted size. -/
theorem outputs_counting (size : Nat) :
    (counting size).outputs [(sampleFragment 0 true, [1]), (sampleFragment 1 false, [2])] =
      some [none, some (sampleFragment 0 false, [1, 2] ++ List.replicate size 0)] := by
  have hfits : ¬size + 1 + 1 < 2 := by omega
  simp [outputs, defragmentAll, defragment, storeFragment, insertFragment, assemble, counting, new, sampleFragment,
    store, checkedSub, TcpMigHeader.whole, reset, hfits]

/-- A defragmenter that has returned a message is as good as a new one exactly if no fragment that it got since it was
new carried any bytes. -/
theorem defragmentAll_reset_iff {m : TcpMigHeader × Buffer} (h : new.defragmentAll inputs = some (outs ++ [some m], d)) :
    (∀ later, d.outputs later = new.outputs later) ↔ ∀ input ∈ inputs, input.1.IsFragment → input.2 = [] := by
  have hreset := defragmentAll_resets (Nat.zero_le _) h
  have hsize := defragmentAll_size (Nat.zero_le _) h
  have hnew : new.currentSize = 0 := rfl
  have hsum : (inputs.map counted).sum = 0 ↔ ∀ input ∈ inputs, input.1.IsFragment → input.2 = [] := by
    rw [List.sum_eq_zero_iff_forall_eq_nat]
    constructor
    · intro hall input hinput hf
      have hzero := hall (counted input) (List.mem_map_of_mem hinput)
      rw [counted, if_pos hf] at hzero
      exact List.length_eq_zero_iff.mp hzero
    · intro hall n hn
      obtain ⟨input, hinput, rfl⟩ := List.mem_map.mp hn
      unfold counted
      split
      next hf => rw [hall input hinput hf, List.length_nil]
      next => rfl
  rw [← hsum]
  constructor
  · intro hsame
    have hboth := hsame [(sampleFragment 0 true, [1]), (sampleFragment 1 false, [2])]
    rw [hreset, outputs_counting, show new = counting 0 from rfl, outputs_counting] at hboth
    have hlength := congrArg (fun outs => outs.map (List.map (Option.map fun m => m.2.length))) hboth
    simp at hlength
    omega
  · intro hzero later
    rw [hreset, hsize, hnew, hzero]
    rfl

end

theorem defragmentAll_reset_iff_whole :
    ∃ d, new.defragmentAll [(sampleFragment 0 false, [5])] = some ([some (sampleFragment 0 false, [5])], d) ∧
      ∀ later, d.outputs later = new.outputs later := by
  have h : new.defragmentAll [(sampleFragment 0 false, [5])] =
      some ([] ++ [some (sampleFragment 0 false, [5])], new.reset) := rfl
  refine ⟨new.reset, h, (defragmentAll_reset_iff h).mpr fun input hinput hf => ?_⟩
  rw [List.mem_singleton.mp hinput] at hf
  exact absurd hf (by decide)

/-- After a message of two fragments the next one is two bytes longer than it was sent. -/
theorem defragmentAll_reset_iff_second :
    ∃ d, new.defragmentAll [(sampleFragment 0 true, [1]), (sampleFragment 1 false, [2])] =
        some ([none] ++ [some (sampleFragment 0 false, [1, 2])], d) ∧
      d.outputs [(sampleFragment 0 true, [3]), (sampleFragment 1 false, [4])] =
        some [none, some (sampleFragment 0 false, [3, 4, 0, 0])] ∧
      ¬∀ later, d.outputs later = new.outputs later := by
  refine ⟨_, rfl, rfl, fun h => ?_⟩
  have hsame := h [(sampleFragment 0 true, [3]), (sampleFragment 1 false, [4])]
  revert hsame
  decide

end TcpMigDefragmenter

end Capybara
