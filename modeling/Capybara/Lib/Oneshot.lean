import Mathlib.Data.List.Basic

/-- A channel for one value, canceled when its sender is dropped before it has sent. -/
inductive Oneshot (α : Type)
  | empty
  | sent (value : α)
  | canceled
  deriving DecidableEq, Repr

namespace Oneshot

variable {α : Type}

/-- What the end of a sender makes of its channel. -/
def settle (outcome : Oneshot α) : Oneshot α → Oneshot α
  | .empty => outcome
  | o => o

/-- All these senders end in the same way. -/
def settleAll (channels : List (Oneshot α)) (senders : List Nat) (outcome : Oneshot α) : List (Oneshot α) :=
  senders.foldl (fun channels tx => channels.modify tx (settle outcome)) channels

theorem settle_settle {outcome : Oneshot α} (o : Oneshot α) (h : outcome ≠ .empty) :
    settle outcome (settle outcome o) = settle outcome o := by
  cases o with
  | empty =>
    cases outcome with
    | empty => exact absurd rfl h
    | sent value => rfl
    | canceled => rfl
  | sent value => rfl
  | canceled => rfl

theorem length_settleAll (channels : List (Oneshot α)) (senders : List Nat) (outcome : Oneshot α) :
    (settleAll channels senders outcome).length = channels.length := by
  unfold settleAll
  induction senders generalizing channels with
  | nil => rfl
  | cons tx senders ih =>
    rw [List.foldl_cons, ih]
    exact List.length_modify ..

theorem getElem?_settleAll {channels : List (Oneshot α)} {senders : List Nat} {outcome : Oneshot α}
    (h : outcome ≠ .empty) (rx : Nat) : (settleAll channels senders outcome)[rx]? =
      if rx ∈ senders then channels[rx]?.map (settle outcome) else channels[rx]? := by
  unfold settleAll
  induction senders generalizing channels with
  | nil => exact (if_neg List.not_mem_nil).symm
  | cons tx senders ih =>
    rw [List.foldl_cons, ih, List.getElem?_modify]
    by_cases hrx : tx = rx
    · subst rx
      cases hc : channels[tx]? with
      | none => simp
      | some o => simp [settle_settle o h]
    · have hne : rx ≠ tx := Ne.symm hrx
      simp [hrx, hne]

/-- A channel that is no longer empty stays as it is. -/
theorem getElem?_settleAll_of_ne {channels : List (Oneshot α)} {senders : List Nat} {outcome o : Oneshot α}
    (h : outcome ≠ .empty) {rx : Nat} (hrx : channels[rx]? = some o) (ho : o ≠ .empty) :
    (settleAll channels senders outcome)[rx]? = some o := by
  have hs : settle outcome o = o := by
    cases o with
    | empty => exact absurd rfl ho
    | sent value => rfl
    | canceled => rfl
  rw [getElem?_settleAll h, hrx, Option.map_some, hs, ite_self]

end Oneshot
