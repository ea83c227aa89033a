import Mathlib

/-- A forest is a list of siblings, each with its children. -/
inductive PairingForest (ι κ : Type)
  | nil
  | node (id : ι) (key : κ) (children rest : PairingForest ι κ)
  deriving DecidableEq, Repr

structure PairingTree (ι κ : Type) where
  id : ι
  key : κ
  children : PairingForest ι κ
  deriving DecidableEq, Repr

namespace PairingForest

variable {ι κ : Type}

def trees : PairingForest ι κ → List (PairingTree ι κ)
  | nil => []
  | node i k c r => ⟨i, k, c⟩ :: trees r

def entries : PairingForest ι κ → List (ι × κ)
  | nil => []
  | node i k c r => (i, k) :: (entries c ++ entries r)

def ids (f : PairingForest ι κ) : List ι := f.entries.map Prod.fst

def first : PairingForest ι κ → Option ι
  | nil => none
  | node i _ _ _ => some i

def last : PairingForest ι κ → Option ι
  | nil => none
  | node i _ _ r => (last r).or (some i)

def append : PairingForest ι κ → PairingForest ι κ → PairingForest ι κ
  | nil, g => g
  | node i k c r, g => node i k c (append r g)

def snoc (f : PairingForest ι κ) (t : PairingTree ι κ) : PairingForest ι κ :=
  f.append (node t.id t.key t.children nil)

/-- The siblings from the last one to the first. -/
def ofReverse : List (PairingTree ι κ) → PairingForest ι κ
  | [] => nil
  | t :: ts => (ofReverse ts).snoc t

/-- No key is below the key of a node above it. -/
def Ordered [LE κ] : PairingForest ι κ → Prop
  | nil => True
  | node _ k c r => (∀ e ∈ c.entries, k ≤ e.2) ∧ Ordered c ∧ Ordered r

@[simp] theorem ids_nil : (nil : PairingForest ι κ).ids = [] := rfl

theorem ids_node (i : ι) (k : κ) (c r : PairingForest ι κ) : (node i k c r).ids = i :: (c.ids ++ r.ids) := by
  simp [ids, entries]

theorem roots_subset (f : PairingForest ι κ) : f.trees.map (·.id) ⊆ f.ids := by
  induction f with
  | nil => exact List.Subset.refl _
  | node i k c r _ ih =>
    rw [ids_node]
    exact List.cons_subset_cons _ (List.Subset.trans ih (List.subset_append_right _ _))

theorem trees_length_le (f : PairingForest ι κ) : f.trees.length ≤ f.ids.length := by
  induction f with
  | nil => exact Nat.le_refl 0
  | node i k c r _ ih =>
    rw [ids_node, trees, List.length_cons, List.length_cons, List.length_append]
    exact Nat.succ_le_succ (Nat.le_trans ih (Nat.le_add_left _ _))

theorem first_append (f g : PairingForest ι κ) : (f.append g).first = f.first.or g.first := by
  cases f with
  | nil => rfl
  | node => rfl

theorem last_append (f g : PairingForest ι κ) : (f.append g).last = g.last.or f.last := by
  induction f with
  | nil => exact Option.or_none.symm
  | node i k c r _ ih => rw [append, last, ih, last, Option.or_assoc]

theorem entries_append (f g : PairingForest ι κ) : (f.append g).entries = f.entries ++ g.entries := by
  induction f with
  | nil => rfl
  | node i k c r _ ih => simp [append, entries, ih]

theorem ids_append (f g : PairingForest ι κ) : (f.append g).ids = f.ids ++ g.ids := by
  rw [ids, entries_append, List.map_append, ids, ids]

theorem trees_append (f g : PairingForest ι κ) : (f.append g).trees = f.trees ++ g.trees := by
  induction f with
  | nil => rfl
  | node i k c r _ ih => simp [append, trees, ih]

theorem first_mem {f : PairingForest ι κ} {i : ι} (h : f.first = some i) : i ∈ f.ids := by
  cases f with
  | nil => cases h
  | node j k c r =>
    rw [← Option.some.inj h, ids_node]
    exact List.mem_cons_self

theorem last_mem {f : PairingForest ι κ} {i : ι} (h : f.last = some i) : i ∈ f.ids := by
  induction f with
  | nil => cases h
  | node j k c r _ ih =>
    rw [ids_node]
    rcases Option.or_eq_some_iff.mp h with hr | ⟨-, hj⟩
    · exact List.mem_cons_of_mem _ (List.mem_append_right _ (ih hr))
    · cases hj
      exact List.mem_cons_self

theorem first_eq_none_iff {f : PairingForest ι κ} : f.first = none ↔ f = nil := by
  cases f with
  | nil => exact iff_of_true rfl rfl
  | node i k c r => simp [first]

theorem last_eq_none_iff {f : PairingForest ι κ} : f.last = none ↔ f = nil := by
  cases f with
  | nil => exact iff_of_true rfl rfl
  | node i k c r => simp [last]

theorem trees_snoc (f : PairingForest ι κ) (t : PairingTree ι κ) : (f.snoc t).trees = f.trees ++ [t] := by
  rw [snoc, trees_append]
  rfl

theorem last_ofReverse (ts : List (PairingTree ι κ)) : (ofReverse ts).last = ts.head?.map (·.id) := by
  cases ts with
  | nil => rfl
  | cons t ts =>
    rw [ofReverse, snoc, last_append]
    rfl

theorem eq_nil_or_snoc (f : PairingForest ι κ) : f = nil ∨ ∃ g t, f = snoc g t := by
  induction f with
  | nil => exact Or.inl rfl
  | node i k c r _ ih =>
    rcases ih with rfl | ⟨g, t, rfl⟩
    · exact Or.inr ⟨nil, ⟨i, k, c⟩, rfl⟩
    · exact Or.inr ⟨node i k c g, t, rfl⟩

theorem trees_ofReverse (ts : List (PairingTree ι κ)) : (ofReverse ts).trees = ts.reverse := by
  induction ts with
  | nil => rfl
  | cons t ts ih => rw [ofReverse, trees_snoc, ih, List.reverse_cons]

theorem trees_injective : Function.Injective (trees : PairingForest ι κ → List (PairingTree ι κ)) := by
  intro f g h
  induction f generalizing g with
  | nil =>
    cases g with
    | nil => rfl
    | node => cases h
  | node i k c r _ ih =>
    cases g with
    | nil => cases h
    | node j l d s =>
      obtain ⟨heq, hrest⟩ := List.cons.inj h
      cases heq
      rw [ih hrest]

theorem ofReverse_trees (f : PairingForest ι κ) : ofReverse f.trees.reverse = f := by
  apply trees_injective
  rw [trees_ofReverse, List.reverse_reverse]

end PairingForest

namespace PairingTree

variable {ι κ : Type}

def entries (t : PairingTree ι κ) : List (ι × κ) := (t.id, t.key) :: t.children.entries

def ids (t : PairingTree ι κ) : List ι := t.entries.map Prod.fst

theorem ids_eq (t : PairingTree ι κ) : t.ids = t.id :: t.children.ids := rfl

def Ordered [LE κ] (t : PairingTree ι κ) : Prop := (∀ e ∈ t.children.entries, t.key ≤ e.2) ∧ t.children.Ordered

theorem Ordered.key_le [Preorder κ] {t : PairingTree ι κ} (h : t.Ordered) {e : ι × κ} (he : e ∈ t.entries) :
    t.key ≤ e.2 := by
  rcases List.mem_cons.mp he with rfl | he
  · exact le_rfl
  · exact h.1 e he

/-- The tree with one more child, in front of the others. -/
def addChild (parent child : PairingTree ι κ) : PairingTree ι κ :=
  ⟨parent.id, parent.key, .node child.id child.key child.children parent.children⟩

theorem entries_addChild (parent child : PairingTree ι κ) :
    (parent.addChild child).entries = (parent.id, parent.key) :: (child.entries ++ parent.children.entries) := rfl

theorem Ordered.addChild [Preorder κ] {parent child : PairingTree ι κ} (hp : parent.Ordered) (hc : child.Ordered)
    (hle : parent.key ≤ child.key) : (parent.addChild child).Ordered := by
  refine ⟨fun e he => ?_, hc.1, hc.2, hp.2⟩
  rcases List.mem_append.mp (List.append_eq .. ▸ he : e ∈ child.entries ++ parent.children.entries) with he | he
  · exact le_trans hle (hc.key_le he)
  · exact hp.1 e he

section Meld

variable [LinearOrder κ]

def meld (left right : PairingTree ι κ) : PairingTree ι κ :=
  if left.key < right.key then left.addChild right else right.addChild left

def maybeMeld (left : Option (PairingTree ι κ)) (right : PairingTree ι κ) : PairingTree ι κ :=
  match left with
  | some left => left.meld right
  | none => right

/-- Melds the trees in pairs, from the last one, each pair into what there is. -/
def mergeReverse : Option (PairingTree ι κ) → List (PairingTree ι κ) → Option (PairingTree ι κ)
  | current, [] => current
  | current, [t] => some (maybeMeld current t)
  | current, t :: s :: ts => mergeReverse (some (maybeMeld current (s.meld t))) ts

theorem entries_meld (left right : PairingTree ι κ) : (left.meld right).entries.Perm (left.entries ++ right.entries) := by
  unfold meld
  split
  next =>
    rw [entries_addChild]
    exact List.Perm.cons _ List.perm_append_comm
  next =>
    rw [entries_addChild]
    exact List.perm_middle.symm

theorem entries_maybeMeld (left : Option (PairingTree ι κ)) (right : PairingTree ι κ) :
    (maybeMeld left right).entries.Perm ((left.elim [] entries) ++ right.entries) := by
  cases left with
  | none => rfl
  | some left => exact entries_meld left right

theorem ids_meld (left right : PairingTree ι κ) : (left.meld right).ids.Perm (left.ids ++ right.ids) := by
  rw [ids, ids, ids, ← List.map_append]
  exact (entries_meld left right).map _

theorem ids_maybeMeld (left : Option (PairingTree ι κ)) (right : PairingTree ι κ) :
    (maybeMeld left right).ids.Perm (left.elim [] ids ++ right.ids) := by
  cases left with
  | none => rfl
  | some left => exact ids_meld left right

theorem Ordered.meld {left right : PairingTree ι κ} (hl : left.Ordered) (hr : right.Ordered) :
    (left.meld right).Ordered := by
  unfold PairingTree.meld
  split
  next hlt => exact hl.addChild hr (le_of_lt hlt)
  next hle => exact hr.addChild hl (le_of_not_gt hle)

theorem Ordered.maybeMeld {left : Option (PairingTree ι κ)} {right : PairingTree ι κ} (hl : ∀ t ∈ left, t.Ordered)
    (hr : right.Ordered) : (maybeMeld left right).Ordered := by
  cases left with
  | none => exact hr
  | some left => exact (hl left rfl).meld hr

theorem entries_mergeReverse (current : Option (PairingTree ι κ)) (ts : List (PairingTree ι κ)) :
    ((mergeReverse current ts).elim [] entries).Perm (current.elim [] entries ++ ts.flatMap entries) := by
  induction current, ts using mergeReverse.induct with
  | case1 current => simp [mergeReverse]
  | case2 current t => simpa [mergeReverse] using entries_maybeMeld current t
  | case3 current t s ts ih =>
    rw [mergeReverse, List.flatMap_cons, List.flatMap_cons, ← List.append_assoc t.entries]
    refine ih.trans ?_
    have hpair := (entries_meld s t).trans List.perm_append_comm
    have hall := (entries_maybeMeld current (s.meld t)).trans (hpair.append_left _)
    rw [← List.append_assoc]
    exact hall.append_right _

theorem Ordered.mergeReverse {current : Option (PairingTree ι κ)} {ts : List (PairingTree ι κ)}
    (hc : ∀ t ∈ current, t.Ordered) (hts : ∀ t ∈ ts, t.Ordered) : ∀ t ∈ mergeReverse current ts, t.Ordered := by
  induction current, ts using mergeReverse.induct with
  | case1 current => exact hc
  | case2 current t =>
    intro u hu
    cases hu
    exact Ordered.maybeMeld hc (hts t (List.mem_singleton_self t))
  | case3 current t s ts ih =>
    have ht := hts t List.mem_cons_self
    have hs := hts s (List.mem_cons_of_mem _ List.mem_cons_self)
    apply ih
    · intro u hu
      cases hu
      exact Ordered.maybeMeld hc (hs.meld ht)
    · exact fun u hu => hts u (List.mem_cons_of_mem _ (List.mem_cons_of_mem _ hu))

end Meld

end PairingTree

open scoped List

namespace PairingForest

variable {ι κ : Type}

theorem ids_snoc (f : PairingForest ι κ) (t : PairingTree ι κ) : (f.snoc t).ids = f.ids ++ t.ids := by
  rw [snoc, ids_append, ids_node, ids_nil, List.append_nil, PairingTree.ids_eq]

theorem last_snoc (f : PairingForest ι κ) (t : PairingTree ι κ) : (f.snoc t).last = some t.id := by
  rw [snoc, last_append]
  rfl

theorem ordered_iff [LE κ] (f : PairingForest ι κ) : f.Ordered ↔ ∀ t ∈ f.trees, t.Ordered := by
  induction f with
  | nil => simp [Ordered, trees]
  | node i k c r _ ih => simp [Ordered, trees, ih, PairingTree.Ordered, and_assoc]

theorem ordered_append [LE κ] (f g : PairingForest ι κ) : (f.append g).Ordered ↔ f.Ordered ∧ g.Ordered := by
  simp only [ordered_iff, trees_append, List.forall_mem_append]

theorem entries_eq_flatMap (f : PairingForest ι κ) : f.entries = f.trees.flatMap PairingTree.entries := by
  induction f with
  | nil => rfl
  | node i k c r _ ih => simp [entries, trees, ih, PairingTree.entries]

/-- One tree of all the siblings. -/
def merge [LinearOrder κ] (f : PairingForest ι κ) : Option (PairingTree ι κ) :=
  PairingTree.mergeReverse none f.trees.reverse

theorem entries_merge [LinearOrder κ] (f : PairingForest ι κ) :
    (f.merge.elim [] PairingTree.entries).Perm f.entries := by
  rw [entries_eq_flatMap]
  refine (PairingTree.entries_mergeReverse none f.trees.reverse).trans ?_
  exact (List.reverse_perm f.trees).flatMap_right _

theorem ids_merge [LinearOrder κ] {f : PairingForest ι κ} {u : PairingTree ι κ} (h : f.merge = some u) :
    u.ids.Perm f.ids := by
  have hperm := f.entries_merge
  rw [h] at hperm
  exact hperm.map _

theorem Ordered.merge [LinearOrder κ] {f : PairingForest ι κ} (h : f.Ordered) : ∀ t ∈ f.merge, t.Ordered := by
  refine PairingTree.Ordered.mergeReverse (fun t ht => by cases ht) fun t ht => ?_
  exact (ordered_iff f).mp h t (List.mem_reverse.mp ht)

/-- The children of a sibling, and the siblings without it. -/
def takeRoot [DecidableEq ι] (i : ι) : PairingForest ι κ → Option (PairingForest ι κ × PairingForest ι κ)
  | nil => none
  | node j k c r => if j = i then some (c, r) else (takeRoot i r).map fun (d, s) => (d, node j k c s)

def prepend (t : Option (PairingTree ι κ)) (f : PairingForest ι κ) : PairingForest ι κ :=
  match t with
  | some t => node t.id t.key t.children f
  | none => f

/-- Takes a sibling out; its children, as one tree, become the first sibling. -/
def removeRoot [DecidableEq ι] [LinearOrder κ] (i : ι) (f : PairingForest ι κ) : Option (PairingForest ι κ) :=
  (takeRoot i f).map fun (c, r) => prepend c.merge r

/-- Takes out a node that is not one of the siblings. -/
def removeBelow [DecidableEq ι] [LinearOrder κ] (i : ι) : PairingForest ι κ → PairingForest ι κ
  | nil => nil
  | node j k c r => node j k ((removeRoot i c).getD (removeBelow i c)) (removeBelow i r)

section Remove

variable [DecidableEq ι] [LinearOrder κ] {i : ι} {f c r : PairingForest ι κ}

omit [DecidableEq ι] [LinearOrder κ] in
theorem entries_prepend (t : Option (PairingTree ι κ)) (f : PairingForest ι κ) :
    (prepend t f).entries = t.elim [] PairingTree.entries ++ f.entries := by
  cases t with
  | none => rfl
  | some t => rfl

omit [LinearOrder κ] in
theorem takeRoot_split (h : takeRoot i f = some (c, r)) :
    ∃ (a : PairingForest ι κ) (k : κ) (b : PairingForest ι κ), f = a.append (node i k c b) ∧ r = a.append b := by
  induction f generalizing r with
  | nil => cases h
  | node j k d s _ ih =>
    unfold takeRoot at h
    split at h
    next heq =>
      cases h
      exact ⟨nil, k, s, heq ▸ rfl, rfl⟩
    next =>
      obtain ⟨⟨c', r'⟩, htake, hr⟩ := Option.map_eq_some_iff.mp h
      cases hr
      obtain ⟨a, l, b, rfl, rfl⟩ := ih htake
      exact ⟨node j k d a, l, b, rfl, rfl⟩

omit [LinearOrder κ] in
theorem entries_takeRoot (h : takeRoot i f = some (c, r)) :
    ∃ k, f.entries ~ (i, k) :: (c.entries ++ r.entries) := by
  obtain ⟨a, k, b, rfl, rfl⟩ := takeRoot_split h
  refine ⟨k, ?_⟩
  rw [entries_append, entries_append]
  calc a.entries ++ (i, k) :: (c.entries ++ b.entries)
    _ ~ (i, k) :: (a.entries ++ (c.entries ++ b.entries)) := List.perm_middle
    _ ~ (i, k) :: (c.entries ++ (a.entries ++ b.entries)) := by
      refine List.Perm.cons _ ?_
      rw [← List.append_assoc, ← List.append_assoc]
      exact List.perm_append_comm.append_right _

theorem Ordered.takeRoot (hf : f.Ordered) (h : f.takeRoot i = some (c, r)) : c.Ordered ∧ r.Ordered := by
  obtain ⟨a, k, b, rfl, rfl⟩ := takeRoot_split h
  rw [ordered_append] at hf ⊢
  exact ⟨hf.2.2.1, hf.1, hf.2.2.2⟩

omit [LinearOrder κ] in
theorem takeRoot_eq_none (f : PairingForest ι κ) : takeRoot i f = none ↔ i ∉ f.trees.map (·.id) := by
  induction f with
  | nil => simp [takeRoot, trees]
  | node j k c r _ ih =>
    by_cases h : j = i
    · simp [takeRoot, trees, h]
    · simp [takeRoot, trees, h, ih, Ne.symm h]

theorem entries_removeRoot {g : PairingForest ι κ} (h : removeRoot i f = some g) : ∃ k, f.entries ~ (i, k) :: g.entries := by
  obtain ⟨⟨c, r⟩, htake, rfl⟩ := Option.map_eq_some_iff.mp h
  obtain ⟨k, hk⟩ := entries_takeRoot htake
  refine ⟨k, hk.trans (List.Perm.cons _ ?_)⟩
  rw [entries_prepend]
  exact (entries_merge c).symm.append_right _

omit [DecidableEq ι] in
theorem Ordered.prepend {t : Option (PairingTree ι κ)} (ht : ∀ u ∈ t, u.Ordered) (hf : f.Ordered) :
    (PairingForest.prepend t f).Ordered := by
  cases t with
  | none => exact hf
  | some t => exact ⟨(ht t rfl).1, (ht t rfl).2, hf⟩

theorem Ordered.removeRoot {g : PairingForest ι κ} (hf : f.Ordered) (h : f.removeRoot i = some g) : g.Ordered := by
  obtain ⟨⟨c, r⟩, htake, rfl⟩ := Option.map_eq_some_iff.mp h
  obtain ⟨hc, hr⟩ := hf.takeRoot htake
  exact hr.prepend hc.merge

theorem removeRoot_eq_none (f : PairingForest ι κ) : removeRoot i f = none ↔ i ∉ f.trees.map (·.id) := by
  rw [removeRoot, Option.map_eq_none_iff, takeRoot_eq_none]

theorem removeBelow_of_not_mem (h : i ∉ f.ids) : removeBelow i f = f := by
  induction f with
  | nil => rfl
  | node j k c r ihc ihr =>
    rw [ids_node, List.mem_cons, List.mem_append, not_or, not_or] at h
    have hc := (removeRoot_eq_none c).mpr fun hmem => h.2.1 (c.roots_subset hmem)
    rw [removeBelow, hc, Option.getD_none, ihc h.2.1, ihr h.2.2]

/-- The children of a node, after one of the nodes below it has been taken out. -/
def removeChild (i : ι) (f : PairingForest ι κ) : PairingForest ι κ := (removeRoot i f).getD (removeBelow i f)

theorem removeChild_of_not_mem (h : i ∉ f.ids) : removeChild i f = f := by
  have hroot := (removeRoot_eq_none f).mpr fun hmem => h (f.roots_subset hmem)
  rw [removeChild, hroot, Option.getD_none, removeBelow_of_not_mem h]

theorem removeBelow_node (i j : ι) (k : κ) (c r : PairingForest ι κ) :
    removeBelow i (node j k c r) = node j k (removeChild i c) (removeBelow i r) := rfl

theorem first_removeBelow (i : ι) (f : PairingForest ι κ) : (removeBelow i f).first = f.first := by
  cases f with
  | nil => rfl
  | node => rfl

theorem entries_removeBelow (hnodup : f.ids.Nodup) (h : i ∈ f.ids) (hroot : i ∉ f.trees.map (·.id)) :
    ∃ k, f.entries.Perm ((i, k) :: (removeBelow i f).entries) := by
  induction f with
  | nil => cases h
  | node j k c r ihc ihr =>
    have hj : i ≠ j := fun heq => hroot (heq ▸ List.mem_cons_self)
    have hr : i ∉ r.trees.map (·.id) := fun hmem => hroot (List.mem_cons_of_mem _ hmem)
    rw [ids_node, List.nodup_cons, List.nodup_append'] at hnodup
    obtain ⟨-, hcn, hrn, hdisjoint⟩ := hnodup
    rw [ids_node, List.mem_cons, List.mem_append, or_iff_right hj] at h
    rw [removeBelow_node]
    rcases h with hmem | hmem
    · have hchild : ∃ l, c.entries.Perm ((i, l) :: (removeChild i c).entries) := by
        cases hc : removeRoot i c with
        | none =>
          rw [removeChild, hc, Option.getD_none]
          exact ihc hcn hmem ((removeRoot_eq_none c).mp hc)
        | some d =>
          rw [removeChild, hc, Option.getD_some]
          exact entries_removeRoot hc
      obtain ⟨l, hl⟩ := hchild
      rw [removeBelow_of_not_mem (hdisjoint hmem)]
      exact ⟨l, (List.Perm.cons _ (hl.append_right _)).trans (List.Perm.swap _ _ _)⟩
    · obtain ⟨l, hl⟩ := ihr hrn hmem hr
      rw [removeChild_of_not_mem fun hc => hdisjoint hc hmem]
      refine ⟨l, (List.Perm.cons _ ((hl.append_left _).trans List.perm_middle)).trans (List.Perm.swap _ _ _)⟩

theorem entries_removeChild (hnodup : f.ids.Nodup) (h : i ∈ f.ids) :
    ∃ k, f.entries.Perm ((i, k) :: (removeChild i f).entries) := by
  cases hroot : removeRoot i f with
  | none =>
    rw [removeChild, hroot, Option.getD_none]
    exact entries_removeBelow hnodup h ((removeRoot_eq_none f).mp hroot)
  | some g =>
    rw [removeChild, hroot, Option.getD_some]
    exact entries_removeRoot hroot

theorem removeChild_subset (hnodup : f.ids.Nodup) : (removeChild i f).entries ⊆ f.entries := by
  by_cases h : i ∈ f.ids
  · obtain ⟨k, hk⟩ := entries_removeChild hnodup h
    exact List.Subset.trans (List.subset_cons_self _ _) hk.symm.subset
  · rw [removeChild_of_not_mem h]
    exact List.Subset.refl _

theorem Ordered.removeBelow (hnodup : f.ids.Nodup) (h : f.Ordered) : (f.removeBelow i).Ordered := by
  induction f with
  | nil => exact h
  | node j k c r ihc ihr =>
    rw [ids_node, List.nodup_cons, List.nodup_append'] at hnodup
    obtain ⟨-, hcn, hrn, -⟩ := hnodup
    refine ⟨fun e he => h.1 e (removeChild_subset hcn he), ?_, ihr hrn h.2.2⟩
    rw [← PairingForest.removeChild]
    cases hroot : PairingForest.removeRoot i c with
    | none =>
      rw [removeChild, hroot, Option.getD_none]
      exact ihc hcn h.2.1
    | some d =>
      rw [removeChild, hroot, Option.getD_some]
      exact h.2.1.removeRoot hroot

theorem Ordered.removeChild (hnodup : f.ids.Nodup) (h : f.Ordered) : (f.removeChild i).Ordered := by
  cases hroot : PairingForest.removeRoot i f with
  | none =>
    rw [PairingForest.removeChild, hroot, Option.getD_none]
    exact h.removeBelow hnodup
  | some d =>
    rw [PairingForest.removeChild, hroot, Option.getD_some]
    exact h.removeRoot hroot

end Remove

end PairingForest

namespace PairingTree

variable {ι κ : Type} [DecidableEq ι] [LinearOrder κ] {t : PairingTree ι κ} {i : ι}

def remove (i : ι) (t : PairingTree ι κ) : Option (PairingTree ι κ) :=
  if i = t.id then t.children.merge else some ⟨t.id, t.key, t.children.removeChild i⟩

theorem entries_remove (hnodup : t.ids.Nodup) (h : i ∈ t.ids) :
    ∃ k, t.entries.Perm ((i, k) :: (t.remove i).elim [] entries) := by
  unfold remove
  split
  next heq =>
    subst heq
    exact ⟨t.key, List.Perm.cons _ (PairingForest.entries_merge t.children).symm⟩
  next hne =>
    have hmem := (List.mem_cons.mp h).resolve_left hne
    obtain ⟨k, hk⟩ := PairingForest.entries_removeChild (List.nodup_cons.mp hnodup).2 hmem
    exact ⟨k, (List.Perm.cons _ hk).trans (List.Perm.swap _ _ _)⟩

theorem Ordered.remove (hnodup : t.ids.Nodup) (h : t.Ordered) : ∀ u ∈ t.remove i, u.Ordered := by
  have hchildren := (List.nodup_cons.mp hnodup).2
  unfold PairingTree.remove
  split
  next => exact h.2.merge
  next =>
    intro u hu
    cases hu
    exact ⟨fun e he => h.1 e (PairingForest.removeChild_subset hchildren he), h.2.removeChild hchildren⟩

end PairingTree
