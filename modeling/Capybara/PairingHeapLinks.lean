import Capybara.Lib.PairingForest
import Capybara.PairingHeap

namespace Capybara

open scoped List

variable {ι κ : Type} [DecidableEq ι]

/-- The pointers of the nodes are those of a forest whose siblings come after `prev` and before `next`. -/
def Linked (nodes : HeapNodes ι κ) : Option ι → Option ι → Option ι → PairingForest ι κ → Prop
  | _, _, _, .nil => True
  | parent, prev, next, .node i k c r =>
    nodes.get i = some ⟨parent, prev, r.first.or next, c.first, k⟩ ∧ Linked nodes (some i) none none c ∧
      Linked nodes parent (some i) next r

def TreeLinked (nodes : HeapNodes ι κ) (parent prev next : Option ι) (t : PairingTree ι κ) : Prop :=
  nodes.get t.id = some ⟨parent, prev, next, t.children.first, t.key⟩ ∧ Linked nodes (some t.id) none none t.children

/-- All other nodes are as they were. -/
def SameOutside (ids : List ι) (nodes nodes' : HeapNodes ι κ) : Prop := ∀ j, j ∉ ids → nodes'.get j = nodes.get j

theorem SameOutside.mono {ids ids' : List ι} {nodes nodes' : HeapNodes ι κ} (h : SameOutside ids nodes nodes')
    (hsub : ids ⊆ ids') : SameOutside ids' nodes nodes' := fun j hj => h j fun hmem => hj (hsub hmem)

theorem SameOutside.trans {ids : List ι} {nodes nodes' nodes'' : HeapNodes ι κ} (h : SameOutside ids nodes nodes')
    (h' : SameOutside ids nodes' nodes'') : SameOutside ids nodes nodes'' := fun j hj => (h' j hj).trans (h j hj)

namespace Linked

variable {nodes nodes' : HeapNodes ι κ} {parent prev next : Option ι} {f g : PairingForest ι κ}

theorem congr (h : Linked nodes parent prev next f) (hsame : ∀ j ∈ f.ids, nodes'.get j = nodes.get j) :
    Linked nodes' parent prev next f := by
  induction f generalizing parent prev next with
  | nil => trivial
  | node i k c r ihc ihr =>
    rw [PairingForest.ids_node, List.forall_mem_cons, List.forall_mem_append] at hsame
    exact ⟨hsame.1.trans h.1, ihc h.2.1 hsame.2.1, ihr h.2.2 hsame.2.2⟩

theorem frame {ids : List ι} (h : Linked nodes parent prev next f) (hsame : SameOutside ids nodes nodes')
    (hdisjoint : f.ids.Disjoint ids) : Linked nodes' parent prev next f :=
  h.congr fun j hj => hsame j fun hmem => hdisjoint hj hmem

theorem append_iff : Linked nodes parent prev next (f.append g) ↔
    Linked nodes parent prev (g.first.or next) f ∧ Linked nodes parent (f.last.or prev) next g := by
  induction f generalizing prev with
  | nil => simp [PairingForest.append, PairingForest.last, Linked]
  | node i k c r _ ih =>
    simp only [PairingForest.append, PairingForest.last, Linked, ih, PairingForest.first_append, Option.or_assoc,
      Option.some_or, and_assoc]

theorem snoc_iff {t : PairingTree ι κ} : Linked nodes parent prev next (f.snoc t) ↔
    Linked nodes parent prev (some t.id) f ∧ TreeLinked nodes parent (f.last.or prev) next t := by
  rw [PairingForest.snoc, append_iff]
  simp [Linked, TreeLinked, PairingForest.first]

theorem ids_stored (h : Linked nodes parent prev next f) : ∀ j ∈ f.ids, (nodes.get j).isSome := by
  induction f generalizing parent prev next with
  | nil => exact fun j hj => nomatch hj
  | node i k c r ihc ihr =>
    rw [PairingForest.ids_node, List.forall_mem_cons, List.forall_mem_append]
    exact ⟨by rw [h.1]; rfl, ihc h.2.1, ihr h.2.2⟩

theorem get_first {q : ι} (h : Linked nodes parent prev next f) (hq : f.first = some q) :
    ∃ n, nodes.get q = some n ∧ n.prev = prev := by
  cases f with
  | nil => cases hq
  | node i k c r =>
    rw [← Option.some.inj hq]
    exact ⟨_, h.1, rfl⟩

theorem get_first_parent {q : ι} (h : Linked nodes parent prev next f) (hq : f.first = some q) :
    ∃ n, nodes.get q = some n ∧ n.parent = parent := by
  cases f with
  | nil => cases hq
  | node i k c r =>
    rw [← Option.some.inj hq]
    exact ⟨_, h.1, rfl⟩

theorem get_last {q : ι} (h : Linked nodes parent prev next f) (hq : f.last = some q) :
    ∃ n, nodes.get q = some n ∧ n.next = next := by
  rcases f.eq_nil_or_snoc with rfl | ⟨g, t, rfl⟩
  · cases hq
  · rw [g.last_snoc t] at hq
    rw [← Option.some.inj hq]
    exact ⟨_, (snoc_iff.mp h).2.1, rfl⟩

/-- There are no more nodes in a forest than there are nodes. -/
theorem ids_length_le (h : Linked nodes parent prev next f) (hnodup : f.ids.Nodup) : f.ids.length ≤ nodes.size := by
  rw [HashMap.size_eq]
  refine (List.subperm_of_subset hnodup fun j hj => ?_).length_le
  rw [HashMap.mem_keys_iff]
  exact h.ids_stored j hj

/-- What the last sibling points to can change on its own. -/
theorem set_next {next' : Option ι} (h : Linked nodes parent prev next f) (hnodup : f.ids.Nodup)
    (hlast : ∀ q n, f.last = some q → nodes.get q = some n → nodes'.get q = some { n with next := next' })
    (hrest : ∀ j ∈ f.ids, f.last ≠ some j → nodes'.get j = nodes.get j) : Linked nodes' parent prev next' f := by
  rcases f.eq_nil_or_snoc with rfl | ⟨g, t, rfl⟩
  · trivial
  · have hend := g.last_snoc t
    rw [g.ids_snoc, PairingTree.ids_eq] at hnodup hrest
    obtain ⟨-, hchildren, hdisjoint⟩ := List.nodup_append'.mp hnodup
    rw [List.forall_mem_append, List.forall_mem_cons, hend] at hrest
    rw [snoc_iff] at h ⊢
    obtain ⟨hg, ht, hc⟩ := h
    refine ⟨hg.congr fun j hj => hrest.1 j hj fun heq => ?_, hlast t.id _ hend ht, hc.congr fun j hj => ?_⟩
    · exact hdisjoint hj (Option.some.inj heq ▸ List.mem_cons_self)
    · exact hrest.2.2 j hj fun heq => (List.nodup_cons.mp hchildren).1 (Option.some.inj heq ▸ hj)

/-- What the first sibling points back to can change on its own. -/
theorem set_prev {prev' : Option ι} (h : Linked nodes parent prev next f) (hnodup : f.ids.Nodup)
    (hfirst : ∀ q n, f.first = some q → nodes.get q = some n → nodes'.get q = some { n with prev := prev' })
    (hrest : ∀ j ∈ f.ids, f.first ≠ some j → nodes'.get j = nodes.get j) : Linked nodes' parent prev' next f := by
  cases f with
  | nil => trivial
  | node i k c r =>
    rw [PairingForest.ids_node, List.nodup_cons] at hnodup
    rw [PairingForest.ids_node, List.forall_mem_cons, List.forall_mem_append] at hrest
    have hne : ∀ j ∈ c.ids ++ r.ids, (PairingForest.node i k c r).first ≠ some j :=
      fun j hj heq => hnodup.1 (Option.some.inj heq ▸ hj)
    refine ⟨hfirst i _ rfl h.1, h.2.1.congr fun j hj => ?_, h.2.2.congr fun j hj => ?_⟩
    · exact hrest.2.1 j hj (hne j (List.mem_append_left _ hj))
    · exact hrest.2.2 j hj (hne j (List.mem_append_right _ hj))

end Linked

theorem TreeLinked.frame {nodes nodes' : HeapNodes ι κ} {parent prev next : Option ι} {t : PairingTree ι κ} {ids : List ι}
    (h : TreeLinked nodes parent prev next t) (hsame : SameOutside ids nodes nodes') (hdisjoint : t.ids.Disjoint ids) :
    TreeLinked nodes' parent prev next t := by
  rw [PairingTree.ids_eq, List.disjoint_cons_left] at hdisjoint
  exact ⟨(hsame t.id hdisjoint.1).trans h.1, h.2.frame hsame hdisjoint.2⟩

namespace HeapNodes

variable {nodes : HeapNodes ι κ} {parent prev next : Option ι} {f : PairingForest ι κ} {t left right : PairingTree ι κ}

theorem modify_eq {i : ι} {n : HeapNode ι κ} (h : nodes.get i = some n) (f : HeapNode ι κ → HeapNode ι κ) :
    nodes.modify i f = some (nodes.insert i (f n)) := by
  rw [modify, h]
  rfl

theorem takeParent_eq {i : ι} {n : HeapNode ι κ} (h : nodes.get i = some n) :
    nodes.takeParent i = some (nodes.insert i { n with parent := none }, n.parent) := by
  rw [takeParent, h]
  rfl

theorem lastChild_eq {fuel : Nat} {a : ι} (h : Linked nodes parent prev none f) (hfirst : f.first = some a)
    (hfuel : f.trees.length ≤ fuel) : nodes.lastChild fuel a = f.last := by
  induction f generalizing prev fuel a with
  | nil => cases hfirst
  | node i k c r _ ih =>
    cases hfirst
    cases fuel with
    | zero => exact absurd hfuel (Nat.not_succ_le_zero _)
    | succ fuel =>
      rw [lastChild, h.1, Option.or_none]
      cases hr : r.first with
      | none =>
        cases r with
        | nil => simp [PairingForest.last]
        | node => cases hr
      | some b =>
        have hlast := ih h.2.2 hr (Nat.le_of_succ_le_succ hfuel)
        cases r with
        | nil => cases hr
        | node j l d s => simp [hlast, PairingForest.last]

theorem unlinkPrev_get {i : ι} {n : HeapNode ι κ} (hget : nodes.get i = some n) (hnext : n.next = none)
    (hprev : ∀ q, n.prev = some q → q ≠ i ∧ ∃ m, nodes.get q = some m ∧ m.next = some i) :
    ∃ nodes', nodes.unlinkPrev i = some (nodes', n.prev) ∧ nodes'.get i = some { n with prev := none } ∧
      (∀ q m, n.prev = some q → nodes.get q = some m → nodes'.get q = some { m with next := none }) ∧
      ∀ j, j ≠ i → n.prev ≠ some j → nodes'.get j = nodes.get j := by
  cases hp : n.prev with
  | none =>
    refine ⟨nodes.insert i { n with prev := none }, ?_, ?_, ?_, fun j hj _ => ?_⟩
    · simp [unlinkPrev, hget, hnext, hp]
    · simp
    · exact fun q m hq => nomatch hq
    · simp [hj]
  | some q =>
    obtain ⟨hne, m, hm, hback⟩ := hprev q hp
    refine ⟨HashMap.insert (nodes.insert i { n with prev := none }) q { m with next := none }, ?_, ?_, ?_,
      fun j hj hjq => ?_⟩
    · simp [unlinkPrev, hget, hnext, hp, hne, hm, hback]
    · simp [Ne.symm hne]
    · intro q' m' hq' hm'
      cases hq'
      cases hm.symm.trans hm'
      simp
    · have hjne : j ≠ q := fun heq => hjq (heq ▸ rfl)
      simp [hj, hjne]

/-- The last child alone, with what comes before it. -/
theorem unlinkPrev_linked (h : Linked nodes parent none none (f.snoc t)) (hnodup : (f.snoc t).ids.Nodup) :
    ∃ nodes₁ nodes₂, nodes.takeParent t.id = some (nodes₁, parent) ∧
      nodes₁.unlinkPrev t.id = some (nodes₂, f.last) ∧ TreeLinked nodes₂ none none none t ∧
      Linked nodes₂ parent none none f ∧ SameOutside (f.snoc t).ids nodes nodes₂ := by
  rw [f.ids_snoc] at hnodup ⊢
  obtain ⟨hf, htree, hdisjoint⟩ := List.nodup_append'.mp hnodup
  rw [PairingTree.ids_eq, List.nodup_cons] at htree
  obtain ⟨hfl, hget, hc⟩ := Linked.snoc_iff.mp h
  have hnot : ∀ j ∈ f.ids, j ≠ t.id := fun j hj heq => hdisjoint hj (heq ▸ List.mem_cons_self)
  have hchild : ∀ j ∈ t.children.ids, j ≠ t.id := fun j hj heq => htree.1 (heq ▸ hj)
  rw [Option.or_none] at hget
  have htake := takeParent_eq hget
  generalize hnodes₁ : HashMap.insert nodes t.id _ = nodes₁ at htake
  have hget₁ : nodes₁.get t.id = some ⟨none, f.last, none, t.children.first, t.key⟩ := by
    rw [← hnodes₁, HashMap.get_insert, if_pos rfl]
  have hsame₁ : ∀ j, j ≠ t.id → nodes₁.get j = nodes.get j := by
    intro j hj
    rw [← hnodes₁, HashMap.get_insert, if_neg hj]
  have hback : ∀ q, f.last = some q → q ≠ t.id ∧ ∃ m, nodes₁.get q = some m ∧ m.next = some t.id := by
    intro q hq
    have hne := hnot q (PairingForest.last_mem hq)
    rw [hsame₁ q hne]
    exact ⟨hne, hfl.get_last hq⟩
  obtain ⟨nodes₂, hunlink, hself, hlast, hrest⟩ := unlinkPrev_get hget₁ rfl hback
  have hsame₂ : ∀ j, j ≠ t.id → f.last ≠ some j → nodes₂.get j = nodes.get j :=
    fun j hj hjl => (hrest j hj hjl).trans (hsame₁ j hj)
  refine ⟨nodes₁, nodes₂, htake, hunlink, ⟨hself, hc.congr fun j hj => ?_⟩, ?_, fun j hj => ?_⟩
  · refine hsame₂ j (hchild j hj) fun heq => ?_
    exact hdisjoint (PairingForest.last_mem heq) (List.mem_cons_of_mem _ hj)
  · refine hfl.set_next hf (fun q n hq hn => hlast q n hq ?_) fun j hj hjl => hsame₂ j (hnot j hj) hjl
    exact (hsame₁ q (hnot q (PairingForest.last_mem hq))).trans hn
  · rw [List.mem_append, not_or] at hj
    exact hsame₂ j (fun heq => hj.2 (heq ▸ List.mem_cons_self)) fun heq => hj.1 (PairingForest.last_mem heq)

variable [LinearOrder κ]

theorem addChild_get {p c : ι} {np nc : HeapNode ι κ} (hp : nodes.get p = some np) (hc : nodes.get c = some nc)
    (hne : p ≠ c) (hle : np.data ≤ nc.data)
    (hold : ∀ o, np.firstChild = some o → o ≠ p ∧ o ≠ c ∧ ∃ no, nodes.get o = some no ∧ no.prev = none) :
    ∃ nodes', nodes.addChild p c = some nodes' ∧ nodes'.get p = some { np with firstChild := some c } ∧
      nodes'.get c = some { nc with parent := some p, next := np.firstChild.or nc.next } ∧
      (∀ o no, np.firstChild = some o → nodes.get o = some no → nodes'.get o = some { no with prev := some c }) ∧
      ∀ j, j ≠ p → j ≠ c → np.firstChild ≠ some j → nodes'.get j = nodes.get j := by
  cases hfirst : np.firstChild with
  | none =>
    refine ⟨HashMap.insert (HashMap.insert (nodes.insert p { np with firstChild := none }) p
      { np with firstChild := some c }) c { nc with parent := some p }, ?_, ?_, ?_, ?_, fun j hjp hjc _ => ?_⟩
    · simp [addChild, linkNext, modify, hp, hc, hle, hfirst, Ne.symm hne]
    · simp [hne]
    · simp
    · exact fun o no ho => nomatch ho
    · simp [hjp, hjc]
  | some o =>
    obtain ⟨hop, hoc, no, hget, hprev⟩ := hold o hfirst
    refine ⟨HashMap.insert (HashMap.insert (HashMap.insert (HashMap.insert
      (nodes.insert p { np with firstChild := none }) c { nc with next := some o }) o { no with prev := some c }) p
      { np with firstChild := some c }) c { nc with parent := some p, next := some o }, ?_, ?_, ?_, ?_,
      fun j hjp hjc hjo => ?_⟩
    · simp [addChild, linkNext, modify, hp, hc, hle, hfirst, hne, Ne.symm hne, hop, hoc, Ne.symm hop, Ne.symm hoc,
        hget, hprev]
    · simp [hne]
    · simp
    · intro o' no' ho' hno'
      cases ho'
      cases hget.symm.trans hno'
      simp [hop, hoc]
    · have hjne : j ≠ o := fun heq => hjo (heq ▸ rfl)
      simp [hjp, hjc, hjne]

theorem addChild_linked (hl : TreeLinked nodes parent prev next left) (hr : TreeLinked nodes none none none right)
    (hle : left.key ≤ right.key) (hnodup : (left.ids ++ right.ids).Nodup) :
    ∃ nodes', nodes.addChild left.id right.id = some nodes' ∧
      TreeLinked nodes' parent prev next (left.addChild right) ∧ SameOutside (left.ids ++ right.ids) nodes nodes' := by
  obtain ⟨hgetl, hcl⟩ := hl
  obtain ⟨hgetr, hcr⟩ := hr
  obtain ⟨hleft, hright, hdisjoint⟩ := List.nodup_append'.mp hnodup
  rw [PairingTree.ids_eq, List.nodup_cons] at hleft hright
  have hne : left.id ≠ right.id := fun heq => hdisjoint List.mem_cons_self (heq ▸ List.mem_cons_self)
  have hlne : ∀ j ∈ left.children.ids, j ≠ left.id ∧ j ≠ right.id := fun j hj =>
    ⟨fun heq => hleft.1 (heq ▸ hj), fun heq => hdisjoint (List.mem_cons_of_mem _ hj) (heq ▸ List.mem_cons_self)⟩
  have hrne : ∀ j ∈ right.children.ids, j ≠ left.id ∧ j ≠ right.id ∧ left.children.first ≠ some j := by
    intro j hj
    have hj' : j ∈ right.ids := List.mem_cons_of_mem _ hj
    refine ⟨fun heq => hdisjoint List.mem_cons_self (heq ▸ hj'), fun heq => hright.1 (heq ▸ hj), fun heq => ?_⟩
    exact hdisjoint (List.mem_cons_of_mem _ (PairingForest.first_mem heq)) hj'
  have hold : ∀ o, left.children.first = some o →
      o ≠ left.id ∧ o ≠ right.id ∧ ∃ no, nodes.get o = some no ∧ no.prev = none := by
    intro o ho
    obtain ⟨hol, hor⟩ := hlne o (PairingForest.first_mem ho)
    exact ⟨hol, hor, hcl.get_first ho⟩
  obtain ⟨nodes', hrun, hgetl', hgetr', hfirst, hrest⟩ := addChild_get hgetl hgetr hne hle hold
  refine ⟨nodes', hrun, ⟨hgetl', hgetr', hcr.congr fun j hj => ?_, ?_⟩, fun j hj => ?_⟩
  · obtain ⟨hjl, hjr, hjo⟩ := hrne j hj
    exact hrest j hjl hjr hjo
  · refine hcl.set_prev hleft.2 (fun q n hq hn => hfirst q n hq hn) fun j hj hjo => ?_
    obtain ⟨hjl, hjr⟩ := hlne j hj
    exact hrest j hjl hjr hjo
  · rw [List.mem_append, not_or] at hj
    refine hrest j (fun heq => hj.1 (heq ▸ List.mem_cons_self)) (fun heq => hj.2 (heq ▸ List.mem_cons_self)) ?_
    exact fun heq => hj.1 (List.mem_cons_of_mem _ (PairingForest.first_mem heq))

theorem meld_linked (hl : TreeLinked nodes none none none left) (hr : TreeLinked nodes none none none right)
    (hnodup : (left.ids ++ right.ids).Nodup) : ∃ nodes', nodes.meld left.id right.id = some (nodes', (left.meld right).id) ∧
      TreeLinked nodes' none none none (left.meld right) ∧ SameOutside (left.ids ++ right.ids) nodes nodes' := by
  have hrun : nodes.meld left.id right.id = if left.key < right.key then
      (nodes.addChild left.id right.id).map fun nodes => (nodes, left.id)
      else (nodes.addChild right.id left.id).map fun nodes => (nodes, right.id) := by
    simp [meld, hl.1, hr.1, HeapNode.isRoot]
  rw [hrun, PairingTree.meld]
  split
  next hlt =>
    obtain ⟨nodes', hadd, hlinked, hsame⟩ := addChild_linked hl hr (le_of_lt hlt) hnodup
    exact ⟨nodes', by rw [hadd]; rfl, hlinked, hsame⟩
  next hle =>
    have hswap := List.nodup_append_comm.mp hnodup
    obtain ⟨nodes', hadd, hlinked, hsame⟩ := addChild_linked hr hl (le_of_not_gt hle) hswap
    exact ⟨nodes', by rw [hadd]; rfl, hlinked, hsame.mono List.perm_append_comm.subset⟩

theorem maybeMeld_linked {current : Option (PairingTree ι κ)} (hl : ∀ u ∈ current, TreeLinked nodes none none none u)
    (hr : TreeLinked nodes none none none right) (hnodup : (current.elim [] PairingTree.ids ++ right.ids).Nodup) :
    ∃ nodes', nodes.maybeMeld (current.map (·.id)) right.id = some (nodes', (PairingTree.maybeMeld current right).id) ∧
      TreeLinked nodes' none none none (PairingTree.maybeMeld current right) ∧
      SameOutside (current.elim [] PairingTree.ids ++ right.ids) nodes nodes' := by
  cases current with
  | none => exact ⟨nodes, rfl, hr, fun _ _ => rfl⟩
  | some left => exact meld_linked (hl left rfl) hr hnodup

theorem mergeLoop_linked {p a : ι} {fuel : Nat} {current : Option (PairingTree ι κ)} {ts : List (PairingTree ι κ)}
    (ha : ts.head?.map (·.id) = some a) (h : Linked nodes (some p) none none (.ofReverse ts))
    (hcurrent : ∀ u ∈ current, TreeLinked nodes none none none u)
    (hnodup : (current.elim [] PairingTree.ids ++ (PairingForest.ofReverse ts).ids).Nodup) (hfuel : ts.length ≤ fuel) :
    ∃ nodes' u, mergeLoop (some p) fuel nodes a (current.map (·.id)) = some (nodes', u.id) ∧
      PairingTree.mergeReverse current ts = some u ∧ TreeLinked nodes' none none none u ∧
      SameOutside (current.elim [] PairingTree.ids ++ (PairingForest.ofReverse ts).ids) nodes nodes' := by
  induction current, ts using PairingTree.mergeReverse.induct generalizing nodes a fuel with
  | case1 current => cases ha
  | case2 current t =>
    cases ha
    obtain ⟨fuel, rfl⟩ := Nat.exists_eq_succ_of_ne_zero (Nat.ne_of_gt (Nat.lt_of_lt_of_le (Nat.succ_pos _) hfuel))
    obtain ⟨-, htree, hdisjoint⟩ := List.nodup_append'.mp hnodup
    obtain ⟨nodes₁, nodes₂, htake, hunlink, ht, -, hsame⟩ := unlinkPrev_linked h htree
    have hcurrent₂ : ∀ u ∈ current, TreeLinked nodes₂ none none none u := by
      intro u hu
      cases hu
      exact (hcurrent u rfl).frame hsame hdisjoint
    have hids : (PairingForest.ofReverse [t]).ids = t.ids := PairingForest.ids_snoc .nil t
    rw [hids] at hnodup ⊢
    obtain ⟨nodes₃, hmeld, hlinked, hsame₃⟩ := maybeMeld_linked hcurrent₂ ht hnodup
    change nodes₁.unlinkPrev t.id = some (nodes₂, none) at hunlink
    change SameOutside (PairingForest.ofReverse [t]).ids nodes nodes₂ at hsame
    rw [hids] at hsame
    refine ⟨nodes₃, _, ?_, rfl, hlinked, (hsame.mono (List.subset_append_right _ _)).trans hsame₃⟩
    simp [mergeLoop, htake, hunlink, hmeld]
  | case3 current t s ts ih =>
    cases ha
    obtain ⟨fuel, rfl⟩ := Nat.exists_eq_succ_of_ne_zero (Nat.ne_of_gt (Nat.lt_of_lt_of_le (Nat.succ_pos _) hfuel))
    have hids : (PairingForest.ofReverse (t :: s :: ts)).ids = (PairingForest.ofReverse ts).ids ++ s.ids ++ t.ids := by
      rw [PairingForest.ofReverse, PairingForest.ids_snoc, PairingForest.ofReverse, PairingForest.ids_snoc]
    obtain ⟨-, hall, hcall⟩ := List.nodup_append'.mp hnodup
    obtain ⟨nodes₁, nodes₂, htake, hunlink, ht, hrest, hsame⟩ := unlinkPrev_linked h hall
    change SameOutside (PairingForest.ofReverse (t :: s :: ts)).ids nodes nodes₂ at hsame
    rw [hids] at hall hcall hsame hnodup ⊢
    obtain ⟨hfs, htree, hfst⟩ := List.nodup_append'.mp hall
    have hfs' : ((PairingForest.ofReverse ts).snoc s).ids.Nodup := PairingForest.ids_snoc _ s ▸ hfs
    obtain ⟨nodes₃, nodes₄, htake', hunlink', hs, hts, hsame'⟩ := unlinkPrev_linked hrest hfs'
    rw [PairingForest.last_ofReverse] at hunlink hunlink'
    rw [PairingForest.ids_snoc] at hsame'
    obtain ⟨hf, hstree, hdfs⟩ := List.nodup_append'.mp hfs
    have ht₄ := ht.frame hsame' (List.disjoint_symm hfst)
    have hst : (s.ids ++ t.ids).Nodup := List.nodup_append'.mpr ⟨hstree, htree, (List.disjoint_append_left.mp hfst).2⟩
    obtain ⟨nodes₅, hpair, hlinked₅, hsame₅⟩ := meld_linked hs ht₄ hst
    have hfst' : (PairingForest.ofReverse ts).ids.Disjoint (s.ids ++ t.ids) :=
      List.disjoint_append_right.mpr ⟨hdfs, (List.disjoint_append_left.mp hfst).1⟩
    have hts₅ := hts.frame hsame₅ hfst'
    have hto₅ : SameOutside ((PairingForest.ofReverse ts).ids ++ s.ids ++ t.ids) nodes nodes₅ := by
      refine (hsame.trans (hsame'.mono (List.subset_append_left _ _))).trans (hsame₅.mono ?_)
      rw [List.append_assoc]
      exact List.subset_append_right _ _
    have hcurrent₅ : ∀ u ∈ current, TreeLinked nodes₅ none none none u := by
      intro u hu
      cases hu
      exact (hcurrent u rfl).frame hto₅ hcall
    have hperm : ((PairingTree.maybeMeld current (s.meld t)).ids ++ (PairingForest.ofReverse ts).ids) ~
        (current.elim [] PairingTree.ids ++ ((PairingForest.ofReverse ts).ids ++ s.ids ++ t.ids)) := by
      have hmelds := (PairingTree.ids_maybeMeld current (s.meld t)).trans ((PairingTree.ids_meld s t).append_left _)
      refine (hmelds.append_right _).trans ?_
      rw [List.append_assoc, List.append_assoc (PairingForest.ofReverse ts).ids]
      exact List.perm_append_comm.append_left _
    have hnodup₆ := hperm.symm.nodup hnodup
    obtain ⟨hm, -, hdisjoint⟩ := List.nodup_append'.mp hnodup₆
    have hmids := PairingTree.ids_maybeMeld current (s.meld t)
    obtain ⟨nodes₆, hmeld, hlinked₆, hsame₆⟩ := maybeMeld_linked hcurrent₅ hlinked₅ (hmids.nodup hm)
    have hts₆ := hts₅.frame hsame₆ fun j hj hj' => hdisjoint (hmids.symm.subset hj') hj
    have hto₆ := (hto₅.mono (List.subset_append_right (current.elim [] PairingTree.ids) _)).trans
      (hsame₆.mono (List.Subset.trans hmids.symm.subset
        (List.Subset.trans (List.subset_append_left _ _) hperm.subset)))
    cases ts with
    | nil =>
      refine ⟨nodes₆, _, ?_, rfl, hlinked₆, hto₆⟩
      change nodes₃.unlinkPrev s.id = some (nodes₄, none) at hunlink'
      simp [mergeLoop, htake, hunlink, htake', hunlink', hpair, hmeld]
    | cons r ts =>
      have hfuel' : (r :: ts).length ≤ fuel := Nat.le_of_succ_le (Nat.le_of_succ_le_succ hfuel)
      obtain ⟨nodes₇, u, hloop, hmerge, hlinked₇, hsame₇⟩ := ih rfl hts₆ (fun u hu => by cases hu; exact hlinked₆)
        hnodup₆ hfuel'
      refine ⟨nodes₇, u, ?_, hmerge, hlinked₇, hto₆.trans (hsame₇.mono hperm.subset)⟩
      change nodes₃.unlinkPrev s.id = some (nodes₄, some r.id) at hunlink'
      simpa [mergeLoop, htake, hunlink, htake', hunlink', hpair, hmeld] using hloop

theorem mergeChildren_linked {p a : ι} (h : Linked nodes (some p) none none f) (hnodup : f.ids.Nodup)
    (hfirst : f.first = some a) : ∃ nodes' u, nodes.mergeChildren a = some (nodes', u.id) ∧ f.merge = some u ∧
      TreeLinked nodes' none none none u ∧ SameOutside f.ids nodes nodes' := by
  obtain ⟨n, hget, hparent⟩ := h.get_first_parent hfirst
  have hsize : f.trees.length ≤ nodes.size := Nat.le_trans f.trees_length_le (h.ids_length_le hnodup)
  have hlast := lastChild_eq h hfirst hsize
  rw [← f.ofReverse_trees] at h hnodup
  rw [← f.ofReverse_trees, PairingForest.last_ofReverse] at hlast
  obtain ⟨b, hb⟩ : ∃ b, f.trees.reverse.head?.map (·.id) = some b := by
    cases f with
    | nil => cases hfirst
    | node i k c r => simp [PairingForest.trees]
  rw [← List.length_reverse] at hsize
  rw [hb] at hlast
  have hnone : ∀ u ∈ (none : Option (PairingTree ι κ)), TreeLinked nodes none none none u := by
    intro u hu
    cases hu
  obtain ⟨nodes', u, hloop, hmerge, hlinked, hsame⟩ := mergeLoop_linked hb h hnone hnodup hsize
  rw [f.ofReverse_trees] at hsame
  refine ⟨nodes', u, ?_, hmerge, hlinked, hsame⟩
  simpa [mergeChildren, hget, hparent, hlast] using hloop

omit [LinearOrder κ] in
theorem setForward_get {p : ι} {np : HeapNode ι κ} (hp : nodes.get p = some np)
    (hprev : ∀ q, prev = some q → q ≠ p ∧ (nodes.get q).isSome) :
    ∃ nodes', nodes.setForward p prev next = some nodes' ∧
      (∀ q m, prev = some q → nodes.get q = some m → nodes'.get q = some { m with next := next }) ∧
      nodes'.get p = some (if prev = none then { np with firstChild := next } else np) ∧
      ∀ j, j ≠ p → prev ≠ some j → nodes'.get j = nodes.get j := by
  cases prev with
  | none =>
    refine ⟨nodes.insert p { np with firstChild := next }, modify_eq hp _, fun q m hq => (nomatch hq), ?_, fun j hj _ => ?_⟩
    · simp
    · simp [hj]
  | some q =>
    obtain ⟨hne, hsome⟩ := hprev q rfl
    obtain ⟨m, hm⟩ := Option.isSome_iff_exists.mp hsome
    refine ⟨nodes.insert q { m with next := next }, modify_eq hm _, fun q' m' hq' hm' => ?_, ?_, fun j _ hj => ?_⟩
    · cases hq'
      cases hm.symm.trans hm'
      simp
    · simp [Ne.symm hne, hp]
    · have hjne : j ≠ q := fun heq => hj (heq ▸ rfl)
      simp [hjne]

omit [LinearOrder κ] in
theorem setBackward_get (hnext : ∀ q, next = some q → (nodes.get q).isSome) :
    ∃ nodes', nodes.setBackward prev next = some nodes' ∧
      (∀ q m, next = some q → nodes.get q = some m → nodes'.get q = some { m with prev := prev }) ∧
      ∀ j, next ≠ some j → nodes'.get j = nodes.get j := by
  cases next with
  | none => exact ⟨nodes, rfl, fun q m hq => (nomatch hq), fun _ _ => rfl⟩
  | some q =>
    obtain ⟨m, hm⟩ := Option.isSome_iff_exists.mp (hnext q rfl)
    refine ⟨nodes.insert q { m with prev := prev }, modify_eq hm _, fun q' m' hq' hm' => ?_, fun j hj => ?_⟩
    · cases hq'
      cases hm.symm.trans hm'
      simp
    · have hjne : j ≠ q := fun heq => hj (heq ▸ rfl)
      simp [hjne]

end HeapNodes

end Capybara
