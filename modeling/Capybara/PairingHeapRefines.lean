import Capybara.PairingHeapLinks

namespace Capybara

open scoped List

variable {ι κ : Type} [DecidableEq ι]

namespace PairingHeap

variable {nodes : HeapNodes ι κ} {root : Option ι}

theorem unlink_get {i p : ι} {n np : HeapNode ι κ} (hget : nodes.get i = some n) (hparent : n.parent = some p)
    (hp : nodes.get p = some np) (hne : i ≠ p)
    (hprev : ∀ q, n.prev = some q → q ≠ i ∧ q ≠ p ∧ n.next ≠ some q ∧ (nodes.get q).isSome)
    (hnext : ∀ q, n.next = some q → q ≠ i ∧ q ≠ p ∧ (nodes.get q).isSome) :
    ∃ nodes', unlink ⟨nodes, root⟩ i = some ⟨nodes', root⟩ ∧
      nodes'.get i = some { n with parent := none, next := none, prev := none } ∧
      (∀ q m, n.prev = some q → nodes.get q = some m → nodes'.get q = some { m with next := n.next }) ∧
      (∀ q m, n.next = some q → nodes.get q = some m → nodes'.get q = some { m with prev := n.prev }) ∧
      nodes'.get p = some (if n.prev = none then { np with firstChild := n.next } else np) ∧
      ∀ j, j ≠ i → j ≠ p → n.prev ≠ some j → n.next ≠ some j → nodes'.get j = nodes.get j := by
  generalize hnodes₁ : HashMap.insert nodes i { n with parent := none } = nodes₁
  have hsame₁ : ∀ j, j ≠ i → nodes₁.get j = nodes.get j := by
    intro j hj
    rw [← hnodes₁, HashMap.get_insert, if_neg hj]
  have hget₁ : nodes₁.get i = some { n with parent := none } := by rw [← hnodes₁, HashMap.get_insert, if_pos rfl]
  have hp₁ := (hsame₁ p (Ne.symm hne)).trans hp
  have hprev₁ : ∀ q, n.prev = some q → q ≠ p ∧ (nodes₁.get q).isSome := by
    intro q hq
    obtain ⟨hqi, hqp, -, hsome⟩ := hprev q hq
    exact ⟨hqp, hsame₁ q hqi ▸ hsome⟩
  obtain ⟨nodes₂, hforward, hq₂, hp₂, hsame₂⟩ := @HeapNodes.setForward_get ι κ _ nodes₁ n.prev n.next p np hp₁ hprev₁
  have hnext₂ : ∀ q, n.next = some q → nodes₂.get q = nodes.get q := by
    intro q hq
    obtain ⟨hqi, hqp, -⟩ := hnext q hq
    exact (hsame₂ q hqp fun hpq => (hprev q hpq).2.2.1 hq).trans (hsame₁ q hqi)
  have hsome₂ : ∀ q, n.next = some q → (nodes₂.get q).isSome := fun q hq => hnext₂ q hq ▸ (hnext q hq).2.2
  obtain ⟨nodes₃, hbackward, hq₃, hsame₃⟩ := @HeapNodes.setBackward_get ι κ _ nodes₂ n.prev n.next hsome₂
  have hself : nodes₃.get i = some { n with parent := none } := by
    rw [hsame₃ i fun hi => (hnext i hi).1 rfl, hsame₂ i hne fun hi => (hprev i hi).1 rfl, hget₁]
  refine ⟨nodes₃.insert i { n with parent := none, next := none, prev := none }, ?_, ?_, ?_, ?_, ?_, ?_⟩
  · simp [unlink, hget, hnodes₁, hparent, hforward, hbackward, HeapNodes.modify_eq hself]
  · rw [HashMap.get_insert, if_pos rfl]
  · intro q m hq hm
    obtain ⟨hqi, hqp, hqn, -⟩ := hprev q hq
    rw [HashMap.get_insert, if_neg hqi, hsame₃ q hqn]
    exact hq₂ q m hq ((hsame₁ q hqi).trans hm)
  · intro q m hq hm
    rw [HashMap.get_insert, if_neg (hnext q hq).1]
    exact hq₃ q m hq ((hnext₂ q hq).trans hm)
  · rw [HashMap.get_insert, if_neg (Ne.symm hne), hsame₃ p fun hq => (hnext p hq).2.1 rfl]
    exact hp₂
  · intro j hji hjp hjprev hjnext
    rw [HashMap.get_insert, if_neg hji, hsame₃ j hjnext, hsame₂ j hjp hjprev, hsame₁ j hji]

theorem unlink_linked {i p : ι} {np : HeapNode ι κ} {c d r : PairingForest ι κ} (hp : nodes.get p = some np)
    (hfirst : np.firstChild = c.first) (hc : Linked nodes (some p) none none c) (htake : c.takeRoot i = some (d, r))
    (hnodup : (p :: c.ids).Nodup) : ∃ nodes' n, nodes.get i = some n ∧ n.parent = some p ∧
      unlink ⟨nodes, root⟩ i = some ⟨nodes', root⟩ ∧ nodes'.get p = some { np with firstChild := r.first } ∧
      Linked nodes' (some p) none none r ∧ TreeLinked nodes' none none none ⟨i, n.data, d⟩ ∧
      SameOutside (p :: c.ids) nodes nodes' := by
  obtain ⟨a, k, b, rfl, rfl⟩ := PairingForest.takeRoot_split htake
  obtain ⟨ha, hi, hd, hb⟩ := Linked.append_iff.mp hc
  rw [PairingForest.ids_append, PairingForest.ids_node] at hnodup ⊢
  obtain ⟨hpnot, hnodup⟩ := List.nodup_cons.mp hnodup
  obtain ⟨han, hibn, habd⟩ := List.nodup_append'.mp hnodup
  obtain ⟨hinot, hdbn⟩ := List.nodup_cons.mp hibn
  obtain ⟨hdn, hbn, hdb⟩ := List.nodup_append'.mp hdbn
  rw [List.mem_append, List.mem_cons, List.mem_append, not_or, not_or, not_or] at hpnot
  obtain ⟨hpa, hpi, hpd, hpb⟩ := hpnot
  rw [List.mem_append, not_or] at hinot
  rw [List.disjoint_cons_right, List.disjoint_append_right] at habd
  obtain ⟨hia, had, hab⟩ := habd
  rw [Option.or_none, Option.or_none] at hi
  have hprev : ∀ q, a.last = some q → q ≠ i ∧ q ≠ p ∧ b.first ≠ some q ∧ (nodes.get q).isSome := by
    intro q hq
    have hqa := PairingForest.last_mem hq
    refine ⟨fun heq => hia (heq ▸ hqa), fun heq => hpa (heq ▸ hqa), fun heq => ?_, ha.ids_stored q hqa⟩
    exact hab hqa (PairingForest.first_mem heq)
  have hnext : ∀ q, b.first = some q → q ≠ i ∧ q ≠ p ∧ (nodes.get q).isSome := by
    intro q hq
    have hqb := PairingForest.first_mem hq
    exact ⟨fun heq => hinot.2 (heq ▸ hqb), fun heq => hpb (heq ▸ hqb), hb.ids_stored q hqb⟩
  obtain ⟨nodes', hrun, hself, hlast, hfirst', hparent, hrest⟩ :=
    @unlink_get ι κ _ nodes root i p _ np hi rfl hp (Ne.symm hpi) hprev hnext
  have hparent : nodes'.get p = some (if a.last = none then { np with firstChild := b.first } else np) := hparent
  have hsame : ∀ j, j ≠ i → j ≠ p → a.last ≠ some j → b.first ≠ some j → nodes'.get j = nodes.get j := hrest
  refine ⟨nodes', _, hi, rfl, hrun, ?_, ?_, ⟨hself, hd.congr fun j hj => ?_⟩, fun j hj => ?_⟩
  · rw [hparent, PairingForest.first_append]
    rw [PairingForest.first_append] at hfirst
    cases a with
    | nil => rfl
    | node x l e s =>
      have hne : (PairingForest.node x l e s).last ≠ none := by
        rw [Ne, PairingForest.last_eq_none_iff]
        exact nofun
      rw [if_neg hne]
      have hchild : np.firstChild = some x := hfirst
      rw [PairingForest.first, Option.some_or, ← hchild]
  · rw [Linked.append_iff, Option.or_none, Option.or_none]
    refine ⟨ha.set_next han hlast fun j hj hjl => ?_, hb.set_prev hbn hfirst' fun j hj hjf => ?_⟩
    · exact hsame j (fun heq => hia (heq ▸ hj)) (fun heq => hpa (heq ▸ hj)) hjl fun heq =>
        hab hj (PairingForest.first_mem heq)
    · exact hsame j (fun heq => hinot.2 (heq ▸ hj)) (fun heq => hpb (heq ▸ hj)) (fun heq =>
        hab (PairingForest.last_mem heq) hj) hjf
  · exact hsame j (fun heq => hinot.1 (heq ▸ hj)) (fun heq => hpd (heq ▸ hj))
      (fun heq => had (PairingForest.last_mem heq) hj) fun heq => hdb hj (PairingForest.first_mem heq)
  · rw [List.mem_cons, List.mem_append, List.mem_cons, List.mem_append, not_or, not_or, not_or, not_or] at hj
    obtain ⟨hjp, hja, hji, -, hjb⟩ := hj
    exact hsame j hji hjp (fun heq => hja (PairingForest.last_mem heq)) fun heq => hjb (PairingForest.first_mem heq)

variable [LinearOrder κ]

theorem removeRoot_linked {i p : ι} {np : HeapNode ι κ} {c c' : PairingForest ι κ} (hp : nodes.get p = some np)
    (hfirst : np.firstChild = c.first) (hc : Linked nodes (some p) none none c) (hle : ∀ e ∈ c.entries, np.data ≤ e.2)
    (hroot : c.removeRoot i = some c') (hnodup : (p :: c.ids).Nodup) : ∃ nodes' n, nodes.get i = some n ∧
      remove ⟨nodes, root⟩ i = some ⟨nodes', root⟩ ∧ nodes'.get p = some { np with firstChild := c'.first } ∧
      Linked nodes' (some p) none none c' ∧ nodes'.get i = some (.new n.data) ∧
      SameOutside (p :: c.ids) nodes nodes' := by
  obtain ⟨⟨d, r⟩, htake, hc'⟩ := Option.map_eq_some_iff.mp hroot
  obtain ⟨nodes₁, n, hn, hparent, hunlink, hp₁, hr₁, ⟨hi₁, hd₁⟩, hsame₁⟩ :=
    @unlink_linked ι κ _ nodes root i p np c d r hp hfirst hc htake hnodup
  obtain ⟨k, hperm⟩ := PairingForest.entries_takeRoot htake
  have hids : c.ids ~ i :: (d.ids ++ r.ids) := by
    have hmap := hperm.map Prod.fst
    rw [List.map_cons, List.map_append] at hmap
    exact hmap
  obtain ⟨hpnot, hidr⟩ := List.nodup_cons.mp (((hids.cons p).nodup_iff).mp hnodup)
  obtain ⟨hinot, hdr⟩ := List.nodup_cons.mp hidr
  obtain ⟨hdn, hrn, hdisjoint⟩ := List.nodup_append'.mp hdr
  rw [List.mem_cons, List.mem_append, not_or, not_or] at hpnot
  rw [List.mem_append, not_or] at hinot
  have hi₁ : nodes₁.get i = some ⟨none, none, none, d.first, n.data⟩ := hi₁
  have hd₁ : Linked nodes₁ (some i) none none d := hd₁
  have hc' : PairingForest.prepend d.merge r = c' := hc'
  generalize hnodes₂ : HashMap.insert nodes₁ i ⟨none, none, none, none, n.data⟩ = nodes₂
  have hsame₂ : ∀ j, j ≠ i → nodes₂.get j = nodes₁.get j := by
    intro j hj
    rw [← hnodes₂, HashMap.get_insert, if_neg hj]
  have hi₂ : nodes₂.get i = some (.new n.data) := by
    rw [← hnodes₂, HashMap.get_insert, if_pos rfl]
    rfl
  have hto₂ : SameOutside (p :: c.ids) nodes nodes₂ := fun j hj =>
    (hsame₂ j fun heq => hj (List.mem_cons_of_mem _ (hids.symm.subset (heq ▸ List.mem_cons_self)))).trans (hsame₁ j hj)
  have hp₂ := (hsame₂ p hpnot.1).trans hp₁
  have hr₂ := hr₁.congr fun j hj => hsame₂ j fun heq => hinot.2 (heq ▸ hj)
  have hd₂ := hd₁.congr fun j hj => hsame₂ j fun heq => hinot.1 (heq ▸ hj)
  cases hd : d.first with
  | none =>
    have hnil := PairingForest.first_eq_none_iff.mp hd
    rw [hnil] at hc'
    subst hc'
    refine ⟨nodes₂, n, hn, ?_, hp₂, hr₂, hi₂, hto₂⟩
    simp [remove, hn, hunlink, hi₁, hd, hnodes₂]
  | some a =>
    obtain ⟨nodes₃, u, hmerge, hu, hlinked₃, hsame₃⟩ := HeapNodes.mergeChildren_linked hd₂ hdn hd
    rw [hu] at hc'
    subst hc'
    have huids := PairingForest.ids_merge hu
    have hp₃ := (hsame₃ p hpnot.2.1).trans hp₂
    have hr₃ := hr₂.frame hsame₃ (List.disjoint_symm hdisjoint)
    have hpu : (PairingTree.ids ⟨p, np.data, r⟩ ++ u.ids).Nodup := by
      rw [List.nodup_append', PairingTree.ids_eq, List.nodup_cons, List.disjoint_cons_left]
      refine ⟨⟨hpnot.2.2, hrn⟩, huids.symm.nodup hdn, fun hmem => hpnot.2.1 (huids.subset hmem), fun j hj hju => ?_⟩
      exact hdisjoint (huids.subset hju) hj
    have hlekey : np.data ≤ u.key := by
      have hmem : (u.id, u.key) ∈ d.entries := by
        have hentries := d.entries_merge
        rw [hu] at hentries
        exact hentries.subset List.mem_cons_self
      exact hle _ (hperm.symm.subset (List.mem_cons_of_mem _ (List.mem_append_left _ hmem)))
    have hlinkedp : TreeLinked nodes₃ np.parent np.prev np.next ⟨p, np.data, r⟩ := ⟨hp₃, hr₃⟩
    obtain ⟨nodes₄, hadd, ⟨hp₄, hc₄⟩, hsame₄⟩ := HeapNodes.addChild_linked hlinkedp hlinked₃ hlekey hpu
    refine ⟨nodes₄, n, hn, ?_, hp₄, hc₄, ?_, ?_⟩
    · simp [remove, hn, hparent, hunlink, hi₁, hd, hnodes₂, hmerge, hadd]
    · have hij : i ∉ PairingTree.ids ⟨p, np.data, r⟩ ++ u.ids := by
        rw [List.mem_append, PairingTree.ids_eq, List.mem_cons, not_or, not_or]
        exact ⟨⟨Ne.symm hpnot.1, hinot.2⟩, fun hmem => hinot.1 (huids.subset hmem)⟩
      exact (hsame₄ i hij).trans ((hsame₃ i hinot.1).trans hi₂)
    · have hdsub : d.ids ⊆ p :: c.ids := fun j hj =>
        List.mem_cons_of_mem _ (hids.symm.subset (List.mem_cons_of_mem _ (List.mem_append_left _ hj)))
      refine hto₂.trans ((hsame₃.mono hdsub).trans (hsame₄.mono ?_))
      refine List.append_subset.mpr ⟨List.cons_subset_cons _ fun j hj => ?_, List.Subset.trans huids.subset hdsub⟩
      exact hids.symm.subset (List.mem_cons_of_mem _ (List.mem_append_right _ hj))

theorem removeBelow_linked {i : ι} {parent prev next : Option ι} {f : PairingForest ι κ}
    (h : Linked nodes parent prev next f) (hordered : f.Ordered) (hnodup : f.ids.Nodup) (hmem : i ∈ f.ids)
    (hroot : i ∉ f.trees.map (·.id)) : ∃ nodes' n, nodes.get i = some n ∧
      remove ⟨nodes, root⟩ i = some ⟨nodes', root⟩ ∧ Linked nodes' parent prev next (f.removeBelow i) ∧
      nodes'.get i = some (.new n.data) ∧ SameOutside f.ids nodes nodes' := by
  induction f generalizing parent prev next with
  | nil => cases hmem
  | node j k c r ihc ihr =>
    obtain ⟨hj, hc, hr⟩ := h
    have hji : i ≠ j := fun heq => hroot (heq ▸ List.mem_cons_self)
    have hri : i ∉ r.trees.map (·.id) := fun hmem => hroot (List.mem_cons_of_mem _ hmem)
    rw [PairingForest.ids_node] at hnodup ⊢
    obtain ⟨hjnot, hcr⟩ := List.nodup_cons.mp hnodup
    obtain ⟨hcn, hrn, hdisjoint⟩ := List.nodup_append'.mp hcr
    rw [List.mem_append, not_or] at hjnot
    rw [PairingForest.ids_node, List.mem_cons, List.mem_append, or_iff_right hji] at hmem
    rw [PairingForest.removeBelow_node]
    by_cases hic : i ∈ c.ids
    · rw [PairingForest.removeBelow_of_not_mem fun hir => hdisjoint hic hir, PairingForest.removeChild]
      cases hroot' : c.removeRoot i with
      | some c' =>
        have hjc := List.nodup_cons.mpr ⟨hjnot.1, hcn⟩
        obtain ⟨nodes', n, hn, hrun, hj', hc', hi', hsame⟩ :=
          @removeRoot_linked ι κ _ nodes root _ i j _ c c' hj rfl hc hordered.1 hroot' hjc
        have hrj : r.ids.Disjoint (j :: c.ids) :=
          List.disjoint_cons_right.mpr ⟨hjnot.2, List.disjoint_symm hdisjoint⟩
        refine ⟨nodes', n, hn, hrun, ⟨hj', hc', hr.frame hsame hrj⟩, hi', hsame.mono ?_⟩
        exact List.cons_subset_cons _ (List.subset_append_left _ _)
      | none =>
        obtain ⟨nodes', n, hn, hrun, hc', hi', hsame⟩ :=
          ihc hc hordered.2.1 hcn hic ((PairingForest.removeRoot_eq_none c).mp hroot')
        refine ⟨nodes', n, hn, hrun, ⟨?_, hc', hr.frame hsame (List.disjoint_symm hdisjoint)⟩, hi', hsame.mono ?_⟩
        · rw [hsame j hjnot.1, hj, Option.getD_none, PairingForest.first_removeBelow]
        · exact List.subset_cons_of_subset _ (List.subset_append_left _ _)
    · obtain ⟨nodes', n, hn, hrun, hr', hi', hsame⟩ := ihr hr hordered.2.2 hrn (hmem.resolve_left hic) hri
      rw [PairingForest.removeChild_of_not_mem hic]
      refine ⟨nodes', n, hn, hrun, ⟨?_, hc.frame hsame hdisjoint, hr'⟩, hi', hsame.mono ?_⟩
      · rw [hsame j hjnot.2, hj, PairingForest.first_removeBelow]
      · exact List.subset_cons_of_subset _ (List.subset_append_right _ _)

theorem remove_root_linked {t : PairingTree ι κ} (h : TreeLinked nodes none none none t) (hnodup : t.ids.Nodup) :
    ∃ nodes', remove ⟨nodes, some t.id⟩ t.id = some ⟨nodes', t.children.merge.map (·.id)⟩ ∧
      (∀ u ∈ t.children.merge, TreeLinked nodes' none none none u) ∧ nodes'.get t.id = some (.new t.key) ∧
      SameOutside t.ids nodes nodes' := by
  obtain ⟨hget, hc⟩ := h
  rw [PairingTree.ids_eq] at hnodup ⊢
  obtain ⟨hnot, hcn⟩ := List.nodup_cons.mp hnodup
  generalize hnodes₁ : HashMap.insert (nodes.insert t.id ⟨none, none, none, t.children.first, t.key⟩) t.id
    ⟨none, none, none, none, t.key⟩ = nodes₁
  have hsame₁ : ∀ j, j ≠ t.id → nodes₁.get j = nodes.get j := by
    intro j hj
    rw [← hnodes₁, HashMap.get_insert, if_neg hj, HashMap.get_insert, if_neg hj]
  have hget₁ : nodes₁.get t.id = some (.new t.key) := by
    rw [← hnodes₁, HashMap.get_insert, if_pos rfl]
    rfl
  have hc₁ := hc.congr fun j hj => hsame₁ j fun heq => hnot (heq ▸ hj)
  cases hfirst : t.children.first with
  | none =>
    have hnil := PairingForest.first_eq_none_iff.mp hfirst
    rw [hnil]
    refine ⟨nodes₁, ?_, fun u hu => (nomatch hu), hget₁, fun j hj => hsame₁ j fun heq => hj (heq ▸ List.mem_cons_self)⟩
    rw [← hnodes₁]
    simp [remove, unlink, hget, hfirst, PairingForest.merge, PairingForest.trees, PairingTree.mergeReverse]
  | some a =>
    obtain ⟨nodes₂, u, hmerge, hu, hlinked, hsame₂⟩ := HeapNodes.mergeChildren_linked hc₁ hcn hfirst
    rw [hu]
    refine ⟨nodes₂, ?_, fun v hv => ?_, (hsame₂ t.id hnot).trans hget₁, fun j hj => ?_⟩
    · rw [← hnodes₁] at hmerge
      rw [hfirst] at hmerge
      simp [remove, unlink, hget, hfirst, hmerge]
    · cases hv
      exact hlinked
    · rw [List.mem_cons, not_or] at hj
      exact (hsame₂ j hj.2).trans (hsame₁ j hj.1)

omit [LinearOrder κ] in
theorem linked_data {nodes : HeapNodes ι κ} {parent prev next : Option ι} {f : PairingForest ι κ} {i : ι} {k : κ}
    (h : Linked nodes parent prev next f) (hmem : (i, k) ∈ f.entries) : ∃ n, nodes.get i = some n ∧ n.data = k := by
  induction f generalizing parent prev next with
  | nil => cases hmem
  | node j l c r ihc ihr =>
    rcases List.mem_cons.mp hmem with heq | hmem
    · cases heq
      exact ⟨_, h.1, rfl⟩
    · rcases List.mem_append.mp hmem with hmem | hmem
      · exact ihc h.2.1 hmem
      · exact ihr h.2.2 hmem

/-- The heap is that of a tree in order, or there is nothing in it. -/
structure Holds (heap : PairingHeap ι κ) (t : Option (PairingTree ι κ)) : Prop where
  root : heap.root = t.map (·.id)
  linked : ∀ u ∈ t, TreeLinked heap.nodes none none none u
  nodup : ∀ u ∈ t, u.ids.Nodup
  ordered : ∀ u ∈ t, u.Ordered

theorem insert_holds {heap : PairingHeap ι κ} {t : Option (PairingTree ι κ)} {i : ι} {k : κ} (h : heap.Holds t)
    (hget : heap.nodes.get i = some (.new k)) (hnot : i ∉ t.elim [] PairingTree.ids) :
    ∃ heap', heap.insert i = some heap' ∧ heap'.Holds (some (PairingTree.maybeMeld t ⟨i, k, .nil⟩)) ∧
      SameOutside (i :: t.elim [] PairingTree.ids) heap.nodes heap'.nodes := by
  obtain ⟨nodes, root⟩ := heap
  have hlinked : TreeLinked nodes none none none (⟨i, k, .nil⟩ : PairingTree ι κ) := ⟨hget, trivial⟩
  have hordered : (⟨i, k, .nil⟩ : PairingTree ι κ).Ordered := ⟨fun e he => (nomatch he), trivial⟩
  have hnodup : (t.elim [] PairingTree.ids ++ PairingTree.ids ⟨i, k, .nil⟩).Nodup := by
    rw [List.nodup_append_comm]
    refine List.nodup_cons.mpr ⟨hnot, ?_⟩
    cases t with
    | none => exact List.nodup_nil
    | some u => exact h.nodup u rfl
  obtain ⟨nodes', hmeld, hlinked', hsame⟩ := HeapNodes.maybeMeld_linked h.linked hlinked hnodup
  refine ⟨⟨nodes', some (PairingTree.maybeMeld t ⟨i, k, .nil⟩).id⟩, ?_, ⟨rfl, ?_, ?_, ?_⟩, ?_⟩
  · cases t with
    | none =>
      have hroot : root = none := h.root
      cases hmeld
      rw [hroot]
      simp [insert, hroot ▸ hget, HeapNode.isRoot, HeapNode.new, PairingTree.maybeMeld]
    | some u =>
      have hroot : root = some u.id := h.root
      change nodes.meld u.id i = _ at hmeld
      rw [hroot]
      simp [insert, hroot ▸ hget, HeapNode.isRoot, HeapNode.new, hmeld]
  · intro u hu
    cases hu
    exact hlinked'
  · intro u hu
    cases hu
    exact (PairingTree.ids_maybeMeld t _).symm.nodup hnodup
  · intro u hu
    cases hu
    exact PairingTree.Ordered.maybeMeld h.ordered hordered
  · exact hsame.mono (List.perm_append_comm.subset)

theorem remove_holds {heap : PairingHeap ι κ} {t : PairingTree ι κ} {i : ι} (h : heap.Holds (some t)) (hmem : i ∈ t.ids) :
    ∃ heap' n, heap.nodes.get i = some n ∧ heap.remove i = some heap' ∧ heap'.Holds (t.remove i) ∧
      heap'.nodes.get i = some (.new n.data) ∧ SameOutside t.ids heap.nodes heap'.nodes := by
  obtain ⟨nodes, root⟩ := heap
  obtain ⟨hroot, hlinked, hnodup, hordered⟩ := h
  cases hroot
  have hlinked := hlinked t rfl
  have hnodup := hnodup t rfl
  have hordered := hordered t rfl
  have hnodup' : ∀ u ∈ t.remove i, u.ids.Nodup := by
    intro u hu
    obtain ⟨k, hk⟩ := PairingTree.entries_remove hnodup hmem
    rw [Option.mem_def.mp hu] at hk
    exact (List.nodup_cons.mp (((hk.map Prod.fst).nodup_iff).mp hnodup)).2
  by_cases hi : i = t.id
  · subst hi
    obtain ⟨nodes', hrun, hmerged, hi', hsame⟩ := remove_root_linked hlinked hnodup
    have hremove : t.remove t.id = t.children.merge := if_pos rfl
    rw [hremove] at hnodup' ⊢
    exact ⟨⟨nodes', _⟩, _, hlinked.1, hrun, ⟨rfl, hmerged, hnodup', hordered.2.merge⟩, hi', hsame⟩
  · have hremove : t.remove i = some ⟨t.id, t.key, t.children.removeChild i⟩ := if_neg hi
    have hforest : Linked nodes none none none (.node t.id t.key t.children .nil) := ⟨hlinked.1, hlinked.2, trivial⟩
    have hids : (PairingForest.node t.id t.key t.children .nil).ids = t.ids := by
      rw [PairingForest.ids_node, PairingForest.ids_nil, List.append_nil, PairingTree.ids_eq]
    have hnotroot : i ∉ (PairingForest.node t.id t.key t.children .nil).trees.map (·.id) :=
      fun hmem => hi (List.mem_singleton.mp hmem)
    obtain ⟨nodes', n, hn, hrun, hlinked', hi', hsame⟩ :=
      @removeBelow_linked ι κ _ nodes (some t.id) _ i none none none _ hforest ⟨hordered.1, hordered.2, trivial⟩
        (hids ▸ hnodup) (hids ▸ hmem) hnotroot
    rw [hids] at hsame
    have hordered' : ∀ u ∈ t.remove i, u.Ordered := PairingTree.Ordered.remove hnodup hordered
    rw [hremove] at hnodup' hordered' ⊢
    refine ⟨⟨nodes', some t.id⟩, n, hn, hrun, ⟨rfl, fun u hu => ?_, hnodup', hordered'⟩, hi', hsame⟩
    cases hu
    exact ⟨hlinked'.1, hlinked'.2.1⟩

end PairingHeap

end Capybara
