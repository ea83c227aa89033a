import Capybara.Lib.HashMap
import Mathlib.Data.List.Induction
import Mathlib.Data.List.Perm.Subperm

namespace Capybara

/-- A node which carries data and is stored in an intrusive list. -/
structure ListNode (ι α : Type) where
  prev : Option ι
  next : Option ι
  data : α
  deriving DecidableEq, Repr

/-- The nodes that there are, each at its place. -/
abbrev ListNodes (ι α : Type) : Type := HashMap ι (ListNode ι α)

def ListNode.new {ι α : Type} (data : α) : ListNode ι α := ⟨none, none, data⟩

/-- The list, with the nodes that it points into. -/
structure LinkedList (ι α : Type) where
  nodes : ListNodes ι α
  head : Option ι
  tail : Option ι

namespace ListNodes

variable {ι α : Type} [DecidableEq ι]

/-- Sets the predecessor of a node, if there is one. -/
def setPrev (nodes : ListNodes ι α) (i prev : Option ι) : Option (ListNodes ι α) :=
  match i with
  | none => some nodes
  | some i => (nodes.get i).map fun n => nodes.insert i { n with prev := prev }

def setNext (nodes : ListNodes ι α) (i next : Option ι) : Option (ListNodes ι α) :=
  match i with
  | none => some nodes
  | some i => (nodes.get i).map fun n => nodes.insert i { n with next := next }

/-- Resets both links of a node. -/
def unlink (nodes : ListNodes ι α) (i : ι) : Option (ListNodes ι α) :=
  (nodes.get i).map fun n => nodes.insert i (.new n.data)

/-- The loop of a drain that follows one of the links, with what the callback makes of the data. The nodes come with the
data that the callback finds. -/
def drainLoop (follow : ListNode ι α → Option ι) (f : α → α) :
    Nat → ListNodes ι α → Option ι → Option (ListNodes ι α × List (ι × α))
  | _, nodes, none => some (nodes, [])
  | 0, _, some _ => none
  | fuel + 1, nodes, some node => do
    let n ← nodes.get node
    let (nodes, visited) ← drainLoop follow f fuel (nodes.insert node (.new (f n.data))) (follow n)
    some (nodes, (node, n.data) :: visited)

end ListNodes

namespace LinkedList

variable {ι α : Type} [DecidableEq ι]

def empty : LinkedList ι α := ⟨∅, none, none⟩

/-- Adds a node at the front of the list. As the operations below it fails where an assertion of the code fails, and
where it follows a pointer to a node that is not there. -/
def addFront (l : LinkedList ι α) (node : ι) : Option (LinkedList ι α) := do
  let n ← l.nodes.get node
  let nodes ← ListNodes.setPrev (l.nodes.insert node { n with prev := none, next := l.head }) l.head (some node)
  some { nodes := nodes, head := some node, tail := l.tail.or (some node) }

/-- Removes the first node from the list. -/
def removeFirst (l : LinkedList ι α) : Option (Option ι × LinkedList ι α) :=
  match l.head with
  | none => some (none, l)
  | some head => do
    let n ← l.nodes.get head
    guard (n.next.isSome ∨ l.tail = some head)
    let nodes ← ListNodes.setPrev l.nodes n.next none
    let nodes ← ListNodes.unlink nodes head
    some (some head, { nodes := nodes, head := n.next, tail := if n.next.isSome then l.tail else none })

/-- Removes the last node from the list and returns it. -/
def removeLast (l : LinkedList ι α) : Option (Option ι × LinkedList ι α) :=
  match l.tail with
  | none => some (none, l)
  | some tail => do
    let n ← l.nodes.get tail
    guard (n.prev.isSome ∨ l.head = some tail)
    let nodes ← ListNodes.setNext l.nodes n.prev none
    let nodes ← ListNodes.unlink nodes tail
    some (some tail, { nodes := nodes, head := if n.prev.isSome then l.head else none, tail := n.prev })

/-- Whether there is no node in the list. -/
def isEmpty (l : LinkedList ι α) : Option Bool :=
  if l.head.isSome then some false else do
    guard (l.tail = none)
    some true

/-- What comes before a node that is to be removed no longer leads to it. -/
def bypassForward (l : LinkedList ι α) (node : ι) (n : ListNode ι α) : Option (LinkedList ι α) :=
  match n.prev with
  | none => some { l with head := n.next }
  | some prev => do
    let p ← l.nodes.get prev
    guard (p.next = some node)
    some { l with nodes := l.nodes.insert prev { p with next := n.next } }

/-- What comes after it no longer leads back to it. -/
def bypassBackward (l : LinkedList ι α) (node : ι) (n : ListNode ι α) : Option (LinkedList ι α) :=
  match n.next with
  | none => do
    guard (l.tail = some node)
    some { l with tail := n.prev }
  | some next => do
    let s ← l.nodes.get next
    guard (s.prev = some node)
    some { l with nodes := l.nodes.insert next { s with prev := n.prev } }

/-- Removes the given node from the list, and whether it was there. -/
def remove (l : LinkedList ι α) (node : ι) : Option (Bool × LinkedList ι α) := do
  let n ← l.nodes.get node
  if n.prev = none ∧ l.head ≠ some node then do
    guard (n.next = none)
    some (false, l)
  else do
    let l ← l.bypassForward node n
    let l ← l.bypassBackward node n
    let nodes ← ListNodes.unlink l.nodes node
    some (true, { l with nodes := nodes })

/-- Drains the list by calling a callback on each node. No loop takes more steps than there are nodes. -/
def drain (l : LinkedList ι α) (f : α → α) : Option (List (ι × α) × LinkedList ι α) := do
  let (nodes, visited) ← l.nodes.drainLoop ListNode.next f l.nodes.size l.head
  some (visited, { nodes := nodes, head := none, tail := none })

/-- Drains the list in reverse order. -/
def reverseDrain (l : LinkedList ι α) (f : α → α) : Option (List (ι × α) × LinkedList ι α) := do
  let (nodes, visited) ← l.nodes.drainLoop ListNode.prev f l.nodes.size l.tail
  some (visited, { nodes := nodes, head := none, tail := none })

end LinkedList

/-- Nodes in a row, with what comes before the first one and after the last one. -/
def Row {ι α : Type} [DecidableEq ι] (nodes : ListNodes ι α) : Option ι → List ι → Option ι → Prop
  | _, [], _ => True
  | prev, i :: xs, next => (∃ data, nodes.get i = some ⟨prev, xs.head?.or next, data⟩) ∧ Row nodes (some i) xs next

/-- The pointers are those of these nodes in a row, and every other node is by itself. -/
structure LinkedList.Holds {ι α : Type} [DecidableEq ι] (l : LinkedList ι α) (xs : List ι) : Prop where
  nodup : xs.Nodup
  head : l.head = xs.head?
  tail : l.tail = xs.getLast?
  row : Row l.nodes none xs none
  outside : ∀ i n, i ∉ xs → l.nodes.get i = some n → n = .new n.data

section

variable {ι α : Type} [DecidableEq ι] {nodes nodes' : ListNodes ι α} {prev next : Option ι} {xs ys : List ι} {i : ι}

theorem Row.congr (h : Row nodes prev xs next) (hsame : ∀ i ∈ xs, nodes'.get i = nodes.get i) :
    Row nodes' prev xs next := by
  induction xs generalizing prev with
  | nil => trivial
  | cons x xs ih =>
    obtain ⟨hx, hrest⟩ := h
    refine ⟨?_, ih hrest fun i hi => hsame i (List.mem_cons_of_mem x hi)⟩
    rw [hsame x List.mem_cons_self]
    exact hx

theorem Row.insert (h : Row nodes prev xs next) (hi : i ∉ xs) (n : ListNode ι α) :
    Row (nodes.insert i n) prev xs next :=
  h.congr fun j hj => by
    rw [HashMap.get_insert, if_neg]
    rintro rfl
    exact hi hj

/-- The links are as before when data is written to a node. -/
theorem Row.write {n : ListNode ι α} (h : Row nodes prev xs next) (hi : nodes.get i = some n) (data : α) :
    Row (nodes.insert i { n with data := data }) prev xs next := by
  induction xs generalizing prev with
  | nil => trivial
  | cons x xs ih =>
    obtain ⟨⟨old, hx⟩, hrest⟩ := h
    refine ⟨?_, ih hrest⟩
    rw [HashMap.get_insert]
    split
    next heq =>
      subst heq
      cases hi.symm.trans hx
      exact ⟨data, rfl⟩
    next => exact ⟨old, hx⟩

theorem row_append : Row nodes prev (xs ++ ys) next ↔
    Row nodes prev xs (ys.head?.or next) ∧ Row nodes (xs.getLast?.or prev) ys next := by
  induction xs generalizing prev with
  | nil => simp [Row]
  | cons x xs ih =>
    have hlast : ((x :: xs).getLast?.or prev) = xs.getLast?.or (some x) := by
      rw [List.getLast?_cons]
      cases xs.getLast? <;> rfl
    have hhead : ((xs ++ ys).head?.or next) = xs.head?.or (ys.head?.or next) := by
      cases xs <;> simp
    rw [List.cons_append, Row, Row, ih, hlast, hhead, and_assoc]

/-- The node in front leads back to what comes before, and may lead to something else instead. -/
theorem Row.first (h : Row nodes prev xs next) (hnodup : xs.Nodup) (hi : xs.head? = some i) :
    ∃ n, nodes.get i = some n ∧ n.prev = prev ∧
      ∀ prev', Row (nodes.insert i { n with prev := prev' }) prev' xs next := by
  cases xs with
  | nil => cases hi
  | cons x xs =>
    cases hi
    obtain ⟨⟨data, hx⟩, hrest⟩ := h
    refine ⟨_, hx, rfl, fun prev' => ⟨⟨data, ?_⟩, hrest.insert (List.nodup_cons.mp hnodup).1 _⟩⟩
    rw [HashMap.get_insert, if_pos rfl]

/-- The node at the end leads on to what comes after. -/
theorem Row.last (h : Row nodes prev xs next) (hnodup : xs.Nodup) (hi : xs.getLast? = some i) :
    ∃ n, nodes.get i = some n ∧ n.next = next ∧
      ∀ next', Row (nodes.insert i { n with next := next' }) prev xs next' := by
  obtain ⟨front, rfl⟩ := List.getLast?_eq_some_iff.mp hi
  obtain ⟨hfront, ⟨data, hx⟩, -⟩ := row_append.mp h
  have hnot : i ∉ front := by
    intro hmem
    exact (List.nodup_append.mp hnodup).2.2 i hmem i (List.mem_singleton_self i) rfl
  refine ⟨_, hx, rfl, fun next' => row_append.mpr ⟨hfront.insert hnot _, ⟨data, ?_⟩, trivial⟩⟩
  rw [HashMap.get_insert, if_pos rfl]
  rfl

/-- The node between two rows. -/
theorem Row.node (h : Row nodes prev (xs ++ i :: ys) next) :
    ∃ data, nodes.get i = some ⟨xs.getLast?.or prev, ys.head?.or next, data⟩ :=
  (row_append.mp h).2.1

theorem Row.isSome (h : Row nodes prev xs next) (hi : i ∈ xs) : (nodes.get i).isSome = true := by
  obtain ⟨before, after, rfl⟩ := List.append_of_mem hi
  obtain ⟨data, hdata⟩ := h.node
  rw [hdata]
  rfl

theorem Row.length_le (h : Row nodes prev xs next) (hnodup : xs.Nodup) : xs.length ≤ nodes.size := by
  rw [HashMap.size_eq]
  exact (List.subperm_of_subset hnodup fun i hi => (HashMap.mem_keys_iff nodes i).mpr (h.isSome hi)).length_le

/-- Two collections of nodes with the same data. -/
def SameData (nodes nodes' : ListNodes ι α) : Prop :=
  ∀ i, (nodes'.get i).map ListNode.data = (nodes.get i).map ListNode.data

theorem SameData.insert {n n' : ListNode ι α} (h : SameData nodes nodes') (hi : nodes'.get i = some n)
    (hdata : n'.data = n.data) : SameData nodes (nodes'.insert i n') := by
  intro j
  rw [← h j, HashMap.get_insert]
  split
  next heq =>
    subst heq
    rw [hi]
    exact congrArg some hdata
  next => rfl

/-- A row as a drain meets it that follows one of the links. -/
def Trail (follow : ListNode ι α → Option ι) (nodes : ListNodes ι α) : List ι → Prop
  | [] => True
  | i :: xs => (∃ n, nodes.get i = some n ∧ follow n = xs.head?) ∧ Trail follow nodes xs

/-- The nodes of a row with their data. -/
def contents (nodes : ListNodes ι α) (xs : List ι) : List (ι × α) :=
  xs.filterMap fun i => (nodes.get i).map fun n => (i, n.data)

theorem Trail.insert {follow : ListNode ι α → Option ι} (h : Trail follow nodes xs) (hi : i ∉ xs) (n : ListNode ι α) :
    Trail follow (nodes.insert i n) xs := by
  induction xs with
  | nil => trivial
  | cons x xs ih =>
    obtain ⟨⟨nx, hx, hfollow⟩, hrest⟩ := h
    refine ⟨⟨nx, ?_, hfollow⟩, ih hrest (List.not_mem_of_not_mem_cons hi)⟩
    rw [HashMap.get_insert, if_neg (List.ne_of_not_mem_cons hi).symm, hx]

theorem contents_insert (hi : i ∉ xs) (n : ListNode ι α) : contents (nodes.insert i n) xs = contents nodes xs := by
  refine List.filterMap_congr fun j hj => ?_
  rw [HashMap.get_insert, if_neg]
  rintro rfl
  exact hi hj

/-- A drain meets each node of its trail once, and leaves all of them by themselves with what the callback made. -/
theorem drainLoop_spec {follow : ListNode ι α → Option ι} {f : α → α} {fuel : Nat} (h : Trail follow nodes xs)
    (hnodup : xs.Nodup) (hfuel : xs.length ≤ fuel) :
    ∃ nodes', nodes.drainLoop follow f fuel xs.head? = some (nodes', contents nodes xs) ∧
      ∀ i, nodes'.get i = if i ∈ xs then (nodes.get i).map fun n => .new (f n.data) else nodes.get i := by
  induction xs generalizing nodes fuel with
  | nil =>
    refine ⟨nodes, ?_, fun i => rfl⟩
    cases fuel <;> rfl
  | cons x xs ih =>
    obtain ⟨⟨n, hx, hfollow⟩, hrest⟩ := h
    obtain ⟨hnot, hnodup⟩ := List.nodup_cons.mp hnodup
    cases fuel with
    | zero => cases hfuel
    | succ fuel =>
      obtain ⟨nodes', hloop, hget⟩ := ih (hrest.insert hnot (.new (f n.data))) hnodup (Nat.le_of_succ_le_succ hfuel)
      refine ⟨nodes', ?_, fun i => ?_⟩
      · change ((nodes.get x).bind fun n => _) = _
        rw [hx, Option.bind_some, hfollow, hloop, contents_insert hnot, contents, contents, List.filterMap_cons, hx]
        rfl
      · rw [hget i, HashMap.get_insert]
        by_cases hi : i = x
        · subst hi
          rw [if_neg hnot, if_pos rfl, if_pos List.mem_cons_self, hx]
          rfl
        · rw [if_neg hi]
          simp only [List.mem_cons, hi, false_or]

theorem Row.trail_next (h : Row nodes prev xs none) : Trail ListNode.next nodes xs := by
  induction xs generalizing prev with
  | nil => trivial
  | cons x xs ih =>
    obtain ⟨⟨data, hx⟩, hrest⟩ := h
    exact ⟨⟨_, hx, Option.or_none⟩, ih hrest⟩

theorem Row.trail_prev (h : Row nodes none xs next) : Trail ListNode.prev nodes xs.reverse := by
  induction xs using List.reverseRecOn generalizing next with
  | nil => trivial
  | append_singleton xs x ih =>
    obtain ⟨hfront, ⟨data, hx⟩, -⟩ := row_append.mp h
    rw [List.reverse_append]
    refine ⟨⟨_, hx, ?_⟩, ih hfront⟩
    change xs.getLast?.or none = xs.reverse.head?
    rw [Option.or_none, List.head?_reverse]

namespace LinkedList

variable {l l' : LinkedList ι α} {n : ListNode ι α}

theorem holds_empty : (empty : LinkedList ι α).Holds [] where
  nodup := List.nodup_nil
  head := rfl
  tail := rfl
  row := trivial
  outside i n _ hi := by cases (HashMap.get_empty i).symm.trans hi

theorem Holds.addFront (h : l.Holds xs) (hget : l.nodes.get i = some n) (hi : i ∉ xs) :
    ∃ l', l.addFront i = some l' ∧ l'.Holds (i :: xs) ∧ SameData l.nodes l'.nodes := by
  have hsame : SameData l.nodes (l.nodes.insert i { n with prev := none, next := l.head }) :=
    SameData.insert (fun _ => rfl) hget rfl
  have hkept : Row (l.nodes.insert i { n with prev := none, next := l.head }) none xs none := h.row.insert hi _
  have hnode : (l.nodes.insert i { n with prev := none, next := l.head }).get i = some ⟨none, xs.head?, n.data⟩ := by
    rw [HashMap.get_insert, if_pos rfl, h.head]
  unfold LinkedList.addFront
  rw [hget, Option.bind_eq_bind, Option.bind_some]
  obtain ⟨nodes, hnodes⟩ : ∃ nodes, nodes = l.nodes.insert i { n with prev := none, next := l.head } := ⟨_, rfl⟩
  rw [← hnodes] at hsame hkept hnode ⊢
  have hother : ∀ j m, j ≠ i → nodes.get j = some m → l.nodes.get j = some m := by
    intro j m hj hm
    rwa [hnodes, HashMap.get_insert, if_neg hj] at hm
  cases xs with
  | nil =>
    refine ⟨⟨nodes, some i, l.tail.or (some i)⟩, by rw [h.head]; rfl, ⟨List.nodup_singleton i, rfl, ?_,
      ⟨⟨_, hnode⟩, trivial⟩, fun j m hj hm => ?_⟩, hsame⟩
    · rw [h.tail]
      rfl
    · rw [List.mem_singleton] at hj
      exact h.outside j m List.not_mem_nil (hother j m hj hm)
  | cons x xs =>
    obtain ⟨nx, hx, -, hfirst⟩ := hkept.first h.nodup rfl
    have hxi : x ≠ i := fun heq => hi (heq ▸ List.mem_cons_self)
    refine ⟨⟨nodes.insert x { nx with prev := some i }, some i, l.tail.or (some i)⟩, ?_,
      ⟨List.nodup_cons.mpr ⟨hi, h.nodup⟩, rfl, ?_, ⟨⟨n.data, ?_⟩, hfirst _⟩, fun j m hj hm => ?_⟩,
      hsame.insert hx rfl⟩
    · rw [h.head]
      change ((nodes.get x).map fun n => nodes.insert x { n with prev := some i }).bind _ = _
      rw [hx]
      rfl
    · rw [h.tail, List.getLast?_cons_cons]
      cases hlast : (x :: xs).getLast? with
      | none => simp at hlast
      | some last => rfl
    · rw [HashMap.get_insert, if_neg hxi.symm, hnode]
      rfl
    · have hjxs := List.not_mem_of_not_mem_cons hj
      dsimp only at hm
      rw [HashMap.get_insert, if_neg (List.ne_of_not_mem_cons hjxs)] at hm
      exact h.outside j m hjxs (hother j m (List.ne_of_not_mem_cons hj) hm)

/-- A node that the links no longer lead to is reset. -/
theorem unlink_spec (hget : nodes.get i = some n) :
    ListNodes.unlink nodes i = some (nodes.insert i (.new n.data)) := by
  rw [ListNodes.unlink, hget]
  rfl

/-- Nodes in a row after one of them is taken out and reset. -/
theorem Holds.without {nodes : ListNodes ι α} (h : l.Holds (xs ++ i :: ys)) (hget : nodes.get i = some n)
    (hrow : Row nodes none (xs ++ ys) none) (hother : ∀ j, j ∉ xs ++ i :: ys → nodes.get j = l.nodes.get j)
    (hsame : SameData l.nodes nodes) :
    Holds ⟨nodes.insert i (.new n.data), (xs ++ ys).head?, (xs ++ ys).getLast?⟩ (xs ++ ys) ∧
      SameData l.nodes (nodes.insert i (.new n.data)) := by
  obtain ⟨hnot, hnodup⟩ := List.nodup_cons.mp (List.nodup_middle.mp h.nodup)
  refine ⟨⟨hnodup, rfl, rfl, hrow.insert hnot _, fun j m hj hm => ?_⟩, hsame.insert hget rfl⟩
  dsimp only at hm
  rw [HashMap.get_insert] at hm
  split at hm
  next => 
    cases hm
    rfl
  next hne =>
    have hj' : j ∉ xs ++ i :: ys := by
      simp only [List.mem_append, List.mem_cons, not_or] at hj ⊢
      exact ⟨hj.1, hne, hj.2⟩
    rw [hother j hj'] at hm
    exact h.outside j m hj' hm

theorem Holds.removeFirst (h : l.Holds (i :: xs)) :
    ∃ l', l.removeFirst = some (some i, l') ∧ l'.Holds xs ∧ SameData l.nodes l'.nodes := by
  obtain ⟨⟨data, hi⟩, hrest⟩ := h.row
  obtain ⟨hnot, hnodup⟩ := List.nodup_cons.mp h.nodup
  rw [Option.or_none] at hi
  unfold LinkedList.removeFirst
  rw [h.head]
  change ∃ l', ((l.nodes.get i).bind fun n => _) = some (some i, l') ∧ _
  rw [hi, Option.bind_some]
  cases xs with
  | nil =>
    have htail : l.tail = some i := h.tail
    obtain ⟨hholds, hsame⟩ := @Holds.without ι α _ [] [] i l ⟨none, none, data⟩ l.nodes h hi trivial (fun _ _ => rfl)
      fun _ => rfl
    refine ⟨_, ?_, hholds, hsame⟩
    simp [htail, ListNodes.setPrev, unlink_spec hi, guard]
  | cons x xs =>
    obtain ⟨nx, hx, -, hfirst⟩ := hrest.first hnodup rfl
    have hxi : i ≠ x := fun heq => hnot (heq ▸ List.mem_cons_self)
    have hi' : (l.nodes.insert x { nx with prev := none }).get i = some ⟨none, some x, data⟩ := by
      rw [HashMap.get_insert, if_neg hxi, hi]
      rfl
    have hother : ∀ j, j ∉ i :: x :: xs → (l.nodes.insert x { nx with prev := none }).get j = l.nodes.get j := by
      intro j hj
      rw [HashMap.get_insert, if_neg (List.ne_of_not_mem_cons (List.not_mem_of_not_mem_cons hj))]
    obtain ⟨hholds, hsame⟩ := @Holds.without ι α _ [] (x :: xs) i l _ _ h hi' (hfirst none) hother
      (SameData.insert (fun _ => rfl) hx rfl)
    refine ⟨_, ?_, hholds, hsame⟩
    have hlast := h.tail
    rw [List.getLast?_cons_cons] at hlast
    simp [ListNodes.setPrev, hx, unlink_spec hi', guard, hlast]

theorem Holds.removeLast (h : l.Holds (xs ++ [i])) :
    ∃ l', l.removeLast = some (some i, l') ∧ l'.Holds xs ∧ SameData l.nodes l'.nodes := by
  obtain ⟨hfront, ⟨data, hi⟩, -⟩ := row_append.mp h.row
  obtain ⟨hnot, hnodup⟩ := List.nodup_cons.mp (List.nodup_middle.mp h.nodup)
  rw [List.append_nil] at hnot hnodup
  rw [Option.or_none] at hi
  have htail : l.tail = some i := by rw [h.tail, List.getLast?_concat]
  unfold LinkedList.removeLast
  rw [htail]
  change ∃ l', ((l.nodes.get i).bind fun n => _) = some (some i, l') ∧ _
  rw [hi, Option.bind_some]
  cases hlast : xs.getLast? with
  | none =>
    cases List.getLast?_eq_none_iff.mp hlast
    have hhead : l.head = some i := h.head
    obtain ⟨hholds, hsame⟩ := @Holds.without ι α _ [] [] i l ⟨none, none, data⟩ l.nodes h hi trivial (fun _ _ => rfl)
      fun _ => rfl
    refine ⟨_, ?_, hholds, hsame⟩
    simp [hhead, ListNodes.setNext, unlink_spec hi, guard]
  | some x =>
    obtain ⟨nx, hx, -, hnext⟩ := hfront.last hnodup hlast
    have hxi : i ≠ x := fun heq => hnot (heq ▸ List.mem_of_getLast? hlast)
    have hi' : (l.nodes.insert x { nx with next := none }).get i = some ⟨some x, none, data⟩ := by
      rw [HashMap.get_insert, if_neg hxi, hi, hlast]
      rfl
    have hother : ∀ j, j ∉ xs ++ [i] → (l.nodes.insert x { nx with next := none }).get j = l.nodes.get j := by
      intro j hj
      rw [HashMap.get_insert, if_neg]
      rintro rfl
      exact hj (List.mem_append_left _ (List.mem_of_getLast? hlast))
    obtain ⟨hholds, hsame⟩ := @Holds.without ι α _ xs [] i l _ _ h hi' (by rw [List.append_nil]; exact hnext none)
      hother (SameData.insert (fun _ => rfl) hx rfl)
    rw [List.append_nil] at hholds
    refine ⟨_, ?_, hholds, hsame⟩
    have hhead := h.head
    have hne : xs ≠ [] := by
      rintro rfl
      cases hlast
    rw [List.head?_append_of_ne_nil _ hne] at hhead
    simp [ListNodes.setNext, hx, unlink_spec hi', guard, hhead, hlast]

/-- What comes before the node leads on to what comes after it. -/
theorem bypassForward_spec (h : Row l.nodes none xs (some i)) (hnodup : xs.Nodup) (hprev : n.prev = xs.getLast?) :
    ∃ l', l.bypassForward i n = some l' ∧ l'.head = (if xs = [] then n.next else l.head) ∧ l'.tail = l.tail ∧
      Row l'.nodes none xs n.next ∧ SameData l.nodes l'.nodes ∧ ∀ j, j ∉ xs → l'.nodes.get j = l.nodes.get j := by
  unfold LinkedList.bypassForward
  rw [hprev]
  cases hlast : xs.getLast? with
  | none =>
    cases List.getLast?_eq_none_iff.mp hlast
    exact ⟨_, rfl, rfl, rfl, trivial, fun _ => rfl, fun _ _ => rfl⟩
  | some x =>
    obtain ⟨nx, hx, hnext, hrow⟩ := h.last hnodup hlast
    have hne : xs ≠ [] := by
      rintro rfl
      cases hlast
    refine ⟨{ l with nodes := l.nodes.insert x { nx with next := n.next } }, ?_, (if_neg hne).symm, rfl, hrow _,
      SameData.insert (fun _ => rfl) hx rfl, fun j hj => ?_⟩
    · simp [hx, hnext, guard]
    · dsimp only
      rw [HashMap.get_insert, if_neg]
      rintro rfl
      exact hj (List.mem_of_getLast? hlast)

/-- What comes after the node leads back to what comes before it. -/
theorem bypassBackward_spec (h : Row l.nodes (some i) ys none) (hnodup : ys.Nodup) (hnext : n.next = ys.head?)
    (htail : ys = [] → l.tail = some i) :
    ∃ l', l.bypassBackward i n = some l' ∧ l'.head = l.head ∧ l'.tail = (if ys = [] then n.prev else l.tail) ∧
      Row l'.nodes n.prev ys none ∧ SameData l.nodes l'.nodes ∧ ∀ j, j ∉ ys → l'.nodes.get j = l.nodes.get j := by
  unfold LinkedList.bypassBackward
  rw [hnext]
  cases ys with
  | nil =>
    refine ⟨{ l with tail := n.prev }, ?_, rfl, rfl, trivial, fun _ => rfl, fun _ _ => rfl⟩
    simp [htail rfl, guard]
  | cons y ys =>
    obtain ⟨ny, hy, hprev, hrow⟩ := h.first hnodup rfl
    refine ⟨{ l with nodes := l.nodes.insert y { ny with prev := n.prev } }, ?_, rfl, rfl, hrow _,
      SameData.insert (fun _ => rfl) hy rfl, fun j hj => ?_⟩
    · simp [hy, hprev, guard]
    · dsimp only
      rw [HashMap.get_insert, if_neg (List.ne_of_not_mem_cons hj)]

theorem Holds.remove (h : l.Holds (xs ++ i :: ys)) :
    ∃ l', l.remove i = some (true, l') ∧ l'.Holds (xs ++ ys) ∧ SameData l.nodes l'.nodes := by
  obtain ⟨hfront, ⟨data, hi⟩, hback⟩ := row_append.mp h.row
  obtain ⟨hnot, hnodup⟩ := List.nodup_cons.mp (List.nodup_middle.mp h.nodup)
  obtain ⟨hnodupxs, hnodupys, hdisjoint⟩ := List.nodup_append.mp hnodup
  have hnotxs : i ∉ xs := fun hmem => hnot (List.mem_append_left ys hmem)
  have hnotys : i ∉ ys := fun hmem => hnot (List.mem_append_right xs hmem)
  rw [Option.or_none, Option.or_none] at hi
  obtain ⟨l₁, hl₁, hhead₁, htail₁, hrow₁, hsame₁, hother₁⟩ :=
    bypassForward_spec (n := ⟨xs.getLast?, ys.head?, data⟩) hfront hnodupxs rfl
  have hback₁ : Row l₁.nodes (some i) ys none :=
    hback.congr fun j hj => hother₁ j fun hmem => hdisjoint j hmem j hj rfl
  obtain ⟨l₂, hl₂, hhead₂, htail₂, hrow₂, hsame₂, hother₂⟩ :=
    bypassBackward_spec (n := ⟨xs.getLast?, ys.head?, data⟩) hback₁ hnodupys rfl fun hnil => by
      rw [htail₁, h.tail, hnil, List.getLast?_concat]
  have hi₂ : l₂.nodes.get i = some ⟨xs.getLast?, ys.head?, data⟩ := by
    rw [hother₂ i hnotys, hother₁ i hnotxs, hi]
  have hrow : Row l₂.nodes none (xs ++ ys) none := by
    refine row_append.mpr ⟨?_, by rw [Option.or_none]; exact hrow₂⟩
    rw [Option.or_none]
    exact hrow₁.congr fun j hj => hother₂ j fun hmem => hdisjoint j hj j hmem rfl
  have hother : ∀ j, j ∉ xs ++ i :: ys → l₂.nodes.get j = l.nodes.get j := by
    intro j hj
    simp only [List.mem_append, List.mem_cons, not_or] at hj
    rw [hother₂ j hj.2.2, hother₁ j hj.1]
  obtain ⟨hholds, hsame⟩ := h.without hi₂ hrow hother fun j => (hsame₂ j).trans (hsame₁ j)
  refine ⟨{ l₂ with nodes := l₂.nodes.insert i (.new data) }, ?_, ?_, hsame⟩
  · unfold LinkedList.remove
    rw [hi, Option.bind_eq_bind, Option.bind_some, if_neg ?_, hl₁, Option.bind_eq_bind, Option.bind_some, hl₂,
      Option.bind_eq_bind, Option.bind_some, unlink_spec hi₂]
    · rfl
    · rintro ⟨hprev, hhead⟩
      cases List.getLast?_eq_none_iff.mp hprev
      exact hhead h.head
  · have hhead : l₂.head = (xs ++ ys).head? := by
      rw [hhead₂, hhead₁, h.head]
      cases xs <;> rfl
    have htail : l₂.tail = (xs ++ ys).getLast? := by
      rw [htail₂, htail₁, h.tail]
      split
      next hnil => rw [hnil, List.append_nil]
      next hne =>
        rw [List.getLast?_append_of_ne_nil _ hne, List.getLast?_append_of_ne_nil _ (List.cons_ne_nil i ys),
          List.getLast?_cons_of_ne_nil hne]
    rw [← hhead, ← htail] at hholds
    exact hholds

theorem Holds.remove_mem (h : l.Holds xs) (hi : i ∈ xs) :
    ∃ l', l.remove i = some (true, l') ∧ l'.Holds (xs.erase i) ∧ SameData l.nodes l'.nodes := by
  obtain ⟨before, after, rfl⟩ := List.append_of_mem hi
  have hnot := (List.nodup_cons.mp (List.nodup_middle.mp h.nodup)).1
  rw [List.erase_append_right _ fun hmem => hnot (List.mem_append_left after hmem), List.erase_cons_head]
  exact h.remove

theorem Holds.remove_absent (h : l.Holds xs) (hget : l.nodes.get i = some n) (hi : i ∉ xs) :
    l.remove i = some (false, l) := by
  have hn := h.outside i n hi hget
  have hhead : l.head ≠ some i := by
    rw [h.head]
    exact fun hyes => hi (List.mem_of_mem_head? hyes)
  unfold LinkedList.remove
  rw [hget, hn]
  simp [ListNode.new, hhead, guard]

/-- What a drain leaves: no node in the list, and each of them by itself with what the callback made of its data. -/
structure Drained (l : LinkedList ι α) (xs : List ι) (f : α → α) (l' : LinkedList ι α) : Prop where
  holds : l'.Holds []
  get : ∀ i, l'.nodes.get i = if i ∈ xs then (l.nodes.get i).map fun n => .new (f n.data) else l.nodes.get i

theorem Holds.drained {f : α → α} (h : l.Holds xs) {nodes : ListNodes ι α}
    (hget : ∀ i, nodes.get i = if i ∈ xs then (l.nodes.get i).map fun n => .new (f n.data) else l.nodes.get i) :
    Drained l xs f ⟨nodes, none, none⟩ := by
  refine ⟨⟨List.nodup_nil, rfl, rfl, trivial, fun i n _ hn => ?_⟩, hget⟩
  dsimp only at hn
  rw [hget i] at hn
  split at hn
  next =>
    obtain ⟨m, -, rfl⟩ := Option.map_eq_some_iff.mp hn
    rfl
  next hi => exact h.outside i n hi hn

theorem Holds.drain (h : l.Holds xs) (f : α → α) :
    ∃ l', l.drain f = some (contents l.nodes xs, l') ∧ Drained l xs f l' := by
  obtain ⟨nodes, hloop, hget⟩ := drainLoop_spec (f := f) h.row.trail_next h.nodup (h.row.length_le h.nodup)
  refine ⟨_, ?_, h.drained hget⟩
  unfold LinkedList.drain
  rw [h.head, hloop]
  rfl

theorem Holds.reverseDrain (h : l.Holds xs) (f : α → α) :
    ∃ l', l.reverseDrain f = some (contents l.nodes xs.reverse, l') ∧ Drained l xs f l' := by
  have hlength := h.row.length_le h.nodup
  rw [← List.length_reverse] at hlength
  obtain ⟨nodes, hloop, hget⟩ := drainLoop_spec (f := f) h.row.trail_prev (List.nodup_reverse.mpr h.nodup) hlength
  simp only [List.mem_reverse] at hget
  refine ⟨_, ?_, h.drained hget⟩
  unfold LinkedList.reverseDrain
  rw [h.tail, ← List.head?_reverse, hloop]
  rfl

theorem Holds.isEmpty (h : l.Holds xs) : l.isEmpty = some (decide (xs = [])) := by
  unfold LinkedList.isEmpty
  rw [h.head, h.tail]
  cases xs <;> simp [guard]

end LinkedList

end

end Capybara
