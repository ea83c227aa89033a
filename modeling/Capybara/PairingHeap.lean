import Capybara.Lib.HashMap
import Mathlib

namespace Capybara

/-- The data of a node is what the heap orders it by. -/
structure HeapNode (ι κ : Type) where
  parent : Option ι
  prev : Option ι
  next : Option ι
  firstChild : Option ι
  data : κ
  deriving DecidableEq, Repr

/-- The nodes that there are, each at its place. -/
abbrev HeapNodes (ι κ : Type) : Type := HashMap ι (HeapNode ι κ)

namespace HeapNode

variable {ι κ : Type} [DecidableEq ι]

def new (data : κ) : HeapNode ι κ := ⟨none, none, none, none, data⟩

def isRoot (n : HeapNode ι κ) : Option Bool :=
  if n.parent.isNone then do
    guard (n.prev = none)
    guard (n.next = none)
    some true
  else some false

end HeapNode

namespace HeapNodes

variable {ι κ : Type} [DecidableEq ι]

/-- What is built on this fails where it follows a pointer to a node that is not there, and where an assertion of the
code fails. -/
def modify (nodes : HeapNodes ι κ) (i : ι) (f : HeapNode ι κ → HeapNode ι κ) : Option (HeapNodes ι κ) :=
  (nodes.get i).map fun n => nodes.insert i (f n)

def takeParent (nodes : HeapNodes ι κ) (i : ι) : Option (HeapNodes ι κ × Option ι) :=
  (nodes.get i).map fun n => (nodes.insert i { n with parent := none }, n.parent)

/-- Given the first child in a child list, traverse and find the last child. -/
def lastChild (nodes : HeapNodes ι κ) : Nat → ι → Option ι
  | 0, _ => none
  | fuel + 1, cur => do
    let n ← nodes.get cur
    match n.next with
    | some next => lastChild nodes fuel next
    | none => some cur

/-- The node becomes the last one's predecessor and the node is unlinked from it. -/
def unlinkPrev (nodes : HeapNodes ι κ) (node : ι) : Option (HeapNodes ι κ × Option ι) := do
  let n ← nodes.get node
  guard (n.next = none)
  let nodes : HeapNodes ι κ := nodes.insert node { n with prev := none }
  match n.prev with
  | none => some (nodes, none)
  | some prev => do
    let p ← nodes.get prev
    guard (p.next = some node)
    some (nodes.insert prev { p with next := none }, some prev)

/-- Links the child to its new next sibling, the old first child. -/
def linkNext (nodes : HeapNodes ι κ) (child : ι) : Option ι → Option (HeapNodes ι κ)
  | none => some nodes
  | some oldFirstChild => do
    let nodes ← nodes.modify child fun c => { c with next := some oldFirstChild }
    let old ← nodes.get oldFirstChild
    guard (old.prev = none)
    some (nodes.insert oldFirstChild { old with prev := some child })

/-- What points forward to a node that has a parent: its previous sibling or the parent. -/
def setForward (nodes : HeapNodes ι κ) (parent : ι) (prev next : Option ι) : Option (HeapNodes ι κ) :=
  match prev with
  | some prev => nodes.modify prev fun p => { p with next := next }
  | none => nodes.modify parent fun p => { p with firstChild := next }

/-- What points back to a node: its next sibling. -/
def setBackward (nodes : HeapNodes ι κ) (prev next : Option ι) : Option (HeapNodes ι κ) :=
  match next with
  | some next => nodes.modify next fun n => { n with prev := prev }
  | none => some nodes

variable [LinearOrder κ]

def addChild (nodes : HeapNodes ι κ) (parent child : ι) : Option (HeapNodes ι κ) := do
  let p ← nodes.get parent
  let c ← nodes.get child
  guard (¬c.data < p.data)
  let nodes ← HeapNodes.linkNext (nodes.insert parent { p with firstChild := none }) child p.firstChild
  let nodes ← HeapNodes.modify nodes parent fun p => { p with firstChild := some child }
  nodes.modify child fun c => { c with parent := some parent }

/-- Merge two root heaps. Returns the new root. -/
def meld (nodes : HeapNodes ι κ) (left right : ι) : Option (HeapNodes ι κ × ι) := do
  let l ← nodes.get left
  let r ← nodes.get right
  guard (l.isRoot = some true)
  guard (r.isRoot = some true)
  if l.data < r.data then (nodes.addChild left right).map fun nodes => (nodes, left)
  else (nodes.addChild right left).map fun nodes => (nodes, right)

def maybeMeld (nodes : HeapNodes ι κ) (left : Option ι) (right : ι) : Option (HeapNodes ι κ × ι) :=
  match left with
  | some left => nodes.meld left right
  | none => some (nodes, right)

/-- The loop of `mergeChildren`: `node` is the last child not yet processed, `current` the merged ones. -/
def mergeLoop (commonParent : Option ι) : Nat → HeapNodes ι κ → ι → Option ι → Option (HeapNodes ι κ × ι)
  | 0, _, _, _ => none
  | fuel + 1, nodes, node, current => do
    let (nodes, nodeParent) ← nodes.takeParent node
    guard (nodeParent = commonParent)
    match ← nodes.unlinkPrev node with
    | (nodes, none) => nodes.maybeMeld current node
    | (nodes, some prev) => do
      let (nodes, prevParent) ← nodes.takeParent prev
      guard (prevParent = commonParent)
      let (nodes, prevPrev) ← nodes.unlinkPrev prev
      let (nodes, pair) ← nodes.meld prev node
      let (nodes, cur) ← nodes.maybeMeld current pair
      match prevPrev with
      | some prevPrev => mergeLoop commonParent fuel nodes prevPrev (some cur)
      | none => some (nodes, cur)

/-- Merge together a child list, from right to left. Returns the new merged root, whose `parent` is unset. No loop takes
more steps than there are nodes. -/
def mergeChildren (nodes : HeapNodes ι κ) (firstChild : ι) : Option (HeapNodes ι κ × ι) := do
  let n ← nodes.get firstChild
  guard n.parent.isSome
  let node ← nodes.lastChild nodes.size firstChild
  mergeLoop n.parent nodes.size nodes node none

end HeapNodes

/-- The heap, with the nodes that it points into. -/
structure PairingHeap (ι κ : Type) where
  nodes : HeapNodes ι κ
  root : Option ι

namespace PairingHeap

variable {ι κ : Type} [DecidableEq ι] [LinearOrder κ]

def insert (heap : PairingHeap ι κ) (node : ι) : Option (PairingHeap ι κ) := do
  let n ← heap.nodes.get node
  guard (n.isRoot = some true)
  guard (n.firstChild = none)
  match heap.root with
  | some root => (heap.nodes.meld root node).map fun (nodes, root) => ⟨nodes, some root⟩
  | none => some ⟨heap.nodes, some node⟩

omit [DecidableEq ι] [LinearOrder κ] in
def peekMin (heap : PairingHeap ι κ) : Option ι := heap.root

omit [LinearOrder κ] in
/-- Takes a node that has a parent out of its siblings; one that has none is the root. -/
def unlink (heap : PairingHeap ι κ) (node : ι) : Option (PairingHeap ι κ) := do
  let n ← heap.nodes.get node
  let nodes : HeapNodes ι κ := heap.nodes.insert node { n with parent := none }
  match n.parent with
  | some parent => do
    let nodes ← HeapNodes.setForward nodes parent n.prev n.next
    let nodes ← nodes.setBackward n.prev n.next
    let nodes ← nodes.modify node fun n => { n with next := none, prev := none }
    some ⟨nodes, heap.root⟩
  | none => do
    guard (n.next = none)
    guard (n.prev = none)
    guard (heap.root = some node)
    some ⟨nodes, none⟩

def remove (heap : PairingHeap ι κ) (node : ι) : Option (PairingHeap ι κ) := do
  let n ← heap.nodes.get node
  let parent := n.parent
  let heap ← heap.unlink node
  let n ← heap.nodes.get node
  let nodes : HeapNodes ι κ := heap.nodes.insert node { n with firstChild := none }
  match n.firstChild with
  | none => some ⟨nodes, heap.root⟩
  | some firstChild => do
    let (nodes, children) ← nodes.mergeChildren firstChild
    match parent with
    | some parent => (nodes.addChild parent children).map fun nodes => ⟨nodes, heap.root⟩
    | none => some ⟨nodes, some children⟩

end PairingHeap

end Capybara
