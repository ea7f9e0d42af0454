import SpecJit.Graph.Basic

/-!
# Dominators

A block dominates another when every path from the entry to the second goes through the first.
Immediate dominators are computed by going over the blocks in reverse postorder until nothing
changes, meeting the dominators of the predecessors.
-/

namespace SpecJit

namespace Graph

variable (g : Graph)

/-- A depth-first search under way: the blocks seen, and those finished, the last one first. -/
structure Search where
  seen : Array Bool
  finished : List BlockIndex := []

/-- Visits `b` unless it was seen, then what follows it, and then finishes it. The first argument
bounds the depth. -/
def visit : Nat → Search → BlockIndex → Search
  | 0, s, _ => s
  | depth + 1, s, b =>
    if s.seen[b.index]? == some false then
      let s :=
        (g.successors b).foldl (visit depth) { s with seen := s.seen.setIfInBounds b.index true }
      { s with finished := b :: s.finished }
    else s

/-- The blocks reachable from the entry, each before those that can follow it, loops apart. -/
def reversePostorder : List BlockIndex :=
  (g.visit g.blocks.size { seen := Array.replicate g.blocks.size false } ⟨0⟩).finished

end Graph

/-- The dominator tree of a graph. -/
structure Dominators where
  /-- the immediate dominator of each reachable block; the entry is its own -/
  parents : Array (Option BlockIndex)
  /-- the place of each reachable block in reverse postorder -/
  numbers : Array (Option Nat)
deriving Inhabited

namespace Dominators

/-- The place of a block, with the unreachable blocks after all others. -/
def place (numbers : Array (Option Nat)) (b : BlockIndex) : Nat :=
  numbers[b.index]?.join.getD numbers.size

def parentOf (parents : Array (Option BlockIndex)) (b : BlockIndex) : BlockIndex :=
  parents[b.index]?.join.getD b

/-- The lowest common ancestor of two blocks; the first argument bounds the steps. -/
def meet (parents : Array (Option BlockIndex)) (numbers : Array (Option Nat)) :
    Nat → BlockIndex → BlockIndex → BlockIndex
  | 0, a, _ => a
  | steps + 1, a, b =>
    if a = b then a
    else if place numbers b < place numbers a then meet parents numbers steps (parentOf parents a) b
    else meet parents numbers steps a (parentOf parents b)

/-- The meet of the predecessors that have a parent so far. -/
def parentFromPredecessors (parents : Array (Option BlockIndex)) (numbers : Array (Option Nat))
    (predecessors : List BlockIndex) : Option BlockIndex :=
  (predecessors.filter fun p => parents[p.index]?.join.isSome).foldl
    (fun acc p =>
      match acc with
      | none => some p
      | some current => some (meet parents numbers (2 * parents.size) p current))
    none

/-- Computes the parent of one block anew, and tells whether it changed. -/
def refine (g : Graph) (numbers : Array (Option Nat)) (s : Array (Option BlockIndex) × Bool)
    (b : BlockIndex) : Array (Option BlockIndex) × Bool :=
  let (parents, changed) := s
  let predecessors := ((g.block? b).map (·.predecessors)).getD []
  match parentFromPredecessors parents numbers predecessors with
  | none => (parents, changed)
  | some parent =>
    if parents[b.index]?.join = some parent then (parents, changed)
    else (parents.setIfInBounds b.index (some parent), true)

/-- Goes over the blocks until nothing changes; the first argument bounds the rounds. -/
def settle (g : Graph) (numbers : Array (Option Nat)) (order : List BlockIndex) :
    Nat → Array (Option BlockIndex) → Array (Option BlockIndex)
  | 0, parents => parents
  | rounds + 1, parents =>
    let (parents, changed) := order.foldl (refine g numbers) (parents, false)
    if changed then settle g numbers order rounds parents else parents

/-- The dominator tree of a graph. -/
def compute (g : Graph) : Dominators :=
  let n := g.blocks.size
  let order := g.reversePostorder
  let numbers := order.zipIdx.foldl (fun a (b, i) => a.setIfInBounds b.index (some i))
    (Array.replicate n none)
  let initial := (Array.replicate n none).setIfInBounds 0 (some ⟨0⟩)
  { parents := settle g numbers order.tail (n * n + 1) initial, numbers }

variable (d : Dominators)

def isReachable (b : BlockIndex) : Bool := d.parents[b.index]?.join.isSome

/-- The immediate dominator of a reachable block other than the entry. -/
def idom? (b : BlockIndex) : Option BlockIndex :=
  match d.parents[b.index]?.join with
  | some parent => if parent = b then none else some parent
  | none => none

/-- `a` is `b` or an ancestor of it; the first argument bounds the steps. -/
def isAncestor : Nat → BlockIndex → BlockIndex → Bool
  | 0, _, _ => false
  | steps + 1, a, b =>
    if a = b then true
    else
      match d.idom? b with
      | some parent => isAncestor steps a parent
      | none => false

/-- Every path from the entry to `b` goes through `a`, and there is one. -/
def dominates (a b : BlockIndex) : Bool :=
  d.isReachable a && d.isReachable b && d.isAncestor d.parents.size a b

def strictlyDominates (a b : BlockIndex) : Bool := a != b && d.dominates a b

/-- The blocks whose immediate dominator is `b`, in the order of their indices. -/
def children (b : BlockIndex) : List BlockIndex :=
  ((List.range d.parents.size).map BlockIndex.mk).filter fun c => d.idom? c == some b

/-- `b` and the blocks below it, each subtree in one piece; the first argument bounds the depth. -/
def subtree : Nat → BlockIndex → List BlockIndex
  | 0, _ => []
  | depth + 1, b => b :: (d.children b).flatMap (subtree depth)

/-- The reachable blocks, each after its dominators. -/
def preOrder : List BlockIndex := d.subtree d.parents.size ⟨0⟩

/-- The place of a block in reverse postorder. -/
def number? (b : BlockIndex) : Option Nat := d.numbers[b.index]?.join

end Dominators

end SpecJit
