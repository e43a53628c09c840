import LoopGuard.Forest.DisjointSet
import LoopGuard.Topology.LinkTable

/-!
# Spanning forests

A `SpanningForest` has one tree for each connected part of a fabric. It is
computed greedily: links are taken in the order of their ids, and a link is
chosen when its two ends are not yet joined by the links chosen before it. So a
set of links has one forest, whatever order the links are given in. Parallel
links and self-loops need no rule of their own: the second link between two
joined switches is never chosen.
-/

namespace LoopGuard

abbrev NodeSet := Std.ExtTreeSet NodeId

namespace NodeSet

def ofLinks (links : List Link) : NodeSet :=
  .ofList (links.flatMap fun link => [link.source.node, link.destination.node])

def count (nodes : NodeSet) : Nat := nodes.toList.length

/-- Numbers the switches from zero in ascending order. -/
def index (nodes : NodeSet) : Std.ExtTreeMap NodeId (Fin nodes.count) :=
  .ofList (nodes.toList.zip (List.finRange nodes.count))

end NodeSet

/-- A tree of links over a set of switches. -/
structure SpanningTree where
  nodes : NodeSet
  links : List Link

/-- Trees in the order of their least switch. -/
structure SpanningForest where
  trees : List SpanningTree

namespace SpanningForest

variable {n : Nat}

/-- Goes through the links and keeps each one that joins two classes; also
gives the classes joined in the end. Links with an end outside the index are
passed over. -/
def choose (index : Std.ExtTreeMap NodeId (Fin n)) :
    DisjointSet n → List Link → List Link × DisjointSet n
  | sets, [] => ([], sets)
  | sets, link :: rest =>
    match index[link.source.node]?, index[link.destination.node]? with
    | some a, some b =>
      let joined := sets.union a b
      let later := choose index joined.2 rest
      (if joined.1 then link :: later.1 else later.1, later.2)
    | _, _ => choose index sets rest

/-- The spanning forest of the fabric that the links form. Of links with one id
only the first counts. -/
def compute (links : List Link) : SpanningForest :=
  let ordered := (LinkTable.ofFirst links).links
  let nodes := NodeSet.ofLinks ordered
  let index := nodes.index
  let chosen := choose index (.singletons nodes.count) ordered
  let rootOf (node : NodeId) := index[node]?.map chosen.2.root
  let roots := (nodes.toList.map rootOf).eraseDups
  { trees := roots.map fun root =>
      { nodes := nodes.filter fun node => rootOf node = root
        links := chosen.1.filter fun link => rootOf link.source.node = root } }

def links (forest : SpanningForest) : List Link := forest.trees.flatMap (·.links)

def linkCount (forest : SpanningForest) : Nat := forest.links.length

def contains (forest : SpanningForest) (id : LinkId) : Bool :=
  forest.links.any fun link => link.id = id

def isEmpty (forest : SpanningForest) : Bool := forest.trees.isEmpty

end SpanningForest

end LoopGuard
