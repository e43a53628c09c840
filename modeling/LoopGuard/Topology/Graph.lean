import LoopGuard.Forest.Basic

/-!
# The link graph

A `LinkGraph` is the current fabric: the links by id, and for each switch the
ids of the links that touch it. The spanning forest is computed when it is
first asked for and kept until the set of links changes. `computations` counts
how often that happened, so an unchanged count says that the kept forest was
given out again.
-/

namespace LoopGuard

/-- The links of a fabric with their forest, once it is computed. -/
structure LinkGraph where
  table : LinkTable := ∅
  adjacency : Std.ExtTreeMap NodeId (Std.ExtTreeSet LinkId) := ∅
  kept : Option SpanningForest := none
  computations : Nat := 0

/-- The links of a graph together with their forest. -/
structure GraphSnapshot where
  links : List Link
  forest : SpanningForest

namespace LinkGraph

def empty : LinkGraph := {}

def attach (graph : LinkGraph) (node : NodeId) (id : LinkId) : LinkGraph :=
  { graph with
    adjacency := graph.adjacency.alter node fun ids => some ((ids.getD ∅).insert id) }

/-- Notes that the link no longer touches the switch; a switch without any link
leaves the graph. -/
def detach (graph : LinkGraph) (node : NodeId) (id : LinkId) : LinkGraph :=
  { graph with
    adjacency := graph.adjacency.alter node fun ids =>
      match ids with
      | none => none
      | some ids => if (ids.erase id).isEmpty then none else some (ids.erase id) }

/-- Adds one link, unless its id is known. -/
def addLink (graph : LinkGraph) (link : Link) : LinkGraph × Nat :=
  if graph.table.contains link.id then (graph, 0)
  else
    let joined := (graph.attach link.source.node link.id).attach link.destination.node link.id
    ({ joined with table := graph.table.insert link.id link }, 1)

/-- Removes the link with this id, whatever ends the request gives it. -/
def removeLink (graph : LinkGraph) (link : Link) : LinkGraph × Nat :=
  match graph.table[link.id]? with
  | none => (graph, 0)
  | some stored =>
    let parted :=
      (graph.detach stored.source.node stored.id).detach stored.destination.node stored.id
    ({ parted with table := graph.table.erase link.id }, 1)

/-- Carries out one change after the other and adds up their counts. -/
def changeEach (change : LinkGraph → Link → LinkGraph × Nat) :
    LinkGraph → List Link → LinkGraph × Nat
  | graph, [] => (graph, 0)
  | graph, link :: rest =>
    let first := change graph link
    let others := changeEach change first.1 rest
    (others.1, first.2 + others.2)

/-- Gives the kept forest up if a change had an effect. -/
def settleCount (changed : LinkGraph × Nat) : LinkGraph × Nat :=
  if changed.2 = 0 then changed else ({ changed.1 with kept := none }, changed.2)

/-- Adds links in order and counts those that were new. -/
def addLinks (graph : LinkGraph) (links : List Link) : LinkGraph × Nat :=
  settleCount (changeEach addLink graph links)

/-- Removes links by id and counts those that were there. -/
def removeLinks (graph : LinkGraph) (links : List Link) : LinkGraph × Nat :=
  settleCount (changeEach removeLink graph links)

/-- All links in the order of their ids. -/
def allLinks (graph : LinkGraph) : List Link := graph.table.links

/-- The spanning forest of the current links, which the graph keeps. -/
def spanningForest (graph : LinkGraph) : SpanningForest × LinkGraph :=
  match graph.kept with
  | some forest => (forest, graph)
  | none =>
    let forest := SpanningForest.compute graph.allLinks
    (forest, { graph with kept := some forest, computations := graph.computations + 1 })

/-- The links of the spanning forest, tree by tree. -/
def treeLinks (graph : LinkGraph) : List Link × LinkGraph :=
  let forest := graph.spanningForest
  (forest.1.links, forest.2)

def snapshot (graph : LinkGraph) : GraphSnapshot × LinkGraph :=
  let forest := graph.spanningForest
  (⟨forest.2.allLinks, forest.1⟩, forest.2)

def clear (graph : LinkGraph) : LinkGraph := { computations := graph.computations }

def nodeCount (graph : LinkGraph) : Nat := graph.adjacency.size

def linkCount (graph : LinkGraph) : Nat := graph.table.size

def isEmpty (graph : LinkGraph) : Bool := graph.table.isEmpty

def contains (graph : LinkGraph) (id : LinkId) : Bool := graph.table.contains id

end LinkGraph

end LoopGuard
