import LoopGuard.Forest.Basic

/-!
# Checking a forest

`SpanningForest.verify` accepts a forest when each of its trees spans its own
switches without a cycle and no switch belongs to two trees, and otherwise
names the first violation. Connectedness is not looked at by itself: a tree
with one link fewer than switches and no cycle is connected.
-/

namespace LoopGuard

/-- What is wrong with a forest. -/
inductive ForestViolation where
  /-- The tree at this position does not have one link fewer than switches. -/
  | edgeCount (tree nodes links : Nat)
  /-- Earlier links of its tree join the ends of this link already. -/
  | cycle (link : LinkId)
  /-- An end of this link is no switch of its tree. -/
  | foreignEndpoint (link : LinkId)
  /-- An earlier tree has this switch already. -/
  | sharedNode (node : NodeId)
deriving DecidableEq, Repr

def ForestViolation.message : ForestViolation → String
  | .edgeCount tree nodes links =>
    "tree " ++ toString tree ++ " has " ++ toString links ++ " links for " ++ toString nodes
      ++ " nodes"
  | .cycle link => "link " ++ link.text ++ " closes a cycle"
  | .foreignEndpoint link => "link " ++ link.text ++ " has an endpoint outside its tree"
  | .sharedNode node => "node " ++ node.text ++ " appears in more than one tree"

namespace SpanningTree

variable {n : Nat}

/-- Checks that each link joins two classes of its tree. -/
def checkLinks (index : Std.ExtTreeMap NodeId (Fin n)) :
    DisjointSet n → List Link → Except ForestViolation Unit
  | _, [] => .ok ()
  | sets, link :: rest =>
    match index[link.source.node]?, index[link.destination.node]? with
    | some a, some b =>
      let joined := sets.union a b
      if joined.1 then checkLinks index joined.2 rest else .error (.cycle link.id)
    | _, _ => .error (.foreignEndpoint link.id)

/-- Checks one tree on its own; `position` is its place in the forest. -/
def check (position : Nat) (tree : SpanningTree) : Except ForestViolation Unit :=
  if tree.links.length + 1 = tree.nodes.count then
    checkLinks tree.nodes.index (.singletons tree.nodes.count) tree.links
  else .error (.edgeCount position tree.nodes.count tree.links.length)

end SpanningTree

namespace SpanningForest

/-- Checks trees from a position on, given the switches of the trees before. -/
def verifyFrom (position : Nat) (seen : NodeSet) :
    List SpanningTree → Except ForestViolation Unit
  | [] => .ok ()
  | tree :: rest =>
    match tree.check position with
    | .error violation => .error violation
    | .ok () =>
      match tree.nodes.toList.find? seen.contains with
      | some node => .error (.sharedNode node)
      | none => verifyFrom (position + 1) (seen ∪ tree.nodes) rest

/-- Checks that every tree spans its switches and that no two trees share one. -/
def verify (forest : SpanningForest) : Except ForestViolation Unit :=
  verifyFrom 0 ∅ forest.trees

end SpanningForest

end LoopGuard
