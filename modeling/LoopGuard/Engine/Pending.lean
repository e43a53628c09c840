import LoopGuard.Topology.Graph

/-!
# Pending work

Accepted events wait in one slot until the worker takes them. An event first
removes its links and then adds the new ones, so a link id that is reported
with other ends leaves with the new ends. The slot also notes that work is
queued, and that work arrived while a refresh was already scheduled, which asks
for that refresh to be pushed back.
-/

namespace LoopGuard

/-- What the engine is doing, as seen from outside. -/
inductive Stage where
  | idle
  | scheduled
  | refreshing
deriving DecidableEq, Repr

/-- One change of the graph. -/
inductive LinkChange where
  | add (links : List Link)
  | remove (links : List Link)
deriving DecidableEq, Repr

namespace LinkChange

def apply (change : LinkChange) (graph : LinkGraph) : LinkGraph :=
  match change with
  | add links => (graph.addLinks links).1
  | remove links => (graph.removeLinks links).1

/-- The ports at which links go away. -/
def releasedPorts : LinkChange → List PortRef
  | add _ => []
  | remove links => links.flatMap Link.endpoints

end LinkChange

/-- The changes that an event asks for, in order. -/
def LinkEvent.changes (event : LinkEvent) : List LinkChange :=
  (if event.removed.isEmpty then [] else [.remove event.removed]) ++
    (if event.created.isEmpty then [] else [.add event.created])

/-- The slot in which work waits for the worker. -/
structure Pending where
  /-- Changes of the graph in the order of their arrival. -/
  changes : List LinkChange := []
  /-- Work arrived since the worker last took the slot. -/
  queued : Bool := false
  /-- Work arrived since the refresh was scheduled or last pushed back. -/
  pushRequested : Bool := false
  stage : Stage := .idle
deriving Repr

namespace Pending

/-- Notes that work arrived. -/
def markQueued (pending : Pending) : Pending :=
  { pending with
    pushRequested := pending.pushRequested || pending.stage = .scheduled
    queued := true }

def enqueue (pending : Pending) (event : LinkEvent) : Pending :=
  markQueued { pending with changes := pending.changes ++ event.changes }

/-- The slot once its work is taken. -/
def taken (pending : Pending) : Pending :=
  { pending with changes := [], queued := false, pushRequested := false }

end Pending

end LoopGuard
