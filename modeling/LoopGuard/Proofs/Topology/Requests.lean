import LoopGuard.Proofs.Topology.Graph
import Mathlib.Data.Finset.Card
import Mathlib.Data.List.Perm.Basic

/-!
# A link graph answers as a plain table

Next to its links a graph carries an adjacency, counts and a kept forest, and all
of them have to follow every change. Seen from outside nothing of this shows:
whatever a graph is asked for, and in whatever order, it answers as its table alone
would (`LinkGraph.answers_as_table`). Each batch counts the ids that it really adds
or takes out once, a switch is listed exactly as long as links touch it, and the
kept forest is given up exactly by the batches that change the table.
-/

namespace LoopGuard

/-- What one can ask of a link graph. -/
inductive GraphRequest where
  | add (links : List Link)
  | remove (links : List Link)
  | clear
  | allLinks
  | treeLinks
  | spanningForest
  | snapshot
  | nodeCount
  | linkCount
  | isEmpty
  | contains (id : LinkId)

/-- What a link graph gives back. -/
inductive GraphAnswer where
  | done
  | number (count : Nat)
  | truth (holds : Bool)
  | links (links : List Link)
  | forest (forest : SpanningForest)
  | view (snapshot : GraphSnapshot)

namespace LinkGraph

/-- The answer to a request, and the graph after it. -/
def serve (graph : LinkGraph) : GraphRequest → GraphAnswer × LinkGraph
  | .add links =>
    let changed := graph.addLinks links
    (.number changed.2, changed.1)
  | .remove links =>
    let changed := graph.removeLinks links
    (.number changed.2, changed.1)
  | .clear => (.done, graph.clear)
  | .allLinks => (.links graph.allLinks, graph)
  | .treeLinks =>
    let read := graph.treeLinks
    (.links read.1, read.2)
  | .spanningForest =>
    let read := graph.spanningForest
    (.forest read.1, read.2)
  | .snapshot =>
    let read := graph.snapshot
    (.view read.1, read.2)
  | .nodeCount => (.number graph.nodeCount, graph)
  | .linkCount => (.number graph.linkCount, graph)
  | .isEmpty => (.truth graph.isEmpty, graph)
  | .contains id => (.truth (graph.contains id), graph)

/-- The answers to requests that come one after the other. -/
def serveAll : LinkGraph → List GraphRequest → List GraphAnswer × LinkGraph
  | graph, [] => ([], graph)
  | graph, request :: rest =>
    let first := graph.serve request
    let later := first.2.serveAll rest
    (first.1 :: later.1, later.2)

end LinkGraph

/-! ## The plain table -/

namespace LinkTable

/-- The ids of the links that the table does not know. -/
def newIds (table : LinkTable) (links : List Link) : Finset LinkId :=
  (links.map Link.id).toFinset.filter (· ∉ table)

/-- The ids of the links that the table knows. -/
def knownIds (table : LinkTable) (links : List Link) : Finset LinkId :=
  (links.map Link.id).toFinset.filter (· ∈ table)

instance {link : Link} {node : NodeId} : Decidable (link.Touches node) :=
  inferInstanceAs (Decidable (_ ∨ _))

/-- The ids of the links that touch the switch. -/
def idsAt (table : LinkTable) (node : NodeId) : Std.ExtTreeSet LinkId :=
  .ofList ((table.links.filter fun link => link.Touches node).map Link.id)

end LinkTable

namespace GraphRequest

/-- The table after a request. -/
def file (table : LinkTable) : GraphRequest → LinkTable
  | add links => table.addAll links
  | remove links => table.eraseAll links
  | clear => ∅
  | _ => table

/-- The answer that the table alone gives. -/
def answer (table : LinkTable) : GraphRequest → GraphAnswer
  | add links => .number (table.newIds links).card
  | remove links => .number (table.knownIds links).card
  | clear => .done
  | allLinks => .links table.links
  | treeLinks => .links (SpanningForest.compute table.links).links
  | spanningForest => .forest (.compute table.links)
  | snapshot => .view ⟨table.links, .compute table.links⟩
  | nodeCount => .number (NodeSet.ofLinks table.links).count
  | linkCount => .number table.links.length
  | isEmpty => .truth table.links.isEmpty
  | contains id => .truth (id ∈ table)

/-- The answers to requests that come one after the other. -/
def answers : LinkTable → List GraphRequest → List GraphAnswer
  | _, [] => []
  | table, request :: rest => request.answer table :: answers (request.file table) rest

end GraphRequest

/-! ## Counting -/

namespace LinkTable

variable {table : LinkTable} {links : List Link} {link : Link} {id : LinkId} {node : NodeId}

theorem mem_newIds : id ∈ table.newIds links ↔ id ∈ links.map Link.id ∧ id ∉ table := by
  rw [newIds, Finset.mem_filter, List.mem_toFinset]

theorem mem_knownIds : id ∈ table.knownIds links ↔ id ∈ links.map Link.id ∧ id ∈ table := by
  rw [knownIds, Finset.mem_filter, List.mem_toFinset]

/-- Of a list of ids each is counted once: the first one counts if it passes, and
is passed over from then on. -/
private theorem card_filter_cons {ids : List LinkId} {now : LinkId → Prop} [DecidablePred now]
    (later : LinkId → Prop) [DecidablePred later]
    (step : ∀ other, later other ↔ other ≠ id ∧ now other) :
    ((id :: ids).toFinset.filter now).card =
      (if now id then 1 else 0) + (ids.toFinset.filter later).card := by
  have rest : ids.toFinset.filter later = (ids.toFinset.filter now).erase id := by
    ext other
    rw [Finset.mem_erase, Finset.mem_filter, Finset.mem_filter, step, and_left_comm]
  rw [rest, List.toFinset_cons, Finset.filter_insert]
  split
  next passes => rw [← Finset.card_erase_add_one (Finset.mem_insert_self id _),
    Finset.erase_insert_eq_erase, Nat.add_comm]
  next fails =>
    rw [Nat.zero_add, Finset.erase_eq_of_notMem fun mem => fails (Finset.mem_filter.1 mem).2]

/-- Once a link is added its id is not new any more. -/
theorem card_newIds_cons :
    (table.newIds (link :: links)).card =
      (if link.id ∈ table then 0 else 1) +
        (newIds (table.insertIfNew link.id link) links).card := by
  unfold newIds
  rw [List.map_cons, card_filter_cons (· ∉ table.insertIfNew link.id link), ite_not]
  intro other
  rw [Std.ExtTreeMap.mem_insertIfNew, not_or, Std.LawfulEqCmp.compare_eq_iff_eq, ne_comm]

/-- Once a link is taken out its id is not known any more. -/
theorem card_knownIds_cons :
    (table.knownIds (link :: links)).card =
      (if link.id ∈ table then 1 else 0) + (knownIds (table.erase link.id) links).card := by
  unfold knownIds
  rw [List.map_cons, card_filter_cons (· ∈ table.erase link.id)]
  intro other
  rw [Std.ExtTreeMap.mem_erase, ne_eq, Std.LawfulEqCmp.compare_eq_iff_eq, ne_comm]

/-- Adding changes nothing only if no id is new. -/
theorem newIds_of_addAll_eq (same : table.addAll links = table) : table.newIds links = ∅ := by
  refine Finset.eq_empty_of_forall_notMem fun id mem => ?_
  obtain ⟨listed, absent⟩ := mem_newIds.1 mem
  obtain ⟨link, inside, rfl⟩ := List.mem_map.1 listed
  refine absent ?_
  rw [← same, Std.ExtTreeMap.mem_iff_isSome_getElem?, getElem?_addAll, Option.isSome_or]
  simp only [Bool.or_eq_true, List.find?_isSome]
  exact .inr ⟨link, inside, by simp⟩

/-- Taking out changes nothing only if no id is known. -/
theorem knownIds_of_eraseAll_eq (same : table.eraseAll links = table) :
    table.knownIds links = ∅ := by
  refine Finset.eq_empty_of_forall_notMem fun id mem => ?_
  obtain ⟨listed, present⟩ := mem_knownIds.1 mem
  rw [← same, Std.ExtTreeMap.mem_iff_isSome_getElem?, getElem?_eraseAll,
    if_pos (by simpa using listed)] at present
  cases present

theorem Keyed.mem_idsAt (keyed : table.Keyed) :
    id ∈ table.idsAt node ↔ ∃ link : Link, table[id]? = some link ∧ link.Touches node := by
  simp only [idsAt, Std.ExtTreeSet.mem_ofList, List.contains_iff_mem, List.mem_map, List.mem_filter,
    decide_eq_true_eq, keyed.mem_links_iff]
  constructor
  · rintro ⟨link, ⟨filed, touches⟩, rfl⟩
    exact ⟨link, filed, touches⟩
  · rintro ⟨link, filed, touches⟩
    have key : link.id = id := keyed id link filed
    exact ⟨link, ⟨key ▸ filed, touches⟩, key⟩

end LinkTable

namespace LinkGraph

variable {graph : LinkGraph} {links : List Link} {link : Link} {node : NodeId}
  {request : GraphRequest}

theorem snd_addLink : (graph.addLink link).2 = if link.id ∈ graph.table then 0 else 1 := by
  unfold addLink
  simp only [← Std.ExtTreeMap.mem_iff_contains]
  split <;> rfl

theorem snd_removeLink : (graph.removeLink link).2 = if link.id ∈ graph.table then 1 else 0 := by
  unfold removeLink
  simp only [Std.ExtTreeMap.mem_iff_isSome_getElem?]
  split
  next absent => simp [absent]
  next found => simp [found]

/-- A batch counts as its table does, if each change of it does. -/
theorem snd_settleCount {change : LinkGraph → Link → LinkGraph × Nat}
    (counted : LinkTable → List Link → Nat) (nil : ∀ table, counted table [] = 0)
    (cons : ∀ graph link rest, counted graph.table (link :: rest) =
      (change graph link).2 + counted (change graph link).1.table rest) :
    (settleCount (changeEach change graph links)).2 = counted graph.table links := by
  have each : (changeEach change graph links).2 = counted graph.table links := by
    induction links generalizing graph with
    | nil => exact (nil graph.table).symm
    | cons link rest ih => rw [changeEach, cons, ih]
  unfold settleCount
  split <;> exact each

theorem snd_addLinks : (graph.addLinks links).2 = (graph.table.newIds links).card := by
  refine snd_settleCount (fun table links => (table.newIds links).card) (fun _ => rfl) ?_
  intro graph link rest
  rw [LinkTable.card_newIds_cons, snd_addLink, table_addLink]

theorem snd_removeLinks : (graph.removeLinks links).2 = (graph.table.knownIds links).card := by
  refine snd_settleCount (fun table links => (table.knownIds links).card) (fun _ => rfl) ?_
  intro graph link rest
  rw [LinkTable.card_knownIds_cons, snd_removeLink, table_removeLink]

/-! ## Answers -/

theorem Sound.clear : graph.clear.Sound where
  keyed := LinkTable.keyed_empty
  adjacent := by simp [Touches, LinkGraph.clear]
  inhabited := by simp [Inhabited, LinkGraph.clear]
  forest := by simp [LinkGraph.clear]

theorem Sound.serve (sound : graph.Sound) (request : GraphRequest) :
    (graph.serve request).2.Sound := by
  cases request with
  | add links => exact sound.addLinks
  | remove links => exact sound.removeLinks
  | clear => exact Sound.clear
  | treeLinks | spanningForest | snapshot => exact sound.spanningForest
  | allLinks | nodeCount | linkCount | isEmpty | contains => exact sound

theorem table_serve : (graph.serve request).2.table = request.file graph.table := by
  cases request with
  | add links => exact table_addLinks
  | remove links => exact table_removeLinks
  | treeLinks | spanningForest | snapshot => exact table_spanningForest
  | clear | allLinks | nodeCount | linkCount | isEmpty | contains => rfl

private theorem exists_mem_of_ne_empty {ids : Std.ExtTreeSet LinkId} (some : ids ≠ ∅) :
    ∃ id, id ∈ ids := by
  by_contra none
  exact some (Std.ExtTreeSet.eq_empty_iff_forall_not_mem.2 fun id mem => none ⟨id, mem⟩)

/-- The adjacency lists just the switches that links touch. -/
theorem Filed.mem_adjacency_iff (filed : graph.Filed) :
    node ∈ graph.adjacency ↔ ∃ link ∈ graph.table.links, link.Touches node := by
  rw [Std.ExtTreeMap.mem_iff_isSome_getElem?, Option.isSome_iff_exists]
  constructor
  · rintro ⟨ids, found⟩
    obtain ⟨id, inside⟩ := exists_mem_of_ne_empty (filed.inhabited node ids found)
    obtain ⟨link, held, touches⟩ := (filed.adjacent node id).1 ⟨ids, found, inside⟩
    exact ⟨link, LinkTable.mem_links.2 ⟨id, held⟩, touches⟩
  · rintro ⟨link, mem, touches⟩
    obtain ⟨id, held⟩ := LinkTable.mem_links.1 mem
    obtain ⟨ids, found, _⟩ := (filed.adjacent node id).2 ⟨link, held, touches⟩
    exact ⟨ids, found⟩

theorem Filed.nodeCount_eq (filed : graph.Filed) :
    graph.nodeCount = (NodeSet.ofLinks graph.table.links).count := by
  have same (node : NodeId) :
      node ∈ graph.adjacency.keys ↔ node ∈ (NodeSet.ofLinks graph.table.links).toList := by
    rw [Std.ExtTreeMap.mem_keys, filed.mem_adjacency_iff, Std.ExtTreeSet.mem_toList]
    simp [NodeSet.ofLinks, Link.Touches, eq_comm]
  have distinct : (NodeSet.ofLinks graph.table.links).toList.Nodup :=
    Std.ExtTreeSet.distinct_toList.imp fun differ same =>
      differ (Std.LawfulEqCmp.compare_eq_iff_eq.2 same)
  rw [nodeCount, ← Std.ExtTreeMap.length_keys, NodeSet.count]
  exact ((List.perm_ext_iff_of_nodup Std.ExtTreeMap.nodup_keys distinct).2 same).length_eq

/-- Each switch that links touch is listed with the ids of all of them. -/
theorem Filed.getElem?_adjacency_eq_some_iff (filed : graph.Filed) {ids : Std.ExtTreeSet LinkId} :
    graph.adjacency[node]? = some ids ↔ ids = graph.table.idsAt node ∧ ids ≠ ∅ := by
  have lists {ids : Std.ExtTreeSet LinkId} (found : graph.adjacency[node]? = some ids) :
      ids = graph.table.idsAt node := by
    refine Std.ExtTreeSet.ext_mem fun id => ?_
    rw [filed.keyed.mem_idsAt, ← filed.adjacent, Touches]
    constructor
    · exact fun inside => ⟨ids, found, inside⟩
    · rintro ⟨others, found', inside⟩
      rw [found, Option.some.injEq] at found'
      exact found' ▸ inside
  constructor
  · exact fun found => ⟨lists found, filed.inhabited node ids found⟩
  · rintro ⟨rfl, some⟩
    obtain ⟨id, inside⟩ := exists_mem_of_ne_empty some
    obtain ⟨ids, found, _⟩ := (filed.adjacent node id).2 (filed.keyed.mem_idsAt.1 inside)
    rw [found, lists found]

theorem Sound.fst_serve (sound : graph.Sound) :
    (graph.serve request).1 = request.answer graph.table := by
  have forest := spanningForest_fst sound
  cases request with
  | add links => exact congrArg GraphAnswer.number snd_addLinks
  | remove links => exact congrArg GraphAnswer.number snd_removeLinks
  | clear | allLinks => rfl
  | treeLinks =>
    simp only [LinkGraph.serve, treeLinks, forest]
    rfl
  | spanningForest => exact congrArg GraphAnswer.forest forest
  | snapshot =>
    simp only [LinkGraph.serve, snapshot, forest, allLinks, table_spanningForest]
    rfl
  | nodeCount => exact congrArg GraphAnswer.number sound.nodeCount_eq
  | linkCount =>
    simp only [LinkGraph.serve, GraphRequest.answer, linkCount, LinkTable.links, List.length_map,
      Std.ExtTreeMap.length_toList]
  | isEmpty =>
    simp only [LinkGraph.serve, GraphRequest.answer, isEmpty, LinkTable.links, List.isEmpty_map,
      Std.ExtTreeMap.isEmpty_toList]
  | contains id =>
    simp only [LinkGraph.serve, GraphRequest.answer, contains, Std.ExtTreeMap.mem_iff_contains,
      Bool.decide_eq_true]

/-- A sound graph answers as its table, and stays sound. -/
theorem Sound.serveAll (sound : graph.Sound) (requests : List GraphRequest) :
    (graph.serveAll requests).1 = GraphRequest.answers graph.table requests ∧
      (graph.serveAll requests).2.Sound ∧
      (graph.serveAll requests).2.table = requests.foldl GraphRequest.file graph.table := by
  induction requests generalizing graph with
  | nil => exact ⟨rfl, sound, rfl⟩
  | cons request rest ih =>
    obtain ⟨answers, sound', table⟩ := ih (sound.serve request)
    rw [table_serve] at answers table
    refine ⟨?_, sound', table⟩
    rw [LinkGraph.serveAll, GraphRequest.answers, sound.fst_serve, answers]

/-! ## The kept forest -/

/-- A batch that counts nothing if it keeps the table then keeps the whole graph, and
otherwise gives the kept forest up. -/
theorem settleCount_cases {change : LinkGraph → Link → LinkGraph × Nat} {table : LinkTable}
    (idle : ∀ graph link, (change graph link).2 = 0 → (change graph link).1 = graph)
    (filed : (settleCount (changeEach change graph links)).1.table = table)
    (still : table = graph.table → (settleCount (changeEach change graph links)).2 = 0) :
    (table = graph.table → (settleCount (changeEach change graph links)).1 = graph) ∧
      (table ≠ graph.table → (settleCount (changeEach change graph links)).1.kept = none) := by
  unfold settleCount at filed still ⊢
  split
  next nothing =>
    have same := changeEach_of_snd_eq_zero idle nothing
    rw [if_pos nothing, same] at filed
    exact ⟨fun _ => same, fun changed => absurd filed.symm changed⟩
  next something =>
    rw [if_neg something] at still
    exact ⟨fun same => absurd (still same) something, fun _ => rfl⟩

theorem addLinks_cases :
    (graph.table.addAll links = graph.table → (graph.addLinks links).1 = graph) ∧
      (graph.table.addAll links ≠ graph.table → (graph.addLinks links).1.kept = none) :=
  settleCount_cases addLink_of_snd_eq_zero table_addLinks fun same =>
    snd_addLinks.trans (Finset.card_eq_zero.2 (LinkTable.newIds_of_addAll_eq same))

theorem removeLinks_cases :
    (graph.table.eraseAll links = graph.table → (graph.removeLinks links).1 = graph) ∧
      (graph.table.eraseAll links ≠ graph.table → (graph.removeLinks links).1.kept = none) :=
  settleCount_cases removeLink_of_snd_eq_zero table_removeLinks fun same =>
    snd_removeLinks.trans (Finset.card_eq_zero.2 (LinkTable.knownIds_of_eraseAll_eq same))

/-- Whatever a graph was asked for from the beginning on, its answers are those of
the plain table, which lists its links in the order of ids; each switch has the ids
of the links that touch it, and is listed only if there are some. An addition keeps
the link of a known id, a removal goes by id whatever ends it gives, and either
keeps the graph with its kept forest if it changes no link, and drops the forest
otherwise. -/
theorem answers_as_table (requests : List GraphRequest) :
    let graph := (empty.serveAll requests).2
    let table := requests.foldl GraphRequest.file ∅
    (empty.serveAll requests).1 = GraphRequest.answers ∅ requests ∧
      graph.allLinks = table.links ∧
      (table.links.Pairwise fun link other => compare link.id other.id = .lt) ∧
      (∀ link : Link, link ∈ table.links ↔ table[link.id]? = some link) ∧
      (∀ node ids, graph.adjacency[node]? = some ids ↔ ids = table.idsAt node ∧ ids ≠ ∅) ∧
      ∀ links : List Link,
        (∀ id : LinkId, (graph.addLinks links).1.table[id]? =
          table[id]?.or (links.find? fun link => link.id = id)) ∧
        (∀ id : LinkId, (graph.removeLinks links).1.table[id]? =
          if ∃ link ∈ links, link.id = id then none else table[id]?) ∧
        (table.addAll links = table → (graph.addLinks links).1 = graph) ∧
        (table.addAll links ≠ table → (graph.addLinks links).1.kept = none) ∧
        (table.eraseAll links = table → (graph.removeLinks links).1 = graph) ∧
        (table.eraseAll links ≠ table → (graph.removeLinks links).1.kept = none) := by
  intro graph table
  obtain ⟨answers, sound, same⟩ := sound_empty.serveAll requests
  have same : graph.table = table := same
  have keyed : table.Keyed := same ▸ sound.keyed
  refine ⟨answers, congrArg LinkTable.links same, keyed.ordered_links,
    fun _ => keyed.mem_links_iff, fun node ids => ?_, fun links => ⟨fun id => ?_, fun id => ?_, ?_⟩⟩
  · rw [← same]
    exact sound.getElem?_adjacency_eq_some_iff
  · rw [table_addLinks, same, LinkTable.getElem?_addAll]
  · rw [table_removeLinks, same, LinkTable.getElem?_eraseAll]
  · rw [← same]
    exact ⟨addLinks_cases.1, addLinks_cases.2, removeLinks_cases.1, removeLinks_cases.2⟩

end LinkGraph

end LoopGuard
