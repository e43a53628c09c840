import LoopGuard.Proofs.Topology.Replay

/-!
# The graph behind its table

A link graph is `Filed` when its adjacency says for each switch exactly which
links of the table touch it, and `Sound` when moreover the forest that it keeps
is that of its links. Every operation keeps a graph sound and acts on the table
as `LinkTable.addAll` and `LinkTable.eraseAll` do, so the table alone
determines a sound graph up to whether the forest is computed yet.
-/

namespace LoopGuard

/-- One end of the link sits on the switch. -/
def Link.Touches (link : Link) (node : NodeId) : Prop :=
  link.source.node = node ∨ link.destination.node = node

namespace LinkGraph

variable {graph : LinkGraph} {node other : NodeId} {id key : LinkId} {link : Link}
  {links : List Link}

/-- The adjacency has the link at the switch. -/
def Touches (graph : LinkGraph) (node : NodeId) (id : LinkId) : Prop :=
  ∃ ids, graph.adjacency[node]? = some ids ∧ id ∈ ids

/-- No switch is left without a link. -/
def Inhabited (graph : LinkGraph) : Prop :=
  ∀ (node : NodeId) (ids : Std.ExtTreeSet LinkId), graph.adjacency[node]? = some ids → ids ≠ ∅

/-- The adjacency is that of the table. -/
structure Filed (graph : LinkGraph) : Prop where
  keyed : graph.table.Keyed
  adjacent : ∀ node id, graph.Touches node id ↔
    ∃ link : Link, graph.table[id]? = some link ∧ link.Touches node
  inhabited : graph.Inhabited

/-- The adjacency and the forest are those of the table. -/
structure Sound (graph : LinkGraph) : Prop extends graph.Filed where
  forest : ∀ forest, graph.kept = some forest → forest = .compute graph.allLinks

/-! ## Adjacency -/

theorem touches_attach :
    (graph.attach node id).Touches other key ↔
      (node = other ∧ id = key) ∨ graph.Touches other key := by
  simp only [Touches, attach, Std.ExtTreeMap.getElem?_alter, Std.LawfulEqCmp.compare_eq_iff_eq]
  by_cases same : node = other
  · subst same
    cases graph.adjacency[node]? <;> simp [Std.ExtTreeSet.mem_insert]
  · simp [same]

theorem touches_detach :
    (graph.detach node id).Touches other key ↔
      graph.Touches other key ∧ ¬(node = other ∧ id = key) := by
  simp only [Touches, detach, Std.ExtTreeMap.getElem?_alter, Std.LawfulEqCmp.compare_eq_iff_eq]
  by_cases same : node = other
  · subst same
    cases graph.adjacency[node]? with
    | none => simp
    | some ids =>
      by_cases last : (ids.erase id).isEmpty
      · have gone : key ∉ ids.erase id := by
          rw [Std.ExtTreeSet.isEmpty_iff.1 last]
          exact Std.ExtTreeSet.not_mem_empty
        simp only [Std.ExtTreeSet.mem_erase, not_and] at gone
        simp only [if_true, last]
        grind
      · simp [last, Std.ExtTreeSet.mem_erase, and_comm]
  · simp [same]

theorem Inhabited.attach (inhabited : graph.Inhabited) : (graph.attach node id).Inhabited := by
  intro other ids found
  simp only [LinkGraph.attach, Std.ExtTreeMap.getElem?_alter,
    Std.LawfulEqCmp.compare_eq_iff_eq] at found
  split at found
  · obtain rfl := Option.some.inj found
    intro empty
    have mem : id ∈ ((graph.adjacency[node]?).getD ∅).insert id := Std.ExtTreeSet.mem_insert_self
    rw [empty] at mem
    exact Std.ExtTreeSet.not_mem_empty mem
  · exact inhabited other ids found

theorem Inhabited.detach (inhabited : graph.Inhabited) : (graph.detach node id).Inhabited := by
  intro other ids found
  simp only [LinkGraph.detach, Std.ExtTreeMap.getElem?_alter,
    Std.LawfulEqCmp.compare_eq_iff_eq] at found
  split at found
  · split at found
    · cases found
    · split at found
      next => cases found
      next some =>
        obtain rfl := Option.some.inj found
        exact fun empty => some (Std.ExtTreeSet.isEmpty_iff.2 empty)
  · exact inhabited other ids found

/-- Two filed graphs over one table have one adjacency. -/
theorem Filed.adjacency_eq {graph₁ graph₂ : LinkGraph} (filed₁ : graph₁.Filed)
    (filed₂ : graph₂.Filed) (table : graph₁.table = graph₂.table) :
    graph₁.adjacency = graph₂.adjacency := by
  have touches (node : NodeId) (id : LinkId) : graph₁.Touches node id ↔ graph₂.Touches node id := by
    rw [filed₁.adjacent, filed₂.adjacent, table]
  refine Std.ExtTreeMap.ext_getElem? fun node => ?_
  cases first : graph₁.adjacency[node]? with
  | none =>
    cases second : graph₂.adjacency[node]? with
    | none => rfl
    | some ids =>
      have empty : ids = ∅ := Std.ExtTreeSet.ext_mem fun id => by
        have := touches node id
        simp only [Touches, first, second] at this
        simpa using this
      exact absurd empty (filed₂.inhabited node ids second)
  | some ids =>
    cases second : graph₂.adjacency[node]? with
    | none =>
      have empty : ids = ∅ := Std.ExtTreeSet.ext_mem fun id => by
        have := touches node id
        simp only [Touches, first, second] at this
        simpa using this
      exact absurd empty (filed₁.inhabited node ids first)
    | some ids' =>
      congr 1
      refine Std.ExtTreeSet.ext_mem fun id => ?_
      simpa [Touches, first, second] using touches node id

/-! ## Single links -/

theorem table_addLink : (graph.addLink link).1.table = graph.table.insertIfNew link.id link := by
  refine Std.ExtTreeMap.ext_getElem? fun id => ?_
  rw [Std.ExtTreeMap.getElem?_insertIfNew]
  unfold addLink
  split
  next known => rw [if_neg fun h => h.2 (Std.ExtTreeMap.mem_iff_contains.2 known)]
  next new =>
    rw [← Std.ExtTreeMap.mem_iff_contains] at new
    rw [Std.ExtTreeMap.getElem?_insert]
    by_cases same : compare link.id id = .eq
    · rw [if_pos same, if_pos ⟨same, new⟩]
    · rw [if_neg same, if_neg fun h => same h.1]

theorem table_removeLink : (graph.removeLink link).1.table = graph.table.erase link.id := by
  unfold removeLink
  split
  next absent =>
    refine Std.ExtTreeMap.ext_getElem? fun id => ?_
    rw [Std.ExtTreeMap.getElem?_erase]
    split
    next same =>
      obtain rfl : link.id = id := Std.LawfulEqCmp.eq_of_compare same
      exact absent
    next => rfl
  next => rfl

theorem Filed.addLink (filed : graph.Filed) : (graph.addLink link).1.Filed := by
  unfold LinkGraph.addLink
  split
  · exact filed
  next new =>
    have absent : graph.table[link.id]? = none := by
      simpa using new
    refine ⟨filed.keyed.insert, fun node id => ?_, filed.inhabited.attach.attach⟩
    refine (touches_attach.trans (or_congr_right touches_attach)).trans ?_
    rw [filed.adjacent]
    simp only [Std.ExtTreeMap.getElem?_insert, Std.LawfulEqCmp.compare_eq_iff_eq, Link.Touches]
    by_cases same : link.id = id
    · subst same
      simp [absent, or_comm]
    · simp [same]

theorem Filed.removeLink (filed : graph.Filed) : (graph.removeLink link).1.Filed := by
  unfold LinkGraph.removeLink
  split
  next => exact filed
  next stored found =>
    have key : stored.id = link.id := filed.keyed _ _ found
    refine ⟨filed.keyed.erase, fun node id => ?_, filed.inhabited.detach.detach⟩
    refine (touches_detach.trans (and_congr_left' touches_detach)).trans ?_
    rw [filed.adjacent]
    simp only [Std.ExtTreeMap.getElem?_erase, Std.LawfulEqCmp.compare_eq_iff_eq, Link.Touches, key]
    by_cases same : link.id = id
    · subst same
      simp [found]
      grind
    · simp [same]

/-! ## Batches -/

section Batches

variable {change : LinkGraph → Link → LinkGraph × Nat}

theorem changeEach_fst :
    (changeEach change graph links).1 =
      links.foldl (fun graph link => (change graph link).1) graph := by
  induction links generalizing graph with
  | nil => rfl
  | cons link rest ih => exact ih

/-- A batch that counts nothing did nothing. -/
theorem changeEach_of_snd_eq_zero (idle : ∀ graph link, (change graph link).2 = 0 →
    (change graph link).1 = graph) (none : (changeEach change graph links).2 = 0) :
    (changeEach change graph links).1 = graph := by
  induction links generalizing graph with
  | nil => rfl
  | cons link rest ih =>
    simp only [changeEach] at none ⊢
    obtain ⟨first, others⟩ := Nat.add_eq_zero_iff.1 none
    rw [idle _ _ first] at others ⊢
    exact ih others

/-- A batch of changes that keep the graph filed keeps it sound. -/
theorem Sound.settleCount (sound : graph.Sound)
    (filed : ∀ {graph : LinkGraph} {link : Link}, graph.Filed → (change graph link).1.Filed)
    (idle : ∀ graph link, (change graph link).2 = 0 → (change graph link).1 = graph) :
    (LinkGraph.settleCount (changeEach change graph links)).1.Sound := by
  unfold LinkGraph.settleCount
  split
  next none =>
    rw [changeEach_of_snd_eq_zero idle none]
    exact sound
  next =>
    have all : (changeEach change graph links).1.Filed := by
      rw [changeEach_fst]
      exact List.foldlRecOn links _ sound.toFiled fun _ filed' _ _ => filed filed'
    exact { all with forest := by simp }

/-- A batch changes the table link by link. -/
theorem table_settleCount (file : LinkTable → Link → LinkTable)
    (each : ∀ graph link, (change graph link).1.table = file graph.table link) :
    (LinkGraph.settleCount (changeEach change graph links)).1.table =
      links.foldl file graph.table := by
  have fold : (changeEach change graph links).1.table = links.foldl file graph.table := by
    rw [changeEach_fst]
    induction links generalizing graph with
    | nil => rfl
    | cons link rest ih => exact ih.trans (by rw [each]; rfl)
  unfold LinkGraph.settleCount
  split <;> exact fold

end Batches

theorem table_addLinks : (graph.addLinks links).1.table = graph.table.addAll links :=
  table_settleCount _ fun _ _ => table_addLink

theorem table_removeLinks : (graph.removeLinks links).1.table = graph.table.eraseAll links :=
  table_settleCount _ fun _ _ => table_removeLink

theorem sound_empty : empty.Sound where
  keyed := LinkTable.keyed_empty
  adjacent := by simp [Touches, empty]
  inhabited := by simp [Inhabited, empty]
  forest := by simp [empty]

/-- An addition that counts nothing did nothing. -/
theorem addLink_of_snd_eq_zero (graph : LinkGraph) (link : Link)
    (none : (graph.addLink link).2 = 0) : (graph.addLink link).1 = graph := by
  unfold addLink at none ⊢
  split
  · rfl
  next new => simp [new] at none

/-- A removal that counts nothing did nothing. -/
theorem removeLink_of_snd_eq_zero (graph : LinkGraph) (link : Link)
    (none : (graph.removeLink link).2 = 0) : (graph.removeLink link).1 = graph := by
  unfold removeLink at none ⊢
  split
  · rfl
  next found => simp [found] at none

theorem Sound.addLinks (sound : graph.Sound) : (graph.addLinks links).1.Sound :=
  sound.settleCount Filed.addLink addLink_of_snd_eq_zero

theorem Sound.removeLinks (sound : graph.Sound) : (graph.removeLinks links).1.Sound :=
  sound.settleCount Filed.removeLink removeLink_of_snd_eq_zero

/-! ## Reading the forest -/

theorem spanningForest_fst (sound : graph.Sound) :
    graph.spanningForest.1 = .compute graph.allLinks := by
  unfold spanningForest
  split
  next forest kept => exact sound.forest forest kept
  next => rfl

theorem table_spanningForest : graph.spanningForest.2.table = graph.table := by
  unfold spanningForest
  split <;> rfl

theorem Sound.spanningForest (sound : graph.Sound) : graph.spanningForest.2.Sound := by
  unfold LinkGraph.spanningForest
  split
  · exact sound
  · refine ⟨⟨sound.keyed, sound.adjacent, sound.inhabited⟩, fun forest kept => ?_⟩
    exact (Option.some.inj kept).symm

end LinkGraph

/-! ## Changes -/

namespace LinkChange

variable {graph : LinkGraph}

theorem table_apply (change : LinkChange) :
    (change.apply graph).table = change.file graph.table := by
  cases change with
  | add links => exact LinkGraph.table_addLinks
  | remove links => exact LinkGraph.table_removeLinks

theorem table_foldl_apply (changes : List LinkChange) :
    (changes.foldl (fun graph change => change.apply graph) graph).table =
      graph.table.replay changes := by
  induction changes generalizing graph with
  | nil => rfl
  | cons change rest ih =>
    rw [List.foldl_cons, ih, table_apply]
    rfl

theorem sound_apply (change : LinkChange) (sound : graph.Sound) : (change.apply graph).Sound := by
  cases change with
  | add links => exact sound.addLinks
  | remove links => exact sound.removeLinks

end LinkChange

end LoopGuard
