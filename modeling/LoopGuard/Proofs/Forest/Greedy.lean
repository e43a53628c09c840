import LoopGuard.Proofs.Forest.Spanning

/-!
# Which links a forest takes

The scan that computes a forest goes through pointers and ranks. What it takes can be
said without them: a link is in the forest exactly if it is the first of its id and
the first links of lesser ids do not link its two ends. Hence a forest depends on the
first link of each id and on nothing else, least of all on the order in which links
are given (`SpanningForest.greedy_choice`).
-/

namespace LoopGuard

variable {links other before chosen : List Link} {link : Link} {id : LinkId}

/-! ## Links of lesser ids -/

/-- The first links of the ids below this one. -/
def linksBelow (links : List Link) (id : LinkId) : List Link :=
  links.filter fun link => link.IsFirst links ∧ compare link.id id = .lt

theorem mem_linksBelow :
    link ∈ linksBelow links id ↔ link.IsFirst links ∧ compare link.id id = .lt := by
  simp only [linksBelow, List.mem_filter, decide_eq_true_eq, and_iff_right_iff_imp]
  exact fun below => List.mem_of_find?_eq_some below.1

theorem linksBelow_mono {id' : LinkId} (less : compare id id' = .lt) :
    ∀ link ∈ linksBelow links id, link ∈ linksBelow links id' := by
  intro link below
  obtain ⟨isFirst, lesser⟩ := mem_linksBelow.1 below
  exact mem_linksBelow.2 ⟨isFirst, Std.TransCmp.lt_trans lesser less⟩

/-- What stands before a link in the order of ids are the links of lesser ids. -/
theorem mem_linksBelow_of_append {earlier later : List Link} {near : Link}
    (split : firstLinks links = earlier ++ link :: later) :
    near ∈ linksBelow links link.id ↔ near ∈ earlier := by
  have ordered : (firstLinks links).Pairwise fun first second => compare first.id second.id = .lt :=
    LinkTable.keyed_ofFirst.ordered_links
  rw [mem_linksBelow, ← LinkTable.mem_links_ofFirst]
  change near ∈ firstLinks links ∧ _ ↔ _
  rw [split] at ordered ⊢
  obtain ⟨_, after, below⟩ := List.pairwise_append.1 ordered
  refine ⟨fun ⟨mem, less⟩ => ?_, fun mem =>
    ⟨List.mem_append_left _ mem, below near mem link List.mem_cons_self⟩⟩
  rcases List.mem_append.1 mem with mem | mem
  · exact mem
  · rcases List.mem_cons.1 mem with rfl | mem
    · exact Ordering.noConfusion (less.symm.trans Std.ReflCmp.compare_self)
    · have greater := List.rel_of_pairwise_cons after mem
      exact absurd less (Std.OrientedCmp.not_lt_of_lt greater)

/-! ## The choice, link by link -/

/-- A link is chosen where the links before its place do not link its ends. -/
theorem Chosen.mem_iff (choice : Chosen before links chosen) :
    link ∈ chosen ↔ ∃ earlier later, links = earlier ++ link :: later ∧
      ¬Linked (earlier.reverse ++ before) link.source.node link.destination.node := by
  induction choice with
  | nil => simp
  | @take before rest chosen first apart _ ih =>
    rw [List.mem_cons, ih]
    constructor
    · rintro (rfl | ⟨earlier, later, rfl, free⟩)
      · exact ⟨[], rest, rfl, apart⟩
      · exact ⟨first :: earlier, later, rfl, by simpa using free⟩
    · rintro ⟨earlier, later, split, free⟩
      rcases List.cons_eq_append_iff.1 split with ⟨_, same⟩ | ⟨earlier, rfl, rfl⟩
      · exact .inl (List.cons.inj same).1
      · exact .inr ⟨earlier, later, rfl, by simpa using free⟩
  | @pass before rest chosen first joined _ ih =>
    rw [ih]
    constructor
    · rintro ⟨earlier, later, rfl, free⟩
      exact ⟨first :: earlier, later, rfl, by simpa using free⟩
    · rintro ⟨earlier, later, split, free⟩
      rcases List.cons_eq_append_iff.1 split with ⟨rfl, same⟩ | ⟨earlier, rfl, rfl⟩
      -- the link cannot stand first, since the one that does was passed
      · obtain ⟨rfl, rfl⟩ := List.cons.inj same
        exact absurd joined free
      · exact ⟨earlier, later, rfl, by simpa using free⟩

namespace SpanningForest

/-- The trees together have all that was chosen. -/
theorem mem_links_compute : link ∈ (compute links).links ↔ link ∈ selection links := by
  refine ⟨mem_selection_of_mem_links, fun mem => ?_⟩
  have ends := mem_switches_of_mem ((selection_sublist links).subset mem)
  obtain ⟨tree, tree_mem, covers⟩ := exists_mem_trees ends.1
  exact List.mem_flatMap.2 ⟨tree, tree_mem, (covers.mem_links link).2 ⟨mem, .refl⟩⟩

theorem mem_links_compute_iff :
    link ∈ (compute links).links ↔ link.IsFirst links ∧
      ¬Linked (linksBelow links link.id) link.source.node link.destination.node := by
  rw [mem_links_compute, (chosen_selection links).mem_iff]
  change (∃ earlier later, firstLinks links = _ ∧ _) ↔ _
  have below {earlier later : List Link} (split : firstLinks links = earlier ++ link :: later)
      (a b : NodeId) : Linked (earlier.reverse ++ []) a b ↔ Linked (linksBelow links link.id) a b :=
    linked_congr fun near => by simp [mem_linksBelow_of_append split]
  constructor
  · rintro ⟨earlier, later, split, free⟩
    have mem : link ∈ firstLinks links := by simp [split]
    exact ⟨LinkTable.mem_links_ofFirst.1 mem, (below split _ _).not.1 free⟩
  · rintro ⟨first, free⟩
    obtain ⟨earlier, later, split⟩ := List.append_of_mem (LinkTable.mem_links_ofFirst.2 first)
    exact ⟨earlier, later, split, (below split _ _).not.2 free⟩

/-- Of links and their repeated ids, whatever their order, the forest takes exactly the
first link of each id whose two ends are not linked by the first links of lesser ids.
So any two lists with the same first link of each id have one forest, tree by tree and
link by link; in particular two orders of links with distinct ids have. -/
theorem greedy_choice (links : List Link) :
    (∀ link, link ∈ (compute links).links ↔ link.IsFirst links ∧
        ¬Linked (linksBelow links link.id) link.source.node link.destination.node) ∧
      (∀ other, (∀ link : Link, link.IsFirst links ↔ link.IsFirst other) →
        compute links = compute other) ∧
      ∀ other, (links.map Link.id).Nodup → links.Perm other → compute links = compute other := by
  have alike (other : List Link) (same : ∀ link : Link, link.IsFirst links ↔ link.IsFirst other) :
      compute links = compute other := by
    rw [compute, compute, LinkTable.ofFirst_eq_of_isFirst same]
  refine ⟨fun link => mem_links_compute_iff, alike, fun other distinct perm => ?_⟩
  refine alike other fun link => ?_
  have distinct' : (other.map Link.id).Nodup := (perm.map _).nodup_iff.1 distinct
  rw [isFirst_iff_mem distinct, isFirst_iff_mem distinct', perm.mem_iff]

end SpanningForest

end LoopGuard
