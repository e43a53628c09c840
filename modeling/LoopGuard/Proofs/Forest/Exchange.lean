import LoopGuard.Proofs.Forest.Greedy

/-!
# One link more

A link that joins a fabric hardly moves its forest. If the forest does not take it, the
forest stays as it was. If the forest takes it, then every other link of the new forest
was in the old one, and of the old one at most one link goes
(`SpanningForest.one_link_more`).

Only links of greater ids see the new link, and a link goes when it takes the new link
to join its ends. The links below it and the link itself then join the ends of the new
one (`Linked.exchange`), so that to all links of still greater ids the new link is
nothing new. Hence no second link goes.
-/

namespace LoopGuard.SpanningForest

/-- The links that the forest takes. -/
def taken (links : List Link) : Set Link := {link | link ∈ (compute links).links}

variable {links more : List Link} {link other : Link}

theorem mem_taken_iff (distinct : (links.map Link.id).Nodup) :
    link ∈ taken links ↔
      link ∈ links ∧ ¬Linked (linksBelow links link.id) link.source.node link.destination.node := by
  rw [← isFirst_iff_mem distinct]
  exact mem_links_compute_iff

/-! ## A fabric with one link more -/

section Added

variable (distinct : (more.map Link.id).Nodup) (added : more.Perm (link :: links))

include distinct added

theorem nodup_ids_of_added : link.id ∉ links.map Link.id ∧ (links.map Link.id).Nodup :=
  List.nodup_cons.1 ((added.map Link.id).nodup_iff.1 distinct)

/-- The new link stands below the ids that are greater than its own. -/
theorem mem_linksBelow_of_added {id : LinkId} :
    other ∈ linksBelow more id ↔
      other ∈ linksBelow links id ∨ (other = link ∧ compare link.id id = .lt) := by
  rw [mem_linksBelow, mem_linksBelow, isFirst_iff_mem distinct,
    isFirst_iff_mem (nodup_ids_of_added distinct added).2, added.mem_iff, List.mem_cons]
  constructor
  · rintro ⟨rfl | mem, less⟩
    · exact .inr ⟨rfl, less⟩
    · exact .inl ⟨mem, less⟩
  · rintro (⟨mem, less⟩ | ⟨rfl, less⟩)
    · exact ⟨.inr mem, less⟩
    · exact ⟨.inl rfl, less⟩

/-- The forest takes the new link if its ends were not linked by links of lesser ids. -/
theorem mem_taken_added_iff :
    link ∈ taken more ↔
      ¬Linked (linksBelow links link.id) link.source.node link.destination.node := by
  have listed : link ∈ more := added.mem_iff.2 List.mem_cons_self
  have same : Linked (linksBelow more link.id) link.source.node link.destination.node ↔
      Linked (linksBelow links link.id) link.source.node link.destination.node :=
    linked_congr fun near => by simp [mem_linksBelow_of_added distinct added]
  rw [mem_taken_iff distinct, same]
  exact and_iff_right listed

/-- No other link is taken for the new link's sake. -/
theorem taken_subset_of_added : taken more \ {link} ⊆ taken links := by
  intro other ⟨mem, apart⟩
  obtain ⟨listed, free⟩ := (mem_taken_iff distinct).1 mem
  refine (mem_taken_iff (nodup_ids_of_added distinct added).2).2 ⟨?_, fun linked => free ?_⟩
  · exact (List.mem_cons.1 (added.mem_iff.1 listed)).resolve_left apart
  · exact linked.mono fun near below => (mem_linksBelow_of_added distinct added).2 (.inl below)

/-! ## The link that goes -/

/-- A link that goes has a greater id than the new one, whose ends were not linked below
it, but are with it. -/
theorem linked_of_gone (gone : other ∈ taken links \ taken more) :
    compare link.id other.id = .lt ∧
      ¬Linked (linksBelow links other.id) link.source.node link.destination.node ∧
      Linked (other :: linksBelow links other.id) link.source.node link.destination.node := by
  obtain ⟨listed, free⟩ := (mem_taken_iff (nodup_ids_of_added distinct added).2).1 gone.1
  have listed' : other ∈ more := added.mem_iff.2 (List.mem_cons_of_mem _ listed)
  have joined : Linked (linksBelow more other.id) other.source.node other.destination.node := by
    by_contra apart
    exact gone.2 ((mem_taken_iff distinct).2 ⟨listed', apart⟩)
  have less : compare link.id other.id = .lt := by
    by_contra above
    refine free (joined.mono fun near below => ?_)
    exact ((mem_linksBelow_of_added distinct added).1 below).resolve_right fun new => above new.2
  -- below the lost link the new one is the only addition
  have reached : Linked (link :: linksBelow links other.id)
      other.source.node other.destination.node :=
    joined.mono fun near below => by
      rcases (mem_linksBelow_of_added distinct added).1 below with below | ⟨rfl, _⟩
      · exact List.mem_cons_of_mem _ below
      · exact List.mem_cons_self
  refine ⟨less, fun linked => free ?_, reached.exchange free⟩
  exact (linked_cons_iff_of_linked linked).1 reached

/-- A link that is not taken is joined below all links of greater ids, so that none of
them goes. -/
theorem subset_taken_of_left (left : link ∉ taken more) : taken links ⊆ taken more := by
  intro other mem
  by_contra stays
  obtain ⟨less, apart, _⟩ := linked_of_gone distinct added ⟨mem, stays⟩
  have joined := not_not.1 (mt (mem_taken_added_iff distinct added).2 left)
  exact apart (joined.mono (linksBelow_mono less))

/-- Of two links that go the one of greater id would see the ends of the new link joined
by the other one. -/
theorem not_lt_of_gone {first second : Link} (gone : first ∈ taken links \ taken more)
    (gone' : second ∈ taken links \ taken more) : ¬compare first.id second.id = .lt := by
  intro less
  obtain ⟨_, _, joined⟩ := linked_of_gone distinct added gone
  obtain ⟨_, apart, _⟩ := linked_of_gone distinct added gone'
  have distinct' := (nodup_ids_of_added distinct added).2
  have isFirst := (isFirst_iff_mem distinct').2 ((mem_taken_iff distinct').1 gone.1).1
  refine apart (joined.mono fun near below => ?_)
  rcases List.mem_cons.1 below with rfl | below
  · exact mem_linksBelow.2 ⟨isFirst, less⟩
  · exact linksBelow_mono less near below

theorem subsingleton_gone : (taken links \ taken more).Subsingleton := by
  intro first gone second gone'
  cases order : compare first.id second.id with
  | lt => exact absurd order (not_lt_of_gone distinct added gone gone')
  | gt =>
    have less := Std.OrientedCmp.gt_iff_lt.1 order
    exact absurd less (not_lt_of_gone distinct added gone' gone)
  | eq =>
    have distinct' := (nodup_ids_of_added distinct added).2
    have listed := ((mem_taken_iff distinct').1 gone.1).1
    have listed' := ((mem_taken_iff distinct').1 gone'.1).1
    exact List.inj_on_of_nodup_map distinct' listed listed' (Std.LawfulEqCmp.eq_of_compare order)

/-- Where the new link is taken although its ends were linked before, some link has to
go, or there would be a circuit. -/
theorem nonempty_gone (mem : link ∈ taken more)
    (joined : Linked links link.source.node link.destination.node) :
    (taken links \ taken more).Nonempty := by
  by_contra none
  obtain ⟨fresh, distinct'⟩ := nodup_ids_of_added distinct added
  have reached : Linked (selection links) link.source.node link.destination.node := by
    refine linked_selection_iff.2 ((linked_congr fun near => ?_).1 joined)
    exact (LinkTable.mem_links_ofFirst.trans (isFirst_iff_mem distinct')).symm
  have once : (link :: selection links).Nodup := by
    refine List.nodup_cons.2 ⟨fun chosen => ?_, (noCircuit_selection links).nodup_cables.of_map⟩
    have listed := ((mem_taken_iff distinct').1 (mem_links_compute.2 chosen)).1
    exact fresh (List.mem_map_of_mem listed)
  have part : (link :: selection links).Subperm (selection more) :=
    once.subperm fun near chosen => by
      rcases List.mem_cons.1 chosen with rfl | chosen
      · exact mem_links_compute.1 mem
      · by_contra gone
        exact none ⟨near, mem_links_compute.2 chosen, mt mem_links_compute.1 gone⟩
  exact (noCircuit_cons_iff.1 ((noCircuit_selection more).mono part)).2 reached

theorem nonempty_gone_iff :
    (taken links \ taken more).Nonempty ↔
      link ∈ taken more ∧ Linked links link.source.node link.destination.node := by
  constructor
  · intro ⟨other, gone⟩
    refine ⟨by_contra fun left => gone.2 (subset_taken_of_left distinct added left gone.1), ?_⟩
    obtain ⟨_, _, joined⟩ := linked_of_gone distinct added gone
    have distinct' := (nodup_ids_of_added distinct added).2
    refine joined.mono fun near below => ?_
    rcases List.mem_cons.1 below with rfl | below
    · exact ((mem_taken_iff distinct').1 gone.1).1
    · exact (isFirst_iff_mem distinct').1 (mem_linksBelow.1 below).1
  · intro ⟨mem, joined⟩
    exact nonempty_gone distinct added mem joined

end Added

/-! ## The forest before and after -/

/-- When a link with an id of its own joins links with distinct ids, in whatever order
they are given then, the forest takes it unless links of lesser ids link its ends. If it
is not taken, the forest keeps all links it had and gets no other. If it is taken, all
other links were there before, and at most one of those that were there goes; one goes
exactly if the ends of the new link were linked before. Read the other way, a link that
leaves without being in the forest moves nothing, and one that is in the forest leaves
all others in place and brings in at most one. -/
theorem one_link_more (links more : List Link) (link : Link)
    (distinct : (links.map Link.id).Nodup) (fresh : link.id ∉ links.map Link.id)
    (added : more.Perm (link :: links)) :
    (link ∈ taken more ↔
        ¬Linked (linksBelow links link.id) link.source.node link.destination.node) ∧
      (link ∉ taken more → taken more = taken links) ∧
      (link ∈ taken more →
        taken more ⊆ insert link (taken links) ∧ taken more \ {link} ⊆ taken links ∧
          (taken links \ taken more).Subsingleton) ∧
      ((taken links \ taken more).Nonempty ↔
        link ∈ taken more ∧ Linked links link.source.node link.destination.node) := by
  have distinct' : (more.map Link.id).Nodup :=
    (added.map Link.id).nodup_iff.2 (List.nodup_cons.2 ⟨fresh, distinct⟩)
  have old : taken more \ {link} ⊆ taken links := taken_subset_of_added distinct' added
  refine ⟨mem_taken_added_iff distinct' added, fun left => ?_, fun _ => ?_,
    nonempty_gone_iff distinct' added⟩
  · refine (subset_taken_of_left distinct' added left).antisymm' fun other mem => old ⟨mem, ?_⟩
    rintro rfl
    exact left mem
  · exact ⟨Set.sdiff_singleton_subset_iff.1 old, old, subsingleton_gone distinct' added⟩

/-- A square of four switches without the side from `A` to `C`, and a stub at `D`. -/
def openSquare : List Link :=
  [⟨⟨"stub"⟩, .of "D" "3", .of "E" "1"⟩, ⟨⟨"cd"⟩, .of "C" "2", .of "D" "1"⟩,
    ⟨⟨"bd"⟩, .of "B" "2", .of "D" "2"⟩, ⟨⟨"ab"⟩, .of "A" "1", .of "B" "1"⟩]

/-- The missing side of the square, with an id below those of two other sides. -/
def lastSide : Link := ⟨⟨"ac"⟩, .of "A" "2", .of "C" "1"⟩

/-- Closing the square takes the side in and gives up the one of greatest id. -/
theorem closing_the_square_gives_up_one_side :
    let more := openSquare ++ [lastSide]
    (openSquare.map Link.id).Nodup ∧ lastSide.id ∉ openSquare.map Link.id ∧
      more.Perm (lastSide :: openSquare) ∧
      (compute openSquare).links.map Link.id = [⟨"ab"⟩, ⟨"bd"⟩, ⟨"cd"⟩, ⟨"stub"⟩] ∧
      (compute more).links.map Link.id = [⟨"ab"⟩, ⟨"ac"⟩, ⟨"bd"⟩, ⟨"stub"⟩] ∧
      (lastSide ∈ taken more ↔ ¬Linked (linksBelow openSquare lastSide.id)
        lastSide.source.node lastSide.destination.node) ∧
      (lastSide ∉ taken more → taken more = taken openSquare) ∧
      (lastSide ∈ taken more →
        taken more ⊆ insert lastSide (taken openSquare) ∧
          taken more \ {lastSide} ⊆ taken openSquare ∧
          (taken openSquare \ taken more).Subsingleton) ∧
      ((taken openSquare \ taken more).Nonempty ↔ lastSide ∈ taken more ∧
        Linked openSquare lastSide.source.node lastSide.destination.node) := by
  intro more
  have distinct : (openSquare.map Link.id).Nodup := by decide
  have fresh : lastSide.id ∉ openSquare.map Link.id := by decide
  have added : more.Perm (lastSide :: openSquare) := by decide
  exact ⟨distinct, fresh, added, by decide +kernel, by decide +kernel,
    one_link_more openSquare more lastSide distinct fresh added⟩

end LoopGuard.SpanningForest
