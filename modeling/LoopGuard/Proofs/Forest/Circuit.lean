import LoopGuard.Proofs.Forest.Walk
import Mathlib.Data.List.Nodup
import Mathlib.Data.List.Perm.Subperm

/-!
# Circuits

A circuit is a walk back to its start that passes every link at most as often as
the list of links has it. So twins over one cable make a circuit of two links,
and so does one link that is listed twice; a self-loop makes one of a single
link. A list without circuits is `Acyclic` all the more, since a walk over
pairwise different cables passes no link twice.

Circuits do not depend on the order of the links, and a link can be added without
making one exactly if its two ends are not linked yet (`noCircuit_cons_iff`). Hence
a list has no circuit if and only if it is `Growing`: each link joins switches that
the links before it have not linked.
-/

namespace LoopGuard

/-- No walk that passes every link at most as often as it is listed comes back to
its start. -/
def NoCircuit (links : List Link) : Prop :=
  ∀ (start : NodeId) (way : List Link), Walk links start way start → way.Subperm links → way = []

/-- Going through the links in order, each one joins switches that neither
`before` nor an earlier one has linked. -/
def Growing : List Link → List Link → Prop
  | _, [] => True
  | before, link :: rest =>
    ¬Linked before link.source.node link.destination.node ∧ Growing (link :: before) rest

variable {links more before : List Link} {link : Link} {a b : NodeId}

theorem noCircuit_nil : NoCircuit [] := by
  intro start way _ sub
  exact List.subperm_nil.1 sub

theorem NoCircuit.mono (free : NoCircuit more) (sub : links.Subperm more) : NoCircuit links := by
  intro start way walk passed
  exact free start way (walk.mono fun link mem => sub.subset mem) (passed.trans sub)

theorem NoCircuit.acyclic (free : NoCircuit links) : Acyclic links := by
  intro start way walk nodup
  exact free start way walk ((List.Nodup.of_map _ nodup).subperm walk.mem)

/-- Linked switches have a way between them that passes every link at most as
often as it is listed. -/
theorem Linked.exists_trail (linked : Linked links a b) :
    ∃ way, Walk links a way b ∧ way.Subperm links := by
  induction links generalizing a b with
  | nil =>
    cases linked.cases_head with
    | inl same => exact ⟨[], same ▸ .nil a, List.nil_subperm⟩
    | inr step =>
      obtain ⟨_, ⟨_, mem, _⟩, _⟩ := step
      cases mem
  | cons link links ih =>
    have wider {x y : NodeId} {way : List Link} (walk : Walk links x way y) :
        Walk (link :: links) x way y := walk.mono fun _ => List.mem_cons_of_mem _
    -- two trails to the ends of the new link share no link, or it would not be needed
    have across {x y : NodeId} (joins : link.Joins x y) (new : ¬Linked links a b)
        (first : Linked links a x) (second : Linked links y b) :
        ∃ way, Walk (link :: links) a way b ∧ way.Subperm (link :: links) := by
      obtain ⟨toward, near, sub⟩ := ih first
      obtain ⟨onward, far, sub'⟩ := ih second
      have disjoint : ∀ other ∈ toward, other ∉ onward := fun other mem mem' =>
        new ((near.linked_of_mem mem).1.trans (far.linked_of_mem mem').2)
      refine ⟨toward ++ link :: onward,
        (wider near).append (.cons List.mem_cons_self joins (wider far)), ?_⟩
      refine List.perm_middle.subperm.trans ((List.subperm_cons link).2 ?_)
      refine List.subperm_ext_iff.2 fun other _ => ?_
      rw [List.count_append]
      by_cases passed : other ∈ toward
      · rw [List.count_eq_zero_of_not_mem (disjoint other passed), Nat.add_zero]
        exact sub.count_le other
      · rw [List.count_eq_zero_of_not_mem passed, Nat.zero_add]
        exact sub'.count_le other
    by_cases old : Linked links a b
    · obtain ⟨way, walk, sub⟩ := ih old
      exact ⟨way, wider walk, sub.trans (List.sublist_cons_self link links).subperm⟩
    · rcases linked_cons_iff.1 linked with direct | ⟨first, second⟩ | ⟨first, second⟩
      · exact absurd direct old
      · exact across link.joins_ends old first second
      · exact across link.joins_ends.symm old first second

/-- One more link makes no circuit exactly if its ends are not linked yet. -/
theorem noCircuit_cons_iff :
    NoCircuit (link :: links) ↔
      NoCircuit links ∧ ¬Linked links link.source.node link.destination.node := by
  constructor
  · intro free
    refine ⟨free.mono (List.sublist_cons_self link links).subperm, fun linked => ?_⟩
    obtain ⟨way, walk, sub⟩ := linked.symm.exists_trail
    have back : Walk (link :: links) link.destination.node way link.source.node :=
      walk.mono fun _ => List.mem_cons_of_mem _
    have circuit := free _ _ (.cons List.mem_cons_self link.joins_ends back)
      ((List.subperm_cons link).2 sub)
    exact List.cons_ne_nil _ _ circuit
  · rintro ⟨free, apart⟩ start way walk sub
    have unlisted : link ∉ links := fun mem => apart (.of_mem mem)
    have once : way.count link ≤ 1 := by
      have count := sub.count_le link
      rwa [List.count_cons_self, List.count_eq_zero_of_not_mem unlisted] at count
    by_cases passed : link ∈ way
    · exfalso
      obtain ⟨first, second, rfl⟩ := List.append_of_mem passed
      refine apart (walk.linked_around fun mem => ?_)
      have twice : 0 < (first ++ second).count link := List.count_pos_iff.2 mem
      rw [List.count_append] at once twice
      rw [List.count_cons_self] at once
      omega
    · have old : ∀ other ∈ way, other ∈ links := fun other mem => by
        refine (List.mem_cons.1 (walk.mem other mem)).resolve_left ?_
        rintro rfl
        exact passed mem
      refine free start way (walk.over old) (List.subperm_ext_iff.2 fun other mem => ?_)
      have count := sub.count_le other
      have apart : link ≠ other := by
        rintro rfl
        exact passed mem
      rwa [List.count_cons_of_ne apart] at count

/-- Two links over one cable would make a circuit. -/
theorem NoCircuit.nodup_cables (free : NoCircuit links) : (links.map Link.cable).Nodup := by
  induction links with
  | nil => exact List.nodup_nil
  | cons link rest ih =>
    obtain ⟨others, apart⟩ := noCircuit_cons_iff.1 free
    rw [List.map_cons, List.nodup_cons]
    refine ⟨fun mem => apart ?_, ih others⟩
    obtain ⟨twin, mem, same⟩ := List.mem_map.1 mem
    exact .single ⟨twin, mem, link.joins_ends.of_cable_eq same.symm⟩

/-- What grows from links without a circuit has none. -/
theorem noCircuit_reverse_append_iff :
    NoCircuit (links.reverse ++ before) ↔ NoCircuit before ∧ Growing before links := by
  induction links generalizing before with
  | nil => simp [Growing]
  | cons link rest ih =>
    rw [List.reverse_cons, List.append_assoc]
    exact ih.trans ((and_congr_left' noCircuit_cons_iff).trans and_assoc)

theorem noCircuit_iff_growing : NoCircuit links ↔ Growing [] links := by
  have order : NoCircuit links ↔ NoCircuit (links.reverse ++ []) := by
    rw [List.append_nil]
    exact ⟨fun free => free.mono (List.reverse_perm links).subperm,
      fun free => free.mono (List.reverse_perm links).symm.subperm⟩
  rw [order, noCircuit_reverse_append_iff]
  exact and_iff_right noCircuit_nil

/-- Two lists in regions of their own make no circuit together. -/
theorem NoCircuit.append {inside : NodeId → Prop} (free : NoCircuit links)
    (free' : NoCircuit more)
    (within : ∀ link ∈ links, inside link.source.node ∧ inside link.destination.node)
    (beyond : ∀ link ∈ more, ¬inside link.source.node ∧ ¬inside link.destination.node) :
    NoCircuit (links ++ more) := by
  intro start way walk sub
  have closed : ∀ link ∈ links ++ more,
      inside link.source.node ↔ inside link.destination.node := by
    intro link mem
    rcases List.mem_append.1 mem with mem | mem
    · exact iff_of_true (within link mem).1 (within link mem).2
    · exact iff_of_false (beyond link mem).1 (beyond link mem).2
  have stays := walk.stays closed
  -- the links on the other side are passed by no walk from here
  have part {side other : List Link} (cover : ∀ link ∈ way, link ∈ side ∧ link ∉ other)
      (both : way.Subperm (side ++ other)) (free : NoCircuit side) : way = [] := by
    refine free start way (walk.over fun link mem => (cover link mem).1) ?_
    refine List.subperm_ext_iff.2 fun link mem => ?_
    have count := both.count_le link
    rwa [List.count_append, List.count_eq_zero_of_not_mem (cover link mem).2] at count
  by_cases here : inside start
  · refine part (fun link mem => ?_) sub free
    have source := (stays link mem).2 here
    have apart : link ∉ more := fun other => (beyond link other).1 source
    exact ⟨(List.mem_append.1 (walk.mem link mem)).resolve_right apart, apart⟩
  · refine part (fun link mem => ?_) (sub.trans List.perm_append_comm.subperm) free'
    have source := fun near => here ((stays link mem).1 near)
    have apart : link ∉ links := fun other => source (within link other).1
    exact ⟨(List.mem_append.1 (walk.mem link mem)).resolve_left apart, apart⟩

end LoopGuard
