import LoopGuard.Status.Resolve
import LoopGuard.Proofs.Topology.Cable

/-!
# What status maps hold

The operations on status maps, read port by port: what a demand, a resolution,
forced discards and an application of desired statuses leave under each port.
`getElem?_resolve` is the meaning of a resolution without the order in which
links are gone through.
-/

namespace LoopGuard

namespace PortStatus

@[simp]
theorem meet_forwarding (status : PortStatus) : status.meet .forwarding = status := by
  cases status <;> rfl

@[simp]
theorem meet_discarding (status : PortStatus) : status.meet .discarding = .discarding := by
  cases status <;> rfl

end PortStatus

/-- Every cable that ends in the port has a link in the forest. -/
def AllActive (links : List Link) (forest : SpanningForest) (port : PortRef) : Prop :=
  ∀ link ∈ links, port ∈ link.endpoints → ∃ chosen ∈ forest.links, chosen.cable = link.cable

instance {links : List Link} {forest : SpanningForest} {port : PortRef} :
    Decidable (AllActive links forest port) :=
  inferInstanceAs (Decidable (∀ link ∈ links, port ∈ link.endpoints →
    ∃ chosen ∈ forest.links, chosen.cable = link.cable))

namespace StatusMap

variable {statuses desired recorded : StatusMap} {links : List Link} {forest : SpanningForest}
  {port : PortRef}

/-! ## Desired and recorded statuses -/

/-- Writing the differences makes the records agree with every desired status
and leaves the other records alone. -/
theorem getElem?_overwrite_differing :
    (recorded.overwrite (desired.differing recorded))[port]? =
      desired[port]?.or recorded[port]? := by
  have distinct : (desired.differing recorded).Pairwise fun x y => ¬compare x.1 y.1 = .eq :=
    Std.ExtTreeMap.distinct_keys_toList.sublist List.filter_sublist
  by_cases written : ∃ status, (port, status) ∈ desired.differing recorded
  · obtain ⟨status, mem⟩ := written
    have wanted : desired[port]? = some status :=
      Std.ExtTreeMap.mem_toList_iff_getElem?_eq_some.1 (List.mem_filter.1 mem).1
    rw [wanted, Option.some_or]
    exact Std.ExtTreeMap.getElem?_insertMany_list_of_mem Std.ReflCmp.compare_self distinct mem
  · have kept : (recorded.overwrite (desired.differing recorded))[port]? = recorded[port]? := by
      refine Std.ExtTreeMap.getElem?_insertMany_list_of_contains_eq_false ?_
      simpa using fun status mem => written ⟨status, mem⟩
    rw [kept]
    cases wanted : desired[port]? with
    | none => rfl
    | some status =>
      have same : recorded[port]? = some status := Decidable.byContradiction fun differs =>
        written ⟨status, List.mem_filter.2
          ⟨Std.ExtTreeMap.mem_toList_iff_getElem?_eq_some.2 wanted, by simpa using differs⟩⟩
      rw [same]
      rfl

/-! ## Forced discards -/

/-- A forced port discards, unless it has a status already. -/
theorem getElem?_withForcedDiscards {forced : PortSet} :
    (statuses.withForcedDiscards forced)[port]? =
      statuses[port]?.or (if port ∈ forced then some .discarding else none) := by
  have fold (ports : List PortRef) (statuses : StatusMap) :
      (ports.foldl (fun statuses port => statuses.insertIfNew port .discarding) statuses)[port]? =
        statuses[port]?.or (if port ∈ ports then some .discarding else none) := by
    induction ports generalizing statuses with
    | nil => simp
    | cons first rest ih =>
      rw [List.foldl_cons, ih, Std.ExtTreeMap.getElem?_insertIfNew]
      by_cases same : first = port
      · subst same
        cases status : statuses[first]? <;>
          simp [Std.ExtTreeMap.mem_iff_isSome_getElem?, status, Std.ReflCmp.compare_self]
      · have apart : ¬compare first port = .eq := fun eq => same (Std.LawfulEqCmp.eq_of_compare eq)
        simp [apart, Ne.symm same]
  rw [withForcedDiscards, fold]
  simp [Std.ExtTreeSet.mem_toList]

/-! ## Resolution -/

theorem getElem?_demand {other : PortRef} {status : PortStatus} :
    (statuses.demand port status)[other]? =
      if port = other then some (statuses[port]?.elim status fun current => current.meet status)
      else statuses[other]? := by
  rw [demand, Std.ExtTreeMap.getElem?_alter]
  simp only [Std.LawfulEqCmp.compare_eq_iff_eq]
  split
  next same =>
    subst same
    cases statuses[port]? <;> rfl
  next => rfl

/-- Both ends of a link make the same demand; on a port that is both ends of it
this is one demand. -/
theorem getElem?_foldl_demand {ports : List PortRef} {status : PortStatus} :
    (ports.foldl (fun statuses port => statuses.demand port status) statuses)[port]? =
      if port ∈ ports then some (statuses[port]?.elim status fun current => current.meet status)
      else statuses[port]? := by
  induction ports generalizing statuses with
  | nil => simp
  | cons first rest ih =>
    rw [List.foldl_cons, ih, getElem?_demand]
    by_cases same : first = port
    · subst same
      -- a second demand finds the first one met
      cases statuses[first]? <;> cases status <;> simp
    · simp [same, Ne.symm same]

/-- All demands together: one that discards prevails. -/
theorem getElem?_foldl_demands (active : Link → Bool) (links : List Link) (statuses : StatusMap)
    (port : PortRef) :
    (links.foldl
      (fun statuses link =>
        let status := if active link then .forwarding else .discarding
        link.endpoints.foldl (fun statuses port => statuses.demand port status) statuses)
      statuses)[port]? =
        if ∃ link ∈ links, port ∈ link.endpoints ∧ active link = false then some .discarding
        else if Ends links port then some (statuses[port]?.getD .forwarding)
        else statuses[port]? := by
  induction links generalizing statuses with
  | nil => simp [Ends]
  | cons link rest ih =>
    rw [List.foldl_cons, ih]
    simp only [getElem?_foldl_demand, Ends]
    by_cases here : port ∈ link.endpoints
    · by_cases later : ∃ link ∈ rest, port ∈ link.endpoints ∧ active link = false
      · simp [later]
      · cases up : active link <;> cases statuses[port]? <;> simp [here, later, up]
    · simp [here]

/-- A port has a status if a link ends in it, and forwards if all its cables
are active. -/
theorem getElem?_resolve :
    (resolve links forest)[port]? =
      if Ends links port then
        some (if AllActive links forest port then .forwarding else .discarding)
      else none := by
  have fold := getElem?_foldl_demands (fun link =>
    (Std.ExtTreeSet.ofList (forest.links.map Link.cable) : Std.ExtTreeSet Cable).contains
      link.cable) links ∅ port
  have active (link : Link) :
      (Std.ExtTreeSet.ofList (forest.links.map Link.cable) : Std.ExtTreeSet Cable).contains
        link.cable = false ↔ ¬∃ chosen ∈ forest.links, chosen.cable = link.cable := by
    simp [Bool.eq_false_iff, Std.ExtTreeSet.contains_ofList]
  refine fold.trans ?_
  simp only [active]
  by_cases ends : Ends links port
  · by_cases all : AllActive links forest port
    · rw [if_neg, if_pos ends, if_pos ends, if_pos all]
      · simp
      · rintro ⟨link, mem, here, inactive⟩
        exact inactive (all link mem here)
    · rw [if_pos, if_pos ends, if_neg all]
      simpa [AllActive] using all
  · rw [if_neg, if_neg ends, if_neg ends]
    · simp
    · rintro ⟨link, mem, here, _⟩
      exact ends ⟨link, mem, here⟩

theorem mem_resolve : port ∈ resolve links forest ↔ Ends links port := by
  rw [Std.ExtTreeMap.mem_iff_isSome_getElem?, getElem?_resolve]
  split <;> simp [*]

/-- A forced discard changes no port at which a link ends. -/
theorem getElem?_resolve_withForcedDiscards {forced : PortSet} :
    ((resolve links forest).withForcedDiscards forced)[port]? =
      if Ends links port then (resolve links forest)[port]?
      else if port ∈ forced then some .discarding else none := by
  rw [getElem?_withForcedDiscards, getElem?_resolve]
  by_cases ends : Ends links port
  · rw [if_pos ends, if_pos ends, Option.some_or]
  · rw [if_neg ends, if_neg ends, Option.none_or]

end StatusMap

end LoopGuard
