import LoopGuard.Topology.Port
import Mathlib.Data.List.Basic

/-!
# Store keys of ports

A store key names a port as long as the name of the switch is free of bars, which
is where the key is cut, and neither name is empty. Such ports are well formed.
Reading a key back finds a port exactly if the key is that of a well-formed port,
and then it finds this port, so no two of them share a key.
-/

namespace LoopGuard

namespace Text

variable {separator : Char}

theorem cutAt?_eq_none_iff {text : List Char} :
    cutAt? separator text = none ↔ separator ∉ text := by
  fun_induction cutAt? separator text with
  | case1 => simp
  | case2 rest => simp
  | case3 c rest other ih =>
    rw [Option.map_eq_none_iff, ih, List.mem_cons, not_or]
    exact ⟨fun absent => ⟨Ne.symm other, absent⟩, And.right⟩

/-- The cut is at the first separator: none stands before it. -/
theorem cutAt?_eq_some_iff {text before after : List Char} :
    cutAt? separator text = some (before, after) ↔
      text = before ++ separator :: after ∧ separator ∉ before := by
  induction text generalizing before with
  | nil => simp [cutAt?]
  | cons c rest ih =>
    rw [cutAt?]
    split
    next here =>
      subst here
      constructor
      · rintro ⟨⟩
        exact ⟨rfl, List.not_mem_nil⟩
      · rintro ⟨same, absent⟩
        cases before with
        | nil =>
          cases same
          rfl
        | cons d later =>
          cases same
          exact absurd List.mem_cons_self absent
    next other =>
      rw [Option.map_eq_some_iff]
      constructor
      · rintro ⟨⟨later, _⟩, cut, ⟨⟩⟩
        obtain ⟨rfl, absent⟩ := ih.1 cut
        exact ⟨rfl, List.not_mem_cons_of_ne_of_not_mem (Ne.symm other) absent⟩
      · rintro ⟨same, absent⟩
        cases before with
        | nil =>
          cases same
          exact absurd rfl other
        | cons d later =>
          cases same
          exact ⟨(later, after), ih.2 ⟨rfl, fun inside => absent (.tail _ inside)⟩, rfl⟩

theorem withoutPrefix?_eq_some_iff {beginning text rest : String} :
    withoutPrefix? beginning text = some rest ↔ text = beginning ++ rest := by
  rw [withoutPrefix?, Option.map_eq_some_iff]
  constructor
  · rintro ⟨later, found, rfl⟩
    rw [List.isPrefixOf?_eq_some_iff_append_eq] at found
    rw [← String.toList_inj, String.toList_append, String.toList_ofList, found]
  · rintro rfl
    exact ⟨rest.toList, by rw [List.isPrefixOf?_eq_some_iff_append_eq, String.toList_append],
      String.ofList_toList⟩

end Text

namespace PortRef

variable {port other : PortRef} {key : String}

/-- A port that a store key can name. -/
structure WellFormed (port : PortRef) : Prop where
  node_ne : port.node.text ≠ ""
  bar_not_mem : '|' ∉ port.node.text.toList
  port_ne : port.port.text ≠ ""

instance : DecidablePred WellFormed := fun port =>
  decidable_of_iff
    (port.node.text ≠ "" ∧ '|' ∉ port.node.text.toList ∧ port.port.text ≠ "")
    ⟨fun ⟨node, bar, name⟩ => ⟨node, bar, name⟩, fun ⟨node, bar, name⟩ => ⟨node, bar, name⟩⟩

theorem toList_storeKey :
    port.storeKey.toList = port.node.text.toList ++ '|' :: port.port.text.toList := by
  simp [storeKey]

/-- What reading a key back finds, and when: the well-formed port of this key. -/
theorem ofStoreKey?_eq_some_iff :
    ofStoreKey? key = some port ↔ port.WellFormed ∧ port.storeKey = key := by
  rw [ofStoreKey?]
  constructor
  · intro found
    split at found
    next c node d name cut =>
      obtain ⟨text, absent⟩ := Text.cutAt?_eq_some_iff.1 cut
      obtain rfl := Option.some.inj found
      refine ⟨⟨?_, ?_, ?_⟩, ?_⟩
      · simp [of, ← String.toList_inj]
      · simpa [of] using absent
      · simp [of, ← String.toList_inj]
      · rw [← String.toList_inj, toList_storeKey, text]
        simp [of]
    next => cases found
  · rintro ⟨wellFormed, rfl⟩
    have cut : Text.cutAt? '|' port.storeKey.toList =
        some (port.node.text.toList, port.port.text.toList) :=
      Text.cutAt?_eq_some_iff.2 ⟨toList_storeKey, wellFormed.bar_not_mem⟩
    obtain ⟨c, node, nodeText⟩ : ∃ c node, port.node.text.toList = c :: node :=
      List.exists_cons_of_ne_nil fun empty => wellFormed.node_ne (String.toList_eq_nil_iff.1 empty)
    obtain ⟨d, name, portText⟩ : ∃ d name, port.port.text.toList = d :: name :=
      List.exists_cons_of_ne_nil fun empty => wellFormed.port_ne (String.toList_eq_nil_iff.1 empty)
    rw [cut, nodeText, portText]
    simp only [of, ← nodeText, ← portText, String.ofList_toList]

/-- A key names no port if it has no bar, or if nothing stands before its first bar
or nothing after it. -/
theorem ofStoreKey?_eq_none_iff :
    ofStoreKey? key = none ↔
      '|' ∉ key.toList ∨ (∃ name, key.toList = '|' :: name) ∨
        ∃ node, key.toList = node ++ ['|'] ∧ '|' ∉ node := by
  have barless : '|' ∉ key.toList ↔ Text.cutAt? '|' key.toList = none :=
    Text.cutAt?_eq_none_iff.symm
  have first (name : List Char) :
      key.toList = '|' :: name ↔ Text.cutAt? '|' key.toList = some ([], name) := by
    simp [Text.cutAt?_eq_some_iff]
  have last (node : List Char) :
      (key.toList = node ++ ['|'] ∧ '|' ∉ node) ↔
        Text.cutAt? '|' key.toList = some (node, []) :=
    Text.cutAt?_eq_some_iff.symm
  unfold ofStoreKey?
  simp only [barless, first, last]
  cases Text.cutAt? '|' key.toList with
  | none => simp
  | some parts =>
    rcases parts with ⟨_ | ⟨c, node⟩, _ | ⟨d, name⟩⟩ <;> simp

theorem WellFormed.storeKey_inj (wellFormed : port.WellFormed) (otherFormed : other.WellFormed)
    (same : port.storeKey = other.storeKey) : port = other :=
  Option.some.inj <| (ofStoreKey?_eq_some_iff.2 ⟨wellFormed, same⟩).symm.trans
    (ofStoreKey?_eq_some_iff.2 ⟨otherFormed, rfl⟩)

end PortRef

end LoopGuard
