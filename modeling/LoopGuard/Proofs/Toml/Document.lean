import LoopGuard.Proofs.Toml.Numerals
import LoopGuard.Proofs.Toml.Strings
import LoopGuard.Toml.Document

/-!
# Reading documents of plain sections

A document of plain sections has a header for each section and below it a line
for each entry, all under bare keys, with empty lines anywhere in between. It is
read as the tables of its sections, one after the other, as long as no section
and no entry of a section is named twice.
-/

namespace LoopGuard.Toml

variable {name key : String} {c : Char} {value : Value} {entries : Entries}
  {written text rest : List Char} {statement : Statement} {statements : List Statement}

/-! ## Values on a line -/

/-- What is written is read as the value, up to the end of the line. -/
structure Denotes (written : List Char) (value : Value) : Prop where
  start : ∃ c later, written = c :: later ∧ isBlank c = false
  read : ∀ fuel depth rest,
    readValue? (fuel + 1) depth (written ++ '\n' :: rest) = some (value, '\n' :: rest)

theorem exists_cons_quote (text : List Char) :
    ∃ mark later, quote text = mark :: later ∧ (mark = '"' ∨ mark = '\'') := by
  rw [quote]
  cases Quoting.of text with
  | basic => exact ⟨_, _, rfl, .inl rfl⟩
  | literal => exact ⟨_, _, rfl, .inr rfl⟩
  | tripledBasic => exact ⟨_, _, rfl, .inl rfl⟩
  | tripledLiteral => exact ⟨_, _, rfl, .inr rfl⟩
  | escaped lines => cases lines <;> exact ⟨_, _, rfl, .inl rfl⟩

theorem denotes_quote (text : String) : Denotes (quote text.toList) (.text text) := by
  obtain ⟨mark, later, same, double | single⟩ := exists_cons_quote text.toList
  all_goals
    subst mark
    refine ⟨⟨_, _, same, rfl⟩, fun fuel depth rest => ?_⟩
    have read := readText?_quote text.toList rest
    rw [same] at read ⊢
    rw [List.cons_append] at read ⊢
    rw [readValue?, read, Option.map_some]
    dsimp only
    rw [String.ofList_toList]

theorem denotes_of_integer? {value : Int} (inside : ∀ c ∈ written, isTokenChar c = true)
    (read : integer? written = some value) : Denotes written (.integer value) := by
  have inhabited : written ≠ [] := by
    rintro rfl
    cases read
  obtain ⟨c, later, rfl⟩ := List.exists_cons_of_ne_nil inhabited
  refine ⟨⟨c, later, rfl, ?_⟩, fun fuel depth rest =>
    readValue?_token inside inhabited (ofToken?_of_integer? read) fuel depth⟩
  have first := inside c List.mem_cons_self
  by_contra blank
  rw [Bool.not_eq_false, isBlank, Bool.or_eq_true] at blank
  rcases blank with space | tab
  · rw [of_decide_eq_true space] at first
    cases first
  · rw [of_decide_eq_true tab] at first
    cases first

/-! ## Lines -/

/-- A key that needs no quotes. -/
def IsBare (key : String) : Prop := key.toList ≠ [] ∧ ∀ c ∈ key.toList, isBareKeyChar c = true

instance : DecidablePred IsBare := fun _ => inferInstanceAs (Decidable (_ ∧ _))

theorem ne_of_isBareKeyChar {d : Char} (other : isBareKeyChar d = false)
    (bare : isBareKeyChar c = true) : c ≠ d := by
  rintro rfl
  rw [bare] at other
  cases other

theorem isBlank_eq_false (bare : isBareKeyChar c = true) : isBlank c = false := by
  rw [isBlank, decide_eq_false (ne_of_isBareKeyChar (d := ' ') rfl bare),
    decide_eq_false (ne_of_isBareKeyChar (d := '\t') rfl bare)]
  rfl

theorem skipBlanks_cons (solid : isBlank c = false) : skipBlanks (c :: rest) = c :: rest :=
  List.dropWhile_cons_of_neg (by rw [solid]; exact Bool.false_ne_true)

theorem IsBare.exists_cons (bare : IsBare key) :
    ∃ c later, key.toList = c :: later ∧ isBareKeyChar c = true := by
  obtain ⟨c, later, same⟩ := List.exists_cons_of_ne_nil bare.1
  exact ⟨c, later, same, bare.2 c (by rw [same]; exact List.mem_cons_self)⟩

theorem readKey?_bare (bare : IsBare key) (stop : isBareKeyChar c = false) :
    readKey? (key.toList ++ c :: rest) = some (key, c :: rest) := by
  have cut : (key.toList ++ c :: rest).span isBareKeyChar = (key.toList, c :: rest) := by
    have stop' : ¬isBareKeyChar c = true := by rw [stop]; exact Bool.false_ne_true
    rw [List.span_eq_takeWhile_dropWhile, List.takeWhile_append_of_pos bare.2,
      List.dropWhile_append_of_pos bare.2, List.takeWhile_cons_of_neg stop',
      List.dropWhile_cons_of_neg stop', List.append_nil]
  obtain ⟨d, later, same, first⟩ := bare.exists_cons
  rw [readKey?.eq_def, cut, same]
  dsimp only [List.cons_append]
  split
  next here => exact absurd (List.cons.inj here).1 (ne_of_isBareKeyChar rfl first)
  next here => exact absurd (List.cons.inj here).1 (ne_of_isBareKeyChar rfl first)
  next => rw [← same, String.ofList_toList]

theorem readPath?_bare {d : Char} {later : List Char} (bare : IsBare key)
    (stop : isBareKeyChar c = false) (next : skipBlanks (c :: rest) = d :: later) (point : d ≠ '.')
    (fuel : Nat) : readPath? (fuel + 1) (key.toList ++ c :: rest) = some ([key], d :: later) := by
  obtain ⟨e, others, same, first⟩ := bare.exists_cons
  have start : skipBlanks (key.toList ++ c :: rest) = key.toList ++ c :: rest := by
    rw [same, List.cons_append, skipBlanks_cons (isBlank_eq_false first)]
  rw [readPath?, start, readKey?_bare bare stop]
  dsimp only [Option.bind_eq_bind, Option.bind_some]
  rw [next]
  split
  next here => exact absurd (List.cons.inj here).1 point
  next => rfl

theorem readDottedKey?_bare {d : Char} {later : List Char} (bare : IsBare key)
    (stop : isBareKeyChar c = false) (next : skipBlanks (c :: rest) = d :: later)
    (point : d ≠ '.') :
    readDottedKey? (key.toList ++ c :: rest) = some ([], key, d :: later) := by
  obtain ⟨fuel, same⟩ : ∃ fuel, (key.toList ++ c :: rest).length = fuel + 1 :=
    Nat.exists_eq_succ_of_ne_zero (by simp)
  rw [readDottedKey?, same, readPath?_bare bare stop next point]
  rfl

/-- A line that is read as one statement. -/
structure IsLine (line : List Char) (statement : Statement) : Prop where
  start : ∃ c later, line = c :: later ∧ (c = '[' ∨ isBareKeyChar c = true)
  read : ∀ rest, readStatement? (line ++ '\n' :: rest) = some (statement, '\n' :: rest)

theorem isLine_header (bare : IsBare name) :
    IsLine ('[' :: (name.toList ++ [']'])) (.table [] name) := by
  refine ⟨⟨_, _, rfl, .inl rfl⟩, fun rest => ?_⟩
  obtain ⟨c, later, same, first⟩ := bare.exists_cons
  have read : readDottedKey? (name.toList ++ ']' :: '\n' :: rest) =
      some ([], name, ']' :: '\n' :: rest) :=
    readDottedKey?_bare bare (by decide) (skipBlanks_cons (by decide)) (by decide)
  have shape : '[' :: (name.toList ++ [']']) ++ '\n' :: rest =
      '[' :: (name.toList ++ ']' :: '\n' :: rest) := by simp
  rw [shape, readStatement?.eq_def]
  split
  next here =>
    rw [same] at here
    exact absurd (List.cons.inj (List.cons.inj here).2).1 (ne_of_isBareKeyChar rfl first)
  next here =>
    rw [← (List.cons.inj here).2, read]
    rfl
  next other => exact absurd rfl (other _)

theorem isLine_field (bare : IsBare key) (denotes : Denotes written value) :
    IsLine (key.toList ++ " = ".toList ++ written) (.assign [] key value) := by
  obtain ⟨c, later, same, first⟩ := bare.exists_cons
  refine ⟨⟨c, later ++ " = ".toList ++ written, by rw [same]; rfl, .inr first⟩, fun rest => ?_⟩
  have read : readDottedKey? (key.toList ++ ' ' :: '=' :: ' ' :: (written ++ '\n' :: rest)) =
      some ([], key, '=' :: ' ' :: (written ++ '\n' :: rest)) :=
    readDottedKey?_bare bare (by decide) rfl (by decide)
  have shape : key.toList ++ " = ".toList ++ written ++ '\n' :: rest =
      key.toList ++ ' ' :: '=' :: ' ' :: (written ++ '\n' :: rest) := by simp
  have value : skipBlanks (' ' :: (written ++ '\n' :: rest)) = written ++ '\n' :: rest := by
    obtain ⟨d, others, rfl, solid⟩ := denotes.start
    exact skipBlanks_cons solid
  rw [shape, readStatement?.eq_def]
  split
  next here =>
    rw [same] at here
    exact absurd (List.cons.inj here).1 (ne_of_isBareKeyChar rfl first)
  next here =>
    rw [same] at here
    exact absurd (List.cons.inj here).1 (ne_of_isBareKeyChar rfl first)
  next =>
    rw [read]
    dsimp only [Option.bind_eq_bind, Option.bind_some, expect?]
    rw [if_pos rfl, Option.bind_some, value, denotes.read]
    rfl

/-! ## Texts -/

/-- The statements that a text carries line by line. An empty line carries none. -/
inductive Carries : List Char → List Statement → Prop where
  | nil : Carries [] []
  | blank {text : List Char} {statements : List Statement} (others : Carries text statements) :
      Carries ('\n' :: text) statements
  | line {line text : List Char} {statement : Statement} {statements : List Statement}
      (first : IsLine line statement) (others : Carries text statements) :
      Carries (line ++ '\n' :: text) (statement :: statements)

theorem Carries.append {later : List Char} {others : List Statement}
    (carries : Carries text statements) (more : Carries later others) :
    Carries (text ++ later) (statements ++ others) := by
  induction carries with
  | nil => exact more
  | blank _ ih => exact .blank ih
  | line first _ ih =>
    rw [List.append_assoc]
    exact .line first ih

theorem IsLine.skipLines_append (line : IsLine text statement) :
    skipLines false (text ++ rest) = some (text ++ rest) := by
  obtain ⟨c, later, rfl, start⟩ := line.start
  have ne {d : Char} (bracket : d ≠ '[') (other : isBareKeyChar d = false) : c ≠ d :=
    start.elim (fun same => same ▸ bracket.symm) (ne_of_isBareKeyChar other)
  have solid : isBlank c = false :=
    start.elim (fun same => same ▸ rfl) isBlank_eq_false
  rw [List.cons_append, skipLines.eq_def]
  split
  next here => cases here
  next here => exact absurd (List.cons.inj here).1 (ne (by decide) rfl)
  next here => exact absurd (List.cons.inj here).1 (ne (by decide) rfl)
  next here =>
    rw [← (List.cons.inj here).1, ← (List.cons.inj here).2, if_neg Bool.false_ne_true, solid,
      if_neg Bool.false_ne_true, if_neg (ne (by decide) rfl)]

theorem Carries.head?_ne_mark (carries : Carries text statements) :
    text.head? ≠ some '\ufeff' := by
  cases carries with
  | nil => nofun
  | blank => exact fun same => nomatch same
  | line first =>
    obtain ⟨c, later, rfl, bracket | bare⟩ := first.start
    · rw [bracket]
      exact fun same => nomatch same
    · exact fun same => ne_of_isBareKeyChar (by decide) bare (Option.some.inj same)

theorem Carries.read (carries : Carries text statements) {fuel : Nat}
    (enough : text.length < fuel) : readStatements? fuel text = some statements := by
  induction carries generalizing fuel with
  | nil =>
    obtain ⟨fuel, rfl⟩ := Nat.exists_eq_succ_of_ne_zero (Nat.ne_of_gt enough)
    rfl
  | blank _ ih =>
    rw [List.length_cons] at enough
    have later := ih (Nat.lt_of_succ_lt enough)
    obtain ⟨fuel, rfl⟩ := Nat.exists_eq_succ_of_ne_zero (Nat.ne_of_gt (Nat.zero_lt_of_lt enough))
    -- The empty line is skipped on the way to the next statement.
    exact later
  | line first _ ih =>
    obtain ⟨fuel, rfl⟩ := Nat.exists_eq_succ_of_ne_zero (Nat.ne_of_gt (Nat.zero_lt_of_lt enough))
    rw [List.length_append, List.length_cons] at enough
    have later := @ih fuel (by omega)
    rw [readStatements?, first.skipLines_append]
    dsimp only [Option.bind_eq_bind, Option.bind_some]
    split
    next none =>
      obtain ⟨c, others, rfl, _⟩ := first.start
      cases none
    next =>
      have next : ∀ rest, finishLine ('\n' :: rest) = some rest := fun _ => rfl
      rw [first.read]
      dsimp only [Option.bind_some]
      rw [next, Option.bind_some, later]
      rfl

/-! ## Tables -/

namespace Entries

theorem get?_append (absent : key ∉ entries.map Prod.fst) (later : Entries) :
    get? (entries ++ later) key = get? later key := by
  have none : entries.lookup key = none := List.lookup_eq_none_iff.2 fun entry inside =>
    bne_iff_ne.2 fun same : key = entry.1 => absent (same ▸ List.mem_map_of_mem inside)
  rw [get?, List.lookup_append, none, Option.none_or, get?]

theorem get?_eq_none (absent : key ∉ entries.map Prod.fst) : get? entries key = none := by
  have skip := get?_append absent []
  rwa [List.append_nil] at skip

theorem get?_append_self (absent : key ∉ entries.map Prod.fst) (value : Value) :
    get? (entries ++ [(key, value)]) key = some value := by
  rw [get?_append absent, get?, List.lookup_cons_self]

theorem set_append (absent : key ∉ entries.map Prod.fst) (later : Entries) (value : Value) :
    set (entries ++ later) key value = entries ++ set later key value := by
  induction entries with
  | nil => rfl
  | cons entry entries ih =>
    rw [List.map_cons, List.mem_cons, not_or] at absent
    rw [List.cons_append, set, if_neg (Ne.symm absent.1), ih absent.2, List.cons_append]

theorem set_eq_append (absent : key ∉ entries.map Prod.fst) (value : Value) :
    set entries key value = entries ++ [(key, value)] := by
  have skip := set_append absent [] value
  rwa [List.append_nil] at skip

theorem set_append_self (absent : key ∉ entries.map Prod.fst) (old value : Value) :
    set (entries ++ [(key, old)]) key value = entries ++ [(key, value)] := by
  rw [set_append absent, set, if_pos rfl]

end Entries

/-- The sections of a document with their entries. -/
abbrev Sections := List (String × Entries)

namespace Sections

def toStatements (sections : Sections) : List Statement :=
  sections.flatMap fun (name, entries) =>
    .table [] name :: entries.map fun (key, value) => .assign [] key value

def toEntries (sections : Sections) : Entries :=
  sections.map fun (name, entries) => (name, .table .defined entries)

/-- No section and no entry of a section is named twice. -/
structure Distinct (sections : Sections) : Prop where
  names : (sections.map Prod.fst).Nodup
  keys : ∀ section_ ∈ sections, (section_.2.map Prod.fst).Nodup

end Sections

namespace Builder

variable {before later : Entries} {header : List String}

theorem run_table (absent : name ∉ before.map Prod.fst) :
    run ⟨⟨.defined, before⟩, header⟩ (.table [] name) =
      some ⟨⟨.defined, before ++ [(name, .table .defined [])]⟩, [name]⟩ := by
  have none := Entries.get?_eq_none absent
  rw [run, Table.changeAt, Table.define, none]
  dsimp only
  rw [Table.insertNew, none]
  dsimp only
  rw [Entries.set_eq_append absent]
  rfl

theorem run_assign (absent : name ∉ before.map Prod.fst) (fresh : key ∉ entries.map Prod.fst) :
    run ⟨⟨.defined, before ++ [(name, .table .defined entries)]⟩, [name]⟩ (.assign [] key value) =
      some ⟨⟨.defined, before ++ [(name, .table .defined (entries ++ [(key, value)]))]⟩,
        [name]⟩ := by
  have inner : Table.assign [] key value ⟨.defined, entries⟩ =
      some ⟨.defined, entries ++ [(key, value)]⟩ := by
    rw [Table.assign, Table.changeAt]
    dsimp only
    rw [Table.insertNew, Entries.get?_eq_none fresh]
    dsimp only
    rw [Entries.set_eq_append fresh]
    rfl
  rw [run, Table.changeAt, Entries.get?_append_self absent]
  dsimp only
  rw [Table.changeAt, inner]
  dsimp only [Option.bind_eq_bind, Option.bind_some, Table.toValue]
  rw [Entries.set_append_self absent]
  rfl

theorem foldlM_run_assigns (absent : name ∉ before.map Prod.fst)
    (distinct : ((entries ++ later).map Prod.fst).Nodup) :
    (later.map fun (key, value) => Statement.assign [] key value).foldlM run
        ⟨⟨.defined, before ++ [(name, .table .defined entries)]⟩, [name]⟩ =
      some ⟨⟨.defined, before ++ [(name, .table .defined (entries ++ later))]⟩, [name]⟩ := by
  induction later generalizing entries with
  | nil =>
    rw [List.append_nil]
    rfl
  | cons entry later ih =>
    have fresh : entry.1 ∉ entries.map Prod.fst := by
      rw [List.map_append, List.map_cons] at distinct
      exact fun inside => (List.nodup_append.1 distinct).2.2 _ inside _ List.mem_cons_self rfl
    have next := @ih (entries ++ [entry]) (by rwa [List.append_assoc])
    rw [List.map_cons, List.foldlM_cons]
    dsimp only
    rw [run_assign absent fresh, Option.bind_eq_bind, Option.bind_some]
    rwa [List.append_assoc] at next

theorem foldlM_run_sections {sections : Sections} (before : Entries) (header : List String)
    (names : ((before.map Prod.fst) ++ sections.map Prod.fst).Nodup)
    (keys : ∀ part ∈ sections, (part.2.map Prod.fst).Nodup) :
    ∃ last, sections.toStatements.foldlM run ⟨⟨.defined, before⟩, header⟩ =
      some ⟨⟨.defined, before ++ sections.toEntries⟩, last⟩ := by
  induction sections generalizing before header with
  | nil =>
    refine ⟨header, ?_⟩
    rw [Sections.toEntries, List.map_nil, List.append_nil]
    rfl
  | cons part sections ih =>
    obtain ⟨name, entries⟩ := part
    have absent : name ∉ before.map Prod.fst := fun inside =>
      (List.nodup_append.1 names).2.2 _ inside _ List.mem_cons_self rfl
    have opened : (Sections.toStatements ((name, entries) :: sections)) =
      .table [] name :: (entries.map fun (key, value) => .assign [] key value) ++
        Sections.toStatements sections := rfl
    obtain ⟨last, run⟩ := ih (before ++ [(name, .table .defined entries)]) [name]
      (by simpa using names) fun part inside => keys part (.tail _ inside)
    refine ⟨last, ?_⟩
    have distinct : (([] ++ entries).map Prod.fst).Nodup := keys _ List.mem_cons_self
    have fields := foldlM_run_assigns absent distinct
    rw [opened, List.cons_append, List.foldlM_cons, run_table absent, Option.bind_eq_bind,
      Option.bind_some, List.foldlM_append, fields, Option.bind_eq_bind, Option.bind_some,
      List.nil_append, run, List.append_assoc]
    rfl

end Builder

/-- A text that carries the statements of some distinct sections is a document with the tables of
these sections. -/
theorem readDocument?_of_carries {text : String} {sections : Sections}
    (distinct : sections.Distinct) (carries : Carries text.toList sections.toStatements) :
    readDocument? text = some sections.toEntries := by
  obtain ⟨last, run⟩ := Builder.foldlM_run_sections [] [] distinct.names distinct.keys
  rw [readDocument?]
  split
  next mark =>
    exact absurd (by rw [mark, List.head?_cons]) carries.head?_ne_mark
  next =>
    rw [carries.read (Nat.lt_succ_self _), Option.bind_eq_bind, Option.bind_some]
    rw [run]
    rfl

end LoopGuard.Toml
