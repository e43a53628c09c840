import LoopGuard.Text.Blank
import LoopGuard.Text.Cut
import LoopGuard.Text.Decimal

/-!
# Log filters

A log filter is a list of directives with commas between them. A directive sets
the level up to which messages are shown, for all messages or for those whose
target starts with a text; of several directives that fit, the one for the
longest beginning decides. A directive for a span says nothing about messages
outside of it. Malformed directives are passed over, and a filter without any
directive shows errors only.
-/

namespace LoopGuard.Daemon

/-- How much is shown. A message has one of the levels from `error` on. -/
inductive Level where
  | off
  | error
  | warn
  | info
  | debug
  | trace
deriving DecidableEq, Repr

namespace Level

/-- The levels by how much they show. -/
def rank : Level → Nat
  | off => 0
  | error => 1
  | warn => 2
  | info => 3
  | debug => 4
  | trace => 5

def name : Level → String
  | off => "off"
  | error => "error"
  | warn => "warn"
  | info => "info"
  | debug => "debug"
  | trace => "trace"

def all : List Level := [off, error, warn, info, debug, trace]

/-- The level with a name, in any case of its letters, or with a number. -/
def ofText? (text : String) : Option Level :=
  match Text.readCount? text.toList with
  | some number => all[number]?
  | none => all.find? fun level => text.toLower = level.name

/-- The level behind an equals sign; nothing means everything. -/
def ofSuffix? (text : String) : Option Level :=
  if text.isEmpty then some trace else ofText? text

end Level

/-- What a directive is about. -/
inductive Scope where
  /-- Messages with this beginning of their target, if there is one. -/
  | target (beginning : Option String)
  /-- Messages inside a span. -/
  | span
deriving DecidableEq, Repr

/-- One directive of a log filter. -/
structure Directive where
  scope : Scope
  level : Level
deriving DecidableEq, Repr

namespace Directive

/-- Whether a directive can start with this character. -/
def canStart (c : Char) : Bool :=
  c = '-' || c = ':' || c = '_' || c.isAlphanum || (c.toNat ≥ 128 && !Text.isBlankChar c)

/-- Reads a span with the level that may follow it. -/
def ofSpan? (text : List Char) : Option Directive := do
  let (_, rest) ← Text.cutAt? ']' text
  match rest with
  | [] => return ⟨.span, .trace⟩
  | '=' :: level => return ⟨.span, ← Level.ofSuffix? (String.ofList level)⟩
  | _ => none

/-- Reads a directive that starts with a level or a target. -/
def ofTarget? (text : List Char) : Option Directive :=
  match text.span fun c => c ≠ '=' && c ≠ '[' with
  | (target, '=' :: level) => do
    return ⟨.target (some (String.ofList target)), ← Level.ofSuffix? (String.ofList level)⟩
  | (_, '[' :: rest) => ofSpan? rest
  | (word, _) =>
    match Level.ofText? (String.ofList word) with
    | some level => some ⟨.target none, level⟩
    | none => some ⟨.target (some (String.ofList word)), .trace⟩

def ofText? (text : List Char) : Option Directive :=
  match text with
  | '[' :: rest => ofSpan? rest
  | c :: _ => if canStart c then ofTarget? text else none
  | [] => none

/-- How closely a directive fits a target: one more than the length of the
beginning that it names. -/
def fit? (target : String) : Directive → Option Nat
  | ⟨.target none, _⟩ => some 0
  | ⟨.target (some beginning), _⟩ =>
    if beginning.toList.isPrefixOf target.toList then some (beginning.length + 1) else none
  | ⟨.span, _⟩ => none

end Directive

/-- A log filter. -/
structure LogFilter where
  directives : List Directive
deriving DecidableEq, Repr

namespace LogFilter

def fallback : Directive := ⟨.target none, .error⟩

def ofText (text : String) : LogFilter :=
  let directives := (Text.splitAll ',' text.toList).filterMap Directive.ofText?
  ⟨if directives.isEmpty then [fallback] else directives⟩

/-- The level for a target: that of the directive which fits best, and of
several that fit equally of the last. -/
def levelFor (filter : LogFilter) (target : String) : Level :=
  let best := filter.directives.foldl
    (fun best directive =>
      match directive.fit? target with
      | none => best
      | some fit => if best.1 ≤ fit then (fit, directive.level) else best)
    (0, Level.off)
  best.2

/-- Whether a message of this target and level is shown. -/
def shows (filter : LogFilter) (target : String) (level : Level) : Bool :=
  level.rank ≤ (filter.levelFor target).rank

end LogFilter

end LoopGuard.Daemon
