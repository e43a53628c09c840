import LoopGuard.Text.Cut
import LoopGuard.Text.Similarity

/-!
# Command line

The daemon takes three options with a value, each at most once, and the flags
for help and version. A value stands in the next argument, behind an equals
sign, or right behind a one-letter name. Arguments are read from left to right,
and the first mistake is reported; an option is settled when the next one
starts.
-/

namespace LoopGuard.Daemon

/-- The options that take a value. -/
inductive OptionName where
  | config
  | logLevel
  | topologyId
deriving DecidableEq, Repr

namespace OptionName

def all : List OptionName := [config, logLevel, topologyId]

def long : OptionName → String
  | config => "config"
  | logLevel => "log-level"
  | topologyId => "topology-id"

def short : OptionName → Char
  | config => 'c'
  | logLevel => 'l'
  | topologyId => 't'

def display : OptionName → String
  | config => "--config <CONFIG>"
  | logLevel => "--log-level <LOG_LEVEL>"
  | topologyId => "--topology-id <TOPOLOGY_ID>"

/-- Whether the option takes this value: a path cannot be empty. -/
def takes : OptionName → String → Bool
  | config, value => !value.isEmpty
  | logLevel, _ | topologyId, _ => true

end OptionName

/-- The flags. -/
inductive Flag where
  | help
  | version
deriving DecidableEq, Repr

namespace Flag

def all : List Flag := [help, version]

def long : Flag → String
  | help => "help"
  | version => "version"

def short : Flag → Char
  | help => 'h'
  | version => 'V'

def display (flag : Flag) : String := "--" ++ flag.long

end Flag

/-- What a command line asks for. -/
structure Options where
  config : String := "/etc/sonic/loopremoverd.toml"
  logLevel : String := "info"
  /-- The topology to manage in the place of the configured one. -/
  topologyId : Option String := none
deriving DecidableEq, Repr

/-- A mistake in a command line. The field `used` lists the options that the
usage line shows. -/
inductive UsageError where
  /-- An argument means nothing; a similar one may be meant. -/
  | unexpectedArgument (argument : String) (similar : Option String) (used : List String)
  /-- A flag has a value. -/
  | unexpectedValue (value : String) (flag : Flag) (used : List String)
  /-- An option lacks its value. -/
  | missingValue (option : OptionName)
  /-- An option occurs twice. -/
  | repeated (option : OptionName)
deriving DecidableEq, Repr

namespace UsageError

def usage (used : List String) : String :=
  "Usage: loopremoverd " ++ (if used.isEmpty then "[OPTIONS]" else " ".intercalate used)

/-- The parts of the wording, which empty lines separate. -/
def parts : UsageError → List String
  | unexpectedArgument argument similar used =>
    ["error: unexpected argument '" ++ argument ++ "' found"] ++
      (match similar with
        | none => []
        | some other => ["  tip: a similar argument exists: '" ++ other ++ "'"]) ++
      [usage used]
  | unexpectedValue value flag used =>
    ["error: unexpected value '" ++ value ++ "' for '" ++ flag.display ++
      "' found; no more were expected", usage used]
  | missingValue option =>
    ["error: a value is required for '" ++ option.display ++ "' but none was supplied"]
  | repeated option =>
    ["error: the argument '" ++ option.display ++ "' cannot be used multiple times", usage []]

def message (error : UsageError) : String :=
  "\n\n".intercalate (error.parts ++ ["For more information, try '--help'."]) ++ "\n"

end UsageError

/-- What is to be done with a command line. -/
inductive Invocation where
  | run (options : Options)
  | show (flag : Flag)
deriving DecidableEq, Repr

/-- A command line as far as it is read. -/
structure Reading where
  /-- The values that are settled, in the order of their options. -/
  values : List (OptionName × String) := []
  /-- The option that is not settled yet, with its value once that is read. -/
  waiting : Option (OptionName × Option String) := none
  /-- No further option can follow. -/
  ended : Bool := false

namespace Reading

def accept (reading : Reading) (option : OptionName) (value : String) :
    Except UsageError Reading :=
  if reading.values.any (·.1 = option) then .error (.repeated option)
  else if option.takes value then
    .ok { reading with values := reading.values ++ [(option, value)] }
  else .error (.missingValue option)

def settle (reading : Reading) : Except UsageError Reading :=
  match reading.waiting with
  | none => .ok reading
  | some (option, none) => .error (.missingValue option)
  | some (option, some value) => { reading with waiting := none }.accept option value

/-- Settles the waiting option if that can be done. -/
def settleIfPossible (reading : Reading) : Reading :=
  match reading.settle with
  | .ok settled => settled
  | .error _ => reading

/-- The options read so far, as they stand in messages. -/
def used (reading : Reading) : List String := reading.values.map (·.1.display)

/-- Starts an option, with its value if that is attached. -/
def start (reading : Reading) (option : OptionName) (value : Option String) :
    Except UsageError Reading := do
  let reading ← reading.settle
  match value with
  | some value => reading.accept option value
  | none => return { reading with waiting := some (option, none) }

/-- How similar an unknown name has to be to be taken for another. -/
def similarEnough : Text.Fraction := ⟨7, 10⟩

/-- The long names, each with its form in messages. -/
def longNames : List (String × String) :=
  OptionName.all.map (fun option => (option.long, option.display)) ++
    Flag.all.map (fun flag => (flag.long, flag.display))

def unknownLong (reading : Reading) (name : String) : UsageError :=
  let used := reading.settleIfPossible.used
  match Text.mostSimilar? similarEnough name (longNames.map (·.1)) with
  | none => .unexpectedArgument ("--" ++ name) none used
  | some other =>
    let display := (longNames.lookup other).getD other
    .unexpectedArgument ("--" ++ name) (some ("--" ++ other))
      (if used.contains display then used else used ++ [display])

/-- Reads a long name with the value attached to it. -/
def readLong (reading : Reading) (name : String) (value : Option String) :
    Except UsageError (Reading ⊕ Flag) :=
  match OptionName.all.find? (·.long = name), Flag.all.find? (·.long = name), value with
  | some option, _, value => (reading.start option value).map .inl
  | none, some flag, none => reading.settle.map fun _ => .inr flag
  | none, some flag, some value =>
    .error (.unexpectedValue value flag (reading.used ++ [flag.display]))
  | none, none, _ => .error (reading.unknownLong name)

def attached? : List Char → Option String
  | [] => none
  | '=' :: value => some (String.ofList value)
  | value => some (String.ofList value)

/-- Reads a one-letter name with what stands right behind it. -/
def readShort (reading : Reading) (letter : Char) (rest : List Char) :
    Except UsageError (Reading ⊕ Flag) :=
  match OptionName.all.find? (·.short = letter), Flag.all.find? (·.short = letter) with
  | some option, _ => (reading.start option (attached? rest)).map .inl
  | none, some flag => reading.settle.map fun _ => .inr flag
  | none, none => .error (.unexpectedArgument (String.ofList ['-', letter]) none [])

/-- Reads an argument that is no option: the value of the waiting option. -/
def readPlain (reading : Reading) (argument : String) : Except UsageError (Reading ⊕ Flag) :=
  match reading.waiting with
  | some (option, none) => .ok (.inl { reading with waiting := some (option, some argument) })
  | _ => .error (.unexpectedArgument argument none [])

def read (reading : Reading) (argument : String) : Except UsageError (Reading ⊕ Flag) :=
  if reading.ended then .error (.unexpectedArgument argument none [])
  else
    match argument.toList with
    | ['-', '-'] => .ok (.inl { reading with ended := true })
    | '-' :: '-' :: long =>
      match Text.cutAt? '=' long with
      | none => reading.readLong (String.ofList long) none
      | some (name, value) => reading.readLong (String.ofList name) (some (String.ofList value))
    | '-' :: letter :: rest => reading.readShort letter rest
    | _ => reading.readPlain argument

def options (reading : Reading) : Options :=
  let given (option : OptionName) := reading.values.lookup option
  { config := (given .config).getD ({} : Options).config
    logLevel := (given .logLevel).getD ({} : Options).logLevel
    topologyId := given .topologyId }

/-- Reads the arguments that are left. A flag ends the reading. -/
def readAll (reading : Reading) : List String → Except UsageError Invocation
  | [] => reading.settle.map fun settled => .run settled.options
  | argument :: rest =>
    match reading.read argument with
    | .error error => .error error
    | .ok (.inl reading) => readAll reading rest
    | .ok (.inr flag) => .ok (.show flag)

end Reading

def Invocation.ofArguments (arguments : List String) : Except UsageError Invocation :=
  Reading.readAll {} arguments

def Flag.text : Flag → String
  | .version => "loopremoverd 0.1.0\n"
  | .help => "\n".intercalate [
      "Loop-prevention topology daemon for SONiC L2 fabrics (spanning forest port status)",
      "",
      UsageError.usage [],
      "",
      "Options:",
      "  -c, --config <CONFIG>            Configuration file [default: "
        ++ ({} : Options).config ++ "]",
      "  -l, --log-level <LOG_LEVEL>      Log filter used when RUST_LOG is not set [default: "
        ++ ({} : Options).logLevel ++ "]",
      "  -t, --topology-id <TOPOLOGY_ID>  Topology instance to manage, overriding the "
        ++ "configuration file",
      "  -h, --help                       Print help",
      "  -V, --version                    Print version",
      ""]

end LoopGuard.Daemon
