import LoopGuard.Config.Given
import LoopGuard.Toml.Quoted

/-!
# Writing a configuration

Each section is written as a header and a line for each of its fields, with an
empty line between sections.
-/

namespace LoopGuard.Config

abbrev WrittenField := String × List Char

abbrev WrittenSection := String × List WrittenField

def WrittenField.line (field : WrittenField) : List Char :=
  field.1.toList ++ " = ".toList ++ field.2 ++ ['\n']

def WrittenSection.lines (written : WrittenSection) : List Char :=
  '[' :: written.1.toList ++ [']', '\n'] ++ written.2.flatMap WrittenField.line

def renderSections (sections : List WrittenSection) : String :=
  String.ofList (['\n'].intercalate (sections.map WrittenSection.lines))

def writeField? {α : Type} (write : α → List Char) (name : String) (value : Option α) :
    List WrittenField :=
  match value with
  | none => []
  | some value => [(name, write value)]

def writeText (text : String) : List Char := Toml.quote text.toList

def writeNat (n : Nat) : List Char := Nat.toDigits 10 n

def writeInt : Int → List Char
  | .ofNat n => writeNat n
  | .negSucc n => '-' :: writeNat (n + 1)

namespace Given

/-- The sections with the settings that are given. -/
def sections (given : Given) : List WrittenSection :=
  [("topology",
      writeField? writeText "topology_id" given.topology.topologyId ++
      writeField? (writeNat ·.toNat) "graph_refresh_delay_ms" given.topology.refreshDelay ++
      writeField? (writeNat ·.toNat) "max_reschedules" given.topology.maxReschedules ++
      writeField? writeText "host_link_marker" given.topology.hostMarker),
    ("database",
      writeField? writeText "redis_host" given.database.host ++
      writeField? (writeNat ·.toNat) "redis_port" given.database.port ++
      writeField? (writeInt ·.toInt) "appl_db" given.database.links ++
      writeField? (writeInt ·.toInt) "state_db" given.database.statuses),
    ("writer",
      writeField? (writeNat ·.toNat) "max_attempts" given.writer.maxAttempts ++
      writeField? (writeNat ·.toNat) "retry_backoff_ms" given.writer.retryBackoff),
    ("feed",
      writeField? (writeNat ·.toNat) "poll_interval_ms" given.feed.pollInterval)]

end Given

def render (config : Config) : String := renderSections config.given.sections

end LoopGuard.Config
