import LoopGuard.Config.Basic
import LoopGuard.Error
import LoopGuard.Text.Blank

/-!
# Checking a configuration

A configuration can be used when its topology has a name and the numbers that
must not be zero are not. The first setting that is wrong is reported.
-/

namespace LoopGuard.Config

/-- Demands something of a setting. -/
def demand (holds : Bool) (field detail : String) : Except GuardError Unit :=
  if holds then .ok () else .error (.invalidConfig field detail)

def validate (config : Config) : Except GuardError Unit := do
  demand (!Text.isBlankText config.topology.topologyId) "topology.topology_id"
    "must not be empty"
  demand (config.database.port ≠ 0) "database.redis_port" "must be > 0"
  demand (config.writer.maxAttempts ≠ 0) "writer.max_attempts" "must be > 0"
  demand (config.feed.pollInterval ≠ 0) "feed.poll_interval_ms" "must be > 0"

end LoopGuard.Config
