import SwarmUpkeep.Swarm.Node
import SwarmUpkeep.Text.Quoted
import SwarmUpkeep.Upkeep.Lock
import SwarmUpkeep.Upkeep.Operations
import SwarmUpkeep.Upkeep.Records
import SwarmUpkeep.Upkeep.Resolution

/-!
# Errors of an upgrade

Why an upgrade did not start or did not come to its end. What goes wrong while a node is walked
through its stages is told together with the node and the stage that it had reached.
-/

namespace SwarmUpkeep

inductive UpgradeError where
  | invalidTemplate (url reason : String)
  | alreadyInProgress
  | singleManager
  | quorumRisk (node : String) (unready : List String)
  | missingParameter (name : String)
  | aborted (node : String) (stage : Stage) (cause : UpgradeError)
  | timeout (what : String)
  | resolution (error : ResolutionError)
  | service (error : ServiceError)
  | records (error : RecordError)
  | lock (error : LockError)
  | operation (error : OperationError)
  | addon (error : AddonError)
deriving DecidableEq, Inhabited

namespace UpgradeError

def message : UpgradeError → String
  | invalidTemplate url reason => "Invalid deployment template " ++ url ++ ": " ++ reason
  | alreadyInProgress => "An upgrade is already in progress"
  | singleManager => "Refusing to upgrade a swarm with a single manager"
  | quorumRisk node unready =>
      "Demoting " ++ node ++ " would risk quorum, managers not ready: " ++ Text.quotedList unready
  | missingParameter name =>
      "Deployment parameter " ++ name ++ " has no value and cannot be re-supplied"
  | aborted node stage cause =>
      "Node " ++ node ++ " aborted in state " ++ stage.text ++ ": " ++ cause.message
  | timeout what => "Timed out: " ++ what
  | resolution e => "Resolution error: " ++ e.message
  | service e => "API error: " ++ e.message
  | records e => "State store error: " ++ e.message
  | lock e => "Upgrade lock error: " ++ e.message
  | operation e => "Provider operation error: " ++ e.message
  | addon e => "Add-on error: " ++ e.message

/-- The kind of an error, with the kinds of its causes behind slashes. -/
def kind : UpgradeError → String
  | invalidTemplate _ _ => "InvalidTemplate"
  | alreadyInProgress => "AlreadyInProgress"
  | singleManager => "SingleManager"
  | quorumRisk _ _ => "QuorumRisk"
  | missingParameter _ => "MissingParameter"
  | aborted _ _ cause => "Aborted/" ++ cause.kind
  | timeout _ => "Timeout"
  | resolution e => "Resolution/" ++ e.kind
  | service e => "Api/" ++ e.kind
  | records e => "State/" ++ e.kind
  | lock e => "Mutex/" ++ e.kind
  | operation e => "Operation/" ++ e.kind
  | addon e => "Addon/" ++ e.kind

/-- The error of a wait whose attempts fail with errors of one kind. -/
def ofRetry {ε : Type} (failure : ε → UpgradeError) : RetryError ε → UpgradeError
  | .exhausted what attempts (some last) =>
      timeout (what ++ " after " ++ toString attempts ++ " attempts (last error: " ++ last ++ ")")
  | .exhausted what attempts none => timeout (what ++ " after " ++ toString attempts ++ " attempts")
  | .failed e => failure e

end UpgradeError

end SwarmUpkeep
