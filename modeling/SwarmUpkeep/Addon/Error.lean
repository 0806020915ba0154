/-!
# Errors of the add-on

Why the add-on's own tooling did not do what it was asked. Only a command that ran and failed is
worth another attempt: it fails while the management endpoint settles.
-/

namespace SwarmUpkeep

inductive AddonError where
  | launch (reason : String)
  | commandFailed (status stderr : String)
  | missingReplicaId
  | notConfigured (setting : String)
deriving DecidableEq, Inhabited

namespace AddonError

def message : AddonError → String
  | launch reason => "Failed to launch add-on command: " ++ reason
  | commandFailed status stderr => "Add-on command exited with " ++ status ++ ": " ++ stderr
  | missingReplicaId => "Add-on command did not report a replica id"
  | notConfigured setting => "Add-on is not configured: " ++ setting

/-- The kind of an error in one word. -/
def kind : AddonError → String
  | launch _ => "Launch"
  | commandFailed _ _ => "CommandFailed"
  | missingReplicaId => "MissingReplicaId"
  | notConfigured _ => "NotConfigured"

def isTransient : AddonError → Bool
  | commandFailed .. => true
  | _ => false

end AddonError

end SwarmUpkeep
