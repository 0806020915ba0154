import SwarmUpkeep.Addon.Error
import SwarmUpkeep.Config.Settings
import SwarmUpkeep.Remote.Outside
import SwarmUpkeep.Swarm.Record
import SwarmUpkeep.Text.Blank
import SwarmUpkeep.Text.Pieces

/-!
# The add-on's tool

The add-on is managed by a container that is run once for each action. It writes the identifier of
a new replica at the end of the last line of its output that is not blank.
-/

namespace SwarmUpkeep

/-- What is needed to run the tool. -/
structure AddonTool where
  program : String
  image : String
  endpoint : String
  username : Option String
  password : Option Secret
deriving DecidableEq, Inhabited

namespace AddonTool

def ofSettings (settings : AddonSettings) : Except AddonError AddonTool :=
  match settings.image, settings.endpoint with
  | none, _ => .error (.notConfigured "addon-image")
  | _, none => .error (.notConfigured "addon-endpoint")
  | some image, some endpoint =>
      .ok ⟨settings.dockerBin, image, endpoint, settings.username, settings.password⟩

/-- A name with its value, if there is one. -/
def optionArguments (name : String) : Option String → List String
  | none => []
  | some value => [name, value]

def baseArguments (tool : AddonTool) (action : String) : List String :=
  ["run", "--rm", tool.image, action, "--ucp-url", tool.endpoint, "--ucp-insecure-tls"] ++
    optionArguments "--ucp-username" tool.username ++
    optionArguments "--ucp-password" (tool.password.map (·.value))

def removeArguments (tool : AddonTool) (replica : ReplicaRecord) : List String :=
  tool.baseArguments "remove" ++
    ["--existing-replica-id", replica.replicaId, "--replica-ids", replica.replicaId]

def joinArguments (tool : AddonTool) (nodeName : String) : List String :=
  tool.baseArguments "join" ++ ["--ucp-node", nodeName]

/-! ## Output -/

/-- What an exit code is called in messages. -/
def statusText (exit : Nat) : String :=
  "exit status: " ++ toString exit

/-- What a command has written, if it has succeeded. -/
def outputOf : Except String CommandOutput → Except AddonError String
  | .error reason => .error (.launch reason)
  | .ok result =>
      if result.exit = 0 then .ok result.output
      else .error (.commandFailed (statusText result.exit) (trimBlanks result.errors))

/-- An identifier of a replica: twelve hexadecimal digits. -/
def isReplicaId (cs : List Char) : Bool :=
  cs.length == 12 && cs.all Ascii.isHexDigit

/-- The identifier at the end of the last line that is not blank. -/
def replicaId? (output : String) : Option String := do
  let lines := (Text.pieces '\n' output.toList).map fun line => trimBlanks (String.ofList line)
  let line ← lines.reverse.find? fun line => !line.isEmpty
  let word ← (Text.pieces ' ' line.toList).getLast?
  if isReplicaId word then some (String.ofList word) else none

/-! ## Actions -/

def run (tool : AddonTool) (arguments : List String) : Attempt Outside AddonError String :=
  Program.ask (I := Outside) (.execute tool.program arguments) fun answer =>
    .done (outputOf answer)

def removeReplica (tool : AddonTool) (replica : ReplicaRecord) :
    Attempt Outside AddonError Unit := do
  discard (tool.run (tool.removeArguments replica))

def joinReplica (tool : AddonTool) (nodeName : String) : Attempt Outside AddonError String := do
  match replicaId? (← tool.run (tool.joinArguments nodeName)) with
  | some id => return id
  | none => Attempt.fail .missingReplicaId

end AddonTool

end SwarmUpkeep
