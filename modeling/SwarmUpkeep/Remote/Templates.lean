import SwarmUpkeep.Remote.Outside

/-!
# Templates and probes

A template is fetched from its place and read as JSON. A node is probed at the port of its
diagnostic service; any successful answer is a sign of life.
-/

namespace SwarmUpkeep

/-- Fetches the template at a place. -/
def fetchTemplate (url : Url) : Attempt Web ServiceError Json := do
  let response ← Web.submit (Request.build .get url [] [] none)
  if response.isSuccess then Attempt.ofExcept response.json
  else Attempt.fail (ServiceError.ofStatus response.status ("GET " ++ url.text))

/-- The place of a node's diagnostic service. -/
def diagnosticUrl (port : Nat) (addr : Address) : Url :=
  { scheme := "http"
    username := ""
    password := none
    host := some (.address addr)
    port := if port = 80 then none else some port
    path := .rooted [""]
    query := none
    fragment := none }

/-- Whether a node answers. -/
def probeNode (port : Nat) (addr : Address) : Program Web Bool :=
  Program.bind (Web.submit (Request.build .get (diagnosticUrl port addr) [] [] none)) fun
    | .ok response => .done response.isSuccess
    | .error _ => .done false

end SwarmUpkeep
