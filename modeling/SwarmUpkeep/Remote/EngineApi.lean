import SwarmUpkeep.Json.Decode
import SwarmUpkeep.Net.Url.Reader
import SwarmUpkeep.Remote.Outside
import SwarmUpkeep.Swarm.Member

/-!
# The control plane of a host

The engine of a host lists and changes the members of the swarm. A member's address is the one of
its status, unless that names no host; then it is the one under which managers reach each other.
A demotion reads the specification of a node, changes the role in it and writes it back under the
version that was read.
-/

namespace SwarmUpkeep

/-- The place of an engine, and the port on which hosts join. -/
structure EngineApi where
  base : Url
  swarmPort : Nat
deriving Inhabited

namespace EngineApi

open Json.Document

/-! ## Documents -/

/-- The part of a node that managers have. -/
structure ManagerStatus where
  leader : Bool
  addr : Option String
deriving DecidableEq, Inhabited

/-- A node as an engine tells it. -/
structure NodeDocument where
  id : String
  version : Nat
  spec : Json
  hostname : String
  state : String
  addr : Option String
  manager : Option ManagerStatus
deriving Inhabited

def greatestVersion : Int := 18446744073709551615

def version? (d : Json.Document) : Option Nat := do
  match ← d.fields? ["Index"] with
  | [index] => return (← required (whole? 0 greatestVersion) index).toNat
  | _ => none

def hostname? (d : Json.Document) : Option String := do
  match ← d.fields? ["Hostname"] with
  | [hostname] => withDefault "" text? hostname
  | _ => none

def status? (d : Json.Document) : Option (String × Option String) := do
  match ← d.fields? ["State", "Addr"] with
  | [state, addr] => return (← required text? state, ← optional text? addr)
  | _ => none

def managerStatus? (d : Json.Document) : Option ManagerStatus := do
  match ← d.fields? ["Leader", "Addr"] with
  | [leader, addr] => return ⟨← withDefault false bool? leader, ← optional text? addr⟩
  | _ => none

/-- A node inside a document in which so many arrays and objects may still be nested. -/
def node? (depth : Nat) (d : Json.Document) : Option NodeDocument := do
  match ← d.fields? ["ID", "Version", "Spec", "Description", "Status", "ManagerStatus"] with
  | [id, version, spec, description, status, manager] =>
      let id ← required text? id
      let version ← required version? version
      let spec ← required (Json.Document.value? (depth - 1)) spec
      let hostname ← optional hostname? description
      let (state, addr) ← required status? status
      let manager ← optional managerStatus? manager
      return ⟨id, version, spec, hostname.getD "", state, addr, manager⟩
  | _ => none

def nodes? (d : Json.Document) : Option (List NodeDocument) :=
  list? (node? (depthLimit - 1)) d

namespace NodeDocument

/-- The address under which other managers reach this one. -/
def managerAddress (node : NodeDocument) : Option Address :=
  (node.manager.bind (·.addr)).bind Address.ofEndpoint?

/-- The address of the status, if it names a host. -/
def statusAddress (node : NodeDocument) : Option Address :=
  (node.addr.bind Address.parse?).filter fun a => !a.isUnspecified

/-- The role that the specification names; a worker if it names none. -/
def role (node : NodeDocument) : Except ServiceError Role :=
  match Role.parse (((node.spec.get? "Role").bind Json.text?).getD "worker") with
  | .ok role => .ok role
  | .error reason => .error (.undecodable reason)

def member (node : NodeDocument) : Except ServiceError Member := do
  let role ← node.role
  match node.statusAddress.or node.managerAddress with
  | none => throw (.undecodable ("node " ++ node.id ++ " has no address"))
  | some addr =>
      return ⟨node.id, node.hostname, addr, role, Status.parse node.state,
        node.manager.any (·.leader)⟩

end NodeDocument

/-- The identifier of the host's own node, if the host is in the swarm. -/
def localNode? (d : Json.Document) : Option (Option String) := do
  match ← d.fields? ["Swarm"] with
  | [swarm] =>
      match ← (← swarm).fields? ["NodeID", "LocalNodeState"] with
      | [id, state] =>
          let id ← withDefault "" text? id
          let state ← withDefault "" text? state
          return if state ≠ "active" ∨ id.isEmpty then none else some id
      | _ => none
  | _ => none

def joinTokens? (d : Json.Document) : Option JoinTokens := do
  match ← d.fields? ["JoinTokens"] with
  | [tokens] =>
      match ← (← tokens).fields? ["Worker", "Manager"] with
      | [worker, manager] =>
          let worker ← required text? worker
          let manager ← required text? manager
          return ⟨manager, worker⟩
      | _ => none
  | _ => none

/-- What the body of an error says. -/
def errorMessage (body : String) : String :=
  let message := do
    match ← (← Json.Document.parse? body).fields? ["message"] with
    | [message] => required text? message
    | _ => none
  trimBlanks (message.getD body)

/-! ## Requests -/

def url (api : EngineApi) (path : String) : Except ServiceError Url :=
  match api.base.join path with
  | .ok url => .ok url
  | .error e => .error (.fatal ("bad engine path " ++ path ++ ": " ++ e.message))

/-- A request with a path below the base, pairs in its query and maybe a JSON body. -/
def request (api : EngineApi) (method : Method) (path : String)
    (query : List (String × String)) (body : Option Json) : Except ServiceError Request := do
  let url ← api.url path
  Request.build method url query ((body.map fun _ => Request.jsonType).toList)
    (body.map Json.text)

def send (request : Except ServiceError Request) (what : String) :
    Attempt Web ServiceError Response := do
  let response ← Web.submit request
  Attempt.ofExcept (response.checked what errorMessage)

def roleFilter : Option Role → List (String × String)
  | none => []
  | some role =>
      [("filters", (Json.obj [("role", .arr [.str role.text])]).text)]

/-- The specification with the role of a worker. One that is no object stays as it is. -/
def demoted : Json → Json
  | .obj members => .obj (Json.Members.insert members "Role" (.str "worker"))
  | spec => spec

def joinBody (api : EngineApi) (remote : Address) (token : String) : Json :=
  Json.object
    [("ListenAddr", .str ("0.0.0.0:" ++ toString api.swarmPort)),
     ("RemoteAddrs", .arr [.str (remote.withPort api.swarmPort)]),
     ("JoinToken", .str token)]

/-! ## Calls -/

def nodePath (id : String) : String :=
  "nodes/" ++ id

def readNode (api : EngineApi) (id : String) : Attempt Web ServiceError NodeDocument := do
  let response ← send (api.request .get (nodePath id) [] none) ("inspect node " ++ id)
  Attempt.ofExcept (response.decode (node? depthLimit))

def members (api : EngineApi) (role : Option Role) : Attempt Web ServiceError (List Member) := do
  let response ← send (api.request .get "nodes" (roleFilter role) none) "list nodes"
  let nodes ← Attempt.ofExcept (response.decode nodes?)
  Attempt.ofExcept (nodes.mapM NodeDocument.member)

def inspect (api : EngineApi) (id : String) : Attempt Web ServiceError Member := do
  Attempt.ofExcept (← api.readNode id).member

def localId (api : EngineApi) : Attempt Web ServiceError (Option String) := do
  let response ← send (api.request .get "info" [] none) "engine info"
  Attempt.ofExcept (response.decode localNode?)

def demote (api : EngineApi) (id : String) : Attempt Web ServiceError Unit := do
  let node ← api.readNode id
  let request := api.request .post (nodePath id ++ "/update")
    [("version", toString node.version)] (some (demoted node.spec))
  discard (send request ("demote node " ++ id))

def remove (api : EngineApi) (id : String) : Attempt Web ServiceError Unit := do
  discard (send (api.request .delete (nodePath id) [("force", "true")] none)
    ("remove node " ++ id))

def joinTokens (api : EngineApi) : Attempt Web ServiceError JoinTokens := do
  let response ← send (api.request .get "swarm" [] none) "inspect swarm"
  Attempt.ofExcept (response.decode joinTokens?)

def leave (api : EngineApi) : Attempt Web ServiceError Unit := do
  discard (send (api.request .post "swarm/leave" [("force", "true")] none) "leave swarm")

def join (api : EngineApi) (remote : Address) (token : String) :
    Attempt Web ServiceError Unit := do
  discard (send (api.request .post "swarm/join" [] (some (api.joinBody remote token)))
    ("join swarm at " ++ remote.text))

/-- The engine of the host at an address. -/
def reached (api : EngineApi) (addr : Address) : EngineApi :=
  { api with base := api.base.withAddress addr }

end EngineApi

end SwarmUpkeep
