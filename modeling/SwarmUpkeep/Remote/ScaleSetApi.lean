import SwarmUpkeep.Cloud.Machine
import SwarmUpkeep.Json.Decode
import SwarmUpkeep.Net.Url.Reader
import SwarmUpkeep.Remote.Token
import SwarmUpkeep.Swarm.Record

/-!
# The provider's interface for scale sets and deployments

Listings come in pages, each of which names the place of the next; all of them are read. Work that
takes long is answered with the place where its status can be asked for.
-/

namespace SwarmUpkeep

/-- The resources of one group in one subscription. At most `pageLimit` pages of a listing are
read. -/
structure ScaleSetApi where
  base : Url
  subscriptionId : String
  resourceGroup : String
  pageLimit : Nat
deriving Inhabited

namespace ScaleSetApi

open Json.Document

/-! ## Documents -/

/-- The items of a page and the place of the next page. -/
def page? {α : Type} (item? : Json.Document → Option α) (d : Json.Document) :
    Option (List α × Option String) := do
  match ← d.fields? ["value", "nextLink"] with
  | [items, next] => return (← withDefault [] (list? item?) items, ← optional text? next)
  | _ => none

def computerName? (d : Json.Document) : Option String := do
  match ← d.fields? ["computerName"] with
  | [name] => required text? name
  | _ => none

/-- Whether the latest model is applied, and the name of the computer. -/
def machineProperties? (d : Json.Document) : Option (Bool × Option String) := do
  match ← d.fields? ["latestModelApplied", "osProfile"] with
  | [latest, profile] => return (← withDefault false bool? latest, ← optional computerName? profile)
  | _ => none

def machine? (d : Json.Document) : Option Machine := do
  match ← d.fields? ["instanceId", "properties"] with
  | [id, properties] =>
      let id ← required text? id
      let (latest, name) ← withDefault (false, none) machineProperties? properties
      return ⟨id, name.getD "", latest⟩
  | _ => none

def resourceId? (d : Json.Document) : Option String := do
  match ← d.fields? ["id"] with
  | [id] => required text? id
  | _ => none

/-- The address of a configuration and whether it is marked as the primary one. -/
def configuration? (d : Json.Document) : Option (Option String × Option Bool) := do
  match ← d.fields? ["properties"] with
  | [properties] =>
      match ← (← properties).fields? ["privateIPAddress", "primary"] with
      | [ip, primary] => return (← optional text? ip, ← optional bool? primary)
      | _ => none
  | _ => none

/-- The machine of an interface and its configurations. -/
structure InterfaceDocument where
  machine : Option String
  configurations : List (Option String × Option Bool)
deriving DecidableEq, Inhabited

def interface? (d : Json.Document) : Option InterfaceDocument := do
  match ← d.fields? ["properties"] with
  | [properties] =>
      match ← (← properties).fields? ["virtualMachine", "ipConfigurations"] with
      | [machine, configurations] =>
          return ⟨← optional resourceId? machine,
            ← withDefault [] (list? configuration?) configurations⟩
      | _ => none
  | _ => none

/-- What stands after the last slash. -/
def lastSegment (path : String) : String :=
  String.ofList (path.toList.reverse.takeWhile (· ≠ '/')).reverse

/-- The addresses of an interface that belongs to a machine. A single configuration that is not
marked is the primary one. -/
def InterfaceDocument.addresses (d : InterfaceDocument) : List NetworkInterface :=
  match d.machine with
  | none => []
  | some machine =>
      d.configurations.filterMap fun (ip, primary) => do
        let ip ← ip.bind Address.parse?
        return ⟨lastSegment machine, ip, primary.getD (d.configurations.length == 1)⟩

/-- A status code and the time of it. -/
def statusEntry? (d : Json.Document) : Option (String × Option Instant) := do
  match ← d.fields? ["code", "time"] with
  | [code, time] => return (← required text? code, ← optional timestamp? time)
  | _ => none

def statuses? (d : Json.Document) : Option (List (String × Option Instant)) := do
  match ← d.fields? ["statuses"] with
  | [statuses] => withDefault [] (list? statusEntry?) statuses
  | _ => none

/-- What stands behind a beginning. -/
def behind? (start text : String) : Option String :=
  if start.toList.isPrefixOf text.toList then some (String.ofList (text.toList.drop start.length))
  else none

/-- Puts a status into a view. The last of a kind counts, with the time that it has. -/
def addStatus (view : MachineView) (status : String × Option Instant) : MachineView :=
  match behind? "PowerState/" status.1, behind? "ProvisioningState/" status.1 with
  | some state, _ => { view with power := PowerState.parse state }
  | none, some state =>
      { view with provisioning := ProvisioningState.parse state, provisionedAt := status.2 }
  | none, none => view

def view? (d : Json.Document) : Option MachineView :=
  (statuses? d).map fun statuses => statuses.foldl addStatus ⟨.unknown, .unknown, none⟩

def parameter? (depth : Nat) (d : Json.Document) : Option Parameter := do
  match ← d.fields? ["type", "value"] with
  | [type, value] =>
      let type ← withDefault "" text? type
      let value ← optional (Json.Document.value? depth) value
      return ⟨value, "secure".toList.isPrefixOf (Ascii.lower type).toList⟩
  | _ => none

def templateLink? (d : Json.Document) : Option Url := do
  match ← d.fields? ["uri"] with
  | [uri] => (Url.parse (← required text? uri)).toOption
  | _ => none

/-- Pairs in ascending order of their names; of pairs with one name the last counts. -/
def ascending (pairs : List (String × Parameter)) : List (String × Parameter) :=
  let kept := pairs.reverse.eraseDupsBy fun a b => a.1 == b.1
  kept.mergeSort fun a b => a.1 ≤ b.1

def deploymentProperties? (d : Json.Document) :
    Option (Option Url × List (String × Parameter)) := do
  match ← d.fields? ["templateLink", "parameters"] with
  | [link, parameters] =>
      return (← optional templateLink? link,
        ← withDefault [] (fun d => (map? (parameter? (depthLimit - 4)) d).map ascending) parameters)
  | _ => none

def deployment? (d : Json.Document) : Option Deployment := do
  match ← d.fields? ["name", "properties"] with
  | [name, properties] =>
      let name ← required text? name
      let (link, parameters) ← withDefault (none, []) deploymentProperties? properties
      return ⟨name, link, parameters⟩
  | _ => none

/-- The status that a body tells. The finished resource itself has none, and counts as a success. -/
def operationStatus (body : Json) : OperationStatus :=
  match (body.get? "status").bind Json.text? with
  | none => .succeeded
  | some status =>
      let folded := Ascii.lower status
      if folded = "succeeded" then .succeeded
      else if folded = "failed" ∨ folded = "canceled" then
        .failed (((body.path? ["error", "message"]).bind Json.text?).getD status)
      else .inProgress

/-- The operation that a response has started. -/
def operationOf (response : Response) : Operation :=
  match (response.header? "Azure-AsyncOperation").or (response.header? "Location") with
  | some url => .pending url
  | none => .done

/-- The capacity of a scale set: a natural number of 32 bits. -/
def capacity? (body : Json) : Option Nat := do
  let n ← (← body.path? ["sku", "capacity"]).whole?
  if 0 ≤ n ∧ n ≤ 4294967295 then some n.toNat else none

/-- The change that gives a scale set another capacity. -/
def capacityBody (current : Json) (capacity : Nat) : Json :=
  let sku := match current.get? "sku" with
    | none => .obj [("capacity", .ofNat capacity)]
    | some (.obj members) => .obj (Json.Members.insert members "capacity" (.ofNat capacity))
    | some other => other
  .obj [("sku", sku)]

def deploymentBody (template : Url) (parameters : Json.Members) : Json :=
  .obj
    [("properties", Json.object
      [("mode", .str "Incremental"),
       ("templateLink", Json.object
         [("uri", .str template.text), ("contentVersion", .str "1.0.0.0")]),
       ("parameters", .obj parameters)])]

/-! ## Requests -/

def make (subscriptionId resourceGroup : String) (pageLimit : Nat) :
    Except ServiceError ScaleSetApi :=
  match Url.parse TokenSource.managementResource with
  | .ok base => .ok ⟨base, subscriptionId, resourceGroup, pageLimit⟩
  | .error e => .error (.fatal ("bad management endpoint: " ++ e.message))

def url (api : ScaleSetApi) (path version : String) : Except ServiceError Url :=
  let whole := "subscriptions/" ++ api.subscriptionId ++ "/resourceGroups/" ++
    api.resourceGroup ++ "/providers/" ++ path
  match api.base.join whole with
  | .ok url => .ok (url.addQuery [("api-version", version)])
  | .error e => .error (.fatal ("bad resource path " ++ path ++ ": " ++ e.message))

def setPath (set rest : String) : String :=
  "Microsoft.Compute/virtualMachineScaleSets/" ++ set ++ rest

def setUrl (api : ScaleSetApi) (set rest : String) : Except ServiceError Url :=
  api.url (setPath set rest) "2018-06-01"

/-- Interfaces are told only by an older version of the provider's interface. -/
def interfacesUrl (api : ScaleSetApi) (set : String) : Except ServiceError Url :=
  api.url (setPath set "/networkInterfaces") "2017-03-30"

def deploymentUrl (api : ScaleSetApi) (name : String) : Except ServiceError Url :=
  api.url ("Microsoft.Resources/deployments/" ++ name) "2018-05-01"

/-- Sends a request behind a token. -/
def send (method : Method) (url : Url) (body : Option Json) (what : String) :
    Attempt Web ServiceError Response := do
  let token ← Web.token TokenSource.managementResource
  let headers := ("authorization", "Bearer " ++ token) ::
    (body.map fun _ => Request.jsonType).toList
  let response ← Web.submit (Request.build method url [] headers (body.map Json.text))
  Attempt.ofExcept (response.checked what Response.cloudMessage)

/-- The items of all pages from a place on. -/
def listFrom {α : Type} (item? : Json.Document → Option α) (what : String) :
    (pages : Nat) → Url → Attempt Web ServiceError (List α)
  | 0, _ => Attempt.fail (.fatal (what ++ ": too many pages"))
  | pages + 1, url => do
      let response ← send .get url none what
      let (items, next) ← Attempt.ofExcept (response.decode (page? item?))
      match next.map Url.parse with
      | none => return items
      | some (.error e) => Attempt.fail (.undecodable ("bad nextLink: " ++ e.message))
      | some (.ok url) => return items ++ (← listFrom item? what pages url)

def start (method : Method) (url : Except ServiceError Url) (body : Option Json) (what : String) :
    Attempt Web ServiceError Operation := do
  return operationOf (← send method (← Attempt.ofExcept url) body what)

/-! ## Calls -/

def machines (api : ScaleSetApi) (set : String) : Attempt Web ServiceError (List Machine) := do
  let url ← Attempt.ofExcept (api.setUrl set "/virtualMachines")
  listFrom machine? ("list instances of " ++ set) api.pageLimit url

def interfaces (api : ScaleSetApi) (set : String) :
    Attempt Web ServiceError (List NetworkInterface) := do
  let url ← Attempt.ofExcept (api.interfacesUrl set)
  let documents ← listFrom interface? ("list network interfaces of " ++ set) api.pageLimit url
  return documents.flatMap InterfaceDocument.addresses

def view (api : ScaleSetApi) (set machine : String) : Attempt Web ServiceError MachineView := do
  let url ← Attempt.ofExcept (api.setUrl set ("/virtualMachines/" ++ machine ++ "/instanceView"))
  let response ← send .get url none ("instance view of " ++ set ++ "/" ++ machine)
  Attempt.ofExcept (response.decode view?)

def updateModel (api : ScaleSetApi) (set machine : String) : Attempt Web ServiceError Operation :=
  start .post (api.setUrl set "/manualupgrade") (some (.obj [("instanceIds", .arr [.str machine])]))
    ("update model of " ++ set ++ "/" ++ machine)

def reimage (api : ScaleSetApi) (set machine : String) : Attempt Web ServiceError Operation :=
  start .post (api.setUrl set ("/virtualMachines/" ++ machine ++ "/reimage")) none
    ("reimage " ++ set ++ "/" ++ machine)

def delete (api : ScaleSetApi) (set machine : String) : Attempt Web ServiceError Operation :=
  start .delete (api.setUrl set ("/virtualMachines/" ++ machine)) none
    ("delete " ++ set ++ "/" ++ machine)

/-- A scale set as the provider tells it. -/
def readSet (api : ScaleSetApi) (set : String) : Attempt Web ServiceError (Url × Json) := do
  let url ← Attempt.ofExcept (api.setUrl set "")
  let response ← send .get url none ("get scale set " ++ set)
  return (url, ← Attempt.ofExcept response.json)

def capacity (api : ScaleSetApi) (set : String) : Attempt Web ServiceError Nat := do
  let (_, body) ← api.readSet set
  match capacity? body with
  | some n => return n
  | none => Attempt.fail (.undecodable ("scale set " ++ set ++ " has no sku capacity"))

def setCapacity (api : ScaleSetApi) (set : String) (capacity : Nat) :
    Attempt Web ServiceError Operation := do
  let (url, current) ← api.readSet set
  start .patch (.ok url) (some (capacityBody current capacity))
    ("set capacity of " ++ set ++ " to " ++ toString capacity)

def deployment (api : ScaleSetApi) (name : String) : Attempt Web ServiceError Deployment := do
  let url ← Attempt.ofExcept (api.deploymentUrl name)
  let response ← send .get url none ("get deployment " ++ name)
  Attempt.ofExcept (response.decode deployment?)

def updateDeployment (api : ScaleSetApi) (name : String) (template : Url)
    (parameters : Json.Members) : Attempt Web ServiceError Operation :=
  start .put (api.deploymentUrl name) (some (deploymentBody template parameters))
    ("update deployment " ++ name)

/-- The status of an operation. One that has been accepted is in progress, and one that is
answered without a body has succeeded. -/
def status : Operation → Attempt Web ServiceError OperationStatus
  | .done => pure .succeeded
  | .pending place => do
      let url ← match Url.parse place with
        | .ok url => pure url
        | .error e =>
            Attempt.fail (.undecodable ("bad operation URL " ++ place ++ ": " ++ e.message))
      let response ← send .get url none "poll operation status"
      if response.status = 202 then return .inProgress
      if isBlank response.body then return .succeeded
      match Json.parse? response.body with
      | some body => return operationStatus body
      | none => Attempt.fail (.undecodable Json.unreadable)

end ScaleSetApi

end SwarmUpkeep
