import SwarmUpkeep.Config.Overrides
import SwarmUpkeep.World.Services

/-!
# Scenarios

A scenario describes a world, and changes to it, as JSON: settings that differ from those it starts
with, nodes, scale sets, the deployment, what the services answer and which calls fail. Machines
are provisioned at a time or so many seconds ago.
-/

namespace SwarmUpkeep

/-- A world with the overrides that its settings come from. -/
structure Scenario where
  base : Config
  overrides : Json.Members
  world : World
deriving Inhabited

namespace Scenario

open Json.Fields World

/-! ## Terms -/

def address? (j : Json) : Option Address :=
  j.text?.bind Address.parse?

def role? (j : Json) : Option Role :=
  j.text?.bind fun s => (Role.parse s).toOption

def status? (j : Json) : Option Status :=
  j.text?.map Status.parse

def instant? (j : Json) : Option Instant :=
  j.text?.bind fun s => (Timestamp.readStrict s).toOption

def serviceError? (j : Json) : Option ServiceError := do
  let message ← (← j.get? "message").text?
  match ← (← j.get? "kind").text? with
  | "NotFound" => some (.notFound message)
  | "Conflict" => some (.conflict message)
  | "Transient" => some (.transient message)
  | "Fatal" => some (.fatal message)
  | "Decode" => some (.undecodable message)
  | _ => none

def addonError? (j : Json) : Option AddonError := do
  let message := ((j.get? "message").bind Json.text?).getD ""
  match ← (← j.get? "kind").text? with
  | "CommandFailed" => some (.commandFailed "exit status: 1" message)
  | "Launch" => some (.launch message)
  | "MissingReplicaId" => some .missingReplicaId
  | "NotConfigured" => some (.notConfigured "addon-image")
  | _ => none

def failure? (j : Json) : Option Failure :=
  ((serviceError? j).map .service).or ((addonError? j).map .addon)

/-! ## Parts of a world -/

def nic (j : Json) : Reading Nic := do
  return ⟨← field address? j "ip", ← flag j "primary"⟩

/-- The interfaces of a machine; a single address is that of its primary one. -/
def nics (j : Json) : Reading (List Nic) := do
  match ← optional address? j "ip" with
  | some ip => return [⟨ip, true⟩]
  | none => itemsOf nic j "nics"

/-- When a machine was provisioned: at a time, or an hour ago if nothing else is said. -/
def provisionedAt (now : Instant) (j : Json) : Reading (Option Instant) := do
  match ← optional instant? j "at", j.get? "age" with
  | some t, _ => return some t
  | none, some .null => return none
  | none, _ =>
      let age ← fieldOr 3600 Json.whole? j "age"
      return some (now.addSeconds (-age))

def host (now : Instant) (j : Json) : Reading Host := do
  return ⟨← text j "id", ← text j "name", ← nics j, .parse (← textOr "running" j "power"),
    .parse (← textOr "succeeded" j "prov"), ← provisionedAt now j⟩

def interface (j : Json) : Reading NetworkInterface := do
  return ⟨← text j "instance", ← field address? j "ip", ← flag j "primary"⟩

def scaleSet (now : Instant) (j : Json) : Reading ScaleSet := do
  let hosts ← itemsOf (host now) j "instances"
  return ⟨← field role? j "role", ← fieldOr hosts.length nat? j "capacity", hosts,
    ← itemsOf interface j "extra_nics"⟩

def member (j : Json) : Reading Member := do
  return ⟨← text j "id", ← text j "hostname", ← field address? j "addr", ← field role? j "role",
    ← fieldOr .ready status? j "status", ← flag j "leader"⟩

def parameter (j : Json) : Reading Parameter := do
  return ⟨j.get? "value", ← flag j "secure"⟩

def deployment (j : Json) : Reading Deployment := do
  let parameters ← (← members j "parameters").mapM fun (name, p) => do
    return (name, ← parameter p)
  return ⟨← text j "name", ← optional Config.place? j "template", parameters⟩

def fault (j : Json) : Reading Fault := do
  return ⟨← text j "call", ← fieldOr 0 nat? j "skip", ← optional nat? j "times",
    ← field failure? j "error"⟩

def ghost (j : Json) : Reading Ghost := do
  return ⟨← text j "hostname", ← fieldOr (.v4 10 99 0 1) address? j "addr",
    ← fieldOr .down status? j "status"⟩

def plan (j : Json) : Reading Plan := do
  return ⟨← flag j "done", ← optional nat? j "polls", ← optional Json.text? j "fail"⟩

def row (j : Json) : Reading Row := do
  return ⟨← text j "partition", ← text j "row", ← members j "properties"⟩

/-- Knobs that are not named stay as they are. -/
def knobs (k : Knobs) (j : Json) : Reading Knobs := do
  let ghosts ← if (given? j "ghosts").isSome then itemsOf ghost j "ghosts" else pure k.ghosts
  return {
    demoteDelay := ← fieldOr k.demoteDelay nat? j "demote_delay"
    electDelay := ← fieldOr k.electDelay nat? j "elect_delay"
    rejoinDelay := ← fieldOr k.rejoinDelay nat? j "rejoin_delay"
    noElection := ← fieldOr k.noElection Json.bool? j "no_election"
    noRejoin := ← fieldOr k.noRejoin Json.bool? j "no_rejoin"
    rejoinUpper := ← fieldOr k.rejoinUpper Json.bool? j "rejoin_upper"
    rejoinStatus := ← fieldOr k.rejoinStatus status? j "rejoin_status"
    ghosts
    operationPolls := (← optional nat? j "op_polls").or k.operationPolls
    createRace := ← fieldOr k.createRace Json.bool? j "create_race"
    stealOnGet := ← fieldOr k.stealOnGet nat? j "steal_on_get"
    joinInvisible := ← fieldOr k.joinInvisible Json.bool? j "join_invisible" }

/-- The answers of successive probes. -/
def probeAnswers : Json → Reading (List Bool)
  | .bool b => .ok [b]
  | j => need "probes" (list? Json.bool? j)

/-- Puts an entry for each member of an object. -/
def entries {α : Type} (read : Json → Reading α) (old : List (String × α)) (j : Json)
    (name : String) : Reading (List (String × α)) := do
  (← members j name).foldlM (fun es (key, v) => do return Keyed.set es key (← read v)) old

/-! ## Changes -/

def changeNodes (w : World) (j : Json) : Reading World := do
  let dropped ← texts j "drop_nodes"
  let kept := w.members.filter fun m => !dropped.contains m.id
  return { w with members := kept ++ (← itemsOf member j "nodes") }

/-- Puts this host in another place. -/
def changeLocal (w : World) (j : Json) : Reading World := do
  match given? j "local" with
  | none => return w
  | some here =>
      return { w with
        localId := ← optional Json.text? here "id"
        localHostname := ← textOr "local-host" here "hostname"
        localIp := ← optional address? here "ip" }

def changeCloud (w : World) (j : Json) : Reading World := do
  let deployment ← match given? j "deployment" with
    | none => pure w.deployment
    | some d => deployment d
  return { w with sets := ← entries (scaleSet w.clock) w.sets j "sets", deployment }

def changeProbes (w : World) (j : Json) : Reading World := do
  let probes ← (← members j "probes").foldlM (fun probes (ip, v) => do
    return Keyed.set probes (← need ip (Address.parse? ip)) (← probeAnswers v)) w.probes
  return { w with probes }

/-- Puts texts at the end of a queue, which is there from then on. -/
def putTexts (w : World) (queue : String) (texts : List String) : World :=
  let messages := fun (w : World) => (Keyed.find? w.queues queue).getD []
  texts.foldl (fun w text => w.append queue (messages w) text)
    { w with queues := Keyed.set w.queues queue (messages w) }

def changeStorage (w : World) (j : Json) : Reading World := do
  let w ← (← members j "queues").foldlM (fun w (queue, texts) => do
    return putTexts w queue (← need queue (list? Json.text? texts))) w
  (← items j "entities").foldlM (fun w entity => do
    let table ← text entity "table"
    let rows := putRow (← row entity) (w.rows table)
    return { w with tables := Keyed.set w.tables table rows }) w

def changeBehaviour (w : World) (j : Json) : Reading World := do
  let kept := if ← flag j "clear_faults" then [] else w.faults
  let knobs ← match given? j "knobs" with
    | none => pure w.knobs
    | some k => knobs w.knobs k
  return { w with
    templates := ← entries .ok w.templates j "templates"
    faults := kept ++ (← itemsOf fault j "faults")
    knobs
    plans := ← entries plan w.plans j "op_results" }

/-- Changes a world as described. -/
def change (s : Scenario) (j : Json) : Reading Scenario := do
  let overrides := (← members j "config").foldl (fun o (name, v) => o.insert name v) s.overrides
  let site : Site :=
    ⟨← s.base.overrideAll overrides, ← fieldOr s.world.site.hasAddon Json.bool? j "addon"⟩
  let w ← changeNodes { s.world with site } j
  let w ← changeLocal w j
  let w ← changeCloud w j
  let w ← changeProbes w j
  let w ← changeStorage w j
  return { s with overrides, world := ← changeBehaviour w j }

/-- An empty world with settings, before any change. -/
def start (base : Config) (clock : Instant) : Scenario :=
  ⟨base, [], { site := ⟨base, false⟩, clock }⟩

end Scenario

end SwarmUpkeep
