import SwarmUpkeep.Addon.Tool
import SwarmUpkeep.Control.Call
import SwarmUpkeep.Remote.EngineApi
import SwarmUpkeep.Remote.ScaleSetApi
import SwarmUpkeep.Remote.TableApi
import SwarmUpkeep.Remote.TableQueue
import SwarmUpkeep.Remote.Templates

/-!
# From the control loops to the outside

The settings say where each service is. What a control loop asks becomes requests to these places;
the queue is kept in the tables, and the tokens for the cloud are kept for the whole run.
-/

namespace SwarmUpkeep

/-- All services that a run talks to. -/
structure Services where
  tokens : TokenSource
  scaleSets : ScaleSetApi
  tables : TableApi
  engine : EngineApi
  addon : Option AddonTool
  diagnosticPort : Nat
  pageLimit : Nat
deriving Inhabited

/-- Why the services cannot be set up. -/
inductive SetupError where
  | service (error : ServiceError)
  | addon (error : AddonError)
deriving DecidableEq, Inhabited

def SetupError.message : SetupError → String
  | service e => e.message
  | addon e => e.message

namespace Services

/-- More pages than any listing has. -/
def standardPageLimit : Nat := 1000000

def orService {α : Type} : Except ServiceError α → Except SetupError α
  | .ok a => .ok a
  | .error e => .error (.service e)

/-- The add-on's tool, where there is an add-on. -/
def addonOf (settings : AddonSettings) : Except SetupError (Option AddonTool) :=
  if !settings.enabled then .ok none
  else
    match AddonTool.ofSettings settings with
    | .ok tool => .ok (some tool)
    | .error e => .error (.addon e)

/-- The services that the settings name. -/
def ofConfig (config : Config) : Except SetupError Services := do
  let cloud := config.cloud
  let tokens ← orService (TokenSource.make cloud.tenantId cloud.appId cloud.appSecret)
  let scaleSets ← orService
    (ScaleSetApi.make cloud.subscriptionId cloud.resourceGroup standardPageLimit)
  let tables ← orService (TableApi.make cloud.storageAccount)
  let addon ← addonOf config.addon
  return {
    tokens, scaleSets, tables, addon
    engine := ⟨config.swarm.dockerHost, config.swarm.swarmPort⟩
    diagnosticPort := config.swarm.diagnosticPort
    pageLimit := standardPageLimit }

/-- The engine that is asked. -/
def engineOf (services : Services) : Engine → EngineApi
  | .here => services.engine
  | .at addr => services.engine.reached addr

def swarm (api : EngineApi) : (call : SwarmCall) → Program Web call.Answer
  | .members role => api.members role
  | .inspect id => api.inspect id
  | .localId => api.localId
  | .demote id => api.demote id
  | .remove id => api.remove id
  | .joinTokens => api.joinTokens
  | .leave => api.leave
  | .join remote token => api.join remote token

def provider (api : ScaleSetApi) : (call : ProviderCall) → Program Web call.Answer
  | .machines set => api.machines set
  | .interfaces set => api.interfaces set
  | .view set machine => api.view set machine
  | .updateModel set machine => api.updateModel set machine
  | .reimage set machine => api.reimage set machine
  | .delete set machine => api.delete set machine
  | .capacity set => api.capacity set
  | .setCapacity set capacity => api.setCapacity set capacity
  | .deployment name => api.deployment name
  | .updateDeployment name template parameters => api.updateDeployment name template parameters
  | .status operation => ScaleSetApi.status operation

def table (pages : Nat) : (call : TableCall) → Program TableService call.Answer
  | .get table partition key => TableService.get table partition key
  | .upsert table row => TableService.upsert table row
  | .delete table partition key => TableService.delete table partition key
  | .query table partition => TableService.queryPartition table partition none pages

/-- A command is executed next to the calls of the web. -/
def execute {α : Type} (program : Program Outside α) : Program Web α :=
  program.via fun call => Program.perform (I := Web) (.outside call)

def addonTool : Option AddonTool → (call : AddonCall) → Program Web call.Answer
  | some tool, .removeReplica replica => execute (tool.removeReplica replica)
  | some tool, .joinReplica nodeName => execute (tool.joinReplica nodeName)
  | none, .removeReplica _ => .done (.error (.notConfigured "addon-image"))
  | none, .joinReplica _ => .done (.error (.notConfigured "addon-image"))

/-- Answers the calls of a control loop. -/
def respond (services : Services) : (call : Call) → Program Web call.Answer
  | .swarm engine call => swarm (services.engineOf engine) call
  | .reach _ => .done ()
  | .provider call => provider services.scaleSets call
  | .queue call => (TableQueue.respond services.pageLimit call).via services.tables.respond
  | .table call => (table services.pageLimit call).via services.tables.respond
  | .addon call => addonTool services.addon call
  | .probe addr => probeNode services.diagnosticPort addr
  | .template url => fetchTemplate url
  | .pause milliseconds => Program.perform (I := Web) (.outside (.pause milliseconds))
  | .now => Web.now

/-- Lets a control loop ask the outside. -/
def attach {α : Type} (services : Services) (program : Program Surroundings α) : Program Outside α :=
  ((program.via services.respond).interpret services.tokens.respond []).bind fun result =>
    .done result.1

end Services

end SwarmUpkeep
