import SwarmUpkeep.Addon.Error
import SwarmUpkeep.Cloud.Machine
import SwarmUpkeep.Control.Retry
import SwarmUpkeep.Program.Basic
import SwarmUpkeep.Service.Error
import SwarmUpkeep.Storage.Row
import SwarmUpkeep.Swarm.Member
import SwarmUpkeep.Swarm.Record

/-!
# The surroundings of the control loops

All that a control loop can ask of its surroundings: of the swarm's control plane, on this host or
through the manager at some address; of the provider of the scale sets; of the queue and the tables
in storage; and of the small services for probes, templates, the add-on and time.

The questions of each service form a type of their own, so that one service can be put in the
place of another.
-/

namespace SwarmUpkeep

/-- Questions to the swarm's control plane. -/
inductive SwarmCall where
  | members (role : Option Role)
  | inspect (id : String)
  | localId
  | demote (id : String)
  | remove (id : String)
  | joinTokens
  | leave
  | join (remote : Address) (token : String)
deriving DecidableEq

abbrev SwarmCall.Answer : SwarmCall → Type
  | members _ => Except ServiceError (List Member)
  | inspect _ => Except ServiceError Member
  | localId => Except ServiceError (Option String)
  | demote _ => Except ServiceError Unit
  | remove _ => Except ServiceError Unit
  | joinTokens => Except ServiceError JoinTokens
  | leave => Except ServiceError Unit
  | join _ _ => Except ServiceError Unit

/-- Questions to the provider of scale sets and deployments. -/
inductive ProviderCall where
  | machines (set : String)
  | interfaces (set : String)
  | view (set machine : String)
  | updateModel (set machine : String)
  | reimage (set machine : String)
  | delete (set machine : String)
  | capacity (set : String)
  | setCapacity (set : String) (capacity : Nat)
  | deployment (name : String)
  | updateDeployment (name : String) (template : Url) (parameters : Json.Members)
  | status (operation : Operation)

abbrev ProviderCall.Answer : ProviderCall → Type
  | machines _ => Except ServiceError (List Machine)
  | interfaces _ => Except ServiceError (List NetworkInterface)
  | view _ _ => Except ServiceError MachineView
  | updateModel _ _ => Except ServiceError Operation
  | reimage _ _ => Except ServiceError Operation
  | delete _ _ => Except ServiceError Operation
  | capacity _ => Except ServiceError Nat
  | setCapacity _ _ => Except ServiceError Operation
  | deployment _ => Except ServiceError Deployment
  | updateDeployment _ _ _ => Except ServiceError Operation
  | status _ => Except ServiceError OperationStatus

/-- Questions to the queue service. Creating a queue tells whether it was created now; a message
that is taken stays in the queue until it is deleted. -/
inductive QueueCall where
  | create (queue : String)
  | delete (queue : String)
  | exists (queue : String)
  | put (queue text : String)
  | peek (queue : String)
  | get (queue : String)
  | deleteMessage (queue : String) (message : Message)
  | count (queue : String)
deriving DecidableEq

abbrev QueueCall.Answer : QueueCall → Type
  | create _ => Except ServiceError Bool
  | delete _ => Except ServiceError Unit
  | .exists _ => Except ServiceError Bool
  | put _ _ => Except ServiceError Unit
  | peek _ => Except ServiceError (Option Message)
  | get _ => Except ServiceError (Option Message)
  | deleteMessage _ _ => Except ServiceError Unit
  | count _ => Except ServiceError Nat

/-- Questions to the tables. A query gives the rows of a partition in the order of their keys. -/
inductive TableCall where
  | get (table partition key : String)
  | upsert (table : String) (row : Row)
  | delete (table partition key : String)
  | query (table partition : String)

abbrev TableCall.Answer : TableCall → Type
  | get _ _ _ => Except ServiceError (Option Row)
  | upsert _ _ => Except ServiceError Unit
  | delete _ _ _ => Except ServiceError Unit
  | query _ _ => Except ServiceError (List Row)

/-- Questions to the add-on. Joining tells the identifier of the new replica. -/
inductive AddonCall where
  | removeReplica (replica : ReplicaRecord)
  | joinReplica (nodeName : String)
deriving DecidableEq

abbrev AddonCall.Answer : AddonCall → Type
  | removeReplica _ => Except AddonError Unit
  | joinReplica _ => Except AddonError String

/-- Which control plane is asked: the one of this host, or the one at an address. -/
inductive Engine where
  | here
  | at (addr : Address)
deriving DecidableEq

/-- Any question of a control loop. -/
inductive Call where
  | swarm (engine : Engine) (call : SwarmCall)
  | reach (addr : Address)
  | provider (call : ProviderCall)
  | queue (call : QueueCall)
  | table (call : TableCall)
  | addon (call : AddonCall)
  | probe (addr : Address)
  | template (url : Url)
  | pause (milliseconds : Nat)
  | now

abbrev Call.Answer : Call → Type
  | swarm _ call => call.Answer
  | reach _ => Unit
  | provider call => call.Answer
  | queue call => call.Answer
  | table call => call.Answer
  | addon call => call.Answer
  | probe _ => Bool
  | template _ => Except ServiceError Json
  | pause _ => Unit
  | now => Instant

/-- The surroundings of the control loops. -/
abbrev Surroundings : Interface :=
  ⟨Call, Call.Answer⟩

/-- A step of a control loop that may fail. -/
abbrev Control (ε α : Type) :=
  Attempt Surroundings ε α

instance : Pausing Surroundings :=
  ⟨fun ms => Program.perform (I := Surroundings) (.pause ms)⟩

namespace Control

/-! ## The swarm -/

def members (engine : Engine) (role : Option Role) : Control ServiceError (List Member) :=
  Program.perform (I := Surroundings) (.swarm engine (.members role))

def inspect (engine : Engine) (id : String) : Control ServiceError Member :=
  Program.perform (I := Surroundings) (.swarm engine (.inspect id))

def localId : Control ServiceError (Option String) :=
  Program.perform (I := Surroundings) (.swarm .here .localId)

def demote (engine : Engine) (id : String) : Control ServiceError Unit :=
  Program.perform (I := Surroundings) (.swarm engine (.demote id))

def remove (engine : Engine) (id : String) : Control ServiceError Unit :=
  Program.perform (I := Surroundings) (.swarm engine (.remove id))

def joinTokens (engine : Engine) : Control ServiceError JoinTokens :=
  Program.perform (I := Surroundings) (.swarm engine .joinTokens)

def leave : Control ServiceError Unit :=
  Program.perform (I := Surroundings) (.swarm .here .leave)

def joinSwarm (remote : Address) (token : String) : Control ServiceError Unit :=
  Program.perform (I := Surroundings) (.swarm .here (.join remote token))

/-- The control plane at an address. -/
def reach {ε : Type} (addr : Address) : Control ε Engine :=
  Program.ask (I := Surroundings) (.reach addr) fun _ => .done (.ok (.at addr))

/-! ## The provider -/

def machines (set : String) : Control ServiceError (List Machine) :=
  Program.perform (I := Surroundings) (.provider (.machines set))

def interfaces (set : String) : Control ServiceError (List NetworkInterface) :=
  Program.perform (I := Surroundings) (.provider (.interfaces set))

def view (set machine : String) : Control ServiceError MachineView :=
  Program.perform (I := Surroundings) (.provider (.view set machine))

def updateModel (set machine : String) : Control ServiceError Operation :=
  Program.perform (I := Surroundings) (.provider (.updateModel set machine))

def reimage (set machine : String) : Control ServiceError Operation :=
  Program.perform (I := Surroundings) (.provider (.reimage set machine))

def deleteMachine (set machine : String) : Control ServiceError Operation :=
  Program.perform (I := Surroundings) (.provider (.delete set machine))

def capacity (set : String) : Control ServiceError Nat :=
  Program.perform (I := Surroundings) (.provider (.capacity set))

def setCapacity (set : String) (capacity : Nat) : Control ServiceError Operation :=
  Program.perform (I := Surroundings) (.provider (.setCapacity set capacity))

def deployment (name : String) : Control ServiceError Deployment :=
  Program.perform (I := Surroundings) (.provider (.deployment name))

def updateDeployment (name : String) (template : Url) (parameters : Json.Members) :
    Control ServiceError Operation :=
  Program.perform (I := Surroundings) (.provider (.updateDeployment name template parameters))

def operationStatus (operation : Operation) : Control ServiceError OperationStatus :=
  Program.perform (I := Surroundings) (.provider (.status operation))

/-! ## Storage -/

def queueExists (queue : String) : Control ServiceError Bool :=
  Program.perform (I := Surroundings) (.queue (.exists queue))

/-- Creates a queue and tells whether it was created now. -/
def createQueue (queue : String) : Control ServiceError Bool :=
  Program.perform (I := Surroundings) (.queue (.create queue))

def deleteQueue (queue : String) : Control ServiceError Unit :=
  Program.perform (I := Surroundings) (.queue (.delete queue))

def putMessage (queue text : String) : Control ServiceError Unit :=
  Program.perform (I := Surroundings) (.queue (.put queue text))

def peekMessage (queue : String) : Control ServiceError (Option Message) :=
  Program.perform (I := Surroundings) (.queue (.peek queue))

def getMessage (queue : String) : Control ServiceError (Option Message) :=
  Program.perform (I := Surroundings) (.queue (.get queue))

def deleteMessage (queue : String) (message : Message) : Control ServiceError Unit :=
  Program.perform (I := Surroundings) (.queue (.deleteMessage queue message))

def messageCount (queue : String) : Control ServiceError Nat :=
  Program.perform (I := Surroundings) (.queue (.count queue))

def getRow (table partition key : String) : Control ServiceError (Option Row) :=
  Program.perform (I := Surroundings) (.table (.get table partition key))

def upsertRow (table : String) (row : Row) : Control ServiceError Unit :=
  Program.perform (I := Surroundings) (.table (.upsert table row))

def deleteRow (table partition key : String) : Control ServiceError Unit :=
  Program.perform (I := Surroundings) (.table (.delete table partition key))

/-- The rows of a partition, in the order of their keys. -/
def queryRows (table partition : String) : Control ServiceError (List Row) :=
  Program.perform (I := Surroundings) (.table (.query table partition))

/-! ## Small services -/

def removeReplica (replica : ReplicaRecord) : Control AddonError Unit :=
  Program.perform (I := Surroundings) (.addon (.removeReplica replica))

def joinReplica (nodeName : String) : Control AddonError String :=
  Program.perform (I := Surroundings) (.addon (.joinReplica nodeName))

def probe (addr : Address) : Program Surroundings Bool :=
  Program.perform (I := Surroundings) (.probe addr)

def template (url : Url) : Control ServiceError Json :=
  Program.perform (I := Surroundings) (.template url)

def now : Program Surroundings Instant :=
  Program.perform (I := Surroundings) .now

end Control

end SwarmUpkeep
