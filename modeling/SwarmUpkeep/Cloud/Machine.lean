import SwarmUpkeep.Json.Value
import SwarmUpkeep.Net.Address
import SwarmUpkeep.Net.Url.Basic
import SwarmUpkeep.Text.Ascii
import SwarmUpkeep.Time.Instant

/-!
# Scale sets and deployments

What the cloud provider tells of the instances of a scale set, of their network interfaces and of
the deployment that they come from. Work that takes long is an operation whose status is asked for
until it is final.
-/

namespace SwarmUpkeep

/-- A virtual machine of a scale set. -/
structure Machine where
  id : String
  computerName : String
  latestModelApplied : Bool
deriving DecidableEq, Inhabited

/-- One address of a machine. -/
structure NetworkInterface where
  machineId : String
  privateIp : Address
  primary : Bool
deriving DecidableEq, Inhabited

inductive PowerState where
  | running
  | starting
  | stopping
  | stopped
  | deallocated
  | unknown
deriving DecidableEq, Inhabited

def PowerState.parse (s : String) : PowerState :=
  let s := Ascii.lower s
  if s = "running" then running
  else if s = "starting" then starting
  else if s = "stopping" ∨ s = "deallocating" then stopping
  else if s = "stopped" then stopped
  else if s = "deallocated" then deallocated
  else unknown

inductive ProvisioningState where
  | creating
  | updating
  | succeeded
  | failed
  | deleting
  | unknown
deriving DecidableEq, Inhabited

def ProvisioningState.parse (s : String) : ProvisioningState :=
  let s := Ascii.lower s
  if s = "creating" then creating
  else if s = "updating" then updating
  else if s = "succeeded" then succeeded
  else if s = "failed" then failed
  else if s = "deleting" then deleting
  else unknown

/-- The power and provisioning of a machine, and when its provisioning last changed. -/
structure MachineView where
  power : PowerState
  provisioning : ProvisioningState
  provisionedAt : Option Instant
deriving DecidableEq, Inhabited

/-- A parameter of a deployment. The value of a secure one is not told. -/
structure Parameter where
  value : Option Json
  secure : Bool
deriving DecidableEq, Inhabited

/-- A deployment, its parameters in ascending order of their names. -/
structure Deployment where
  name : String
  template : Option Url
  parameters : List (String × Parameter)
deriving DecidableEq, Inhabited

/-- Work of the provider: finished at once, or to be asked for under an address. -/
inductive Operation where
  | done
  | pending (statusUrl : String)
deriving DecidableEq, Inhabited

inductive OperationStatus where
  | inProgress
  | succeeded
  | failed (reason : String)
deriving DecidableEq, Inhabited

/-- The status, once it is final. -/
def OperationStatus.final? : OperationStatus → Option OperationStatus
  | .inProgress => none
  | status => some status

end SwarmUpkeep
