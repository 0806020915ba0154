import SwarmUpkeep.Config.Settings
import SwarmUpkeep.Upkeep.Drift
import SwarmUpkeep.Upkeep.Liveness
import SwarmUpkeep.Upkeep.Lock
import SwarmUpkeep.Upkeep.Membership
import SwarmUpkeep.Upkeep.Operations
import SwarmUpkeep.Upkeep.Resolution

/-!
# Health

A node is dead when two signals agree: the swarm does not report it ready, and it answers none of
the probes that the budget allows. A machine that is not running, or was provisioned no longer ago
than the grace period, is not looked at. Dead nodes are evicted, their machines are deleted, and
the scale set is scaled up by as many. Nothing is done while an upgrade is under way.

A heal pass checks the health and reconciles the drift of the managers and then of the workers.
-/

namespace SwarmUpkeep

/-- Why a heal pass failed. -/
inductive HealthError where
  | service (error : ServiceError)
  | lock (error : LockError)
  | operation (error : OperationError)
  | drift (error : DriftError)
deriving DecidableEq, Inhabited

def HealthError.message : HealthError → String
  | service e => "API error: " ++ e.message
  | lock e => "Upgrade lock error: " ++ e.message
  | operation e => "Provider operation error: " ++ e.message
  | drift e => "Drift reconciliation failed: " ++ e.message

/-- The kind of an error, with the kinds of its causes behind slashes. -/
def HealthError.kind : HealthError → String
  | service e => "Api/" ++ e.kind
  | lock e => "Mutex/" ++ e.kind
  | operation e => "Operation/" ++ e.kind
  | drift e => "Drift/" ++ e.kind

namespace Health

open Control

/-- What a check has found and done, by the names of the machines. -/
structure Report where
  scaleSet : String
  checked : List String
  skipped : List String
  dead : List String
  newCapacity : Option Nat
deriving DecidableEq, Inhabited

inductive Outcome where
  | stoodDown
  | checked (report : Report)
deriving DecidableEq, Inhabited

/-! ## Signals -/

/-- What the swarm says of an address. A ready member counts before all others there. -/
def statusAt (members : List Member) (addr : Address) : Option Status :=
  let there := members.filter fun m => m.addr = addr
  ((there.find? (·.status.isReady)).or there.head?).map (·.status)

/-- Running, and provisioned longer ago than the grace period. -/
def isSettled (gracePeriod : Nat) (now provisionedAt : Instant) : Bool :=
  (gracePeriod : Int) * 1000000000 < provisionedAt.nanosUntil now

/-- Whether a machine is to be looked at. One that is gone is not. -/
def eligible (config : Config) (set : String) (row : MachineAddress) :
    Control HealthError Bool := do
  match ← (view set row.machineId).outcome with
  | .error (.notFound _) => return false
  | .error e => Attempt.fail (.service e)
  | .ok view =>
      match view.power, view.provisionedAt with
      | .running, some provisionedAt =>
          return isSettled config.timings.gracePeriod (← now) provisionedAt
      | _, _ => return false

/-- What a check finds of one machine. -/
inductive Verdict where
  | skipped
  | sound
  | dead
deriving DecidableEq, Inhabited

/-- Weighs the two signals of a machine. -/
def examine (config : Config) (set : String) (members : List Member) (row : MachineAddress) :
    Control HealthError Verdict := do
  if !(← eligible config set row) then return .skipped
  if (statusAt members row.privateIp).any Status.isReady then return .sound
  if ← Liveness.answers row.privateIp config.timings.probePolicy then return .sound
  return .dead

/-! ## A check -/

/-- Evicts the members at the address of a machine and deletes it. -/
def replace (config : Config) (set : String) (role : Role) (members : List Member)
    (row : MachineAddress) : Control HealthError Unit := do
  let there := members.filter fun m => m.addr = row.privateIp
  (Attempt.each (fun m => Membership.evict m.id role) there).mapError .service
  let operation ← (deleteMachine set row.machineId).mapError .service
  (operation.await config.timings.providerPolicy ("delete " ++ row.computerName)).mapError
    .operation

/-- Scales a set up by as many machines as were deleted, and gives the new capacity. The sum has no
bound: a capacity has 32 bits, and no set comes near to so many machines. -/
def scaleUp (config : Config) (set : String) (deleted : Nat) : Control HealthError Nat := do
  let capacity ← (capacity set).mapError .service
  let target := capacity + deleted
  let operation ← (setCapacity set target).mapError .service
  (operation.await config.timings.providerPolicy
    ("scale " ++ set ++ " to " ++ toString target)).mapError .operation
  return target

/-- The names of the machines of which a verdict holds. -/
def namesWhere (holds : Verdict → Bool) (verdicts : List (MachineAddress × Verdict)) :
    List String :=
  (verdicts.filter fun (_, v) => holds v).map fun (row, _) => row.computerName

/-- The machines found dead. -/
def deadRows (verdicts : List (MachineAddress × Verdict)) : List MachineAddress :=
  (verdicts.filter fun (_, v) => v = .dead).map (·.1)

/-- Looks at every machine of a scale set and replaces the dead ones. -/
def check (config : Config) (set : String) (role : Role) : Control HealthError Outcome := do
  if ← (Lock.isHeld config.swarm.upgradeQueue).mapError .lock then return .stoodDown
  let table ← (Resolution.machineTable set).mapError .service
  let members ← (members .here (some role)).mapError .service
  let verdicts ← Attempt.collect
    (fun row => do return (row, ← examine config set members row)) table
  let dead := deadRows verdicts
  Attempt.each (replace config set role members) dead
  let newCapacity ← if dead.isEmpty then pure none else some <$> scaleUp config set dead.length
  return .checked
    { scaleSet := set
      checked := namesWhere (· ≠ .skipped) verdicts
      skipped := namesWhere (· = .skipped) verdicts
      dead := dead.map (·.computerName)
      newCapacity }

/-! ## A heal pass -/

/-- What a heal pass has done for one role. -/
structure Pass where
  role : Role
  health : Outcome
  drift : Drift.Outcome
deriving DecidableEq, Inhabited

def healRole (config : Config) (role : Role) : Control HealthError Pass := do
  let set := config.setOf role
  let health ← check config set role
  let drift ← (Drift.reconcile config set role).mapError .drift
  return ⟨role, health, drift⟩

/-- Heals the managers and then the workers. A failure of the first does not keep the second from
its turn; the first failure is told in the end. -/
def heal (config : Config) : Control HealthError (List Pass) := do
  if ← (Lock.isHeld config.swarm.upgradeQueue).mapError .lock then return []
  let managers ← (healRole config .manager).outcome
  let workers ← (healRole config .worker).outcome
  Attempt.ofExcept do return [← managers, ← workers]

end Health

end SwarmUpkeep
