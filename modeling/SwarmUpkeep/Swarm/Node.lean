import SwarmUpkeep.Swarm.Member
import SwarmUpkeep.Time.Instant

/-!
# Nodes

A node is an instance of a scale set joined with the member of the swarm that runs on it. On its
way through an upgrade it passes through stages.
-/

namespace SwarmUpkeep

/-- An instance and, if it is a member, its place in the swarm. -/
structure Node where
  instanceId : String
  privateIp : Address
  memberId : Option String
  role : Role
  hostname : String
  status : Status
  provisionedAt : Option Instant
deriving DecidableEq, Inhabited

namespace Node

def isMember (node : Node) : Bool :=
  node.memberId.isSome

def hasId (node : Node) (id : String) : Bool :=
  node.memberId == some id

def text (node : Node) : String :=
  "node(hostname=" ++ node.hostname ++ ", instance=" ++ node.instanceId ++ ", ip=" ++
    node.privateIp.text ++ ", role=" ++ node.role.text ++ ")"

end Node

/-- The nodes behind one scale set, in the order of its instances. -/
structure ResolvedSet where
  name : String
  role : Role
  nodes : List Node
deriving DecidableEq, Inhabited

/-- How far a node has come on its way through an upgrade. The add-on is drained only where one is
installed, and only managers are demoted. -/
inductive Stage where
  | active
  | drainingAddon
  | demoted
  | removedFromMembership
  | modelUpdated
  | reimaging
  | booting
  | rejoined
  | aborted
deriving DecidableEq, Inhabited

def Stage.text : Stage → String
  | active => "active"
  | drainingAddon => "drain-datacenter-service"
  | demoted => "demoted"
  | removedFromMembership => "removed-from-membership"
  | modelUpdated => "template-os-ref-pending"
  | reimaging => "reimaging"
  | booting => "booting"
  | rejoined => "rejoined-ready"
  | aborted => "aborted"

end SwarmUpkeep
