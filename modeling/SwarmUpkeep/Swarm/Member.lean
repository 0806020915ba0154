import SwarmUpkeep.Net.Address
import SwarmUpkeep.Swarm.Role

/-!
# Members of the swarm

A member as the swarm itself lists it, and the tokens with which hosts join.
-/

namespace SwarmUpkeep

/-- A node as the swarm sees it. -/
structure Member where
  id : String
  hostname : String
  addr : Address
  role : Role
  status : Status
  isLeader : Bool
deriving DecidableEq, Inhabited

/-- The tokens with which a host joins in either role. -/
structure JoinTokens where
  manager : String
  worker : String
deriving DecidableEq, Inhabited

def JoinTokens.forRole (tokens : JoinTokens) : Role → String
  | .manager => tokens.manager
  | .worker => tokens.worker

end SwarmUpkeep
