import SwarmUpkeep.Control.Call

/-!
# Membership

The leader that the swarm reports, and the eviction of a member: a manager is demoted before it is
removed, and a member that is gone already counts as evicted.
-/

namespace SwarmUpkeep.Membership

open Control

/-- The manager that the swarm reports as its leader. -/
def currentLeader (engine : Engine) : Control ServiceError (Option Member) := do
  let managers ← members engine (some .manager)
  return managers.find? (·.isLeader)

/-- Does something to a member; nothing is left to do when it is gone. -/
def unlessGone (action : Control ServiceError Unit) : Control ServiceError Unit := do
  let result ← action.outcome
  Attempt.ofExcept (ignoreNotFound result)

/-- Takes a member out of the swarm. -/
def evict (id : String) (role : Role) : Control ServiceError Unit := do
  if role = .manager then unlessGone (demote .here id)
  unlessGone (remove .here id)

end SwarmUpkeep.Membership
