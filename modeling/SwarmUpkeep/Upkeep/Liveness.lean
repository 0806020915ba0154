import SwarmUpkeep.Control.Call

/-!
# Liveness

A node that does not answer a probe is probed again until the budget for probes is spent. It is
alive as soon as it answers once.
-/

namespace SwarmUpkeep.Liveness

/-- Whether a node answers one of the probes that the policy allows. -/
def answers (addr : Address) (policy : RetryPolicy) : Program Surroundings Bool :=
  let check : Attempt Surroundings Empty (Option Unit) := do
    if ← Control.probe addr then return some () else return none
  Program.bind (pollUntil policy ("liveness of " ++ addr.text) check) fun
    | .ok () => .done true
    | .error _ => .done false

end SwarmUpkeep.Liveness
