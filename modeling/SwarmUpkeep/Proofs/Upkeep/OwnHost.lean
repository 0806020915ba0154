import SwarmUpkeep.Proofs.Upkeep.Questions

/-!
# Leaving a host alone

What it means for an upgrade to leave one host alone: it takes no member of its identifier out of
the swarm and rebuilds no machine of its own. What is quiet leaves every host alone, and so does
every question to the queue.
-/

namespace SwarmUpkeep

variable {own : String} {isOwn : String → String → Prop}

namespace Call

/-- A question of an upgrade that leaves the host of this identifier and these machines alone. -/
def LeavesAlone (own : String) (isOwn : String → String → Prop) : Call → Prop
  | .swarm _ (.demote id) => id ≠ own
  | .swarm _ (.remove id) => id ≠ own
  | .swarm _ .leave => False
  | .swarm _ (.join _ _) => False
  | .provider (.updateModel set machine) => ¬isOwn set machine
  | .provider (.reimage set machine) => ¬isOwn set machine
  | .provider (.delete _ _) => False
  | _ => True

/-- The member that a question demotes or removes. -/
def member? : Call → Option String
  | .swarm _ (.demote id) => some id
  | .swarm _ (.remove id) => some id
  | _ => none

/-- The machine that a question gives a new model or a new image, with its scale set. -/
def machine? : Call → Option (String × String)
  | .provider (.updateModel set machine) => some (set, machine)
  | .provider (.reimage set machine) => some (set, machine)
  | _ => none

theorem LeavesAlone.member?_ne {c : Call} (h : c.LeavesAlone own isOwn) : c.member? ≠ some own := by
  unfold LeavesAlone at h
  unfold member?
  split <;> simp_all

theorem LeavesAlone.not_isOwn {c : Call} (h : c.LeavesAlone own isOwn) {set machine : String}
    (hmachine : c.machine? = some (set, machine)) : ¬isOwn set machine := by
  unfold LeavesAlone at h
  unfold machine? at hmachine
  split at hmachine <;> simp_all

theorem IsQuiet.leavesAlone {c : Call} (h : c.IsQuiet) : c.LeavesAlone own isOwn := by
  unfold IsQuiet at h
  unfold LeavesAlone
  split at h <;> simp_all

theorem LeavesAlone.isWork {c : Call} (h : c.LeavesAlone own isOwn)
    (hqueue : ∀ call, c ≠ .queue call) : c.IsWork := by
  unfold LeavesAlone at h
  unfold IsWork
  split <;> simp_all

end Call

theorem Attempt.Asks.leavesAlone {ε α : Type} {x : Control ε α} (h : x.Asks Call.IsQuiet) :
    x.Asks (Call.LeavesAlone own isOwn) :=
  h.mono fun _ hc => hc.leavesAlone

end SwarmUpkeep
