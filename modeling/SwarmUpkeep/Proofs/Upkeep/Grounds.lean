import Mathlib.Data.List.Induction
import SwarmUpkeep.Proofs.World.Deletion

/-!
# The grounds for a deletion

A heal pass is made of checks, and a check deletes a machine only by what it has been told itself,
after it has found the lock free. So each deletion of a heal pass has its grounds in what has been
told since then.
-/

namespace SwarmUpkeep

open Attempt Control

namespace Diagnosis

variable {config : Config} {set : String} {role : Role} {d : Diagnosis} {c : Call}

/-! ## Evidence and what has been told -/

/-- What a check has been told, as an account. -/
abbrev account (told : List (Exchange Surroundings)) : Diagnosis :=
  told.foldl next start

/-- The answer for the members of a role. -/
abbrev listing (role : Role) (members : List Member) : Exchange Surroundings :=
  ⟨.swarm .here (.members (some role)), (.ok members : Except ServiceError (List Member))⟩

end Diagnosis

namespace Health

open Diagnosis

variable {config : Config} {set : String} {role : Role} {c : Call}
variable {before past since told : List (Exchange Surroundings)}

/-! ## The listing of the members -/

/-- After what had been told before, the members of a role have been listed. -/
def Listed (role : Role) (before told : List (Exchange Surroundings)) : Prop :=
  ∃ since members, told = before ++ since ∧ listing role members ∈ since

theorem Listed.concat (h : Listed role before told) (e : Exchange Surroundings) :
    Listed role before (told ++ [e]) := by
  obtain ⟨since, members, rfl, hlisted⟩ := h
  exact ⟨since ++ [e], members, List.append_assoc _ _ _, List.mem_append_left _ hlisted⟩

end Health

end SwarmUpkeep
