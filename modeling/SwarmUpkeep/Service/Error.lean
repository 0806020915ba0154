/-!
# Errors of services

What the services that surround the swarm can answer instead of a result. The kind tells whether a
thing is missing, is in the way, may come right by itself, or is beyond repair.
-/

namespace SwarmUpkeep

/-- Why a service did not do what it was asked. -/
inductive ServiceError where
  | notFound (what : String)
  | conflict (what : String)
  | transient (what : String)
  | fatal (what : String)
  | undecodable (what : String)
deriving DecidableEq, Inhabited

namespace ServiceError

def message : ServiceError → String
  | notFound what => "Resource not found: " ++ what
  | conflict what => "Resource conflict: " ++ what
  | transient what => "Transient failure: " ++ what
  | fatal what => "Request failed: " ++ what
  | undecodable what => "Failed to decode response: " ++ what

/-- The kind of an error in one word. -/
def kind : ServiceError → String
  | notFound _ => "NotFound"
  | conflict _ => "Conflict"
  | transient _ => "Transient"
  | fatal _ => "Fatal"
  | undecodable _ => "Decode"

/-- The error that an unsuccessful status code stands for: 404 for a missing thing, 409 and 412
for a conflict, 408, 429 and all from 500 to 599 for a failure that may pass. -/
def ofStatus (status : Nat) (context : String) : ServiceError :=
  let what := context ++ " (status " ++ toString status ++ ")"
  if status = 404 then notFound what
  else if status = 409 ∨ status = 412 then conflict what
  else if status = 408 ∨ status = 429 ∨ (500 ≤ status ∧ status ≤ 599) then transient what
  else fatal what

def isTransient : ServiceError → Bool
  | transient _ => true
  | _ => false

def isNotFound : ServiceError → Bool
  | notFound _ => true
  | _ => false

end ServiceError

/-- Where something is to be gone, its absence is a success. -/
def ignoreNotFound : Except ServiceError Unit → Except ServiceError Unit
  | .error (.notFound _) => .ok ()
  | result => result

end SwarmUpkeep
