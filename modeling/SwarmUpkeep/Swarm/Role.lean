import SwarmUpkeep.Text.Ascii

/-!
# Roles and statuses

The role that a node plays in the swarm and the status that the swarm reports for it. Both are
read without regard to case.
-/

namespace SwarmUpkeep

/-- Each role is backed by its own scale set. -/
inductive Role where
  | manager
  | worker
deriving DecidableEq, Inhabited

namespace Role

def text : Role → String
  | manager => "manager"
  | worker => "worker"

/-- The role of exactly this name. -/
def ofText? (s : String) : Option Role :=
  if s = "manager" then some manager
  else if s = "worker" then some worker
  else none

/-- The role of this name in any case. -/
def parse (s : String) : Except String Role :=
  match ofText? (Ascii.lower s) with
  | some role => .ok role
  | none => .error ("unknown node role '" ++ Ascii.lower s ++ "'")

theorem ofText?_text (role : Role) : ofText? role.text = some role := by
  cases role <;> decide

end Role

/-- What the swarm says of a member. A status that it has no name for is unknown. -/
inductive Status where
  | ready
  | down
  | unknown
deriving DecidableEq, Inhabited

namespace Status

def text : Status → String
  | ready => "ready"
  | down => "down"
  | unknown => "unknown"

def parse (s : String) : Status :=
  let s := Ascii.lower s
  if s = "ready" then ready
  else if s = "down" ∨ s = "disconnected" then down
  else unknown

def isReady : Status → Bool
  | ready => true
  | _ => false

end Status

end SwarmUpkeep
