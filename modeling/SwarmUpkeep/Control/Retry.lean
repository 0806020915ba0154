import SwarmUpkeep.Addon.Error
import SwarmUpkeep.Program.Basic
import SwarmUpkeep.Service.Error

/-!
# Bounded waiting

Every wait makes a limited number of attempts with a fixed pause between two of them. An attempt
that finds nothing yet and one that fails in passing use up one of the attempts; any other error
ends the wait, and so does a value. There is no pause after the last attempt.
-/

namespace SwarmUpkeep

/-- A pause in milliseconds and the number of attempts. -/
structure RetryPolicy where
  interval : Nat
  attempts : Nat
deriving DecidableEq, Inhabited

namespace RetryPolicy

def ofSeconds (seconds attempts : Nat) : RetryPolicy :=
  ⟨seconds * 1000, attempts⟩

/-- The most seconds that a duration can have. -/
def greatestSeconds : Nat := 18446744073709551615

/-- The most milliseconds that one wait spends pausing, if a duration can hold them. -/
def budget? (policy : RetryPolicy) : Option Nat :=
  let budget := policy.interval * (policy.attempts - 1)
  if budget / 1000 ≤ greatestSeconds then some budget else none

end RetryPolicy

/-- Why a wait ended without a value. -/
inductive RetryError (ε : Type) where
  | exhausted (what : String) (attempts : Nat) (lastError : Option String)
  | failed (error : ε)
deriving DecidableEq

/-- Errors of which some are worth another attempt. -/
class Retryable (ε : Type) where
  isTransient : ε → Bool
  message : ε → String

instance : Retryable ServiceError :=
  ⟨ServiceError.isTransient, ServiceError.message⟩

instance : Retryable AddonError :=
  ⟨AddonError.isTransient, AddonError.message⟩

instance : Retryable Empty :=
  ⟨Empty.elim, Empty.elim⟩

def RetryError.message {ε : Type} [Retryable ε] : RetryError ε → String
  | .exhausted what attempts _ =>
      what ++ " did not complete after " ++ toString attempts ++ " attempts"
  | .failed e => Retryable.message e

/-- Interfaces through which a program can let time pass. -/
class Pausing (I : Interface) where
  /-- Lets so many milliseconds pass. -/
  pause : Nat → Program I Unit

variable {I : Interface} [Pausing I] {ε α : Type} [Retryable ε]

/-- The pause before the attempts that remain, if any do. -/
def pauseBefore (policy : RetryPolicy) (remaining : Nat) : Program I Unit :=
  if remaining = 0 ∨ policy.interval = 0 then .done () else Pausing.pause policy.interval

/-- The attempts that remain of a wait, given the last passing error. -/
def pollFrom (policy : RetryPolicy) (what : String) (check : Attempt I ε (Option α)) :
    (remaining : Nat) → (lastError : Option String) → Attempt I (RetryError ε) α
  | 0, lastError => .fail (.exhausted what policy.attempts lastError)
  | remaining + 1, lastError =>
      Program.bind check fun
        | .ok (some value) => .done (.ok value)
        | .ok none =>
            (pauseBefore policy remaining).bind fun _ =>
              pollFrom policy what check remaining lastError
        | .error e =>
            if Retryable.isTransient e then
              (pauseBefore policy remaining).bind fun _ =>
                pollFrom policy what check remaining (some (Retryable.message e))
            else .done (.error (.failed e))

/-- Waits until the check finds a value. -/
def pollUntil (policy : RetryPolicy) (what : String) (check : Attempt I ε (Option α)) :
    Attempt I (RetryError ε) α :=
  pollFrom policy what check policy.attempts none

/-- Does something until it does not fail in passing. -/
def retryTransient (policy : RetryPolicy) (what : String) (action : Attempt I ε α) :
    Attempt I (RetryError ε) α :=
  pollUntil policy what (action.bind fun a => pure (some a))

end SwarmUpkeep
