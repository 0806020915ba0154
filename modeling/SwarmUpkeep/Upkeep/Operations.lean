import SwarmUpkeep.Control.Call

/-!
# Waiting for the provider

An operation that is not finished at once is asked for its status until that is final.
-/

namespace SwarmUpkeep

/-- Why an operation did not succeed. -/
inductive OperationError where
  | failed (what reason : String)
  | service (error : ServiceError)
  | timeout (what : String)
deriving DecidableEq, Inhabited

namespace OperationError

def message : OperationError → String
  | failed what reason => "Provider operation '" ++ what ++ "' failed: " ++ reason
  | service e => "API error: " ++ e.message
  | timeout what => "Timed out: " ++ what

/-- The kind of an error, with the kind of its cause behind a slash. -/
def kind : OperationError → String
  | failed _ _ => "Failed"
  | service e => "Api/" ++ e.kind
  | timeout _ => "Timeout"

def ofRetry : RetryError ServiceError → OperationError
  | .exhausted what attempts _ =>
      timeout (what ++ " did not complete after " ++ toString attempts ++ " attempts")
  | .failed e => service e

end OperationError

namespace Operation

open Control

/-- Waits until the operation is final, and fails if it has failed. -/
def await (operation : Operation) (policy : RetryPolicy) (what : String) :
    Control OperationError Unit :=
  if operation = .done then pure ()
  else do
    let status ← (pollUntil policy what do
      let status ← operationStatus operation
      return status.final?).mapError OperationError.ofRetry
    match status with
    | .failed reason => Attempt.fail (.failed what reason)
    | _ => return ()

end Operation

end SwarmUpkeep
