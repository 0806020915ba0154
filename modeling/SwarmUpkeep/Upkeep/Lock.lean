import SwarmUpkeep.Control.Call

/-!
# The upgrade lock

A queue in storage is the lock of an upgrade and the channel through which it is handed over. That
the queue exists means that an upgrade is under way; a message in it names the node that has to
complete its own upgrade next, and only that node may take it. Creating the queue decides between
two that ask for the lock at once.
-/

namespace SwarmUpkeep

/-- Why the lock could not be used. -/
inductive LockError where
  | service (error : ServiceError)
  | malformedSignal (text : String)
deriving DecidableEq, Inhabited

def LockError.message : LockError → String
  | service e => "Queue error: " ++ e.message
  | malformedSignal text =>
      "Malformed rejoin signal '" ++ text ++ "': " ++ Json.unreadable

/-- The kind of an error, with the kind of its cause behind a slash. -/
def LockError.kind : LockError → String
  | service e => "Api/" ++ e.kind
  | malformedSignal _ => "MalformedSignal"

inductive LockAcquire where
  | acquired
  | alreadyLocked
deriving DecidableEq, Inhabited

namespace Lock

open Control

/-- Whether an upgrade is under way. -/
def isHeld (queue : String) : Control LockError Bool :=
  (queueExists queue).mapError .service

/-- Takes the lock if nobody holds it. -/
def acquire (queue : String) : Control LockError LockAcquire := do
  if ← isHeld queue then return .alreadyLocked
  match ← (createQueue queue).outcome with
  | .ok true => return .acquired
  | .ok false => return .alreadyLocked
  | .error (.conflict _) => return .alreadyLocked
  | .error e => Attempt.fail (.service e)

/-- Gives the lock up. One that is gone already is given up. -/
def release (queue : String) : Control LockError Unit := do
  let result ← (deleteQueue queue).outcome
  (Attempt.ofExcept (ignoreNotFound result)).mapError .service

/-- Names the node that has to complete its own upgrade. -/
def enqueue (queue nodeId : String) : Control LockError RejoinSignal := do
  let signal : RejoinSignal := ⟨nodeId, ← now⟩
  (putMessage queue signal.text).mapError .service
  return signal

def pendingSignals (queue : String) : Control LockError Nat :=
  (messageCount queue).mapError .service

/-- The signal that a message is. -/
def signalOf (message : Message) : Except LockError RejoinSignal :=
  match RejoinSignal.parse? message.text with
  | some signal => .ok signal
  | none => .error (.malformedSignal message.text)

/-- The signal at the head of the queue. -/
def peek (queue : String) : Control LockError (Option RejoinSignal) := do
  match ← (peekMessage queue).outcome with
  | .ok (some message) => return some (← Attempt.ofExcept (signalOf message))
  | .ok none => return none
  | .error (.notFound _) => return none
  | .error e => Attempt.fail (.service e)

/-- Takes the signal at the head of the queue if it names the node. The head may move between the
look at it and its removal, so that it is looked at twice. -/
def consumeFor (queue nodeId : String) : Control LockError (Option RejoinSignal) := do
  match ← peek queue with
  | none => return none
  | some head =>
      if !head.isFor nodeId then return none
      match ← (getMessage queue).mapError .service with
      | none => return none
      | some message =>
          let signal ← Attempt.ofExcept (signalOf message)
          if !signal.isFor nodeId then return none
          (deleteMessage queue message).mapError .service
          return some signal

end Lock

end SwarmUpkeep
