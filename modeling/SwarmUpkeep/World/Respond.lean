import SwarmUpkeep.World.Journal
import SwarmUpkeep.World.Services

/-!
# Running control loops in a world

Every call that has a text is recorded. The faults are looked at before a call
is answered: the first that is aimed at it, has spared enough calls and has not run out hits. A
call that is hit changes nothing and is recorded with a mark in front of it.
-/

namespace SwarmUpkeep

/-- What a call answers that fails. -/
def SwarmCall.failed (e : ServiceError) : (call : SwarmCall) → call.Answer
  | members _ | inspect _ | localId | demote _ | remove _ | joinTokens | leave | join _ _ =>
      .error e

def ProviderCall.failed (e : ServiceError) : (call : ProviderCall) → call.Answer
  | machines _ | interfaces _ | view _ _ | updateModel _ _ | reimage _ _ | delete _ _ | capacity _
  | setCapacity _ _ | deployment _ | updateDeployment _ _ _ | status _ => .error e

def QueueCall.failed (e : ServiceError) : (call : QueueCall) → call.Answer
  | create _ | delete _ | .exists _ | put _ _ | peek _ | get _ | deleteMessage _ _ | count _ =>
      .error e

def TableCall.failed (e : ServiceError) : (call : TableCall) → call.Answer
  | get _ _ _ | upsert _ _ | delete _ _ _ | query _ _ => .error e

def AddonCall.failed (e : AddonError) : (call : AddonCall) → call.Answer
  | removeReplica _ | joinReplica _ => .error e

namespace World

/-- The failure as a service tells it. -/
def Failure.asService : Failure → ServiceError
  | service e => e
  | addon e => .fatal e.message

/-- The failure as the add-on tells it. -/
def Failure.asAddon : Failure → AddonError
  | addon e => e
  | service e => .commandFailed "exit status: 1" e.message

/-- Whether a fault is aimed at a call. -/
def Fault.aims (fault : Fault) (text : String) : Bool :=
  fault.call == text ||
    match fault.call.toList.reverse with
    | '*' :: rest => rest.reverse.isPrefixOf text.toList
    | _ => false

/-- Aims the faults at a call: the failure of the one that hits, and the faults as they are left. -/
def strike (text : String) : List Fault → Option Failure × List Fault
  | [] => (none, [])
  | fault :: rest =>
      if fault.aims text ∧ fault.times ≠ some 0 then
        if 0 < fault.skip then
          let (hit, rest) := strike text rest
          (hit, { fault with skip := fault.skip - 1 } :: rest)
        else (some fault.failure, { fault with times := fault.times.map (· - 1) } :: rest)
      else
        let (hit, rest) := strike text rest
        (hit, fault :: rest)

def record (w : World) (text : String) : World :=
  { w with journal := w.journal ++ [text] }

/-- Records a call and tells whether a fault hits it. -/
def receive (w : World) (text : String) : Option Failure × World :=
  match strike text w.faults with
  | (some failure, faults) => (some failure, { w with faults }.record ("!" ++ text))
  | (none, faults) => (none, { w with faults }.record text)

/-- Answers a call of a control loop. -/
def respond (w : World) : (call : Call) → call.Answer × World
  | .swarm engine call =>
      match w.receive (engine.text ++ call.text) with
      | (some failure, w) => (call.failed failure.asService, w)
      | (none, w) => w.swarm call
  | .reach addr => ((), w.record (callText "at" [addr.text]))
  | .provider (.status .done) => (.ok .succeeded, w)
  | .provider call =>
      match w.receive call.text with
      | (some failure, w) => (call.failed failure.asService, w)
      | (none, w) => w.provider call
  | .queue call =>
      match w.receive call.text with
      | (some failure, w) => (call.failed failure.asService, w)
      | (none, w) => w.queue call
  | .table call =>
      match w.receive call.text with
      | (some failure, w) => (call.failed failure.asService, w)
      | (none, w) => w.table call
  | .addon call =>
      match w.receive call.text with
      | (some failure, w) => (call.failed failure.asAddon, w)
      | (none, w) => w.addon call
  | .probe addr => (w.record (callText "probe" [addr.text])).probe addr
  | .template url =>
      match w.receive (callText "fetch" [url.text]) with
      | (some failure, w) => (.error failure.asService, w)
      | (none, w) => (.ok (w.template url), w)
  | .pause milliseconds => ((), { w with slept := w.slept + milliseconds })
  | .now => w.read

/-- Runs a control loop in a world. -/
def run {α : Type} (w : World) (program : Program Surroundings α) : α × World :=
  program.run respond w

end World

end SwarmUpkeep
