import SwarmUpkeep.Control.Retry
import SwarmUpkeep.Program.Basic
import SwarmUpkeep.Remote.Message
import SwarmUpkeep.Time.Instant

/-!
# What lies outside

All that a run asks of the outside: to send requests, to execute a command, for the time, for
numbers that nobody else has, and to let time pass. What talks to the cloud asks one layer further
in, where tokens of access can be had too.
-/

namespace SwarmUpkeep

/-- What a command has left behind: its exit code and what it has written. -/
structure CommandOutput where
  exit : Nat
  output : String
  errors : String
deriving DecidableEq, Inhabited

inductive OutsideCall where
  | send (request : Request)
  | execute (program : String) (arguments : List String)
  | now
  | nonce
  | pause (milliseconds : Nat)

/-- A nonce is 32 hexadecimal digits. A command that cannot be executed gives the reason. -/
abbrev OutsideCall.Answer : OutsideCall → Type
  | send _ => Except TransportError Response
  | execute _ _ => Except String CommandOutput
  | now => Instant
  | nonce => String
  | pause _ => Unit

abbrev Outside : Interface :=
  ⟨OutsideCall, OutsideCall.Answer⟩

instance : Pausing Outside :=
  ⟨fun ms => Program.perform (I := Outside) (.pause ms)⟩

/-- Questions behind which a token of access may be needed. -/
inductive WebCall where
  | token (resource : String)
  | outside (call : OutsideCall)

abbrev WebCall.Answer : WebCall → Type
  | token _ => Except ServiceError String
  | outside call => call.Answer

abbrev Web : Interface :=
  ⟨WebCall, WebCall.Answer⟩

instance : Pausing Web :=
  ⟨fun ms => Program.perform (I := Web) (.outside (.pause ms))⟩

/-- A response as it comes, or the failure of the request as the error of a service. -/
def received (request : Request) : Except TransportError Response → Except ServiceError Response
  | .ok response => .ok response
  | .error e => .error (e.asService request.url)

namespace Outside

def send (request : Request) : Attempt Outside ServiceError Response :=
  Program.ask (I := Outside) (.send request) fun answer => .done (received request answer)

def now : Program Outside Instant :=
  Program.perform (I := Outside) .now

end Outside

namespace Web

def token (resource : String) : Attempt Web ServiceError String :=
  Program.perform (I := Web) (.token resource)

def send (request : Request) : Attempt Web ServiceError Response :=
  Program.ask (I := Web) (.outside (.send request)) fun answer => .done (received request answer)

/-- Builds a request and sends it. -/
def submit (request : Except ServiceError Request) : Attempt Web ServiceError Response := do
  send (← Attempt.ofExcept request)

def now : Program Web Instant :=
  Program.perform (I := Web) (.outside .now)

def nonce : Program Web String :=
  Program.perform (I := Web) (.outside .nonce)

end Web

end SwarmUpkeep
