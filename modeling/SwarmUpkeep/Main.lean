import Std.Time.DateTime.Timestamp
import SwarmUpkeep.CommandLine.Run
import SwarmUpkeep.CommandLine.Usage

/-!
# The program

The arguments and the variables of the environment say what is to be done. What a run asks of the
outside is answered here: the time and random numbers are had from the system, but there is no
transport to the network and commands are not executed, so that every request is refused.
-/

namespace SwarmUpkeep.Terminal

/-- A random number of 32 hexadecimal digits. -/
def nonce : IO String := do
  let digits := Ascii.hexadecimal (← IO.rand 0 (Nat.pow 2 128 - 1))
  return String.ofList (List.replicate (32 - digits.length) '0' ++ digits)

/-- Answers what a run asks of the outside. -/
def answer : (call : OutsideCall) → IO call.Answer
  | .send _ => return .error .refused
  | .execute program _ => return .error (program ++ " is not executed here")
  | .now => do return .ofNanos (← Std.Time.Timestamp.now).toNanosecondsSinceUnixEpoch.val
  | .nonce => nonce
  | .pause milliseconds => IO.sleep (min milliseconds 4294967295).toUInt32

/-- Carries a run out. -/
def carryOut {α : Type} : Program Outside α → IO α
  | .done a => pure a
  | .ask call next => do carryOut (next (← answer call))

/-- The variables from which settings come, as far as they are set. -/
def environment : IO (List (String × String)) := do
  let names := CommandLine.settingsFlags.filterMap (·.envName?)
  return (← names.mapM fun name => do return (← IO.getEnv name).map (name, ·)).filterMap id

/-- Shows why a command line is not acted upon. -/
def refuse (error : CommandLine.UsageError) : IO Unit :=
  if error.isMistake then IO.eprintln error.shown else IO.println error.shown

/-- Does what a command line says and gives the exit code. -/
def perform (arguments : List String) : IO UInt8 := do
  match CommandLine.read arguments (← environment) with
  | .error e =>
      refuse e
      return e.exitCode
  | .ok (config, command) =>
      let result ← carryOut (CommandLine.run config command)
      match result with
      | .ok outcome => IO.println outcome.summary
      | .error e => IO.eprintln ("error: " ++ e.message)
      return CommandLine.exitCode result

end SwarmUpkeep.Terminal

def main (arguments : List String) : IO UInt32 := do
  return (← SwarmUpkeep.Terminal.perform arguments).toUInt32
