import SwarmUpkeep.CommandLine.Settings
import SwarmUpkeep.Swarm.Role

/-!
# Commands

The settings stand in front of the command, and what the command needs to know behind it. A
mistake behind the command is told before one in the settings that is not seen at once.
-/

namespace SwarmUpkeep.CommandLine

/-- What is to be done: upgrade the swarm to a template, heal it, or complete the upgrade of this
host, or have it join the swarm in a role. -/
inductive Command where
  | upgrade (templateUrl : String)
  | heal
  | completeHandoff
  | join (role : Role)
deriving DecidableEq, Inhabited

def helpCommand : String := "help"

def commandNames : List String :=
  ["upgrade", "heal", "rejoin"]

def programGrammar : Grammar :=
  ⟨settingsFlags, helpCommand :: commandNames, 0, true⟩

def upgradeGrammar : Grammar :=
  ⟨[], [], 1, false⟩

def healGrammar : Grammar :=
  ⟨[], [], 0, false⟩

def rejoinGrammar : Grammar :=
  ⟨[⟨"role", none, .role, .absent⟩], [], 0, false⟩

/-- Help is given on the program or on one command. -/
def helpOn : List String → UsageError
  | [] => .helpWanted
  | [name] =>
      if name ∈ helpCommand :: commandNames then .helpWanted else .unknownArgument name
  | name :: rest =>
      if name ∈ helpCommand :: commandNames then .unknownArgument (rest.headD "")
      else .unknownArgument name

/-- Reads the arguments of a command. -/
def finishCommand (grammar : Grammar) (arguments : List String) : Except UsageError Scan := do
  let (s, _) ← scan grammar arguments .start
  s.finish grammar []

/-- The command of a name with its arguments. -/
def command (name : String) (arguments : List String) : Except UsageError Command :=
  if name = "upgrade" then do
    let s ← finishCommand upgradeGrammar arguments
    return .upgrade (s.positionals.headD "")
  else if name = "heal" then do
    discard (finishCommand healGrammar arguments)
    return .heal
  else if name = "rejoin" then do
    let s ← finishCommand rejoinGrammar arguments
    match s.value? "role" with
    | none => return .completeHandoff
    | some text =>
        match Role.parse text with
        | .ok role => return .join role
        | .error _ => throw (.badValue "role")
  else .error (helpOn arguments)

/-- The settings and the command of a command line. -/
def read (arguments : List String) (environment : List (String × String)) :
    Except UsageError (Config × Command) := do
  let (s, rest) ← scan programGrammar arguments .start
  match rest with
  | none =>
      discard (s.finish programGrammar environment)
      throw .noCommand
  | some (name, rest) =>
      let command ← command name rest
      return ((← s.finish programGrammar environment).settings, command)

end SwarmUpkeep.CommandLine
