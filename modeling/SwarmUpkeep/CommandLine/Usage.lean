import SwarmUpkeep.CommandLine.Command

/-!
# Usage

What is shown of the command line: its commands, its flags with their variables and defaults, and
what is wrong with a line that is not acted upon.
-/

namespace SwarmUpkeep.CommandLine

def UsageError.message : UsageError → String
  | helpWanted | versionWanted => ""
  | missing flag => "missing argument: " ++ flag
  | unknownArgument argument => "unexpected argument: " ++ argument
  | valueMissing flag => "missing value of --" ++ flag
  | badSwitch flag => "--" ++ flag ++ " is either true or false"
  | badValue flag => "invalid value of --" ++ flag
  | givenTwice flag => "--" ++ flag ++ " is given twice"
  | valueOfSwitch flag => "--" ++ flag ++ " takes no value"
  | noCommand => "no command is given"

/-- A flag with its variable and what its value is where none is given. -/
def Flag.line (flag : Flag) : String :=
  let value := if flag.takesValue then " <" ++ flag.name ++ ">" else ""
  let source := (flag.envName?.map fun name => " [variable " ++ name ++ "]").getD ""
  let fallback := match flag.fallback with
    | .required => " (required)"
    | .absent => ""
    | .value text => " (default " ++ text ++ ")"
  "  --" ++ flag.name ++ value ++ source ++ fallback

/-- What each command does. -/
def commandLines : List String :=
  ["  upgrade <template-url>   upgrade every node to a new deployment template",
   "  heal                     replace dead nodes and evict members without a machine",
   "  rejoin [--role <role>]   complete the upgrade of this host, or join the swarm in a role"]

/-- The text of help. -/
def helpText : String :=
  "\n".intercalate
    (["Usage: swarm-upkeep [flags] <command>", "", "Commands:"] ++ commandLines ++
      ["", "Flags:"] ++ settingsFlags.map Flag.line)

def versionText : String :=
  "swarm-upkeep 0.1.0"

/-- What is shown of a line that is not acted upon. -/
def UsageError.shown : UsageError → String
  | helpWanted => helpText
  | versionWanted => versionText
  | e => "error: " ++ e.message

end SwarmUpkeep.CommandLine
