import SwarmUpkeep.CommandLine.Flag

/-!
# Scanning a command line

The arguments are taken one by one. `--name value` and `--name=value` give a value to a flag; a
value that starts with a dash needs the second form. After `--` all arguments are positional. The
name of a command ends the scan, and the rest of the line is the command's own.

A value behind a blank is looked at only when the next flag is met or the line ends, so that a
mistake further on may be told first.
-/

namespace SwarmUpkeep.CommandLine

/-- What a command line may hold. -/
structure Grammar where
  flags : List Flag
  commands : List String
  positionals : Nat
  hasVersion : Bool

/-- What has been read: values under the names of their flags, positional arguments, and the last
flag with the value behind it as long as that has not been looked at. -/
structure Scan where
  values : List (String × String)
  positionals : List String
  pending : Option (Flag × Option String)
  onlyPositionals : Bool

namespace Scan

def start : Scan :=
  ⟨[], [], none, false⟩

def value? (scan : Scan) (name : String) : Option String :=
  (scan.values.find? fun (key, _) => key == name).map (·.2)

/-- Gives a value to a flag. -/
def take (scan : Scan) (flag : Flag) (text : String) : Except UsageError Scan := do
  if (scan.value? flag.name).isSome then throw (.givenTwice flag.name)
  flag.check text
  return { scan with values := scan.values ++ [(flag.name, text)] }

/-- Looks at the value of the last flag. -/
def settle (scan : Scan) : Except UsageError Scan :=
  match scan.pending with
  | none => .ok scan
  | some (flag, none) => .error (.valueMissing flag.name)
  | some (flag, some text) => { scan with pending := none }.take flag text

/-- Whether the next argument may be the value of a flag. -/
def awaitsValue (scan : Scan) : Bool :=
  scan.pending.any fun (_, value) => value.isNone

/-- Ends the scan with something else than a mistake, unless the last flag has one. -/
def stop (scan : Scan) (reason : UsageError) : Except UsageError Scan := do
  discard scan.settle
  throw reason

/-- An argument that starts with two dashes. -/
def long (grammar : Grammar) (scan : Scan) (argument name : String) (value : Option String) :
    Except UsageError Scan := do
  match grammar.flags.find? fun f => f.name == name with
  | some flag =>
      match flag.takesValue, value with
      | true, some text => (← scan.settle).take flag text
      | true, none => return { ← scan.settle with pending := some (flag, none) }
      | false, some _ => throw (.valueOfSwitch flag.name)
      | false, none => (← scan.settle).take flag "true"
  | none =>
      let reason := if name = "help" then some UsageError.helpWanted
        else if name = "version" ∧ grammar.hasVersion then some .versionWanted
        else none
      match reason, value with
      | some reason, none => scan.stop reason
      | some _, some _ => throw (.valueOfSwitch name)
      | none, _ => throw (.unknownArgument argument)

/-- An argument that starts with one dash. -/
def short (grammar : Grammar) (scan : Scan) (argument : String) (letter : Char) :
    Except UsageError Scan :=
  if letter = 'h' then scan.stop .helpWanted
  else if letter = 'V' ∧ grammar.hasVersion then scan.stop .versionWanted
  else .error (.unknownArgument argument)

/-- An argument that is no flag. -/
def plain (grammar : Grammar) (scan : Scan) (argument : String) : Except UsageError Scan := do
  if scan.positionals.length < grammar.positionals then
    let scan ← scan.settle
    return { scan with positionals := scan.positionals ++ [argument] }
  else throw (.unknownArgument argument)

/-- The value of the last flag, or an argument that is no flag. -/
def valueOrPlain (grammar : Grammar) (scan : Scan) (argument : String) :
    Except UsageError Scan :=
  match scan.pending with
  | some (flag, none) => .ok { scan with pending := some (flag, some argument) }
  | _ => scan.plain grammar argument

/-- The name and the value of an argument behind its dashes. -/
def splitValue (cs : List Char) : String × Option String :=
  match cs.dropWhile (· ≠ '=') with
  | [] => (String.ofList cs, none)
  | _ :: value => (String.ofList (cs.takeWhile (· ≠ '=')), some (String.ofList value))

/-- Takes one argument. -/
def step (grammar : Grammar) (scan : Scan) (argument : String) : Except UsageError Scan :=
  if scan.onlyPositionals then scan.plain grammar argument
  else
    match argument.toList with
    | ['-', '-'] => .ok { scan with onlyPositionals := true }
    | '-' :: '-' :: rest =>
        let (name, value) := splitValue rest
        scan.long grammar argument name value
    | '-' :: letter :: _ => scan.short grammar argument letter
    | _ => scan.valueOrPlain grammar argument

/-- Whether an argument is the name of a command. -/
def isCommand (grammar : Grammar) (scan : Scan) (argument : String) : Bool :=
  !scan.onlyPositionals && !scan.awaitsValue && grammar.commands.contains argument

end Scan

/-- Scans a line up to the name of a command, which is given with the arguments behind it. -/
def scan (grammar : Grammar) : List String → Scan →
    Except UsageError (Scan × Option (String × List String))
  | [], s => .ok (s, none)
  | argument :: rest, s =>
      if s.isCommand grammar argument then .ok (s, some (argument, rest))
      else do scan grammar rest (← s.step grammar argument)

/-- Takes the values of the flags that were not given from the environment. -/
def Scan.addVariables (environment : List (String × String)) : List Flag → Scan →
    Except UsageError Scan
  | [], s => .ok s
  | flag :: rest, s => do
      let text := flag.envName?.bind fun v =>
        (environment.find? fun (key, _) => key == v).map (·.2)
      match s.value? flag.name, text with
      | none, some text => addVariables environment rest (← s.take flag text)
      | _, _ => addVariables environment rest s

/-- Takes the values that are still missing from the defaults. -/
def Scan.addDefaults : List Flag → Scan → Except UsageError Scan
  | [], s => .ok s
  | flag :: rest, s =>
      match s.value? flag.name, flag.fallback with
      | none, .required => .error (.missing flag.name)
      | none, .value text =>
          addDefaults rest { s with values := s.values ++ [(flag.name, text)] }
      | _, _ => addDefaults rest s

/-- Ends a scan: every flag has its value, or is absent where it may be. -/
def Scan.finish (grammar : Grammar) (environment : List (String × String)) (s : Scan) :
    Except UsageError Scan := do
  let s ← s.settle
  let s ← s.addVariables environment grammar.flags
  let s ← s.addDefaults grammar.flags
  if s.positionals.length < grammar.positionals then throw (.missing "")
  return s

end SwarmUpkeep.CommandLine
