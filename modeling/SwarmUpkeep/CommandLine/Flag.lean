import SwarmUpkeep.Net.Url.Reader
import SwarmUpkeep.Swarm.Role
import SwarmUpkeep.Text.Ascii

/-!
# Flags

A flag is a setting that is given on the command line, in a variable of the environment, or by
default, in this order. Its kind tells which texts are values of it.
-/

namespace SwarmUpkeep.CommandLine

/-- What a flag's values are. A switch takes no value on the command line. -/
inductive Kind where
  | text
  | switch
  | url
  | role
  | integer (greatest : Nat)
  | natural (greatest : Nat)
deriving DecidableEq

/-- What a flag's value is where none is given. -/
inductive Fallback where
  | required
  | absent
  | value (text : String)
deriving DecidableEq

structure Flag where
  name : String
  envName? : Option String
  kind : Kind
  fallback : Fallback
deriving DecidableEq

/-- Why a command line is not acted upon. Asking for help or for the version is no mistake. -/
inductive UsageError where
  | helpWanted
  | versionWanted
  | missing (flag : String)
  | unknownArgument (argument : String)
  | valueMissing (flag : String)
  | badSwitch (flag : String)
  | badValue (flag : String)
  | givenTwice (flag : String)
  | valueOfSwitch (flag : String)
  | noCommand
deriving DecidableEq

/-- Whether the user has made a mistake. -/
def UsageError.isMistake : UsageError → Bool
  | helpWanted | versionWanted => false
  | _ => true

namespace Flag

def takesValue (flag : Flag) : Bool :=
  flag.kind ≠ .switch

/-- Whether a text is a value of the flag. An integer may be written with a sign, a natural number
only without a minus. -/
def check (flag : Flag) (text : String) : Except UsageError Unit :=
  match flag.kind with
  | .text => .ok ()
  | .switch => if text = "true" ∨ text = "false" then .ok () else .error (.badSwitch flag.name)
  | .url => if (Url.parse text).toBool then .ok () else .error (.badValue flag.name)
  | .role => if (Role.parse text).toBool then .ok () else .error (.badValue flag.name)
  | .integer greatest =>
      if (Ascii.integer? 0 greatest text).isSome then .ok () else .error (.badValue flag.name)
  | .natural greatest =>
      if (Ascii.natural? greatest text).isSome then .ok () else .error (.badValue flag.name)

end Flag

end SwarmUpkeep.CommandLine
