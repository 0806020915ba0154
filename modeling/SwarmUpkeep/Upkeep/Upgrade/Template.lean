import SwarmUpkeep.Config.Settings
import SwarmUpkeep.Net.Url.Reader
import SwarmUpkeep.Upkeep.Upgrade.Error

/-!
# Deployment templates

A template is usable if it can be fetched, over a secure connection unless an insecure one is
allowed, from a path that ends in `.json`, and is an object with resources. What a deployment's
parameters become under a new template follows from their old values: each value is carried
forward, and of the values that the provider keeps to itself only the secret of the application is
known here.
-/

namespace SwarmUpkeep.Template

/-- A text that names a place where a template may lie. -/
def place (raw : String) (allowInsecure : Bool) : Except String Url := do
  let url ← match Url.parse raw with
    | .ok url => pure url
    | .error e => throw e.message
  if url.scheme = "https" ∨ (url.scheme = "http" ∧ allowInsecure) then
    if url.pathText.endsWith ".json" then return url
    else throw "path does not end in .json"
  else throw ("scheme '" ++ url.scheme ++ "' is not allowed")

/-- A body that is a template. -/
def hasResources (body : Json) : Bool :=
  (body.get? "resources").isSome

/-- The address of a usable template, from a text. -/
def validate (raw : String) (allowInsecure : Bool) : Control UpgradeError Url := do
  let invalid := UpgradeError.invalidTemplate raw
  let url ← (Attempt.ofExcept (place raw allowInsecure)).mapError invalid
  let body ← (Control.template url).mapError fun e => invalid e.message
  if hasResources body then return url
  else Attempt.fail (invalid "body is not a template with resources")

/-! ## Parameters -/

/-- The value with which a parameter is supplied again, and nothing for one that has no value and
needs none. -/
def carried (settings : Config) (name : String) (parameter : Parameter) :
    Except UpgradeError (Option Json) :=
  match parameter.value with
  | some value => .ok (some value)
  | none =>
      if name = settings.swarm.secretParameter then
        .ok (some (.str settings.cloud.appSecret.value))
      else if parameter.secure then .error (.missingParameter name)
      else .ok none

/-- The parameters to supply with a new template, or the first that cannot be supplied. -/
def carriedForward (settings : Config) :
    List (String × Parameter) → Except UpgradeError Json.Members
  | [] => .ok []
  | (name, parameter) :: rest => do
      let value ← carried settings name parameter
      let supplied ← carriedForward settings rest
      match value with
      | some value => return (name, .obj [("value", value)]) :: supplied
      | none => return supplied

end SwarmUpkeep.Template
