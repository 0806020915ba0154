import SwarmUpkeep.Config.Settings
import SwarmUpkeep.Json.Decode
import SwarmUpkeep.Keyed
import SwarmUpkeep.Net.Url.Reader
import SwarmUpkeep.Remote.Outside

/-!
# Tokens of access

A token is good for one resource. It is kept and given again until shortly before it expires; one
that expires sooner than that is never given a second time.
-/

namespace SwarmUpkeep

/-- Where tokens are had, and as whom. -/
structure TokenSource where
  endpoint : Url
  appId : String
  appSecret : Secret
deriving Inhabited

structure CachedToken where
  token : String
  expiresAt : Instant
deriving DecidableEq, Inhabited

/-- The last token of each resource. -/
abbrev TokenCache := List (String × CachedToken)

namespace TokenSource

def managementResource : String := "https://management.azure.com/"

def storageResource : String := "https://storage.azure.com/"

def authority : String := "https://login.microsoftonline.com/"

/-- How many seconds before its end a token is given up. -/
def margin : Int := 300

def make (tenantId appId : String) (appSecret : Secret) : Except ServiceError TokenSource :=
  match Url.parse authority >>= fun base => base.join (tenantId ++ "/oauth2/token") with
  | .ok endpoint => .ok ⟨endpoint, appId, appSecret⟩
  | .error e => .error (.fatal ("bad tenant id '" ++ tenantId ++ "': " ++ e.message))

/-- The request for a token of a resource. -/
def request (source : TokenSource) (resource : String) : Except ServiceError Request :=
  let form := Percent.formPairs
    [("grant_type", "client_credentials"), ("client_id", source.appId),
     ("client_secret", source.appSecret.value), ("resource", resource)]
  Request.build .post source.endpoint [] [Request.formType] (some (String.ofList form))

/-- A lifetime in seconds: a number, or a text that is still to be read. -/
inductive Lifetime where
  | seconds (n : Int)
  | text (s : String)
deriving DecidableEq

def least64 : Int := -9223372036854775808

def greatest64 : Int := 9223372036854775807

def Lifetime.ofDocument? (d : Json.Document) : Option Lifetime :=
  ((Json.Document.whole? least64 greatest64 d).map .seconds).or (d.text?.map .text)

def Lifetime.value : Lifetime → Except ServiceError Int
  | seconds n => .ok n
  | text s =>
      match Ascii.integer? least64 greatest64 s with
      | some n => .ok n
      | none => .error (.undecodable ("bad expires_in '" ++ s ++ "'"))

/-- A token and its lifetime. -/
def answer? (d : Json.Document) : Option (String × Lifetime) := do
  match ← d.fields? ["access_token", "expires_in"] with
  | [token, lifetime] =>
      return (← Json.Document.required Json.Document.text? token,
        ← Json.Document.required Lifetime.ofDocument? lifetime)
  | _ => none

/-- When a token is given up that was had at an instant for so many seconds. -/
def expiry (now : Instant) (lifetime : Int) : Except ServiceError Instant :=
  let t := now.addSeconds (max (lifetime - margin) 0)
  if t.isKept then .ok t else .error (.fatal "token lifetime out of range")

/-- The token that is kept for a resource, if it is still good. -/
def cached? (cache : TokenCache) (resource : String) (now : Instant) : Option String := do
  let kept ← Keyed.find? cache resource
  if now.before kept.expiresAt then some kept.token else none

/-- Fetches a token and keeps it. -/
def acquire (source : TokenSource) (cache : TokenCache) (resource : String) :
    Attempt Outside ServiceError (String × TokenCache) := do
  let request ← Attempt.ofExcept (source.request resource)
  let response ← Outside.send request
  let response ← Attempt.ofExcept
    (response.checked "acquire access token" Response.cloudMessage)
  let (token, lifetime) ← Attempt.ofExcept (response.decode answer?)
  let seconds ← Attempt.ofExcept lifetime.value
  let now ← Outside.now
  let expiresAt ← Attempt.ofExcept (expiry now seconds)
  return (token, Keyed.set cache resource ⟨token, expiresAt⟩)

/-- The token of a resource: the one that is kept, or a new one. A failure keeps what is kept. -/
def token (source : TokenSource) (cache : TokenCache) (resource : String) :
    Program Outside (Except ServiceError String × TokenCache) :=
  let fetch : Program Outside (Except ServiceError String × TokenCache) :=
    Program.bind (source.acquire cache resource) fun
      | .ok (token, cache) => .done (.ok token, cache)
      | .error e => .done (.error e, cache)
  match Keyed.find? cache resource with
  | none => fetch
  | some _ =>
      Outside.now.bind fun now =>
        match cached? cache resource now with
        | some token => .done (.ok token, cache)
        | none => fetch

/-- Answers what is asked for behind a token. -/
def respond (source : TokenSource) (cache : TokenCache) :
    (call : WebCall) → Program Outside (call.Answer × TokenCache)
  | .token resource => source.token cache resource
  | .outside call =>
      Program.ask (I := Outside) call fun answer => .done (answer, cache)

end TokenSource

end SwarmUpkeep
