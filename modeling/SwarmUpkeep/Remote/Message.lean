import SwarmUpkeep.Json.Document
import SwarmUpkeep.Json.Printer
import SwarmUpkeep.Net.Url.Basic
import SwarmUpkeep.Service.Error
import SwarmUpkeep.Text.Ascii
import SwarmUpkeep.Text.Base64
import SwarmUpkeep.Text.Blank

/-!
# Requests and responses

A request has a method, a place, headers and maybe a body. User information in the place becomes a
header and is not sent as part of it. Only places with a host and a web scheme can be sent to.
-/

namespace SwarmUpkeep

inductive Method where
  | get
  | post
  | put
  | patch
  | delete
deriving DecidableEq, Inhabited

def Method.text : Method → String
  | get => "GET"
  | post => "POST"
  | put => "PUT"
  | patch => "PATCH"
  | delete => "DELETE"

structure Request where
  method : Method
  url : Url
  headers : List (String × String)
  body : Option String
deriving DecidableEq, Inhabited

/-- A response whose body has been read as a text. -/
structure Response where
  status : Nat
  headers : List (String × String)
  body : String
deriving DecidableEq, Inhabited

/-- Why no response has come: nobody took the connection, or it was closed without one. -/
inductive TransportError where
  | refused
  | dropped
deriving DecidableEq, Inhabited

/-- The failure of a request as the error of a service. A refused connection may pass. -/
def TransportError.asService (url : Url) : TransportError → ServiceError
  | refused => .transient ("error sending request for url (" ++ url.text ++ ")")
  | dropped => .fatal ("error sending request for url (" ++ url.text ++ ")")

namespace Request

/-- The user name and the password in a place, with what was encoded in them decoded. -/
def credentials? (url : Url) : Option (String × Option String) := do
  let username ← Percent.text? (Percent.decode url.username.toList)
  let password := url.password.bind fun p => Percent.text? (Percent.decode p.toList)
  if username.isEmpty ∧ password.isNone then none else some (username, password)

def authorization (credentials : String × Option String) : String × String :=
  ("authorization",
    "Basic " ++ Base64.ofText (credentials.1 ++ ":" ++ credentials.2.getD ""))

def cannotBuild (url : Url) : ServiceError :=
  .fatal ("builder error for url (" ++ url.text ++ ")")

/-- A request to a place with more pairs in its query. -/
def build (method : Method) (url : Url) (query : List (String × String))
    (headers : List (String × String)) (body : Option String) : Except ServiceError Request :=
  if !url.hasHost then .error (cannotBuild url)
  else
    let credentials := credentials? url
    let url := if credentials.isSome then url.withoutUserInfo else url
    let url := if query.isEmpty then url else url.addQuery query
    if url.scheme = "http" ∨ url.scheme = "https" then
      .ok ⟨method, url, (credentials.map authorization).toList ++ headers, body⟩
    else .error (cannotBuild url)

def jsonType : String × String :=
  ("content-type", "application/json")

def formType : String × String :=
  ("content-type", "application/x-www-form-urlencoded")

end Request

namespace Response

def isSuccess (r : Response) : Bool :=
  200 ≤ r.status && r.status ≤ 299

/-- Characters that the text of a header may have: those of ASCII that are printed, and the tab. -/
def isHeaderChar (c : Char) : Bool :=
  (' ' ≤ c && c ≤ '~') || c == '\t'

/-- The value of a header, whatever the case of its name, if it is a text. -/
def header? (r : Response) (name : String) : Option String :=
  ((r.headers.find? fun (key, _) => Ascii.sameFold key name).map (·.2)).filter
    fun value => value.toList.all isHeaderChar

def undecodable : ServiceError :=
  .undecodable "error decoding response body"

/-- The body read as JSON and then as what it stands for. -/
def decode {α : Type} (read : Json.Document → Option α) (r : Response) : Except ServiceError α :=
  match Json.Document.parse? r.body >>= read with
  | some a => .ok a
  | none => .error undecodable

/-- The body as a JSON value. -/
def json (r : Response) : Except ServiceError Json :=
  r.decode (Json.Document.value? Json.Document.depthLimit)

/-- Passes a successful response on. For any other, the error that its status stands for tells
what was asked and what the body says. -/
def checked (what : String) (explain : String → String) (r : Response) :
    Except ServiceError Response :=
  if r.isSuccess then .ok r
  else .error (ServiceError.ofStatus r.status (what ++ ": " ++ explain r.body))

/-- What the body of an error of the cloud says. -/
def cloudMessage (body : String) : String :=
  let message := do
    let value ← Json.parse? body
    match value.path? ["error", "message"] with
    | some message => message.text?
    | none => (value.path? ["odata.error", "message", "value"]).bind Json.text?
  message.getD (trimBlanks body)

end Response

end SwarmUpkeep
