import SwarmUpkeep.Net.Address
import SwarmUpkeep.Net.Percent

/-!
# URLs

A URL in its normal form: every part is kept as it is written, with characters already encoded.
-/

namespace SwarmUpkeep

namespace Url

/-- Where a URL points: a name, which may be empty, or an address. -/
inductive Host where
  | domain (name : String)
  | address (a : Address)
deriving DecidableEq, Inhabited

def Host.chars : Host → List Char
  | .domain name => name.toList
  | .address (.v4 a b c d) => Address.dotted a b c d
  | .address (.v6 a b c d e f g h) =>
      '[' :: Address.compressed [a, b, c, d, e, f, g, h] ++ [']']

/-- A path that starts with a slash, as its segments, or any other text after the scheme. -/
inductive Path where
  | rooted (segments : List String)
  | rootless (text : String)
deriving DecidableEq, Inhabited

def segmentChars : List String → List Char
  | [] => []
  | segment :: rest => '/' :: segment.toList ++ segmentChars rest

def Path.chars : Path → List Char
  | .rooted segments => segmentChars segments
  | .rootless text => text.toList

end Url

/-- A URL in its normal form. -/
structure Url where
  scheme : String
  username : String
  password : Option String
  host : Option Url.Host
  port : Option Nat
  path : Url.Path
  query : Option String
  fragment : Option String
deriving DecidableEq, Inhabited

namespace Url

/-- What is wrong with a text that should be a URL. -/
inductive ParseError where
  | emptyHost
  | domainName
  | port
  | version4
  | version6
  | hostCharacter
  | noBase
  | rootlessBase
deriving DecidableEq

def ParseError.message : ParseError → String
  | emptyHost => "empty host"
  | domainName => "invalid international domain name"
  | port => "invalid port number"
  | version4 => "invalid IPv4 address"
  | version6 => "invalid IPv6 address"
  | hostCharacter => "invalid domain character"
  | noBase => "relative URL without a base"
  | rootlessBase => "relative URL with a cannot-be-a-base base"

/-- Schemes whose URLs always have a host, take backslashes for slashes, and have a port of their
own. -/
def isSpecial (scheme : String) : Bool :=
  scheme == "http" || scheme == "https" || scheme == "ws" || scheme == "wss" ||
    scheme == "ftp" || scheme == "file"

def defaultPort (scheme : String) : Option Nat :=
  if scheme = "http" ∨ scheme = "ws" then some 80
  else if scheme = "https" ∨ scheme = "wss" then some 443
  else if scheme = "ftp" then some 21
  else none

/-! ## Text -/

def userInfoChars (url : Url) : List Char :=
  match url.password with
  | some password => url.username.toList ++ ':' :: password.toList ++ ['@']
  | none => if url.username.isEmpty then [] else url.username.toList ++ ['@']

def portChars (url : Url) : List Char :=
  match url.port with
  | some port => ':' :: Ascii.decimal port
  | none => []

/-- The part between scheme and path. A path that would look like one gets a dot in front. -/
def authorityChars (url : Url) : List Char :=
  match url.host with
  | some host => "//".toList ++ url.userInfoChars ++ host.chars ++ url.portChars
  | none =>
      match url.path with
      | .rooted ("" :: _ :: _) => "/.".toList
      | _ => []

def suffixChars (mark : Char) : Option String → List Char
  | some s => mark :: s.toList
  | none => []

def chars (url : Url) : List Char :=
  url.scheme.toList ++ ':' :: url.authorityChars ++ url.path.chars ++
    suffixChars '?' url.query ++ suffixChars '#' url.fragment

/-- The text of a URL. -/
def text (url : Url) : String :=
  String.ofList url.chars

def pathText (url : Url) : String :=
  String.ofList url.path.chars

/-- Whether the URL names a host that can be reached. -/
def hasHost (url : Url) : Bool :=
  match url.host with
  | none => false
  | some (.domain "") => false
  | some _ => true

/-! ## Changes -/

def withoutUserInfo (url : Url) : Url :=
  { url with username := "", password := none }

/-- Points the URL at another host. One without a rooted path has no host and stays as it is. -/
def withAddress (url : Url) (a : Address) : Url :=
  match url.path with
  | .rooted _ => { url with host := some (.address a) }
  | .rootless _ => url

/-- Adds pairs to the query. -/
def addQuery (url : Url) (pairs : List (String × String)) : Url :=
  let added := String.ofList (Percent.formPairs pairs)
  let query := match url.query with
    | none | some "" => added
    | some old => if pairs.isEmpty then old else old ++ "&" ++ added
  { url with query := if query.isEmpty then none else some query }

end Url

end SwarmUpkeep
