import SwarmUpkeep.Net.Domain
import SwarmUpkeep.Net.Url.Basic

/-!
# Reading URLs

`Url.parse` reads an absolute URL and `Url.join` a reference that may leave out parts which it
takes from a base. Blanks and controls at the ends do not count, nor do tabs and line breaks
anywhere. `Url.withPath` replaces the path by a text that is read as a path alone.
-/

namespace SwarmUpkeep.Url

/-! ## Input -/

def isEdge (c : Char) : Bool :=
  c.toNat ≤ 0x20

def isBreak (c : Char) : Bool :=
  c == '\t' || c == '\n' || c == '\r'

def withoutBreaks (cs : List Char) : List Char :=
  cs.filter (!isBreak ·)

/-- The characters that count. -/
def input (s : String) : List Char :=
  withoutBreaks ((s.toList.dropWhile isEdge).reverse.dropWhile isEdge).reverse

def isSlash (special : Bool) (c : Char) : Bool :=
  c == '/' || (special && c == '\\')

/-! ## Scheme -/

def isSchemeChar (c : Char) : Bool :=
  Ascii.isAlphanum c || c == '+' || c == '-' || c == '.'

/-- The scheme in small letters, and what follows its colon. -/
def scheme? (cs : List Char) : Option (String × List Char) :=
  match cs with
  | [] => none
  | c :: _ =>
      if Ascii.isAlpha c then
        match cs.span isSchemeChar with
        | (name, ':' :: rest) => some (Ascii.lower (String.ofList name), rest)
        | _ => none
      else none

/-! ## Host and port -/

/-- A number in a host: decimal, hexadecimal after `0x`, or octal after `0`. -/
def hostNumber? (cs : List Char) : Option Nat :=
  match cs with
  | [] => none
  | '0' :: 'x' :: rest | '0' :: 'X' :: rest => Ascii.number? 16 rest
  | '0' :: d :: rest => Ascii.number? 8 (d :: rest)
  | _ => Ascii.number? 10 cs

/-- The parts between the dots, without an empty last one. -/
def hostParts (name : String) : List (List Char) :=
  let parts := Text.pieces '.' name.toList
  match parts.reverse with
  | [] :: rest => if rest.isEmpty then parts else rest.reverse
  | _ => parts

/-- A name whose last part is a number has to be an address. -/
def endsInNumber (name : String) : Bool :=
  match (hostParts name).reverse with
  | [] => false
  | last :: _ => (!last.isEmpty && last.all Ascii.isDigit) || (hostNumber? last).isSome

/-- The address that up to four numbers write; the last one fills all octets that remain. -/
def hostVersion4? (name : String) : Option Address := do
  let parts := hostParts name
  if 4 < parts.length then none
  else
    let numbers ← parts.mapM hostNumber?
    let last ← numbers.getLast?
    let front := numbers.dropLast
    if Nat.pow 256 (4 - front.length) ≤ last ∨ front.any (255 < ·) then none
    else
      let n := front.zipIdx.foldl (fun n (octet, i) => n + octet * Nat.pow 256 (3 - i)) last
      return .v4 (n / 16777216).toUInt8 (n / 65536).toUInt8 (n / 256).toUInt8 n.toUInt8

/-- The host in brackets. -/
def bracketed (inner : List Char) : Except ParseError Host :=
  match inner.reverse with
  | ']' :: rest =>
      match Address.v6? rest.reverse with
      | some a => .ok (.address a)
      | none => .error .version6
  | _ => .error .version6

/-- The host of a URL with a special scheme. -/
def specialHost (cs : List Char) : Except ParseError Host :=
  match cs with
  | [] => .error .emptyHost
  | '[' :: inner => bracketed inner
  | _ =>
      match Domain.ascii? (Percent.decode cs) with
      | none => .error .domainName
      | some name =>
          if name.isEmpty then .error .emptyHost
          else if endsInNumber name then
            match hostVersion4? name with
            | some a => .ok (.address a)
            | none => .error .version4
          else .ok (.domain name)

/-- The host of any other URL, whose characters are only encoded. -/
def plainHost (cs : List Char) : Except ParseError Host :=
  match cs with
  | '[' :: inner => bracketed inner
  | _ =>
      if cs.any fun c => c.toNat == 0 || "\t\n\r #/:<>?@[\\]^|".toList.contains c then
        .error .hostCharacter
      else .ok (.domain (String.ofList (Percent.encode Percent.controls cs)))

/-- The characters of the host: up to a colon outside brackets, a slash, or a query or fragment. -/
def hostSpan (special : Bool) : (inBrackets : Bool) → List Char → List Char × List Char
  | _, [] => ([], [])
  | inBrackets, c :: rest =>
      if (c == ':' && !inBrackets) || isSlash special c || c == '?' || c == '#' then
        ([], c :: rest)
      else
        let (host, rest) :=
          hostSpan special (if c = '[' then true else if c = ']' then false else inBrackets) rest
        (c :: host, rest)

/-- The port after a colon. It is left out when it is empty or the scheme's own. -/
def portOf (scheme : String) (cs : List Char) : Except ParseError (Option Nat × List Char) :=
  let digits := cs.takeWhile Ascii.isDigit
  let rest := cs.dropWhile Ascii.isDigit
  let value := (Ascii.number? 10 digits).getD 0
  if 65535 < value then .error .port
  else
    match rest with
    | c :: _ =>
        if c = '/' ∨ c = '\\' ∨ c = '?' ∨ c = '#' then
          .ok (if digits.isEmpty ∨ defaultPort scheme = some value then none else some value, rest)
        else .error .port
    | [] => .ok (if digits.isEmpty ∨ defaultPort scheme = some value then none else some value, [])

/-- User name and password, up to the last `@` before the path. -/
def userInfo (special : Bool) (cs : List Char) :
    Except ParseError (String × Option String × List Char) :=
  let authority := cs.takeWhile fun c => !(isSlash special c || c == '?' || c == '#')
  match authority.reverse.span (· != '@') with
  | (_, []) => .ok ("", none, cs)
  | (_, _ :: before) =>
      let info := before.reverse
      let rest := cs.drop (info.length + 1)
      if info.isEmpty then
        match rest with
        | c :: _ =>
            if isSlash special c || c == '?' || c == '#' then .error .emptyHost
            else .ok ("", none, rest)
        | [] => .ok ("", none, rest)
      else
        let encoded := fun (part : List Char) =>
          String.ofList (Percent.encode Percent.userInfo part)
        match info.span (· != ':') with
        | (name, []) => .ok (encoded name, none, rest)
        | (name, _ :: password) =>
            .ok (encoded name, if password.isEmpty then none else some (encoded password), rest)

/-! ## Path -/

def isDoubleDot (segment : List Char) : Bool :=
  ["..", "%2e%2e", "%2e.", ".%2e"].contains (String.ofList (segment.map Ascii.lowerChar))

def isSingleDot (segment : List Char) : Bool :=
  [".", "%2e"].contains (String.ofList (segment.map Ascii.lowerChar))

/-- The segments after one more, given in reverse: a double dot takes the last one away and a
single dot adds nothing, but a path that ends in either ends in a slash. -/
def addSegment (before : List String) (segment : List Char) (ended : Bool) : List String :=
  if isDoubleDot segment then if ended then "" :: before.tail else before.tail
  else if isSingleDot segment then if ended then "" :: before else before
  else String.ofList segment :: before

/-- Reads segments, given those before them and the characters of the present one, both in
reverse, until a character at which the path ends. -/
def segments (special : Bool) (ends : Char → Bool) :
    (before : List String) → (present : List Char) → List Char → List String × List Char
  | before, present, [] => ((addSegment before present.reverse true).reverse, [])
  | before, present, c :: rest =>
      if ends c then ((addSegment before present.reverse true).reverse, c :: rest)
      else if isSlash special c then
        segments special ends (addSegment before present.reverse false) [] rest
      else segments special ends before ((Percent.encodeChar Percent.path c).reverse ++ present) rest

def endsPath (c : Char) : Bool :=
  c == '?' || c == '#'

/-- The path after the host. A special URL always has one. -/
def pathAfterHost (special : Bool) (ends : Char → Bool) (cs : List Char) :
    List String × List Char :=
  match cs with
  | c :: rest =>
      if isSlash special c then segments special ends [] [] rest
      else if special || !ends c then segments special ends [] [] cs
      else ([], cs)
  | [] => (if special then [""] else [], [])

/-! ## Query and fragment -/

/-- Query and fragment of the characters after the path. -/
def queryAndFragment (special : Bool) (cs : List Char) : Option String × Option String :=
  let encodedFragment := fun (cs : List Char) =>
    some (String.ofList (Percent.encode Percent.fragment cs))
  match cs with
  | '?' :: rest =>
      let query := rest.takeWhile (· != '#')
      let set := if special then Percent.specialQuery else Percent.query
      let text := some (String.ofList (Percent.encode set query))
      match rest.dropWhile (· != '#') with
      | [] => (text, none)
      | _ :: fragment => (text, encodedFragment fragment)
  | '#' :: fragment => (none, encodedFragment fragment)
  | _ => (none, none)

/-! ## Whole URLs -/

/-- A URL from what follows the two slashes. -/
def afterSlashes (scheme : String) (cs : List Char) : Except ParseError Url := do
  let special := isSpecial scheme
  let (username, password, rest) ← userInfo special cs
  let (hostChars, rest) := hostSpan special false rest
  let host ← if special then specialHost hostChars else plainHost hostChars
  if host = .domain "" ∧ (rest.head? = some ':' ∨ !username.isEmpty ∨ password.isSome) then
    throw .emptyHost
  let (port, rest) ← match rest with
    | ':' :: rest => portOf scheme rest
    | _ => pure (none, rest)
  let (path, rest) := pathAfterHost special endsPath rest
  let (query, fragment) := queryAndFragment special rest
  return ⟨scheme, username, password, some host, port, .rooted path, query, fragment⟩

/-- A URL of a file: its host may be missing, and the local host counts as none. -/
def file (cs : List Char) : Except ParseError Url := do
  let (host, rest) ← match cs with
    | a :: b :: rest =>
        if isSlash true a && isSlash true b then do
          let name := rest.takeWhile fun c => !(isSlash true c || endsPath c)
          let rest := rest.drop name.length
          if name.isEmpty then pure (Host.domain "", rest)
          else
            let host ← specialHost name
            pure (if host = .domain "localhost" then .domain "" else host, rest)
        else pure (.domain "", cs)
    | _ => pure (.domain "", cs)
  let (path, rest) := pathAfterHost true endsPath rest
  let (query, fragment) := queryAndFragment true rest
  return ⟨"file", "", none, some host, none, .rooted path, query, fragment⟩

/-- A URL that has no authority: a rooted path, or any text. -/
def withoutAuthority (scheme : String) (cs : List Char) : Url :=
  let (path, rest) : Path × List Char := match cs with
    | '/' :: rest =>
        let (segments, rest) := segments false endsPath [] [] rest
        (.rooted segments, rest)
    | _ =>
        (.rootless (String.ofList (Percent.encode Percent.controls
          (cs.takeWhile (!endsPath ·)))), cs.dropWhile (!endsPath ·))
  let (query, fragment) := queryAndFragment false rest
  ⟨scheme, "", none, none, none, path, query, fragment⟩

/-- A URL from its scheme and what follows the colon. -/
def absolute (scheme : String) (cs : List Char) : Except ParseError Url :=
  if scheme = "file" then file cs
  else if isSpecial scheme then
    afterSlashes scheme (cs.dropWhile (isSlash true))
  else
    match cs with
    | '/' :: '/' :: rest => afterSlashes scheme rest
    | _ => .ok (withoutAuthority scheme cs)

/-- Reads an absolute URL. -/
def parse (s : String) : Except ParseError Url :=
  match scheme? (input s) with
  | some (scheme, rest) => absolute scheme rest
  | none => .error .noBase

/-- The segments of a rooted path. -/
def rootedSegments (url : Url) : List String :=
  match url.path with
  | .rooted segments => segments
  | .rootless _ => []

/-- A reference without a scheme, from a base with a rooted path. -/
def relative (base : Url) (cs : List Char) : Except ParseError Url :=
  let special := isSpecial base.scheme
  let finish := fun (segments : List String) (rest : List Char) =>
    let (query, fragment) := queryAndFragment special rest
    .ok { base with path := .rooted segments, query, fragment }
  match cs with
  | [] => .ok { base with fragment := none }
  | '?' :: _ =>
      let (query, fragment) := queryAndFragment special cs
      .ok { base with query, fragment }
  | '#' :: _ => .ok { base with fragment := (queryAndFragment special cs).2 }
  | c :: rest =>
      if isSlash special c then
        let slashes := (cs.takeWhile (isSlash special)).length
        if 2 ≤ slashes then
          match cs with
          | '/' :: '/' :: rest => afterSlashes base.scheme rest
          | _ => afterSlashes base.scheme (cs.drop slashes)
        else
          let (segments, rest) := segments special endsPath [] [] rest
          finish segments rest
      else
        let (segments, rest) := segments special endsPath (rootedSegments base).reverse.tail [] cs
        finish segments rest

/-- Reads a reference relative to a base. -/
def join (base : Url) (s : String) : Except ParseError Url :=
  let cs := input s
  match scheme? cs with
  | some (scheme, rest) =>
      let slashes := (rest.takeWhile (isSlash true)).length
      if scheme ≠ "file" ∧ isSpecial scheme ∧ slashes < 2 ∧ base.scheme = scheme then
        relative base rest
      else absolute scheme rest
  | none =>
      match base.path, cs with
      | .rootless _, '#' :: _ =>
          .ok { base with fragment := (queryAndFragment (isSpecial base.scheme) cs).2 }
      | .rootless _, _ => .error .rootlessBase
      | .rooted _, _ => relative base cs

/-- Replaces a rooted path. No character of the text ends the path. -/
def withPath (url : Url) (s : String) : Url :=
  match url.path with
  | .rooted _ =>
      let special := isSpecial url.scheme
      let (segments, _) := pathAfterHost special (fun _ => false) (withoutBreaks s.toList)
      { url with path := .rooted segments }
  | .rootless _ => url

end SwarmUpkeep.Url
