import SwarmUpkeep.Json.Token

/-!
# JSON documents

A document is what a text says before it is fitted into a value: members in the order of the text,
names as often as they occur, strings that may hold no text, numbers as their digits. Readers that
pass over parts of a document accept more there than a value admits.
-/

namespace SwarmUpkeep.Json

/-- A JSON text that is well formed, of any depth. -/
inductive Document where
  | null
  | bool (b : Bool)
  | number (digits : List Char)
  | string (content : Option String)
  | array (items : List Document)
  | object (members : List (Option String × Document))
deriving Inhabited

namespace Document

/-- An array or object that is still open, with what it holds so far in reverse. The value of the
member under `name` is being read. -/
inductive Frame where
  | items (read : List Document)
  | members (read : List (Option String × Document)) (name : Option String)

/-- What may come next. -/
inductive Expecting where
  | value
  | firstItem
  | firstName
  | nextName
  | colon
  | separator
  | nothing
deriving DecidableEq

/-- The state of the reader: the open arrays and objects, innermost first, what may come next, and
the whole document once it has been read. -/
structure State where
  frames : List Frame
  expecting : Expecting
  result : Document

def State.start : State :=
  ⟨[], .value, .null⟩

/-- Hands a document that has been read to the innermost open array or object. -/
def deliver (d : Document) : List Frame → State
  | [] => ⟨[], .nothing, d⟩
  | .items read :: rest => ⟨.items (d :: read) :: rest, .separator, .null⟩
  | .members read name :: rest => ⟨.members ((name, d) :: read) none :: rest, .separator, .null⟩

def closeArray : List Frame → Option State
  | .items read :: rest => some (deliver (.array read.reverse) rest)
  | _ => none

def closeObject : List Frame → Option State
  | .members read _ :: rest => some (deliver (.object read.reverse) rest)
  | _ => none

/-- A token where a value starts. -/
def startValue (frames : List Frame) : Token → Option State
  | .openObject => some ⟨.members [] none :: frames, .firstName, .null⟩
  | .openArray => some ⟨.items [] :: frames, .firstItem, .null⟩
  | .null => some (deliver .null frames)
  | .bool b => some (deliver (.bool b) frames)
  | .number digits => some (deliver (.number digits) frames)
  | .string content => some (deliver (.string content) frames)
  | _ => none

/-- A token where the name of a member stands. -/
def takeName (frames : List Frame) : Token → Option State
  | .string name =>
      match frames with
      | .members read _ :: rest => some ⟨.members read name :: rest, .colon, .null⟩
      | _ => none
  | _ => none

/-- One step of the reader. -/
def advance (s : State) (token : Token) : Option State :=
  match s.expecting with
  | .value => startValue s.frames token
  | .firstItem => if token = .closeArray then closeArray s.frames else startValue s.frames token
  | .firstName => if token = .closeObject then closeObject s.frames else takeName s.frames token
  | .nextName => takeName s.frames token
  | .colon => if token = .colon then some { s with expecting := .value } else none
  | .separator =>
      match token, s.frames with
      | .comma, .items _ :: _ => some { s with expecting := .value }
      | .comma, .members .. :: _ => some { s with expecting := .nextName }
      | .closeArray, frames => closeArray frames
      | .closeObject, frames => closeObject frames
      | _, _ => none
  | .nothing => none

/-- The document that a text is. -/
def parse? (s : String) : Option Document := do
  let state ← (← tokens s).foldlM advance State.start
  if state.expecting = .nothing then some state.result else none

end Document

/-! ## Numbers -/

namespace Number

def leastWhole : Int := -9223372036854775808

def greatestWhole : Int := 18446744073709551615

/-- The exponent behind the letter, or zero. -/
def exponentOf : List Char → Option Int
  | [] => some 0
  | _ :: '-' :: ds => (Ascii.number? 10 ds).map fun n => -(n : Int)
  | _ :: '+' :: ds => (Ascii.number? 10 ds).map Int.ofNat
  | _ :: ds => (Ascii.number? 10 ds).map Int.ofNat

/-- Goes on with a significand as long as 64 bits can hold it: the significand, and the digits from
the first one on that is left out. -/
def significand (start : Nat) : List Char → Nat × List Char
  | [] => (start, [])
  | c :: rest =>
      let next := start * 10 + (c.toNat - 48)
      if next ≤ greatestWhole then significand next rest else (start, c :: rest)

/-- The number that digits write, if it can be kept. Whole numbers beyond 64 bits, and negative
zero, become doubles. -/
def ofDigits? (digits : List Char) : Option Number := do
  let (negative, cs) := match digits with
    | '-' :: rest => (true, rest)
    | cs => (false, cs)
  let (taken, beyond) := significand 0 (cs.takeWhile Ascii.isDigit)
  let tail := cs.dropWhile Ascii.isDigit
  let value : Int := if negative then -taken else taken
  if tail.isEmpty ∧ beyond.isEmpty ∧ leastWhole ≤ value ∧ ¬(negative ∧ taken = 0) then
    some (.whole value)
  else
    let (decimals, tail) := match tail with
      | '.' :: rest => (rest.takeWhile Ascii.isDigit, rest.dropWhile Ascii.isDigit)
      | cs => ([], cs)
    -- Behind a digit that has been left out, one that still fits in is taken again.
    let (taken, dropped) := significand taken decimals
    let exponent ← exponentOf tail
    let exponent := exponent + beyond.length - (decimals.length - dropped.length)
    (Double.ofParts? negative taken exponent).map .double

end Number

/-! ## Values -/

namespace Document

/-- How many arrays and objects may be open at once while a value is read. -/
def depthLimit : Nat := 127

mutual

/-- The value of a document in which at most `depth` arrays and objects are nested, all strings
hold text, and all numbers can be kept. -/
def value? (depth : Nat) : Document → Option Json
  | .null => some .null
  | .bool b => some (.bool b)
  | .number digits => (Number.ofDigits? digits).map .num
  | .string content => content.map .str
  | .array items =>
      match depth with
      | 0 => none
      | depth + 1 => (itemValues? depth items).map .arr
  | .object members =>
      match depth with
      | 0 => none
      | depth + 1 => (memberValues? depth members).map Json.object

def itemValues? (depth : Nat) : List Document → Option (List Json)
  | [] => some []
  | d :: rest => do
      return (← value? depth d) :: (← itemValues? depth rest)

def memberValues? (depth : Nat) : List (Option String × Document) → Option (List (String × Json))
  | [] => some []
  | (name, d) :: rest => do
      return (← name, ← value? depth d) :: (← memberValues? depth rest)

end

end Document

/-- What is said of a text that is not the JSON form that is wanted. -/
def unreadable : String :=
  "<json>"

/-- The value that a text writes. -/
def parse? (s : String) : Option Json :=
  Document.parse? s >>= Document.value? Document.depthLimit

end SwarmUpkeep.Json
