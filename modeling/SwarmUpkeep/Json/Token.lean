import SwarmUpkeep.Text.Ascii
import SwarmUpkeep.Json.Value

/-!
# Tokens of JSON text

A text is cut into tokens by an automaton that sees one character at a time. A string token keeps
its characters if they form a text: an escape that names half of a surrogate pair without the
other half leaves none. A number token keeps its digits as they stand.
-/

namespace SwarmUpkeep.Json

/-- A token. The characters of a string are missing when its escapes name no text. -/
inductive Token where
  | openObject
  | closeObject
  | openArray
  | closeArray
  | colon
  | comma
  | null
  | bool (b : Bool)
  | number (digits : List Char)
  | string (content : Option String)
deriving DecidableEq, Inhabited

/-- A part of a string: a character, or a sixteen-bit unit named by an escape. -/
inductive Piece where
  | char (c : Char)
  | unit (n : Nat)
deriving DecidableEq

def isHighSurrogate (n : Nat) : Bool :=
  0xD800 ≤ n && n < 0xDC00

def isLowSurrogate (n : Nat) : Bool :=
  0xDC00 ≤ n && n < 0xE000

/-- The characters that pieces form. Two units that are a surrogate pair form one. -/
def Piece.chars? : List Piece → Option (List Char)
  | [] => some []
  | .char c :: rest => (Piece.chars? rest).map (c :: ·)
  | .unit n :: rest =>
      if isHighSurrogate n then
        match rest with
        | .unit m :: others =>
            if isLowSurrogate m then
              (Piece.chars? others).map
                (Char.ofNat (0x10000 + (n - 0xD800) * 0x400 + (m - 0xDC00)) :: ·)
            else none
        | _ => none
      else if isLowSurrogate n then none
      else (Piece.chars? rest).map (Char.ofNat n :: ·)

/-- Where the automaton stands. What has been read of an unfinished token is kept in reverse. -/
inductive Mode where
  | between
  | word (read : List Char)
  | number (read : List Char)
  | string (read : List Piece)
  | escape (read : List Piece)
  | code (read : List Piece) (digits : List Char)
deriving DecidableEq

def isBlank (c : Char) : Bool :=
  c == ' ' || c == '\n' || c == '\t' || c == '\r'

def isNumberChar (c : Char) : Bool :=
  Ascii.isDigit c || c == '-' || c == '+' || c == '.' || c == 'e' || c == 'E'

/-- A letter, maybe a sign, and digits; or nothing. -/
def isExponent : List Char → Bool
  | [] => true
  | c :: rest =>
      (c == 'e' || c == 'E') &&
        (match rest with
        | '+' :: ds | '-' :: ds => !ds.isEmpty && ds.all Ascii.isDigit
        | ds => !ds.isEmpty && ds.all Ascii.isDigit)

/-- What follows the whole part of a number: decimals and an exponent, each with a digit. -/
def isNumberTail : List Char → Bool
  | '.' :: rest => (rest.head?.any Ascii.isDigit) && isExponent (rest.dropWhile Ascii.isDigit)
  | cs => isExponent cs

/-- A number is a whole part without leading zeros, then decimals and an exponent. -/
def isNumber (cs : List Char) : Bool :=
  let unsigned := match cs with
    | '-' :: rest => rest
    | _ => cs
  match unsigned with
  | '0' :: rest => isNumberTail rest
  | c :: rest => Ascii.isDigit c && isNumberTail (rest.dropWhile Ascii.isDigit)
  | [] => false

def wordToken? (cs : List Char) : Option Token :=
  if cs = "true".toList then some (.bool true)
  else if cs = "false".toList then some (.bool false)
  else if cs = "null".toList then some .null
  else none

def numberToken? (cs : List Char) : Option Token :=
  if isNumber cs then some (.number cs) else none

/-- The character that an escape of one letter stands for. -/
def escaped? (c : Char) : Option Char :=
  if c = '"' ∨ c = '\\' ∨ c = '/' then some c
  else if c = 'b' then some '\x08'
  else if c = 'f' then some '\x0c'
  else if c = 'n' then some '\n'
  else if c = 'r' then some '\r'
  else if c = 't' then some '\t'
  else none

/-- One character where no token is unfinished. -/
def startToken (c : Char) : Option (Mode × List Token) :=
  if isBlank c then some (.between, [])
  else if c = '{' then some (.between, [.openObject])
  else if c = '}' then some (.between, [.closeObject])
  else if c = '[' then some (.between, [.openArray])
  else if c = ']' then some (.between, [.closeArray])
  else if c = ':' then some (.between, [.colon])
  else if c = ',' then some (.between, [.comma])
  else if c = '"' then some (.string [], [])
  else if c = '-' ∨ Ascii.isDigit c then some (.number [c], [])
  else if Ascii.isAlpha c then some (.word [c], [])
  else none

/-- One step of the automaton: the mode after a character, and the tokens that it finished. -/
def step (mode : Mode) (c : Char) : Option (Mode × List Token) :=
  match mode with
  | .between => startToken c
  | .word read =>
      if Ascii.isAlpha c then some (.word (c :: read), [])
      else do
        let token ← wordToken? read.reverse
        let (mode, tokens) ← startToken c
        return (mode, token :: tokens)
  | .number read =>
      if isNumberChar c then some (.number (c :: read), [])
      else do
        let token ← numberToken? read.reverse
        let (mode, tokens) ← startToken c
        return (mode, token :: tokens)
  | .string read =>
      if c = '"' then
        some (.between, [.string ((Piece.chars? read.reverse).map String.ofList)])
      else if c = '\\' then some (.escape read, [])
      else if c.toNat < 0x20 then none
      else some (.string (.char c :: read), [])
  | .escape read =>
      if c = 'u' then some (.code read [], [])
      else (escaped? c).map fun d => (.string (.char d :: read), [])
  | .code read digits =>
      if Ascii.isHexDigit c then
        let digits := digits ++ [c]
        if digits.length < 4 then some (.code read digits, [])
        else (Ascii.number? 16 digits).map fun n => (.string (.unit n :: read), [])
      else none

/-- What is finished by the end of the text. -/
def finish : Mode → Option (List Token)
  | .between => some []
  | .word read => (wordToken? read.reverse).map ([·])
  | .number read => (numberToken? read.reverse).map ([·])
  | _ => none

/-- The tokens of a text, from a mode on. -/
def tokensFrom (mode : Mode) : List Char → Option (List Token)
  | [] => finish mode
  | c :: rest => do
      let (mode, tokens) ← step mode c
      return tokens ++ (← tokensFrom mode rest)

/-- The tokens of a text. -/
def tokens (s : String) : Option (List Token) :=
  tokensFrom .between s.toList

end SwarmUpkeep.Json
