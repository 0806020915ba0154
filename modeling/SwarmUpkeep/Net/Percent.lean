import SwarmUpkeep.Text.Ascii

/-!
# Percent encoding

A character that may not stand in a part of a URL is written as its UTF-8 octets, each after a
percent sign in two capital hexadecimal digits. Which characters those are depends on the part.
Names and values of a query are written in the form encoding, where a plus sign is a space.
-/

namespace SwarmUpkeep.Percent

def hexDigit (n : Nat) : Char :=
  Ascii.upperChar (Nat.digitChar n)

def encodeOctet (b : UInt8) : List Char :=
  ['%', hexDigit (b.toNat / 16), hexDigit (b.toNat % 16)]

/-- A character as it stands, or encoded if it belongs to the set. -/
def encodeChar (set : Char → Bool) (c : Char) : List Char :=
  if set c then (String.utf8EncodeChar c).flatMap encodeOctet else [c]

def encode (set : Char → Bool) (cs : List Char) : List Char :=
  cs.flatMap (encodeChar set)

/-! ## Sets -/

/-- Controls and all that is not ASCII. -/
def controls (c : Char) : Bool :=
  c.toNat < 0x20 || 0x7E < c.toNat

def fragment (c : Char) : Bool :=
  controls c || c == ' ' || c == '"' || c == '<' || c == '>' || c.toNat == 0x60

def query (c : Char) : Bool :=
  controls c || c == ' ' || c == '"' || c == '#' || c == '<' || c == '>'

/-- The query of a URL with one of the special schemes. -/
def specialQuery (c : Char) : Bool :=
  query c || c == '\''

def path (c : Char) : Bool :=
  fragment c || c == '#' || c == '?' || c.toNat == 0x7B || c.toNat == 0x7D

def userInfo (c : Char) : Bool :=
  path c || c == '/' || c == ':' || c == ';' || c == '=' || c == '@' || c == '[' || c == '\\' ||
    c == ']' || c == '^' || c == '|'

/-- All but letters, digits and four marks is encoded in a form. -/
def form (c : Char) : Bool :=
  !(Ascii.isAlphanum c || c == '*' || c == '-' || c == '.' || c == '_')

/-! ## Forms -/

def formChar (c : Char) : List Char :=
  if c = ' ' then ['+'] else encodeChar form c

/-- A name or a value in the form encoding. -/
def formText (s : String) : List Char :=
  s.toList.flatMap formChar

/-- Pairs in the form encoding, with ampersands between them. -/
def formPairs : List (String × String) → List Char
  | [] => []
  | [(name, value)] => formText name ++ '=' :: formText value
  | (name, value) :: rest => formText name ++ '=' :: formText value ++ '&' :: formPairs rest

/-! ## Decoding -/

/-- The octets of a text in which each percent sign before two hexadecimal digits stands, with
them, for one octet. -/
def decode : List Char → List UInt8
  | [] => []
  | '%' :: a :: b :: rest =>
      match Ascii.digitValue? a, Ascii.digitValue? b with
      | some x, some y => (x * 16 + y).toUInt8 :: decode rest
      | _, _ => 0x25 :: decode (a :: b :: rest)
  | c :: rest => String.utf8EncodeChar c ++ decode rest

/-- The text that octets are in UTF-8. -/
def text? (octets : List UInt8) : Option String :=
  String.fromUTF8? ⟨octets.toArray⟩

end SwarmUpkeep.Percent
