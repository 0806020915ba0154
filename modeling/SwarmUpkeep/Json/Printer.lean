import SwarmUpkeep.Text.Ascii
import SwarmUpkeep.Json.Value

/-!
# JSON text of values

Values are written without blanks, members in their order. In a string the quote, the backslash
and the control characters are escaped, by a letter where there is one, and all else stands as it
is. A double has an exponent if its point would stand far from its digits.
-/

namespace SwarmUpkeep.Json

/-- One character inside a string. -/
def escapeChar (c : Char) : List Char :=
  if c = '"' then ['\\', '"']
  else if c = '\\' then ['\\', '\\']
  else if c = '\x08' then ['\\', 'b']
  else if c = '\x0c' then ['\\', 'f']
  else if c = '\n' then ['\\', 'n']
  else if c = '\r' then ['\\', 'r']
  else if c = '\t' then ['\\', 't']
  else if c.toNat < 0x20 then
    ['\\', 'u', '0', '0', Nat.digitChar (c.toNat / 16), Nat.digitChar (c.toNat % 16)]
  else [c]

def quoted (s : String) : List Char :=
  '"' :: s.toList.flatMap escapeChar ++ ['"']

def intChars (n : Int) : List Char :=
  if n < 0 then '-' :: Ascii.decimal n.natAbs else Ascii.decimal n.natAbs

/-- A number of these digits whose point stands behind so many of them. -/
def pointedChars (digits : List Char) (point : Int) : List Char :=
  if digits.length ≤ point ∧ point ≤ 16 then
    digits ++ List.replicate (point.toNat - digits.length) '0' ++ ['.', '0']
  else if 0 < point ∧ point ≤ 16 then
    digits.take point.toNat ++ '.' :: digits.drop point.toNat
  else if -5 < point ∧ point ≤ 0 then
    '0' :: '.' :: List.replicate (-point).toNat '0' ++ digits
  else
    digits.take 1 ++ (if digits.length = 1 then [] else '.' :: digits.drop 1) ++
      'e' :: intChars (point - 1)

def Double.chars (d : Double) : List Char :=
  let sign := if d.negative then ['-'] else []
  if d.mantissa = 0 then sign ++ ['0', '.', '0']
  else
    let (q, power) := d.shortest
    sign ++ pointedChars (Ascii.decimal q) ((Ascii.decimal q).length + power)

def Number.chars : Number → List Char
  | .whole n => intChars n
  | .double d => d.chars

mutual

def chars : Json → List Char
  | .null => "null".toList
  | .bool true => "true".toList
  | .bool false => "false".toList
  | .num n => n.chars
  | .str s => quoted s
  | .arr items => '[' :: itemChars items ++ [']']
  | .obj members => '{' :: memberChars members ++ ['}']

def itemChars : List Json → List Char
  | [] => []
  | [item] => chars item
  | item :: rest => chars item ++ ',' :: itemChars rest

def memberChars : List (String × Json) → List Char
  | [] => []
  | [(name, value)] => quoted name ++ ':' :: chars value
  | (name, value) :: rest => quoted name ++ ':' :: chars value ++ ',' :: memberChars rest

end

/-- The text of a value. -/
def text (value : Json) : String :=
  String.ofList value.chars

end SwarmUpkeep.Json
