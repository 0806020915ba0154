import SwarmUpkeep.Text.Ascii
import SwarmUpkeep.Text.Printable

/-!
# Quoted texts in messages

A text is shown between quotes. The quote, the backslash and what cannot be printed are escaped,
by a letter where there is one and otherwise by the code point in hexadecimal digits.
-/

namespace SwarmUpkeep.Text

def quotedChar (c : Char) : List Char :=
  if c = '"' then ['\\', '"']
  else if c = '\\' then ['\\', '\\']
  else if c = '\n' then ['\\', 'n']
  else if c = '\r' then ['\\', 'r']
  else if c = '\t' then ['\\', 't']
  else if c = '\x00' then ['\\', '0']
  else if isPrintable c then [c]
  else ['\\', 'u', '{'] ++ Ascii.hexadecimal c.toNat ++ ['}']

def quoted (s : String) : String :=
  String.ofList ('"' :: s.toList.flatMap quotedChar ++ ['"'])

/-- Texts in brackets, with commas between them. -/
def quotedList (texts : List String) : String :=
  "[" ++ ", ".intercalate (texts.map quoted) ++ "]"

end SwarmUpkeep.Text
