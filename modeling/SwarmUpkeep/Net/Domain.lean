import SwarmUpkeep.Net.Percent
import SwarmUpkeep.Net.Punycode
import SwarmUpkeep.Text.Ascii
import SwarmUpkeep.Text.Pieces

/-!
# Domain names

The ASCII form of a domain name. Letters are made small, the full stops of other scripts become
dots, and a label with characters outside ASCII is written in Punycode after `xn--`. Characters
that have a meaning in a URL cannot occur in a name.

The case of letters is folded for Latin, Greek and Cyrillic; letters of other scripts stand as they
are.
-/

namespace SwarmUpkeep.Domain

/-- The small form of a capital letter. -/
def foldChar (c : Char) : Char :=
  let n := c.toNat
  if n < 0x80 then Ascii.lowerChar c
  else if 0xC0 ≤ n ∧ n ≤ 0xDE ∧ n ≠ 0xD7 then Char.ofNat (n + 32)
  else if (0x100 ≤ n ∧ n ≤ 0x137 ∧ n ≠ 0x130) ∨ (0x14A ≤ n ∧ n ≤ 0x177) then
    if n % 2 = 0 then Char.ofNat (n + 1) else c
  else if (0x139 ≤ n ∧ n ≤ 0x148) ∨ (0x179 ≤ n ∧ n ≤ 0x17E) then
    if n % 2 = 1 then Char.ofNat (n + 1) else c
  else if n = 0x178 then Char.ofNat 0xFF
  else if n = 0x17F then 's'
  else if 0x391 ≤ n ∧ n ≤ 0x3AB then Char.ofNat (n + 32)
  else if 0x410 ≤ n ∧ n ≤ 0x42F then Char.ofNat (n + 32)
  else if 0x400 ≤ n ∧ n ≤ 0x40F then Char.ofNat (n + 80)
  else c

/-- What a character of a name becomes: nothing for a soft hyphen and for the joiners, a dot for a
full stop, the plain form of a full-width character, and otherwise its small form. -/
def mapChar (c : Char) : List Char :=
  let n := c.toNat
  if n = 0xAD ∨ n = 0x200B ∨ n = 0x2060 ∨ n = 0xFEFF ∨ (0xFE00 ≤ n ∧ n ≤ 0xFE0F) then []
  else if n = 0x3002 ∨ n = 0xFF0E ∨ n = 0xFF61 then ['.']
  else if 0xFF01 ≤ n ∧ n ≤ 0xFF5E then [Ascii.lowerChar (Char.ofNat (n - 0xFEE0))]
  else [foldChar c]

/-- Characters that no name can hold: controls, blanks and those with a meaning in a URL. -/
def isForbidden (c : Char) : Bool :=
  let n := c.toNat
  n ≤ 0x20 || n == 0x7F || "%#/:<>?@[\\]^|".toList.contains c || n == 0x60 || n == 0x7B ||
    n == 0x7D || (0x80 ≤ n && n ≤ 0x9F) || n == 0xA0 || (0xE000 ≤ n && n ≤ 0xF8FF) || n == 0xFFFD

def mark : List Char := "xn--".toList

/-- A label in ASCII. One that is marked as encoded has to decode to a label that needs it. -/
def asciiLabel? (label : List Char) : Option (List Char) :=
  if label.take 4 = mark then do
    let decoded ← Punycode.decode? (label.drop 4)
    if decoded.all Punycode.isAscii || decoded.any isForbidden || decoded.map foldChar != decoded
    then none
    else some label
  else if label.all Punycode.isAscii then some label
  else some (mark ++ Punycode.encode label)

def joinLabels : List (List Char) → List Char
  | [] => []
  | [label] => label
  | label :: rest => label ++ '.' :: joinLabels rest

/-- The ASCII form of a name given by its octets. -/
def ascii? (octets : List UInt8) : Option String := do
  let name ← Percent.text? octets
  let mapped := name.toList.flatMap mapChar
  if mapped.any isForbidden then none
  else
    let labels ← (Text.pieces '.' mapped).mapM asciiLabel?
    return String.ofList (joinLabels labels)

end SwarmUpkeep.Domain
