import SwarmUpkeep.Text.Ascii
import SwarmUpkeep.Text.Pieces

/-!
# Network addresses

The addresses of hosts, their text, and the reading of that text. An address of version 4 is four
octets in decimal. An address of version 6 is eight groups in hexadecimal, of which the first of
the longest runs of at least two zero groups is left out; one that embeds an address of version 4
after `ffff` shows it in the dotted form. The two versions are never equal, whatever they embed.

The reader takes exactly one address: no brackets, no zone, no blanks, no leading zeros in an
octet.
-/

namespace SwarmUpkeep

/-- A host's address: four octets, or eight groups of two octets. -/
inductive Address where
  | v4 (a b c d : UInt8)
  | v6 (a b c d e f g h : UInt16)
deriving DecidableEq, Inhabited

namespace Address

/-! ## Text -/

def dotted (a b c d : UInt8) : List Char :=
  Ascii.decimal a.toNat ++ '.' :: Ascii.decimal b.toNat ++
    '.' :: Ascii.decimal c.toNat ++ '.' :: Ascii.decimal d.toNat

/-- Groups in hexadecimal with colons between them. -/
def colonSeparated : List UInt16 → List Char
  | [] => []
  | [g] => Ascii.hexadecimal g.toNat
  | g :: rest => Ascii.hexadecimal g.toNat ++ ':' :: colonSeparated rest

/-- How many zero groups stand at the front. -/
def zeroRun (groups : List UInt16) : Nat :=
  (groups.takeWhile (· == 0)).length

/-- The first of the longest runs of zero groups, as its place and its length. -/
def longestZeroRun (groups : List UInt16) : Nat × Nat :=
  (List.range groups.length).foldl
    (fun best start =>
      let length := zeroRun (groups.drop start)
      if best.2 < length then (start, length) else best)
    (0, 0)

/-- Eight groups, with a double colon in the place of the longest run of at least two zeros. -/
def compressed (groups : List UInt16) : List Char :=
  let (start, length) := longestZeroRun groups
  if length < 2 then colonSeparated groups
  else
    colonSeparated (groups.take start) ++ [':', ':'] ++
      colonSeparated (groups.drop (start + length))

/-- The octets of a group, the more significant one first. -/
def octets (g : UInt16) : UInt8 × UInt8 :=
  ((g >>> 8).toUInt8, g.toUInt8)

def chars : Address → List Char
  | v4 a b c d => dotted a b c d
  | v6 0 0 0 0 0 0xffff g h =>
      let (g₁, g₂) := octets g
      let (h₁, h₂) := octets h
      "::ffff:".toList ++ dotted g₁ g₂ h₁ h₂
  | v6 a b c d e f g h => compressed [a, b, c, d, e, f, g, h]

/-- The text of an address. -/
def text (address : Address) : String :=
  String.ofList address.chars

/-! ## Reading -/

/-- An octet: one to three digits without a leading zero, of value below 256. -/
def octet? (cs : List Char) : Option UInt8 :=
  match cs with
  | [] => none
  | ['0'] => some 0
  | '0' :: _ => none
  | _ =>
      if cs.length ≤ 3 then do
        let n ← Ascii.number? 10 cs
        if n < 256 then some n.toUInt8 else none
      else none

/-- A group: one to four hexadecimal digits. -/
def group? (cs : List Char) : Option UInt16 :=
  if cs.isEmpty || 4 < cs.length then none
  else (Ascii.number? 16 cs).map Nat.toUInt16

def dotted? (cs : List Char) : Option (UInt8 × UInt8 × UInt8 × UInt8) :=
  match Text.pieces '.' cs with
  | [a, b, c, d] => do
      return (← octet? a, ← octet? b, ← octet? c, ← octet? d)
  | _ => none

/-- The group made of two octets. -/
def group (high low : UInt8) : UInt16 :=
  high.toUInt16 <<< 8 ||| low.toUInt16

/-- Groups from pieces. A dotted address may stand for the last two groups where `embeds` says
so. -/
def groups? (embeds : Bool) : List (List Char) → Option (List UInt16)
  | [] => some []
  | [piece] =>
      match group? piece with
      | some g => some [g]
      | none =>
          if embeds then do
            let (a, b, c, d) ← dotted? piece
            return [group a b, group c d]
          else none
  | piece :: rest => do
      return (← group? piece) :: (← groups? embeds rest)

/-- Groups of a stretch of text, which is none at all where the stretch is empty. -/
def stretch? (embeds : Bool) (cs : List Char) : Option (List UInt16) :=
  if cs.isEmpty then some [] else groups? embeds (Text.pieces ':' cs)

/-- What stands before and after the first double colon. -/
def splitDoubleColon : List Char → Option (List Char × List Char)
  | ':' :: ':' :: rest => some ([], rest)
  | c :: rest => (splitDoubleColon rest).map fun (before, after) => (c :: before, after)
  | [] => none

def ofGroups? : List UInt16 → Option Address
  | [a, b, c, d, e, f, g, h] => some (v6 a b c d e f g h)
  | _ => none

def v4? (cs : List Char) : Option Address :=
  (dotted? cs).map fun (a, b, c, d) => v4 a b c d

/-- An address of version 6. A double colon stands for at least one group of zero. -/
def v6? (cs : List Char) : Option Address :=
  match splitDoubleColon cs with
  | none => groups? true (Text.pieces ':' cs) >>= ofGroups?
  | some (before, after) => do
      let head ← stretch? false before
      let tail ← stretch? true after
      let missing := 8 - (head.length + tail.length)
      if missing = 0 then none
      else ofGroups? (head ++ List.replicate missing 0 ++ tail)

/-- The address that a text writes. -/
def parse? (s : String) : Option Address :=
  v4? s.toList <|> v6? s.toList

/-- The address that stands for no host at all. -/
def isUnspecified : Address → Bool
  | v4 0 0 0 0 => true
  | v6 0 0 0 0 0 0 0 0 => true
  | _ => false

/-! ## Addresses with a port -/

/-- A port: digits with a value below 65536; zeros may lead. -/
def port? (cs : List Char) : Option UInt16 :=
  if cs.isEmpty then none
  else do
    let n ← Ascii.number? 10 cs
    if n < 65536 then some n.toUInt16 else none

/-- A zone is digits with a value below 2³². -/
def isZone (cs : List Char) : Bool :=
  !cs.isEmpty && ((Ascii.number? 10 cs).any (· < 4294967296))

/-- The text before the last colon and the one after it. -/
def splitLastColon (cs : List Char) : Option (List Char × List Char) :=
  match cs.reverse.span (· != ':') with
  | (_, []) => none
  | (after, _ :: before) => some (before.reverse, after.reverse)

/-- The address in front of a port: version 4 plainly, version 6 in brackets, where a zone may
follow it after a percent sign. -/
def ofEndpoint? (s : String) : Option Address := do
  let (host, port) ← splitLastColon s.toList
  let _ ← port? port
  match host with
  | '[' :: inner =>
      match inner.reverse with
      | ']' :: bracketed =>
          match bracketed.reverse.span (· != '%') with
          | (address, []) => v6? address
          | (address, _ :: zone) => if isZone zone then v6? address else none
      | _ => none
  | _ => v4? host

/-- An address followed by a port, in brackets when it is of version 6. -/
def withPort (address : Address) (port : Nat) : String :=
  match address with
  | v4 .. => address.text ++ ":" ++ toString port
  | v6 .. => "[" ++ address.text ++ "]:" ++ toString port

end Address

end SwarmUpkeep
