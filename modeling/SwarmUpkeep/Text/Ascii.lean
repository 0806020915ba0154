/-!
# ASCII case and decimal digits

Names of roles, states, hosts and services are compared without regard to the case of ASCII
letters only: a letter outside ASCII never matches another one. Numbers are written in decimal
without leading zeros.
-/

namespace SwarmUpkeep.Ascii

/-- The lower-case form of an ASCII capital, and every other character unchanged. -/
def lowerChar (c : Char) : Char :=
  if 'A' ≤ c ∧ c ≤ 'Z' then Char.ofNat (c.toNat + 32) else c

/-- The upper-case form of an ASCII small letter, and every other character unchanged. -/
def upperChar (c : Char) : Char :=
  if 'a' ≤ c ∧ c ≤ 'z' then Char.ofNat (c.toNat - 32) else c

/-- A text with its ASCII capitals made small. -/
def lower (s : String) : String :=
  String.ofList (s.toList.map lowerChar)

/-- A text with its ASCII small letters made capitals. -/
def upper (s : String) : String :=
  String.ofList (s.toList.map upperChar)

/-- Two texts agree up to the case of ASCII letters. -/
def sameFold (s t : String) : Bool :=
  lower s == lower t

def isDigit (c : Char) : Bool :=
  '0' ≤ c && c ≤ '9'

def isAlpha (c : Char) : Bool :=
  ('a' ≤ c && c ≤ 'z') || ('A' ≤ c && c ≤ 'Z')

def isAlphanum (c : Char) : Bool :=
  isAlpha c || isDigit c

/-- The value of a digit in bases up to sixteen, letters in either case. -/
def digitValue? (c : Char) : Option Nat :=
  if '0' ≤ c ∧ c ≤ '9' then some (c.toNat - 48)
  else if 'a' ≤ c ∧ c ≤ 'f' then some (c.toNat - 87)
  else if 'A' ≤ c ∧ c ≤ 'F' then some (c.toNat - 55)
  else none

def isHexDigit (c : Char) : Bool :=
  (digitValue? c).isSome

/-- The number that a run of digits writes in the given base, if each is a digit of that base. -/
def number? (base : Nat) (digits : List Char) : Option Nat :=
  digits.foldlM
    (fun value c => do
      let d ← digitValue? c
      if d < base then some (value * base + d) else none)
    0

/-- The decimal text of a natural number. -/
def decimal (n : Nat) : List Char :=
  Nat.toDigits 10 n

/-- The decimal text of `n`, filled up with zeros on the left to at least `width` digits. -/
def padded (width n : Nat) : List Char :=
  let digits := decimal n
  List.replicate (width - digits.length) '0' ++ digits

/-- The lower-case hexadecimal text of a natural number. -/
def hexadecimal (n : Nat) : List Char :=
  Nat.toDigits 16 n

/-- A whole number within bounds, written with an optional sign in front of at least one digit;
zeros may lead. -/
def integer? (least greatest : Int) (s : String) : Option Int :=
  let (negative, digits) := match s.toList with
    | '-' :: rest => (true, rest)
    | '+' :: rest => (false, rest)
    | rest => (false, rest)
  if digits.isEmpty then none
  else do
    let magnitude ← number? 10 digits
    let value : Int := if negative then -magnitude else magnitude
    if least ≤ value ∧ value ≤ greatest then some value else none

/-- A natural number of at most `greatest`. A plus sign is allowed and a minus sign is not. -/
def natural? (greatest : Nat) (s : String) : Option Nat :=
  match s.toList with
  | '-' :: _ => none
  | _ => (integer? 0 greatest s).map Int.toNat

@[simp]
theorem sameFold_refl (s : String) : sameFold s s = true := by
  simp [sameFold]

theorem sameFold_iff {s t : String} : sameFold s t = true ↔ lower s = lower t := by
  simp [sameFold]

end SwarmUpkeep.Ascii
