import SwarmUpkeep.Text.Ascii

/-!
# Punycode

Characters outside ASCII in a label of a domain name are written behind the ASCII ones as a
sequence of numbers with variable digits, each the distance from one inserted character to the
next. The thresholds of the digits follow a bias that adapts to the sizes seen.
-/

namespace SwarmUpkeep.Punycode

/-- A digit in base 36: the letters and then the decimal digits. -/
def digit (n : Nat) : Char :=
  if n < 26 then Char.ofNat (97 + n) else Char.ofNat (22 + n)

def digitValue? (c : Char) : Option Nat :=
  if 'a' ≤ c ∧ c ≤ 'z' then some (c.toNat - 97)
  else if 'A' ≤ c ∧ c ≤ 'Z' then some (c.toNat - 65)
  else if '0' ≤ c ∧ c ≤ '9' then some (c.toNat - 22)
  else none

/-- Below the threshold a digit is the last of its number. -/
def threshold (place bias : Nat) : Nat :=
  if place ≤ bias then 1 else if bias + 26 ≤ place then 26 else place - bias

theorem one_le_threshold (place bias : Nat) : 1 ≤ threshold place bias := by
  unfold threshold
  split
  · omega
  · split <;> omega

theorem threshold_le (place bias : Nat) : threshold place bias ≤ 26 := by
  unfold threshold
  split
  · omega
  · split <;> omega

/-- Divides by 35 until at most 455 is left, and counts 36 for each division. -/
def shrink (delta count : Nat) : Nat × Nat :=
  if 455 < delta then shrink (delta / 35) (count + 36) else (delta, count)
termination_by delta

/-- The bias after a distance, of which the first counts for less. -/
def adapt (delta inserted : Nat) (first : Bool) : Nat :=
  let halved := if first then delta / 700 else delta / 2
  let (rest, count) := shrink (halved + halved / inserted) 0
  count + 36 * rest / (rest + 38)

/-- A number in variable digits. -/
def numberChars (bias place n : Nat) : List Char :=
  let t := threshold place bias
  if n < t then [digit n]
  else digit (t + (n - t) % (36 - t)) :: numberChars bias (place + 36) ((n - t) / (36 - t))
termination_by n
decreasing_by
  have h₁ := one_le_threshold place bias
  have h₂ := threshold_le place bias
  exact Nat.lt_of_le_of_lt (Nat.div_le_self _ _) (by omega)

structure Encoder where
  written : List Char
  delta : Nat
  bias : Nat
  handled : Nat

/-- One character of the label while the characters of one value are inserted. -/
def Encoder.scan (basic value : Nat) (e : Encoder) (c : Char) : Encoder :=
  if c.toNat < value then { e with delta := e.delta + 1 }
  else if c.toNat = value then
    { written := e.written ++ numberChars e.bias 36 e.delta
      delta := 0
      bias := adapt e.delta (e.handled + 1) (e.handled == basic)
      handled := e.handled + 1 }
  else e

/-- Inserts the characters outside ASCII in the order of their values. -/
def insertAll (label : List Char) (basic : Nat) : List Nat → Nat → Encoder → Encoder
  | [], _, e => e
  | value :: rest, from_, e =>
      let e := { e with delta := e.delta + (value - from_) * (e.handled + 1) }
      let e := label.foldl (Encoder.scan basic value) e
      insertAll label basic rest (value + 1) { e with delta := e.delta + 1 }

def isAscii (c : Char) : Bool :=
  c.toNat < 128

/-- A label in the encoding, without the mark that announces it. -/
def encode (label : List Char) : List Char :=
  let basic := label.filter isAscii
  let values := ((label.filter (!isAscii ·)).map Char.toNat).mergeSort.eraseDups
  let e := insertAll label basic.length values 128 ⟨[], 0, 72, basic.length⟩
  basic ++ (if basic.isEmpty then [] else ['-']) ++ e.written

/-- Reads one number: the value added to `n`, and what follows. -/
def number? (bias : Nat) : List Char → (place weight n : Nat) → Option (Nat × List Char)
  | [], _, _, _ => none
  | c :: rest, place, weight, n => do
      let d ← digitValue? c
      let t := threshold place bias
      if d < t then some (n + d * weight, rest)
      else number? bias rest (place + 36) (weight * (36 - t)) (n + d * weight)

/-- Inserts one character for each number; `fuel` bounds their count. -/
def insertRead : (fuel : Nat) → (bias value index : Nat) → (read rest : List Char) →
    Option (List Char)
  | _, _, _, _, read, [] => some read
  | 0, _, _, _, _, _ => none
  | fuel + 1, bias, value, index, read, rest => do
      let (index', rest) ← number? bias rest 36 1 index
      let size := read.length + 1
      let value := value + index' / size
      let place := index' % size
      if value < 0xD800 ∨ (0xDFFF < value ∧ value < 0x110000) then
        insertRead fuel (adapt (index' - index) size (index == 0)) value (place + 1)
          (read.take place ++ Char.ofNat value :: read.drop place) rest
      else none

/-- The label that an encoding stands for. -/
def decode? (cs : List Char) : Option (List Char) :=
  let (basic, extended) := match cs.reverse.span (· != '-') with
    | (tail, []) => ([], tail.reverse)
    | (tail, _ :: head) => (head.reverse, tail.reverse)
  insertRead extended.length 72 128 0 basic extended

end SwarmUpkeep.Punycode
