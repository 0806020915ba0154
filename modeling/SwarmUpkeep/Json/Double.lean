import SwarmUpkeep.Text.Ascii

/-!
# Doubles

A number that is no whole number of 64 bits is kept as a double. What arithmetic gives is rounded to
the nearest double, and halfway between two of them to the one with the even mantissa. A double is
written with as few digits as tell it from the other ones.
-/

namespace SwarmUpkeep.Json

/-- The finite double `± mantissa · 2 ^ exponent`. Its mantissa has 53 bits, or fewer if no exponent
is less. -/
structure Double where
  negative : Bool
  mantissa : Nat
  exponent : Int
deriving DecidableEq, Inhabited

namespace Double

def leastExponent : Int := -1074

def greatestExponent : Int := 971

/-- The least mantissa of 53 bits. -/
def leastFull : Nat := 1 <<< 52

/-! ## Rounding -/

/-- The natural number next to a quotient; halfway between two, the even one. -/
def nearestQuotient (a b : Nat) : Nat :=
  let quotient := a / b
  let rest := a % b
  if b < 2 * rest ∨ (2 * rest = b ∧ quotient % 2 = 1) then quotient + 1 else quotient

/-- Numerator and denominator of `(a / b) · 2 ^ -exponent`. -/
def scaled (a b : Nat) (exponent : Int) : Nat × Nat :=
  (a <<< (-exponent).toNat, b <<< exponent.toNat)

/-- The exponent that leaves 53 bits of `a / b` in front of the point. The lengths of the two tell
it up to one. -/
def exponentFor (a b : Nat) : Int :=
  let estimate : Int := (a.log2 : Int) - b.log2 - 53
  let (numerator, denominator) := scaled a b estimate
  max leastExponent (if numerator / denominator < 2 * leastFull then estimate else estimate + 1)

/-- The double nearest to `a / b` with a sign, unless that is too large for one. -/
def nearest? (negative : Bool) (a b : Nat) : Option Double :=
  if a = 0 then some ⟨negative, 0, leastExponent⟩
  else
    let exponent := exponentFor a b
    let (numerator, denominator) := scaled a b exponent
    let mantissa := nearestQuotient numerator denominator
    let (mantissa, exponent) :=
      if mantissa = 2 * leastFull then (leastFull, exponent + 1) else (mantissa, exponent)
    if exponent ≤ greatestExponent then some ⟨negative, mantissa, exponent⟩ else none

/-! ## Arithmetic -/

def numerator (d : Double) : Nat :=
  d.mantissa <<< d.exponent.toNat

def denominator (d : Double) : Nat :=
  1 <<< (-d.exponent).toNat

def times? (d e : Double) : Option Double :=
  nearest? (d.negative ^^ e.negative) (d.numerator * e.numerator) (d.denominator * e.denominator)

def over? (d e : Double) : Option Double :=
  nearest? (d.negative ^^ e.negative) (d.numerator * e.denominator) (d.denominator * e.numerator)

def powerOfTen? (n : Nat) : Option Double :=
  nearest? false (Nat.pow 10 n) 1

/-- The greatest power of ten that a double is. -/
def greatestPower : Nat := 308

/-- A double divided by a power of ten, with a rounding after each division. -/
def lowered? (d : Double) (n : Nat) : Option Double :=
  if n ≤ greatestPower then powerOfTen? n >>= d.over?
  else if d.mantissa = 0 then some d
  else (powerOfTen? greatestPower >>= d.over?).bind (lowered? · (n - greatestPower))
termination_by n
decreasing_by simp only [greatestPower] at *; omega

/-- The double that a number with this significand and decimal exponent is read as. The significand
is rounded before it is multiplied or divided, so this need not be the nearest one. -/
def ofParts? (negative : Bool) (significand : Nat) (exponent : Int) : Option Double := do
  let d ← nearest? negative significand 1
  if exponent < 0 then d.lowered? (-exponent).toNat
  else if d.mantissa = 0 then some d
  else if exponent ≤ greatestPower then d.times? (← powerOfTen? exponent.toNat)
  else none

/-! ## Digits -/

/-- The decimal `q · 10 ^ power` for which a double is read, if there is one: of those that are
nearer to it than to other doubles, the one that is nearest to it. Halfway to another double counts
if the mantissa is even. -/
def decimalAt? (d : Double) (power : Int) : Option Nat :=
  -- The double and its bounds are multiples of a quarter of its last bit.
  let below := if d.mantissa = leastFull ∧ leastExponent < d.exponent then 1 else 2
  let scale := Nat.pow 10 (-power).toNat <<< (d.exponent - 2).toNat
  let unit := Nat.pow 10 power.toNat <<< (2 - d.exponent).toNat
  let least := (4 * d.mantissa - below) * scale
  let greatest := (4 * d.mantissa + 2) * scale
  let isEven := d.mantissa % 2 == 0
  let first := if isEven then (least + unit - 1) / unit else least / unit + 1
  let last := if isEven then greatest / unit else (greatest - 1) / unit
  let q := max first (min last (nearestQuotient (4 * d.mantissa * scale) unit))
  if first ≤ last ∧ 0 < q then some q else none

/-- The decimal with the fewest digits for which a positive double is read, as its digits and its
power of ten. -/
def shortest (d : Double) : Nat × Int :=
  let powers := (List.range 640).map fun i : Nat => (310 : Int) - i
  (powers.findSome? fun power => (d.decimalAt? power).map (·, power)).getD (d.mantissa, 0)

end Double

end SwarmUpkeep.Json
