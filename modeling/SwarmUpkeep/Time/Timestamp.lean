import SwarmUpkeep.Text.Ascii
import SwarmUpkeep.Text.Blank
import SwarmUpkeep.Time.Instant

/-!
# Timestamps

The text of an instant in the form of RFC 3339: date, `T`, time of day, as many groups of three
decimals as are needed, and the offset from universal time, which is written as `+00:00` or as
`Z`. Headers have another form, in which the day and the month have names.

Two readers take such a text. The strict one wants every field at its full width. The lenient one
lets blanks stand in front of fields, takes short and signed fields, and takes `UTC` for an offset.
Both report what is wrong: text that ends too soon, a character that cannot stand
where it stands, a number out of its range, or text that follows the timestamp.
-/

namespace SwarmUpkeep

/-- What is wrong with a text that should be a timestamp. -/
inductive TimestampError where
  | tooShort
  | invalid
  | outOfRange
  | tooLong
deriving DecidableEq

def TimestampError.message : TimestampError → String
  | tooShort => "premature end of input"
  | invalid => "input contains invalid characters"
  | outOfRange => "input is out of range"
  | tooLong => "trailing input"

namespace Timestamp

/-! ## Writing -/

/-- The year: four digits, and with a sign when four digits cannot hold it. -/
def yearText (year : Int) : List Char :=
  if 0 ≤ year ∧ year ≤ 9999 then Ascii.padded 4 year.toNat
  else (if year < 0 then '-' else '+') :: Ascii.padded 4 year.natAbs

/-- Decimals of a second: none, three, six or nine, as few as keep the value. -/
def decimalsText (nanos : Nat) : List Char :=
  if nanos = 0 then []
  else if nanos % 1000000 = 0 then '.' :: Ascii.padded 3 (nanos / 1000000)
  else if nanos % 1000 = 0 then '.' :: Ascii.padded 6 (nanos / 1000)
  else '.' :: Ascii.padded 9 nanos

/-- Date and time of day in universal time, without an offset. -/
def localChars (t : Instant) : List Char :=
  let date := t.date
  let inDay := t.secondOfDay
  let (second, nanos) :=
    if t.nanos < 1000000000 then (inDay % 60, t.nanos)
    else (inDay % 60 + 1, t.nanos - 1000000000)
  yearText date.year ++ '-' :: Ascii.padded 2 date.month ++ '-' :: Ascii.padded 2 date.day ++
    'T' :: Ascii.padded 2 (inDay / 3600) ++ ':' :: Ascii.padded 2 (inDay / 60 % 60) ++
    ':' :: Ascii.padded 2 second ++ decimalsText nanos

/-- The timestamp with a numeric offset. -/
def numeric (t : Instant) : String :=
  String.ofList (localChars t ++ "+00:00".toList)

/-- The timestamp with `Z` for its offset. -/
def zulu (t : Instant) : String :=
  String.ofList (localChars t ++ ['Z'])

/-- The days of the week, from the one that day 0 was. -/
def weekdays : List String :=
  ["Thu", "Fri", "Sat", "Sun", "Mon", "Tue", "Wed"]

def months : List String :=
  ["Jan", "Feb", "Mar", "Apr", "May", "Jun", "Jul", "Aug", "Sep", "Oct", "Nov", "Dec"]

/-- The timestamp as headers have it: weekday, date and time of day, without decimals. -/
def http (t : Instant) : String :=
  let date := t.date
  let inDay := t.secondOfDay
  let weekday := weekdays.getD (t.seconds / 86400 % 7).toNat ""
  let second := inDay % 60 + t.nanos / 1000000000
  String.ofList
    (weekday.toList ++ ", ".toList ++ Ascii.padded 2 date.day ++
      ' ' :: (months.getD (date.month - 1) "").toList ++ ' ' :: yearText date.year ++
      ' ' :: Ascii.padded 2 (inDay / 3600) ++ ':' :: Ascii.padded 2 (inDay / 60 % 60) ++
      ':' :: Ascii.padded 2 second ++ " GMT".toList)

example : http ⟨1519898400, 0⟩ = "Thu, 01 Mar 2018 10:00:00 GMT" := by decide +kernel

/-! ## Reading -/

/-- The length in octets, by which a text is found too short for a field. -/
def octetLength (cs : List Char) : Nat :=
  (String.ofList cs).utf8ByteSize

/-- The longest run of digits, but not more than `most`, and what follows it. -/
def digitRun : (most : Nat) → List Char → List Char × List Char
  | 0, cs => ([], cs)
  | _, [] => ([], [])
  | most + 1, c :: rest =>
      if Ascii.isDigit c then
        let (run, remaining) := digitRun most rest
        (c :: run, remaining)
      else ([], c :: rest)

/-- A number of `least` to `most` digits. -/
def number (least most : Nat) (cs : List Char) : Except TimestampError (Nat × List Char) :=
  if octetLength cs < least then .error .tooShort
  else
    let (run, rest) := digitRun most cs
    if run.length < least then .error .invalid
    else
      match Ascii.number? 10 run with
      | some n => if n < 9223372036854775808 then .ok (n, rest) else .error .outOfRange
      | none => .error .invalid

/-- One given character. -/
def exactly (c : Char) : List Char → Except TimestampError (List Char)
  | [] => .error .tooShort
  | d :: rest => if d = c then .ok rest else .error .invalid

/-- Demands that a field lies within its bounds. -/
def within (least greatest : Nat) (n : Nat) : Except TimestampError Unit :=
  if least ≤ n ∧ n ≤ greatest then .ok () else .error .outOfRange

/-- The separator of date and time of day. -/
def separator : List Char → Except TimestampError (List Char)
  | [] => .error .tooShort
  | c :: rest => if c = 't' ∨ c = 'T' ∨ c = ' ' then .ok rest else .error .invalid

/-- Decimals of a second, of which nine count and the others are passed over. -/
def decimals (cs : List Char) : Except TimestampError (Nat × List Char) := do
  let (value, rest) ← number 1 9 cs
  let digits := (digitRun 9 cs).1.length
  return (value * Nat.pow 10 (9 - digits), rest.dropWhile Ascii.isDigit)

def optionalDecimals : List Char → Except TimestampError (Nat × List Char)
  | '.' :: rest => decimals rest
  | cs => .ok (0, cs)

/-- Two digits at the front of a text. -/
def twoDigits (cs : List Char) : Except TimestampError (Char × Char × List Char) :=
  if octetLength cs < 2 then .error .tooShort
  else
    match cs with
    | a :: b :: rest => .ok (a, b, rest)
    | _ => .error .invalid

/-- The sign of an offset; the mathematical minus sign is one too. -/
def offsetSign : List Char → Except TimestampError (Bool × List Char)
  | [] => .error .tooShort
  | c :: rest =>
      if c = '+' then .ok (false, rest)
      else if c = '-' ∨ c = '−' then .ok (true, rest)
      else .error .invalid

/-- The offset from universal time in seconds. How hours and minutes are parted is left to
`part`. -/
def offset (part : List Char → Except TimestampError (List Char)) (cs : List Char) :
    Except TimestampError (Int × List Char) :=
  match cs with
  | 'Z' :: rest | 'z' :: rest => .ok (0, rest)
  | _ => do
      let (negative, cs) ← offsetSign cs
      let (h₁, h₂, cs) ← twoDigits cs
      if !(Ascii.isDigit h₁ && Ascii.isDigit h₂) then .error .invalid
      else do
        let cs ← part cs
        let (m₁, m₂, cs) ← twoDigits cs
        if !(Ascii.isDigit m₁ && Ascii.isDigit m₂) then .error .invalid
        else if '6' ≤ m₁ then .error .outOfRange
        else
          let hours := (h₁.toNat - 48) * 10 + (h₂.toNat - 48)
          let minutes := (m₁.toNat - 48) * 10 + (m₂.toNat - 48)
          let seconds : Int := hours * 3600 + minutes * 60
          .ok (if negative then -seconds else seconds, cs)

/-- The fields of a timestamp. -/
structure Fields where
  year : Int
  month : Nat
  day : Nat
  hour : Nat
  minute : Nat
  second : Nat
  nanos : Nat
  offset : Int

/-- The instant that the fields name. Second 60 is the leap second that follows second 59. -/
def Fields.instant (f : Fields) : Except TimestampError Instant :=
  let date : Date := ⟨f.year, f.month, f.day⟩
  if !(date.isValid && Date.leastYear ≤ f.year && f.year ≤ Date.greatestYear) then
    .error .outOfRange
  else if f.offset ≤ -86400 ∨ 86400 ≤ f.offset then .error .outOfRange
  else
    let (second, nanos) := if f.second = 60 then (59, f.nanos + 1000000000) else (f.second, f.nanos)
    let t := (Instant.ofDate date (f.hour * 3600 + f.minute * 60 + second) nanos).addSeconds
      (-f.offset)
    if t.isKept then .ok t else .error .outOfRange

/-- A number of exactly so many digits. -/
def fixed (width : Nat) (cs : List Char) : Except TimestampError (Nat × List Char) :=
  let digits := cs.take width
  if digits.length = width ∧ digits.all Ascii.isDigit then
    .ok ((Ascii.number? 10 digits).getD 0, cs.drop width)
  else .error .invalid

/-- The shortest date and time of day in octets. -/
def leastLength : Nat := 19

/-- Reads a timestamp whose fields all have their full width. The date and the time of day are
each read to their end before their numbers are looked at. -/
def readStrict (s : String) : Except TimestampError Instant := do
  if s.utf8ByteSize < leastLength then .error .tooShort
  else do
  let (year, cs) ← fixed 4 s.toList
  let cs ← exactly '-' cs
  let (month, cs) ← fixed 2 cs
  let cs ← exactly '-' cs
  let (day, cs) ← fixed 2 cs
  if !(Date.isValid ⟨year, month, day⟩) then .error .outOfRange
  else do
  let cs ← separator cs
  let (hour, cs) ← fixed 2 cs
  let cs ← exactly ':' cs
  let (minute, cs) ← fixed 2 cs
  let cs ← exactly ':' cs
  let (second, cs) ← fixed 2 cs
  let (nanos, cs) ← optionalDecimals cs
  within 0 23 hour
  within 0 59 minute
  within 0 60 second
  let (offset, cs) ← offset (exactly ':') cs
  if !cs.isEmpty then .error .tooLong
  else Fields.instant ⟨year, month, day, hour, minute, second, nanos, offset⟩

/-- A field of one to `most` digits behind blanks. -/
def field (most : Nat) (cs : List Char) : Except TimestampError (Nat × List Char) :=
  number 1 most (dropBlanks cs)

/-- A year behind blanks: with a sign it may have any number of digits. -/
def signedYear (cs : List Char) : Except TimestampError (Int × List Char) :=
  match dropBlanks cs with
  | '-' :: rest => do
      let (n, rest) ← number 1 rest.length rest
      return (-n, rest)
  | '+' :: rest => do
      let (n, rest) ← number 1 rest.length rest
      return (n, rest)
  | rest => do
      let (n, rest) ← number 1 4 rest
      return (n, rest)

/-- A given character behind blanks. -/
def blankedExactly (c : Char) (cs : List Char) : Except TimestampError (List Char) :=
  exactly c (dropBlanks cs)

/-- Colons and blanks, any number of them, part hours and minutes of an offset. -/
def lenientPart (cs : List Char) : Except TimestampError (List Char) :=
  .ok (cs.dropWhile fun c => c == ':' || isBlankChar c)

/-- An offset behind blanks, for which `UTC` may stand in any case. -/
def lenientOffset (cs : List Char) : Except TimestampError (Int × List Char) :=
  match dropBlanks cs with
  | a :: b :: c :: rest =>
      if Ascii.upperChar a = 'U' ∧ Ascii.upperChar b = 'T' ∧ Ascii.upperChar c = 'C' then
        .ok (0, rest)
      else offset lenientPart (a :: b :: c :: rest)
  | rest => offset lenientPart rest

/-- Reads a timestamp leniently. -/
def readLenient (s : String) : Except TimestampError Instant := do
  let (year, cs) ← signedYear s.toList
  if year < -2147483648 ∨ 2147483647 < year then .error .outOfRange
  else do
  let cs ← blankedExactly '-' cs
  let (month, cs) ← field 2 cs
  within 1 12 month
  let cs ← blankedExactly '-' cs
  let (day, cs) ← field 2 cs
  within 1 31 day
  let cs ← separator cs
  let (hour, cs) ← field 2 cs
  within 0 23 hour
  let cs ← blankedExactly ':' cs
  let (minute, cs) ← field 2 cs
  within 0 59 minute
  let cs ← blankedExactly ':' cs
  let (second, cs) ← field 2 cs
  within 0 60 second
  let (nanos, cs) ← optionalDecimals cs
  let (offset, cs) ← lenientOffset cs
  if !(dropBlanks cs).isEmpty then .error .tooLong
  else Fields.instant ⟨year, month, day, hour, minute, second, nanos, offset⟩

end Timestamp

end SwarmUpkeep
