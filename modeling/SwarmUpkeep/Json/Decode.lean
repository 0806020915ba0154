import SwarmUpkeep.Json.Document

/-!
# Records in JSON documents

A record is an object with named fields, or an array of its fields in their order. An object may
hold more than the record; no field of the record may occur in it twice, and the names of its
members have to be texts. A field may be missing where the record has a value to put in its place,
but `null` is such a place only for optional fields.
-/

namespace SwarmUpkeep.Json.Document

/-- The documents of the named fields of a record, of which some may be missing. -/
def fields? (names : List String) : Document → Option (List (Option Document))
  | .object members =>
      if members.all fun (name, _) => name.isSome then
        names.mapM fun name =>
          match members.filter fun (key, _) => key == some name with
          | [] => some none
          | [(_, d)] => some (some d)
          | _ => none
      else none
  | .array items =>
      if items.length ≤ names.length then
        some (items.map some ++ List.replicate (names.length - items.length) none)
      else none
  | _ => none

def text? : Document → Option String
  | .string content => content
  | _ => none

def bool? : Document → Option Bool
  | .bool b => some b
  | _ => none

/-- A whole number within bounds. -/
def whole? (least greatest : Int) : Document → Option Int
  | .number digits =>
      match Number.ofDigits? digits with
      | some (.whole n) => if least ≤ n ∧ n ≤ greatest then some n else none
      | _ => none
  | _ => none

def items? : Document → Option (List Document)
  | .array items => some items
  | _ => none

/-- A field that has to be there. -/
def required {α : Type} (decode : Document → Option α) (field : Option Document) : Option α :=
  field.bind decode

/-- A field that may be missing. -/
def withDefault {α : Type} (default : α) (decode : Document → Option α) :
    Option Document → Option α
  | none => some default
  | some d => decode d

/-- A field that may be missing or `null`. -/
def optional {α : Type} (decode : Document → Option α) : Option Document → Option (Option α)
  | none | some .null => some none
  | some d => (decode d).map some

/-- Items of an array. -/
def list? {α : Type} (decode : Document → Option α) : Document → Option (List α)
  | .array items => items.mapM decode
  | _ => none

/-- Members of an object whose values are all decoded; of members with one name the last counts. -/
def map? {α : Type} (decode : Document → Option α) : Document → Option (List (String × α))
  | .object members => members.mapM fun (name, d) => do return (← name, ← decode d)
  | _ => none

end SwarmUpkeep.Json.Document
