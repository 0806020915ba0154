import SwarmUpkeep.Json.Value

/-!
# Fields of objects

Descriptions of settings and worlds are JSON objects with named fields. A field that is `null`
counts as missing. What cannot be read is told by its name.
-/

namespace SwarmUpkeep.Json.Fields

/-- A value, or the name of what could not be read. -/
abbrev Reading := Except String

/-- A value that has to be there. -/
def need {α : Type} (name : String) : Option α → Reading α
  | some a => .ok a
  | none => .error name

/-- The field of this name, unless it is missing or `null`. -/
def given? (j : Json) (name : String) : Option Json :=
  match j.get? name with
  | some .null => none
  | value => value

def field {α : Type} (decode : Json → Option α) (j : Json) (name : String) : Reading α :=
  need name ((given? j name).bind decode)

/-- A field that has a value where it is missing. -/
def fieldOr {α : Type} (default : α) (decode : Json → Option α) (j : Json) (name : String) :
    Reading α :=
  match given? j name with
  | some value => need name (decode value)
  | none => .ok default

/-- A field that may be missing. -/
def optional {α : Type} (decode : Json → Option α) (j : Json) (name : String) :
    Reading (Option α) :=
  fieldOr none (fun v => (decode v).map some) j name

def nat? (j : Json) : Option Nat :=
  j.whole?.bind fun n => if 0 ≤ n then some n.toNat else none

def list? {α : Type} (decode : Json → Option α) (j : Json) : Option (List α) :=
  j.items?.bind (·.mapM decode)

def text : Json → String → Reading String :=
  field Json.text?

def textOr (default : String) : Json → String → Reading String :=
  fieldOr default Json.text?

def texts : Json → String → Reading (List String) :=
  fieldOr [] (list? Json.text?)

/-- A switch that is off where it is missing. -/
def flag : Json → String → Reading Bool :=
  fieldOr false Json.bool?

def items : Json → String → Reading (List Json) :=
  fieldOr [] Json.items?

def members : Json → String → Reading Members :=
  fieldOr [] Json.members?

/-- The items of a field, each read by itself. -/
def itemsOf {α : Type} (read : Json → Reading α) (j : Json) (name : String) :
    Reading (List α) := do
  (← items j name).mapM read

end SwarmUpkeep.Json.Fields
