import SwarmUpkeep.Json.Value

/-!
# Rows and messages

A row of a table is addressed by a partition and a key within it. A message of a queue has an
identifier and a text.
-/

namespace SwarmUpkeep

/-- A row of a table. -/
structure Row where
  partition : String
  key : String
  properties : Json.Members
deriving Inhabited

namespace Row

/-- A row without properties. -/
def empty (partition key : String) : Row :=
  ⟨partition, key, []⟩

/-- Sets a property to a text. -/
def withText (row : Row) (name value : String) : Row :=
  { row with properties := row.properties.insert name (.str value) }

/-- The property of this name, if it is a text. -/
def text? (row : Row) (name : String) : Option String :=
  (row.properties.find? name).bind Json.text?

end Row

/-- A message of a queue. -/
structure Message where
  id : String
  text : String
deriving DecidableEq, Inhabited

end SwarmUpkeep
