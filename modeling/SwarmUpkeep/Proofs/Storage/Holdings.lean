import SwarmUpkeep.Control.Call
import SwarmUpkeep.Proofs.Program.Attempts
import SwarmUpkeep.Proofs.Storage.Shelf
import SwarmUpkeep.Proofs.Time.Timestamp

/-!
# What tables hold

Tables hold at most one row at each place, which is a partition and a key in a table. Tables that
do not fail answer every question by what they hold, and a question changes no more than the one
place that it names.
-/

namespace SwarmUpkeep

/-- The rows of every table, by its name. -/
abbrev Holdings :=
  String → Shelf

namespace Holdings

variable {held : Holdings} {table partition key table' partition' key' : String} {row : Option Row}

/-- One place of one table takes a row or is cleared. -/
def set (held : Holdings) (table partition key : String) (row : Option Row) : Holdings :=
  fun table' => if table' = table then (held table').set partition key row else held table'

theorem set_self : held.set table partition key row table partition key = row := by
  rw [set, if_pos rfl, Shelf.set_self]

theorem set_of_ne (h : ¬(table' = table ∧ partition' = partition ∧ key' = key)) :
    held.set table partition key row table' partition' key' = held table' partition' key' := by
  unfold set
  split
  next htable => rw [Shelf.set_of_ne fun hplace => h ⟨htable, hplace⟩]
  next => rfl

theorem set_of_eq (h : held table partition key = row) :
    held.set table partition key row = held := by
  funext table'
  unfold set
  split
  next htable =>
    subst htable
    exact Shelf.set_of_eq h
  next => rfl

/-- How tables that do not fail answer, and what they hold afterwards. A row that is not there
cannot be deleted, and a query gives the rows of a partition in the order of their keys. -/
def Serves (held : Holdings) : (call : TableCall) → call.Answer → Holdings → Prop
  | .get table partition key, answer, held' =>
      answer = .ok (held table partition key) ∧ held' = held
  | .upsert table row, answer, held' =>
      answer = .ok () ∧ held' = held.set table row.partition row.key (some row)
  | .delete table partition key, answer, held' =>
      held' = held.set table partition key none ∧
        if (held table partition key).isSome then answer = .ok ()
        else ∃ what, answer = .error (.notFound what)
  | .query table partition, answer, held' =>
      held' = held ∧ ∃ rows, answer = .ok rows ∧ (held table).Lists partition rows

end Holdings

/-- A question to a table or to the clock. -/
def Call.IsFiled : Call → Prop
  | .table _ | .now => True
  | _ => False

/-- Surroundings whose tables do not fail, and whose clock tells instants that can be written. -/
def Holdings.rules {σ : Type} (clock : σ → Instant) (held : σ → Holdings) :
    Rules Surroundings σ where
  allows _ := Call.IsFiled
  moves s c answer s' :=
    match c, answer with
    | .table call, answer => (held s).Serves call answer (held s')
    | .now, answer => answer = clock s ∧ (clock s).IsWritten ∧ held s' = held s
    | _, _ => True

/-- The clock of such surroundings is their own. -/
abbrev Holdings.serving {σ : Type} (respond : σ → (c : Call) → c.Answer × σ)
    (held : σ → Holdings) : Rules Surroundings σ :=
  rules (fun s => (respond s .now).1) held

end SwarmUpkeep
