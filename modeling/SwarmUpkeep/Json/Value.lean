import SwarmUpkeep.Json.Double

/-!
# JSON values

Numbers are whole numbers of 64 bits, signed or unsigned, and doubles. An object is a list of
members in ascending order of their names, each name once; `Members.insert` keeps it so.
-/

namespace SwarmUpkeep

namespace Json

/-- A whole number, or a double for any other one. -/
inductive Number where
  | whole (n : Int)
  | double (d : Double)
deriving DecidableEq, Inhabited

end Json

/-- A JSON value. -/
inductive Json where
  | null
  | bool (b : Bool)
  | num (n : Json.Number)
  | str (s : String)
  | arr (items : List Json)
  | obj (members : List (String × Json))
deriving Inhabited

namespace Json

/-- Members of an object, in ascending order of their names. -/
abbrev Members := List (String × Json)

namespace Members

/-- The value under a name. -/
def find? : Members → String → Option Json
  | [], _ => none
  | (key, value) :: rest, name => if key = name then some value else find? rest name

/-- Puts a value under a name, in the place of one that is there. -/
def insert : Members → String → Json → Members
  | [], name, value => [(name, value)]
  | (key, old) :: rest, name, value =>
      if key = name then (name, value) :: rest
      else if name < key then (name, value) :: (key, old) :: rest
      else (key, old) :: insert rest name value

/-- Members from pairs in any order; of pairs with one name the last counts. -/
def ofPairs (pairs : List (String × Json)) : Members :=
  pairs.foldl (fun members (name, value) => members.insert name value) []

/-- Names ascend, so that no name occurs twice. -/
def Ascending (members : Members) : Prop :=
  members.Pairwise fun a b => a.1 < b.1

end Members

/-- An object from pairs in any order. -/
def object (pairs : List (String × Json)) : Json :=
  .obj (Members.ofPairs pairs)

def text? : Json → Option String
  | .str s => some s
  | _ => none

def items? : Json → Option (List Json)
  | .arr items => some items
  | _ => none

def members? : Json → Option Members
  | .obj members => some members
  | _ => none

def bool? : Json → Option Bool
  | .bool b => some b
  | _ => none

def whole? : Json → Option Int
  | .num (.whole n) => some n
  | _ => none

/-- The member of an object under a name. -/
def get? (value : Json) (name : String) : Option Json :=
  value.members?.bind (·.find? name)

/-- Follows names from object to object. -/
def path? (value : Json) : List String → Option Json
  | [] => some value
  | name :: rest => (value.get? name).bind (·.path? rest)

def ofNat (n : Nat) : Json :=
  .num (.whole n)

def ofInt (n : Int) : Json :=
  .num (.whole n)

/-! ## Equality -/

mutual

/-- Whether two values are the same, by their parts. -/
def same : Json → Json → Bool
  | .null, .null => true
  | .bool a, .bool b => a = b
  | .num a, .num b => a = b
  | .str a, .str b => a = b
  | .arr a, .arr b => sameItems a b
  | .obj a, .obj b => sameMembers a b
  | _, _ => false

def sameItems : List Json → List Json → Bool
  | [], [] => true
  | a :: as, b :: bs => same a b && sameItems as bs
  | _, _ => false

def sameMembers : List (String × Json) → List (String × Json) → Bool
  | [], [] => true
  | (name, a) :: as, (other, b) :: bs => decide (name = other) && same a b && sameMembers as bs
  | _, _ => false

end

mutual

theorem same_iff (a b : Json) : same a b = true ↔ a = b := by
  cases a <;> cases b <;> simp [same, sameItems_iff, sameMembers_iff]

theorem sameItems_iff (as bs : List Json) : sameItems as bs = true ↔ as = bs := by
  cases as with
  | nil => cases bs <;> simp [sameItems]
  | cons a as =>
      cases bs with
      | nil => simp [sameItems]
      | cons b bs => simp [sameItems, same_iff a b, sameItems_iff as bs]

theorem sameMembers_iff (as bs : List (String × Json)) : sameMembers as bs = true ↔ as = bs := by
  cases as with
  | nil => cases bs <;> simp [sameMembers]
  | cons a as =>
      cases bs with
      | nil => simp [sameMembers]
      | cons b bs =>
          obtain ⟨name, a⟩ := a
          obtain ⟨other, b⟩ := b
          simp [sameMembers, same_iff a b, sameMembers_iff as bs, and_assoc]

end

instance : DecidableEq Json :=
  fun a b => decidable_of_iff _ (same_iff a b)

end Json

end SwarmUpkeep
