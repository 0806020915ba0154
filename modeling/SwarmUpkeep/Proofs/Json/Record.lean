import Mathlib.Data.List.Forall2
import SwarmUpkeep.Json.Decode

/-!
# What records tell

A record is told by the members of an object or by the items of an array. What its fields say is put
here without any reader: the readers of records are proved to find just that.
-/

namespace SwarmUpkeep.Json.Document

variable {α β : Type} {d : Document}

/-! ## Fields -/

/-- A document tells the fields of a record, of which some may be missing. Of the members of an
object each belongs to a text, and at most one to the name of a field. The items of an array are the
first fields of the record. -/
inductive IsRecord (names : List String) : Document → List (Option Document) → Prop
  | object {members : List (Option String × Document)} {fields : List (Option Document)}
      (hnamed : ∀ entry ∈ members, entry.1.isSome = true)
      (hfields : List.Forall₂ (fun name field =>
        (members.filter fun entry => entry.1 == some name).map Prod.snd = field.toList)
          names fields) :
      IsRecord names (.object members) fields
  | array {items : List Document} (hitems : items.length ≤ names.length) :
      IsRecord names (.array items)
        (items.map some ++ List.replicate (names.length - items.length) none)

/-- The members of one name, if there is at most one. -/
theorem single?_eq_some_iff {entries : List (Option String × Document)} {field : Option Document} :
    (match entries with
      | [] => some none
      | [(_, d)] => some (some d)
      | _ => none) = some field ↔ entries.map Prod.snd = field.toList := by
  match entries with
  | [] => cases field <;> simp
  | [(_, d)] => cases field <;> simp [eq_comm]
  | _ :: _ :: _ => cases field <;> simp

theorem mapM_eq_some_iff {f : α → Option β} {as : List α} {bs : List β} :
    as.mapM f = some bs ↔ List.Forall₂ (fun a b => f a = some b) as bs := by
  induction as generalizing bs with
  | nil => simp [eq_comm]
  | cons a as ih =>
      rw [List.mapM_cons]
      constructor
      · intro h
        obtain ⟨b, hb, h⟩ := Option.bind_eq_some_iff.mp h
        obtain ⟨rest, hrest, h⟩ := Option.bind_eq_some_iff.mp h
        cases h
        exact .cons hb (ih.mp hrest)
      · rintro (_ | ⟨hb, hrest⟩)
        rw [hb, ih.mpr hrest]
        rfl

/-- The fields that are read are the fields that are told. -/
theorem fields?_eq_some_iff {names : List String} {fields : List (Option Document)} :
    d.fields? names = some fields ↔ IsRecord names d fields := by
  constructor
  · intro h
    cases d with
    | object members =>
        rw [fields?] at h
        split at h
        next hnamed =>
          refine .object (List.all_eq_true.mp hnamed) ((mapM_eq_some_iff.mp h).imp ?_)
          exact fun _ _ => single?_eq_some_iff.mp
        next => cases h
    | array items =>
        rw [fields?] at h
        split at h
        next hitems =>
          cases h
          exact .array hitems
        next => cases h
    | null | bool | number | string => cases h
  · rintro (⟨hnamed, hfields⟩ | hitems)
    · rw [fields?, if_pos (List.all_eq_true.mpr hnamed)]
      exact mapM_eq_some_iff.mpr (hfields.imp fun _ _ => single?_eq_some_iff.mpr)
    · rw [fields?, if_pos hitems]

variable {names : List String} {value : β}

/-- A record of one field that is read further. -/
theorem read_field_iff (read : Option Document → Option β) :
    ((d.fields? names).bind fun
      | [field] => read field
      | _ => none) = some value ↔
      ∃ field, IsRecord names d [field] ∧ read field = some value := by
  constructor
  · intro h
    obtain ⟨fields, hfields, h⟩ := Option.bind_eq_some_iff.mp h
    split at h
    next field => exact ⟨field, fields?_eq_some_iff.mp hfields, h⟩
    next => cases h
  · rintro ⟨field, hfields, h⟩
    rw [fields?_eq_some_iff.mpr hfields]
    exact h

/-- A record of two fields that are read further. -/
theorem read_fields_iff (read : Option Document → Option Document → Option β) :
    ((d.fields? names).bind fun
      | [field, other] => read field other
      | _ => none) = some value ↔
      ∃ field other, IsRecord names d [field, other] ∧ read field other = some value := by
  constructor
  · intro h
    obtain ⟨fields, hfields, h⟩ := Option.bind_eq_some_iff.mp h
    split at h
    next field other => exact ⟨field, other, fields?_eq_some_iff.mp hfields, h⟩
    next => cases h
  · rintro ⟨field, other, hfields, h⟩
    rw [fields?_eq_some_iff.mpr hfields]
    exact h

/-! ## Values of fields -/

/-- A document is a text. -/
def IsText (d : Document) (s : String) : Prop :=
  d = .string (some s)

def IsBool (d : Document) (b : Bool) : Prop :=
  d = .bool b

/-- A document is an array of items that tell these values. -/
def IsArray (told : Document → α → Prop) (d : Document) (values : List α) : Prop :=
  ∃ items, d = .array items ∧ List.Forall₂ told items values

/-- A field is there and has a value. -/
inductive IsRequired (told : Document → α → Prop) : Option Document → α → Prop
  | there {d : Document} {a : α} (h : told d a) : IsRequired told (some d) a

/-- A field is missing, so that it has a value of its own, or it is there. -/
inductive HasDefault (default : α) (told : Document → α → Prop) : Option Document → α → Prop
  | missing : HasDefault default told none default
  | there {d : Document} {a : α} (h : told d a) : HasDefault default told (some d) a

/-- A field is missing, or it is `null`, or it has a value. -/
inductive IsOptional (told : Document → α → Prop) : Option Document → Option α → Prop
  | missing : IsOptional told none none
  | null : IsOptional told (some .null) none
  | there {d : Document} {a : α} (hnull : d ≠ .null) (h : told d a) :
      IsOptional told (some d) (some a)

theorem text?_eq_some_iff (d : Document) (s : String) : d.text? = some s ↔ d.IsText s := by
  unfold IsText
  cases d <;> simp [text?]

theorem bool?_eq_some_iff (d : Document) (b : Bool) : d.bool? = some b ↔ d.IsBool b := by
  unfold IsBool
  cases d <;> simp [bool?]

section

variable {decode : Document → Option α} {told : Document → α → Prop} {field : Option Document}

/-- A reader of a document reads what it tells. -/
def IsReadBy (told : Document → α → Prop) (decode : Document → Option α) : Prop :=
  ∀ d a, decode d = some a ↔ told d a

theorem list?_eq_some_iff (h : IsReadBy told decode) (d : Document) (values : List α) :
    list? decode d = some values ↔ IsArray told d values := by
  constructor
  · intro hread
    cases d with
    | array items =>
        exact ⟨items, rfl, (mapM_eq_some_iff.mp hread).imp fun d a => (h d a).mp⟩
    | null | bool | number | string | object => cases hread
  · rintro ⟨items, rfl, hitems⟩
    exact mapM_eq_some_iff.mpr (hitems.imp fun d a => (h d a).mpr)

theorem required_eq_some_iff (h : IsReadBy told decode) {a : α} :
    required decode field = some a ↔ IsRequired told field a := by
  constructor
  · intro hread
    obtain ⟨d, rfl, hd⟩ := Option.bind_eq_some_iff.mp hread
    exact .there ((h d a).mp hd)
  · rintro ⟨htold⟩
    exact (h _ a).mpr htold

theorem withDefault_eq_some_iff (h : IsReadBy told decode) {default a : α} :
    withDefault default decode field = some a ↔ HasDefault default told field a := by
  constructor
  · intro hread
    cases field with
    | none =>
        cases hread
        exact .missing
    | some d => exact .there ((h d a).mp hread)
  · rintro (_ | htold)
    · rfl
    · exact (h _ a).mpr htold

theorem optional_eq_some_iff (h : IsReadBy told decode) {value : Option α} :
    optional decode field = some value ↔ IsOptional told field value := by
  constructor
  · intro hread
    unfold optional at hread
    split at hread
    next =>
      cases hread
      exact .missing
    next =>
      cases hread
      exact .null
    next d hnull =>
      obtain ⟨a, ha, rfl⟩ := Option.map_eq_some_iff.mp hread
      exact .there hnull ((h d a).mp ha)
  · rintro (_ | _ | ⟨hnull, htold⟩)
    · rfl
    · rfl
    · unfold optional
      split
      next heq => cases heq
      next heq => exact absurd (Option.some.inj heq) hnull
      next heq =>
        cases heq
        rw [(h _ _).mpr htold]
        rfl

end

end SwarmUpkeep.Json.Document
