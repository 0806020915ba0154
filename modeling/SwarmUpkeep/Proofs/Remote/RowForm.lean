import SwarmUpkeep.Proofs.Json.Members
import SwarmUpkeep.Proofs.Remote.TableServer

/-!
# Rows and their objects

A row is sent as an object of its properties and its two keys, and comes back with a time and other
members that the service has added. Reading such an object finds the row again, and sending what
has been read sends the object as it was before the service added to it.
-/

namespace SwarmUpkeep.TableApi

variable {row : Row} {members added : Json.Members} {name : String}

/-- The members of the object that a row is sent as. -/
def rowMembers (row : Row) : Json.Members :=
  (row.properties.insert partitionName (.str row.partition)).insert keyName (.str row.key)

theorem rowJson_eq (row : Row) : rowJson row = .obj (rowMembers row) :=
  rfl

theorem rowMembers_ascending (h : row.properties.Ascending) : (rowMembers row).Ascending :=
  (h.insert _ _).insert _ _

theorem find?_rowMembers (row : Row) (name : String) :
    (rowMembers row).find? name =
      if keyName = name then some (.str row.key)
      else if partitionName = name then some (.str row.partition)
      else row.properties.find? name := by
  rw [rowMembers, Json.Members.find?_insert, Json.Members.find?_insert]

/-- Whether a member is left out when a row is read, though it is no key. -/
def isAddedName (name : String) : Bool :=
  name == timestampName || isServiceMember name

theorem keyName_ne_partitionName : keyName ≠ partitionName := by
  decide

theorem isAddedName_partitionName : isAddedName partitionName = false := by
  decide

theorem isAddedName_keyName : isAddedName keyName = false := by
  decide

/-- The name of a member that is a property of the row. -/
def isOwnName (name : String) : Bool :=
  name != partitionName && name != keyName && name != timestampName && !isServiceMember name

theorem isOwnName_iff : isOwnName name = true ↔ IsOwnName name := by
  simp [isOwnName, IsOwnName, and_assoc]

theorem isOwnName_eq (name : String) : isOwnName name =
    (name != partitionName && name != keyName && !isAddedName name) := by
  simp [isOwnName, isAddedName, bne, Bool.and_assoc]

theorem text?_eq_some_iff {value : Json} {text : String} :
    value.text? = some text ↔ value = .str text := by
  cases value <;> simp [Json.text?]

/-- An object is a row exactly if both its keys are texts. -/
theorem rowOf?_eq_some_iff {members : Json.Members} {row : Row} :
    rowOf? members = some row ↔
      members.find? partitionName = some (.str row.partition) ∧
        members.find? keyName = some (.str row.key) ∧
        row.properties = members.filter fun (name, _) =>
          name != partitionName && name != keyName && name != timestampName &&
            !isServiceMember name := by
  obtain ⟨partition, key, properties⟩ := row
  simp only [rowOf?, Option.bind_eq_bind, Option.bind_eq_some_iff, text?_eq_some_iff,
    Option.pure_def, Option.some.injEq, Row.mk.injEq]
  constructor
  · rintro ⟨_, hpartition, partition, rfl, _, hkey, key, rfl, rfl, rfl, rfl⟩
    exact ⟨hpartition, hkey, rfl⟩
  · rintro ⟨hpartition, hkey, rfl⟩
    exact ⟨_, hpartition, partition, rfl, _, hkey, key, rfl, rfl, rfl, rfl⟩

/-- What the service adds hides none of the row's own members. -/
theorem find?_rowMembers_withAll (hadded : ∀ entry ∈ added, isAddedName entry.1 = true)
    (hname : isAddedName name = false) :
    ((rowMembers row).withAll added).find? name = (rowMembers row).find? name := by
  apply Json.Members.find?_withAll
  rintro entry hentry rfl
  rw [hadded entry hentry] at hname
  cases hname

/-- A row is read from its object, whatever the service has added to it. -/
theorem rowOf?_withAll (hascending : row.properties.Ascending)
    (hown : ∀ entry ∈ row.properties, IsOwnName entry.1)
    (hadded : ∀ entry ∈ added, isAddedName entry.1 = true) :
    rowOf? ((rowMembers row).withAll added) = some row := by
  rw [rowOf?_eq_some_iff]
  refine ⟨?_, ?_, ?_⟩
  · rw [find?_rowMembers_withAll hadded isAddedName_partitionName, find?_rowMembers,
      if_neg keyName_ne_partitionName, if_pos rfl]
  · rw [find?_rowMembers_withAll hadded isAddedName_keyName, find?_rowMembers, if_pos rfl]
  · -- Both sides are in order, so that it is enough to look under each name.
    have hextended := (rowMembers_ascending hascending).withAll added
    apply hascending.ext (hextended.filter _)
    intro name
    refine Eq.trans ?_ (Json.Members.find?_filter isOwnName _ name).symm
    cases hname : isOwnName name with
    | true =>
        obtain ⟨hpartition, hkey, htimestamp, hservice⟩ := isOwnName_iff.mp hname
        have hplain : isAddedName name = false := by simp [isAddedName, htimestamp, hservice]
        rw [if_pos rfl, find?_rowMembers_withAll hadded hplain, find?_rowMembers,
          if_neg hkey.symm, if_neg hpartition.symm]
    | false =>
        rw [if_neg Bool.false_ne_true]
        cases hfind : row.properties.find? name with
        | none => rfl
        | some value =>
            have hmem := hown _ (Json.Members.mem_of_find? hfind)
            rw [isOwnName_iff.mpr hmem] at hname
            cases hname

/-- What has been read as a row is sent as it came, without what the service had added. -/
theorem rowMembers_of_rowOf? (hascending : members.Ascending) (h : rowOf? members = some row) :
    rowMembers row = members.filter fun (name, _) => !isAddedName name := by
  obtain ⟨hpartition, hkey, hproperties⟩ := rowOf?_eq_some_iff.mp h
  have hrow : row.properties.Ascending := by
    rw [hproperties]
    exact hascending.filter _
  apply (rowMembers_ascending hrow).ext (hascending.filter _)
  intro name
  have hfind : row.properties.find? name = if isOwnName name then members.find? name else none := by
    rw [hproperties]
    exact Json.Members.find?_filter isOwnName members name
  rw [find?_rowMembers, Json.Members.find?_filter (fun name => !isAddedName name), hfind]
  split
  next hname =>
    subst hname
    rw [isAddedName_keyName, hkey]
    rfl
  next hkeyName =>
    split
    next hname =>
      subst hname
      rw [isAddedName_partitionName, hpartition]
      rfl
    next hpartitionName =>
      have hown : isOwnName name = !isAddedName name := by
        rw [isOwnName_eq, bne_iff_ne.mpr (Ne.symm hkeyName),
          bne_iff_ne.mpr (Ne.symm hpartitionName), Bool.true_and, Bool.true_and]
      rw [hown]

/-- No row is lost on the way to the service and back. A row whose properties have names of their
own is read again from its object with any time and any members of the service put into it. Any
object with two texts for keys is read as a row that is sent as just that object without its time
and the members of the service, and no other object is read as a row. -/
theorem row_forms_lose_nothing :
    (∀ (row : Row) (added : Json.Members), row.properties.Ascending →
      (∀ entry ∈ row.properties, entry.1 ≠ partitionName ∧ entry.1 ≠ keyName ∧
        entry.1 ≠ timestampName ∧ isServiceMember entry.1 = false) →
      (∀ entry ∈ added, entry.1 = timestampName ∨ isServiceMember entry.1 = true) →
      ∃ sent : Json.Members, rowJson row = .obj sent ∧ rowOf? (sent.withAll added) = some row) ∧
    ∀ members : Json.Members, members.Ascending →
      (∀ partition key, members.find? partitionName = some (.str partition) →
        members.find? keyName = some (.str key) →
        ∃ row, rowOf? members = some row ∧ row.partition = partition ∧ row.key = key ∧
          rowJson row = .obj (members.filter fun (name, _) =>
            name != timestampName && !isServiceMember name)) ∧
      ((∀ partition key, ¬(members.find? partitionName = some (.str partition) ∧
        members.find? keyName = some (.str key))) → rowOf? members = none) := by
  refine ⟨fun row added hascending hown hadded => ?_, fun members hascending => ⟨?_, ?_⟩⟩
  · refine ⟨rowMembers row, rowJson_eq row, rowOf?_withAll hascending hown fun entry hentry => ?_⟩
    simpa [isAddedName] using hadded entry hentry
  · intro partition key hpartition hkey
    obtain ⟨row, hread, rfl, rfl⟩ : ∃ row, rowOf? members = some row ∧
        row.partition = partition ∧ row.key = key :=
      ⟨⟨partition, key, _⟩, rowOf?_eq_some_iff.mpr ⟨hpartition, hkey, rfl⟩, rfl, rfl⟩
    refine ⟨row, hread, rfl, rfl, ?_⟩
    rw [rowJson_eq, rowMembers_of_rowOf? hascending hread]
    simp [isAddedName, bne]
  · intro hkeyless
    cases hread : rowOf? members with
    | none => rfl
    | some row =>
        obtain ⟨hpartition, hkey, _⟩ := rowOf?_eq_some_iff.mp hread
        exact absurd ⟨hpartition, hkey⟩ (hkeyless _ _)

/-- A row whose properties have names that come close to those of the service. -/
def trialRow : Row :=
  ⟨"replicas", "o'brien", [("odata", .str "kept"), ("timestamp", .num (.whole 7))]⟩

/-- The object of a row with a time and a member of the service. -/
def trialObject : Json.Members :=
  [(partitionName, .str "p"), (keyName, .str ""), (timestampName, .null), ("odata.", .bool true),
    ("odatas", .str "own")]

theorem row_forms_lose_nothing_trial :
    (trialRow.properties.Ascending ∧ trialObject.Ascending) ∧
      (∃ sent : Json.Members, rowJson trialRow = .obj sent ∧
        rowOf? (sent.withAll [("odata.etag", .str "W/1"), (timestampName, .str "2018-03-01")]) =
          some trialRow) ∧
      (∃ row, rowOf? trialObject = some row ∧ row.partition = "p" ∧ row.key = "" ∧
        rowJson row = .obj [(partitionName, .str "p"), (keyName, .str ""), ("odatas", .str "own")]) ∧
      rowOf? [(keyName, .str "r")] = none := by
  have hrow : trialRow.properties.Ascending := by
    unfold Json.Members.Ascending
    decide +kernel
  have hobject : trialObject.Ascending := by
    unfold Json.Members.Ascending
    decide +kernel
  have hkeyless : Json.Members.Ascending [(keyName, .str "r")] := List.pairwise_singleton _ _
  obtain ⟨hsent, hread⟩ := row_forms_lose_nothing
  refine ⟨⟨hrow, hobject⟩, hsent trialRow _ hrow (by decide +kernel) (by decide +kernel), ?_, ?_⟩
  · exact (hread trialObject hobject).1 "p" "" rfl (by decide +kernel)
  · refine (hread _ hkeyless).2 ?_
    rintro partition key ⟨hpartition, _⟩
    cases hpartition

end SwarmUpkeep.TableApi
