import Mathlib.Data.List.Basic
import SwarmUpkeep.Json.Value

/-!
# Members of objects

Members in ascending order are told by what is found under each name. To insert a member or to
leave members out by their names keeps the order, and changes nothing under any other name.
-/

namespace SwarmUpkeep.Json.Members

variable {members extras : Members} {name other : String} {value : Json}

/-! ## What is found -/

theorem find?_cons (name : String) (value : Json) (members : Members) (other : String) :
    find? ((name, value) :: members) other =
      if name = other then some value else find? members other :=
  rfl

theorem find?_insert (members : Members) (name : String) (value : Json) (other : String) :
    find? (insert members name value) other =
      if name = other then some value else find? members other := by
  induction members with
  | nil => rfl
  | cons entry members ih =>
      obtain ⟨key, old⟩ := entry
      unfold insert
      split
      next hkey =>
        subst hkey
        simp only [find?_cons]
        split <;> rfl
      next hkey =>
        split
        next => rfl
        next =>
          rw [find?_cons, find?_cons, ih]
          by_cases hother : key = other
          · subst hother
            rw [if_pos rfl, if_neg (Ne.symm hkey), if_pos rfl]
          · rw [if_neg hother, if_neg hother]

/-- Leaving out members by their names does not hide the others. -/
theorem find?_filter (keep : String → Bool) (members : Members) (name : String) :
    find? (members.filter fun (other, _) => keep other) name =
      if keep name then find? members name else none := by
  induction members with
  | nil => simp [find?]
  | cons entry members ih =>
      obtain ⟨key, value⟩ := entry
      rw [List.filter_cons]
      dsimp only
      by_cases hname : key = name
      · subst hname
        by_cases hkeep : keep key = true
        · rw [if_pos hkeep, if_pos hkeep, find?_cons, find?_cons, if_pos rfl, if_pos rfl]
        · rw [if_neg hkeep, if_neg hkeep]
          exact ih.trans (if_neg hkeep)
      · rw [find?_cons, if_neg hname, ← ih]
        split
        next => rw [find?_cons, if_neg hname]
        next => rfl

/-- Only what is there is found. -/
theorem mem_of_find? (h : find? members name = some value) : (name, value) ∈ members := by
  induction members with
  | nil => simp [find?] at h
  | cons entry members ih =>
      obtain ⟨key, old⟩ := entry
      rw [find?_cons] at h
      split at h
      next hkey =>
        cases h
        simp [hkey]
      next => exact .tail _ (ih h)

/-! ## Order -/

theorem eq_or_mem_of_mem_insert {entry : String × Json} (h : entry ∈ insert members name value) :
    entry = (name, value) ∨ entry ∈ members := by
  induction members with
  | nil => simpa [insert] using h
  | cons head members ih =>
      obtain ⟨key, old⟩ := head
      unfold insert at h
      split at h
      next => rcases List.mem_cons.mp h with hentry | hentry <;> simp [hentry]
      next =>
        split at h
        next => exact List.mem_cons.mp h
        next =>
          rcases List.mem_cons.mp h with hentry | hentry
          · simp [hentry]
          · rcases ih hentry with hentry | hentry <;> simp [hentry]

namespace Ascending

/-- Each member is behind those with lesser names. -/
theorem lt_of_mem {entry : String × Json} (h : Ascending ((name, value) :: members))
    (hentry : entry ∈ members) : name < entry.1 :=
  (List.pairwise_cons.mp h).1 entry hentry

theorem tail {entry : String × Json} (h : Ascending (entry :: members)) : Ascending members :=
  (List.pairwise_cons.mp h).2

theorem insert (h : Ascending members) (name : String) (value : Json) :
    Ascending (members.insert name value) := by
  induction members with
  | nil => exact List.pairwise_singleton _ _
  | cons head members ih =>
      obtain ⟨key, old⟩ := head
      unfold Members.insert
      split
      next hkey =>
        subst hkey
        exact List.pairwise_cons.mpr ⟨fun _ => h.lt_of_mem, h.tail⟩
      next hkey =>
        split
        next hless =>
          refine List.pairwise_cons.mpr ⟨fun entry hentry => ?_, h⟩
          rcases List.mem_cons.mp hentry with rfl | hentry
          · exact hless
          · exact String.lt_trans hless (h.lt_of_mem hentry)
        next hge =>
          refine List.pairwise_cons.mpr ⟨fun entry hentry => ?_, ih h.tail⟩
          rcases eq_or_mem_of_mem_insert hentry with rfl | hentry
          · exact String.not_le.mp fun hle => hkey (String.le_antisymm (String.not_lt.mp hge) hle)
          · exact h.lt_of_mem hentry

theorem filter (h : Ascending members) (keep : String × Json → Bool) :
    Ascending (members.filter keep) :=
  List.Pairwise.filter keep h

/-- The first name is found nowhere behind. -/
theorem find?_tail (h : Ascending ((name, value) :: members)) : find? members name = none := by
  cases hfind : find? members name with
  | none => rfl
  | some found => exact absurd (h.lt_of_mem (mem_of_find? hfind)) (String.lt_irrefl name)

/-- The least name comes first. -/
theorem find?_of_lt (h : Ascending ((other, value) :: members)) (hless : name < other) :
    find? ((other, value) :: members) name = none := by
  cases hfind : find? ((other, value) :: members) name with
  | none => rfl
  | some found =>
      rcases List.mem_cons.mp (mem_of_find? hfind) with hsame | hmem
      · cases hsame
        exact absurd hless (String.lt_irrefl name)
      · exact absurd (String.lt_trans hless (h.lt_of_mem hmem)) (String.lt_irrefl name)

/-- Members in order are told by what is found under each name. -/
theorem ext {members' : Members} (h : Ascending members) (h' : Ascending members')
    (hfind : ∀ name, find? members name = find? members' name) : members = members' := by
  -- The two first names are the same, as neither can stand before the other.
  induction members generalizing members' with
  | nil =>
      cases members' with
      | nil => rfl
      | cons entry members' => simpa [find?] using hfind entry.1
  | cons entry members ih =>
      obtain ⟨name, value⟩ := entry
      cases members' with
      | nil => simpa [find?] using hfind name
      | cons entry' members' =>
          obtain ⟨name', value'⟩ := entry'
          have hname : name = name' := by
            apply String.le_antisymm
            · rw [← String.not_lt]
              intro hless
              have hfound := hfind name'
              rw [h.find?_of_lt hless, find?_cons, if_pos rfl] at hfound
              cases hfound
            · rw [← String.not_lt]
              intro hless
              have hfound := hfind name
              rw [h'.find?_of_lt hless, find?_cons, if_pos rfl] at hfound
              cases hfound
          subst hname
          have hvalue := hfind name
          rw [find?_cons, find?_cons, if_pos rfl, if_pos rfl] at hvalue
          cases hvalue
          rw [ih h.tail h'.tail]
          intro other
          by_cases hother : name = other
          · subst hother
            rw [h.find?_tail, h'.find?_tail]
          · simpa only [find?_cons, if_neg hother] using hfind other

end Ascending

/-! ## Several members -/

/-- Members with more put among them. -/
def withAll (members extras : Members) : Members :=
  extras.foldl (fun members (name, value) => members.insert name value) members

theorem Ascending.withAll (h : Ascending members) (extras : Members) :
    Ascending (members.withAll extras) := by
  induction extras generalizing members with
  | nil => exact h
  | cons entry extras ih => exact ih (h.insert entry.1 entry.2)

/-- What is put among members has no effect on a name that none of it has. -/
theorem find?_withAll (h : ∀ entry ∈ extras, entry.1 ≠ name) :
    find? (members.withAll extras) name = find? members name := by
  induction extras generalizing members with
  | nil => rfl
  | cons entry extras ih =>
      obtain ⟨hentry, hextras⟩ := List.forall_mem_cons.mp h
      refine (ih hextras).trans ?_
      rw [find?_insert, if_neg hentry]

/-- A member behind all others is put at the end. -/
theorem insert_of_lt (h : ∀ entry ∈ members, entry.1 < name) :
    insert members name value = members ++ [(name, value)] := by
  induction members with
  | nil => rfl
  | cons entry members ih =>
      obtain ⟨hentry, hmembers⟩ := List.forall_mem_cons.mp h
      have hne : entry.1 ≠ name := fun heq => String.lt_irrefl name (heq ▸ hentry)
      have hnot : ¬ name < entry.1 := fun hlt => String.lt_irrefl name (String.lt_trans hlt hentry)
      rw [insert, if_neg hne, if_neg hnot, ih hmembers]
      rfl

/-- Members that are in order behind others are put there one after the other. -/
theorem withAll_of_ascending (h : Ascending (members ++ extras)) :
    members.withAll extras = members ++ extras := by
  induction extras generalizing members with
  | nil => exact (List.append_nil members).symm
  | cons entry extras ih =>
      have hlast : ∀ other ∈ members, other.1 < entry.1 := fun other hother =>
        (List.pairwise_append.mp h).2.2 other hother entry List.mem_cons_self
      rw [withAll, List.foldl_cons]
      change (members.insert entry.1 entry.2).withAll extras = _
      rw [List.append_cons] at h
      rw [insert_of_lt hlast, ih h, ← List.append_cons]

theorem mem_withAll {entry : String × Json} (h : entry ∈ members.withAll extras) :
    entry ∈ members ∨ entry ∈ extras := by
  induction extras generalizing members with
  | nil => exact .inl h
  | cons extra extras ih =>
      rcases ih h with hmem | hmem
      · rcases eq_or_mem_of_mem_insert hmem with rfl | hmem
        · exact .inr List.mem_cons_self
        · exact .inl hmem
      · exact .inr (.tail _ hmem)

/-! ## Members from pairs -/

theorem ascending_ofPairs (pairs : List (String × Json)) : Ascending (ofPairs pairs) :=
  Ascending.withAll List.Pairwise.nil pairs

theorem mem_of_mem_ofPairs {pairs : List (String × Json)} {entry : String × Json}
    (h : entry ∈ ofPairs pairs) : entry ∈ pairs :=
  (mem_withAll h).resolve_left List.not_mem_nil

theorem Ascending.ofPairs_eq (h : Ascending members) : ofPairs members = members :=
  @withAll_of_ascending [] members h

end SwarmUpkeep.Json.Members
