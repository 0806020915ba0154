/-!
# Lists of values under keys

Each key stands for one value; a new one goes to the end.
-/

namespace SwarmUpkeep.Keyed

variable {κ α : Type} [DecidableEq κ]

/-- The value under a key. -/
def find? : List (κ × α) → κ → Option α
  | [], _ => none
  | (key, a) :: rest, k => if key = k then some a else find? rest k

/-- Puts a value under a key, in the place of one that is there. -/
def set : List (κ × α) → κ → α → List (κ × α)
  | [], k, a => [(k, a)]
  | (key, old) :: rest, k, a =>
      if key = k then (k, a) :: rest else (key, old) :: set rest k a

/-- Removes what is under a key. -/
def erase (entries : List (κ × α)) (k : κ) : List (κ × α) :=
  entries.filter fun (key, _) => key ≠ k

theorem find?_set_self (entries : List (κ × α)) (k : κ) (a : α) :
    find? (set entries k a) k = some a := by
  induction entries with
  | nil => simp [set, find?]
  | cons entry rest ih =>
      obtain ⟨key, old⟩ := entry
      by_cases h : key = k <;> simp [set, find?, h, ih]

theorem find?_set_of_ne (entries : List (κ × α)) {k l : κ} (a : α) (h : l ≠ k) :
    find? (set entries k a) l = find? entries l := by
  induction entries with
  | nil => simp [set, find?, h.symm]
  | cons entry rest ih =>
      obtain ⟨key, old⟩ := entry
      by_cases hk : key = k
      · subst hk
        simp [set, find?, h.symm]
      · by_cases hl : key = l
        · subst hl
          simp [set, find?, hk]
        · simp [set, find?, hk, hl, ih]

/-- A later value takes the place of an earlier one. -/
theorem set_set (entries : List (κ × α)) (k : κ) (a b : α) :
    set (set entries k a) k b = set entries k b := by
  induction entries with
  | nil => simp [set]
  | cons entry rest ih =>
      obtain ⟨key, old⟩ := entry
      by_cases h : key = k <;> simp [set, h, ih]

/-- Nothing changes when a value is put where it is. -/
theorem set_find? {entries : List (κ × α)} {k : κ} {a : α} (h : find? entries k = some a) :
    set entries k a = entries := by
  induction entries with
  | nil => simp [find?] at h
  | cons entry rest ih =>
      obtain ⟨key, old⟩ := entry
      by_cases hk : key = k
      · simp only [find?, hk, if_true, Option.some.injEq] at h
        simp [set, hk, h]
      · simp only [find?, hk, if_false] at h
        simp [set, hk, ih h]

theorem find?_erase_self (entries : List (κ × α)) (k : κ) : find? (erase entries k) k = none := by
  induction entries with
  | nil => rfl
  | cons entry rest ih =>
      obtain ⟨key, old⟩ := entry
      by_cases hk : key = k
      · simpa [erase, hk] using ih
      · simpa [erase, find?, hk] using ih

theorem find?_erase_of_ne (entries : List (κ × α)) {k l : κ} (h : l ≠ k) :
    find? (erase entries k) l = find? entries l := by
  induction entries with
  | nil => rfl
  | cons entry rest ih =>
      obtain ⟨key, old⟩ := entry
      by_cases hk : key = k
      · subst hk
        simpa [erase, find?, h.symm] using ih
      · by_cases hl : key = l
        · subst hl
          simp [erase, find?, hk]
        · simpa [erase, find?, hk, hl] using ih

end SwarmUpkeep.Keyed
