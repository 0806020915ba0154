import Mathlib.Data.List.Sort
import SwarmUpkeep.Storage.Row

/-!
# The rows of one table

A table holds at most one row at each place, which is a partition and a key. The rows of a
partition are listed in the order of their keys, in only one way.
-/

namespace SwarmUpkeep

/-- The row at each place of a table, by partition and key. -/
abbrev Shelf :=
  String → String → Option Row

namespace Shelf

variable {shelf : Shelf} {partition key partition' key' : String} {row : Option Row}
variable {rows rows' : List Row}

/-- One place takes a row or is cleared. -/
def set (shelf : Shelf) (partition key : String) (row : Option Row) : Shelf :=
  fun partition' key' =>
    if partition' = partition ∧ key' = key then row else shelf partition' key'

theorem set_self : shelf.set partition key row partition key = row :=
  if_pos ⟨rfl, rfl⟩

theorem set_of_ne (h : ¬(partition' = partition ∧ key' = key)) :
    shelf.set partition key row partition' key' = shelf partition' key' :=
  if_neg h

theorem set_of_eq (h : shelf partition key = row) : shelf.set partition key row = shelf := by
  funext partition' key'
  by_cases hplace : partition' = partition ∧ key' = key
  · obtain ⟨rfl, rfl⟩ := hplace
    rw [set_self, h]
  · exact set_of_ne hplace

/-- These are the rows of a partition, each under its own key and in the order of the keys. -/
structure Lists (shelf : Shelf) (partition : String) (rows : List Row) : Prop where
  ascending : rows.Pairwise fun r r' => r.key < r'.key
  found : ∀ key row, shelf partition key = some row ↔ row ∈ rows ∧ row.key = key

namespace Lists

theorem nil : Lists (fun _ _ => none) partition [] where
  ascending := .nil
  found _ _ := by simp

theorem mem_iff (h : shelf.Lists partition rows) (row : Row) :
    row ∈ rows ↔ shelf partition row.key = some row := by
  rw [h.found]
  exact (and_iff_left rfl).symm

theorem unique (h : shelf.Lists partition rows) (h' : shelf.Lists partition rows') :
    rows = rows' := by
  have : Std.Irrefl fun r r' : Row => r.key < r'.key := ⟨fun r => String.lt_irrefl r.key⟩
  have : Std.Antisymm fun r r' : Row => r.key < r'.key :=
    ⟨fun r r' hless hmore => absurd hmore (String.lt_asymm hless)⟩
  apply h.ascending.eq_of_mem_iff h'.ascending
  intro row
  rw [h.mem_iff, h'.mem_iff]

/-- A row behind all others comes last. -/
theorem concat (h : shelf.Lists partition rows) {row : Row} (hlast : ∀ r ∈ rows, r.key < row.key) :
    (shelf.set partition row.key (some row)).Lists partition (rows ++ [row]) where
  ascending := by
    refine List.pairwise_append.mpr ⟨h.ascending, List.pairwise_singleton _ _, ?_⟩
    intro r hr r' hr'
    rw [List.mem_singleton.mp hr']
    exact hlast r hr
  found key other := by
    by_cases hkey : key = row.key
    · subst hkey
      rw [set_self, Option.some_inj, List.mem_append, List.mem_singleton]
      constructor
      · rintro rfl
        exact ⟨.inr rfl, rfl⟩
      · rintro ⟨hother | hother, hsame⟩
        · exact absurd (hlast other hother) (hsame ▸ String.lt_irrefl _)
        · exact hother.symm
    · rw [set_of_ne fun hplace => hkey hplace.2, h.found, List.mem_append, List.mem_singleton]
      constructor
      · rintro ⟨hother, hsame⟩
        exact ⟨.inl hother, hsame⟩
      · rintro ⟨hother | rfl, hsame⟩
        · exact ⟨hother, hsame⟩
        · exact absurd hsame.symm hkey

/-- Without the row of a key the others stay in their order. -/
theorem remove (h : shelf.Lists partition rows) (key : String) :
    (shelf.set partition key none).Lists partition (rows.filter fun row => row.key ≠ key) where
  ascending := h.ascending.filter _
  found key' row := by
    rw [List.mem_filter, decide_eq_true_eq]
    by_cases hkey : key' = key
    · subst hkey
      rw [set_self]
      constructor
      · intro hnone
        cases hnone
      · rintro ⟨⟨_, hne⟩, hsame⟩
        exact absurd hsame hne
    · rw [set_of_ne fun hplace => hkey hplace.2, h.found]
      constructor
      · rintro ⟨hrow, rfl⟩
        exact ⟨⟨hrow, hkey⟩, rfl⟩
      · rintro ⟨⟨hrow, _⟩, hsame⟩
        exact ⟨hrow, hsame⟩

end Lists

end Shelf

end SwarmUpkeep
