/-!
# Pieces of a text

A text is cut at every separator, so that there is one piece more than there are separators.
-/

namespace SwarmUpkeep.Text

def pieces (separator : Char) : List Char → List (List Char)
  | [] => [[]]
  | c :: rest =>
      if c = separator then [] :: pieces separator rest
      else
        match pieces separator rest with
        | [] => [[c]]
        | piece :: others => (c :: piece) :: others

theorem pieces_ne_nil (separator : Char) (cs : List Char) : pieces separator cs ≠ [] := by
  cases cs with
  | nil => simp [pieces]
  | cons c rest =>
      unfold pieces
      split
      · simp
      · split <;> simp

variable {separator : Char} {cs : List Char}

theorem pieces_of_notMem (h : separator ∉ cs) : pieces separator cs = [cs] := by
  induction cs with
  | nil => rfl
  | cons c cs ih =>
      simp only [List.mem_cons, not_or] at h
      rw [pieces, if_neg (Ne.symm h.1), ih h.2]

/-- A text around a separator is cut there and on both sides. -/
theorem pieces_append (separator : Char) (cs ds : List Char) :
    pieces separator (cs ++ separator :: ds) =
      pieces separator cs ++ pieces separator ds := by
  induction cs with
  | nil => simp [pieces]
  | cons c cs ih =>
      rw [List.cons_append, pieces, pieces, ih]
      split
      next => rfl
      next =>
        cases hpieces : pieces separator cs with
        | nil => exact absurd hpieces (pieces_ne_nil separator cs)
        | cons piece others => rfl

/-- A piece ends at the first separator. -/
theorem pieces_append_cons (h : separator ∉ cs) (rest : List Char) :
    pieces separator (cs ++ separator :: rest) = cs :: pieces separator rest := by
  rw [pieces_append, pieces_of_notMem h]
  rfl

/-- Every other character is kept in some piece. -/
theorem mem_piece_of_mem {c : Char} (hc : c ∈ cs) (hne : c ≠ separator) :
    ∃ piece ∈ pieces separator cs, c ∈ piece := by
  induction cs with
  | nil => cases hc
  | cons d cs ih =>
      unfold pieces
      rcases List.mem_cons.mp hc with rfl | hc
      · rw [if_neg hne]
        split <;> exact ⟨_, .head _, .head _⟩
      · obtain ⟨piece, hpiece, hmem⟩ := ih hc
        split
        · exact ⟨piece, .tail _ hpiece, hmem⟩
        · split
          next hnil => exact absurd hnil (pieces_ne_nil separator cs)
          next first others heq =>
            rw [heq] at hpiece
            rcases List.mem_cons.mp hpiece with rfl | hothers
            · exact ⟨d :: piece, .head _, .tail _ hmem⟩
            · exact ⟨piece, .tail _ hothers, hmem⟩

end SwarmUpkeep.Text
