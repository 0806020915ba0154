import SwarmUpkeep.Proofs.Program.Transcript

/-!
# Two programs in the same surroundings

A schedule says whose question is answered next, so that each program finds the surroundings as the
other has left them. Of its own questions and answers, a program makes a transcript as if it were
alone: what it upholds whatever is answered, it upholds beside any other program.
-/

namespace SwarmUpkeep

variable {I : Interface} {σ τ α β : Type}

/-- A question with the state in which it is asked, and whether the first of two programs asks. -/
structure Turn (I : Interface) (σ : Type) where
  own : Bool
  state : σ
  call : I.Call

/-- The question of a turn with its answer. -/
def Turn.exchange (respond : σ → (c : I.Call) → I.Answer c × σ) (t : Turn I σ) : Exchange I :=
  ⟨t.call, (respond t.state t.call).1⟩

namespace Program

variable (respond : σ → (c : I.Call) → I.Answer c × σ)

/-- The turns of two programs under a schedule. Nobody has a turn any more who is done. -/
def turns : List Bool → Program I α → Program I β → σ → List (Turn I σ)
  | [], _, _, _ => []
  | true :: schedule, .done a, q, s => turns schedule (.done a) q s
  | true :: schedule, .ask c next, q, s =>
      ⟨true, s, c⟩ :: turns schedule (next (respond s c).1) q (respond s c).2
  | false :: schedule, p, .done b, s => turns schedule p (.done b) s
  | false :: schedule, p, .ask c next, s =>
      ⟨false, s, c⟩ :: turns schedule p (next (respond s c).1) (respond s c).2

/-- The first program's part of some turns, as a transcript. -/
def ownPart (turns : List (Turn I σ)) : List (Exchange I) :=
  (turns.filter (·.own)).map (Turn.exchange respond)

theorem turns_lead (schedule : List Bool) (p : Program I α) (q : Program I β) (s : σ) :
    ∃ left, p.Leads (ownPart respond (turns respond schedule p q s)) left := by
  induction schedule generalizing p q s with
  | nil => exact ⟨p, .here p⟩
  | cons own schedule ih =>
      cases own with
      | true =>
          cases p with
          | done a => exact ih (.done a) q s
          | ask c next =>
              obtain ⟨left, hleads⟩ := ih (next (respond s c).1) q (respond s c).2
              exact ⟨left, .ask hleads⟩
      | false =>
          cases q with
          | done b => exact ih p (.done b) s
          | ask c next => exact ih p (next (respond s c).1) (respond s c).2

variable {respond}

/-- Every question of the first program is permitted by the account of its own part so far. -/
theorem Upholds.permitted_turn {next : τ → Exchange I → τ} {permits : τ → I.Call → Prop}
    {post : α → τ → Prop} {t₀ : τ} {p : Program I α}
    (h : p.Upholds (.accounted next permits) post t₀) {schedule : List Bool} {q : Program I β}
    {s : σ} {past rest : List (Turn I σ)} {t : Turn I σ}
    (hturns : turns respond schedule p q s = past ++ t :: rest) (hown : t.own = true) :
    permits ((ownPart respond past).foldl next t₀) t.call := by
  obtain ⟨left, hleads⟩ := turns_lead respond schedule p q s
  have hparts : ownPart respond (turns respond schedule p q s) =
      ownPart respond past ++ t.exchange respond :: ownPart respond rest := by
    rw [hturns]
    simp only [ownPart, List.filter_append, List.filter_cons, hown, if_true, List.map_append,
      List.map_cons]
  rw [hparts] at hleads
  exact h.permitted hleads

end Program

end SwarmUpkeep
