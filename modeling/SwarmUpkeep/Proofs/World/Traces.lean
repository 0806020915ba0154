import SwarmUpkeep.Proofs.Program.Transcript
import SwarmUpkeep.Proofs.World.Runs

/-!
# Runs in a world with what is said on the way

A world is carried along with what has been asked on the way to it and where. So what a run makes of
a world can be told by its transcript, and an account of the transcript holds of the run in the
world, too.
-/

namespace SwarmUpkeep

namespace World

/-- A world and what has been asked on the way to it. -/
abbrev Traced : Type :=
  World × List (World × Call)

/-- What has been said on the way. -/
def Traced.told (s : Traced) : List (Exchange Surroundings) :=
  Program.exchanges respond s.2

variable {assumed : World → Call → Prop} {s s' : Traced} {w : World} {c : Call} {α ε : Type}

/-- The rules of a world in which each question comes where it is assumed to come, and may be
asked. -/
abbrev tracedRules (assumed : World → Call → Prop) : Rules Surroundings Traced :=
  (rules assumed fun _ _ => True).traced

theorem answer_of_moves {answer : c.Answer} (h : (tracedRules assumed).moves s c answer s') :
    s.1.respond c = (answer, s'.1) :=
  h.1.2

theorem told_of_moves {answer : c.Answer} (h : (tracedRules assumed).moves s c answer s') :
    s'.told = s.told ++ [⟨c, answer⟩] := by
  rw [Traced.told, h.2, Program.exchanges, List.map_append, List.map_singleton,
    answer_of_moves h]
  rfl

/-- What is still true once a question has been answered is kept by it. -/
theorem traced_keeps {inv : Traced → Prop}
    (h : ∀ s answer s', inv s → (tracedRules assumed).moves s c answer s' → inv s') :
    (tracedRules assumed).Keeps inv c :=
  fun s hs => ⟨trivial, fun answer s' hmove => h s answer s' hs hmove⟩

/-! ## Accounts -/

section Accounts

variable {τ : Type} {next : τ → Exchange Surroundings → τ} {permits : τ → Call → Prop} {t : τ}

/-- What is upheld by an account of what is said is upheld by that of all that has been said on the
way to a world. -/
theorem told_upholds {post : α → τ → Prop} {p : Program Surroundings α}
    (h : p.Upholds (.accounted next permits) post (s.told.foldl next t)) :
    p.Upholds (tracedRules assumed) (fun a s' => post a (s'.told.foldl next t)) s := by
  induction p generalizing s with
  | done a => exact h
  | ask c rest ih =>
      refine ⟨trivial, fun answer s' hmove => ih answer ?_⟩
      rw [told_of_moves hmove, List.foldl_append]
      exact h.2 answer _ rfl

theorem attempt_told_upholds {ok : α → τ → Prop} {err : ε → τ → Prop} {x : Control ε α}
    (h : x.Upholds (.accounted next permits) ok err (s.told.foldl next t)) :
    x.Upholds (tracedRules assumed) (fun a s' => ok a (s'.told.foldl next t))
      (fun e s' => err e (s'.told.foldl next t)) s :=
  (told_upholds h).mono fun r _ hs => by cases r <;> exact hs

end Accounts

/-! ## Runs -/

/-- A control loop that upholds such rules ends as one of the postconditions says of the world that
it leaves and of its transcript. -/
theorem ends_of_traced {ok : α → Traced → Prop} {err : ε → Traced → Prop} {x : Control ε α}
    (h : x.Upholds (tracedRules assumed) ok err (w, []))
    (hvisits : ∀ v ∈ Program.visits respond x w, assumed v.1 v.2) :
    ∃ s : Traced, s.1 = (w.run x).2 ∧ s.2 = Program.visits respond x w ∧
      s.told = Program.transcript respond x w ∧ Attempt.outcomeIs ok err (w.run x).1 s := by
  have hend := Program.Upholds.run_traced h (obeys_rules hvisits)
  rw [List.nil_append] at hend
  refine ⟨_, rfl, rfl, ?_, hend⟩
  exact (Program.transcript_eq_exchanges respond x w).symm

/-- One for which no error is left comes to an end with a value. -/
theorem succeeds_of_traced {ok : α → Traced → Prop} {x : Control ε α}
    (h : x.Upholds (tracedRules assumed) ok (fun _ _ => False) (w, []))
    (hvisits : ∀ v ∈ Program.visits respond x w, assumed v.1 v.2) :
    ∃ a, ∃ s : Traced, (w.run x).1 = .ok a ∧ s.1 = (w.run x).2 ∧
      s.2 = Program.visits respond x w ∧ ok a s := by
  obtain ⟨s, hleft, hsteps, _, hend⟩ := ends_of_traced h hvisits
  cases hresult : (w.run x).1 with
  | ok a =>
      rw [hresult] at hend
      exact ⟨a, s, rfl, hleft, hsteps, hend⟩
  | error e =>
      rw [hresult] at hend
      exact hend.elim

end World

end SwarmUpkeep
