import SwarmUpkeep.Proofs.Control.Retry
import SwarmUpkeep.Proofs.Program.Transcript

/-!
# Logs

Of all that is said in a run, a log keeps the exchanges that count, in the order in which they take
place. What an attempt adds to a log is foretold from what its parts add, and a wait whose vain
checks do not count adds what its last check adds.
-/

namespace SwarmUpkeep

variable {I : Interface} {ε ε' α β σ : Type} {counts : Exchange I → Bool}

/-- The rules that forbid nothing and keep the exchanges that count. -/
abbrev Rules.logged (counts : Exchange I → Bool) : Rules I (List (Exchange I)) :=
  .accounted (fun log e => log ++ [e].filter counts) fun _ _ => True

theorem foldl_logged (record log : List (Exchange I)) :
    record.foldl (fun log e => log ++ [e].filter counts) log = log ++ record.filter counts := by
  induction record generalizing log with
  | nil => simp
  | cons e record ih =>
      rw [List.foldl_cons, ih, List.append_assoc, ← List.filter_append, List.singleton_append]

namespace Attempt

/-- Where the attempt ends with a value, it has logged what is foretold for that value. -/
def Logs (counts : Exchange I → Bool) (x : Attempt I ε α)
    (foretold : α → List (Exchange I) → Prop) : Prop :=
  ∀ log, x.Upholds (.logged counts) (fun a log' => ∃ part, foretold a part ∧ log' = log ++ part)
    (fun _ _ => True) log

variable {foretold foretold' : α → List (Exchange I) → Prop} {x : Attempt I ε α}

theorem logs_pure {a : α} (h : foretold a []) : (pure a : Attempt I ε α).Logs counts foretold :=
  fun log => ⟨[], h, (List.append_nil log).symm⟩

/-- A sequence logs what its first part logs and then what its second part does. -/
theorem Logs.bind {foretold : β → List (Exchange I) → Prop} {m : α → List (Exchange I) → Prop}
    {f : α → Attempt I ε β} (h : x.Logs counts m)
    (hf : ∀ a past, m a past → (f a).Logs counts fun b part => foretold b (past ++ part)) :
    (x >>= f).Logs counts foretold := by
  intro log
  refine (h log).bind ?_
  rintro a _ ⟨past, hpast, rfl⟩
  refine (hf a past hpast _).mono ?_ fun _ _ he => he
  rintro b log' ⟨part, hpart, rfl⟩
  exact ⟨_, hpart, List.append_assoc ..⟩

theorem Logs.mapError {f : ε → ε'} (h : x.Logs counts foretold) :
    (x.mapError f).Logs counts foretold :=
  fun log => (h log).renamed

theorem Logs.discard {foretold : List (Exchange I) → Prop}
    (h : x.Logs counts fun _ => foretold) :
    Logs counts (discard x : Attempt I ε Unit) fun _ => foretold := by
  refine Logs.bind h ?_
  intro _ past hpast
  refine logs_pure ?_
  rw [List.append_nil]
  exact hpast

theorem Logs.mono (h : x.Logs counts foretold)
    (himp : ∀ a part, foretold a part → foretold' a part) : x.Logs counts foretold' :=
  fun log => (h log).mono (fun a _ ⟨part, hpart, hlog⟩ => ⟨part, himp a part hpart, hlog⟩)
    fun _ _ he => he

/-- Whoever answers, the log of a run that ends with a value is as foretold. -/
theorem Logs.transcript {a : α} (h : x.Logs counts foretold)
    (respond : σ → (c : I.Call) → I.Answer c × σ) (s : σ)
    (hresult : (Program.run respond x s).1 = .ok a) :
    foretold a ((Program.transcript respond x s).filter counts) := by
  have hpost := Program.Upholds.transcript (h []) respond s
  rw [hresult] at hpost
  obtain ⟨part, hpart, hlog⟩ := hpost
  rw [foldl_logged, List.nil_append, List.nil_append] at hlog
  rw [hlog]
  exact hpart

end Attempt

open Attempt

/-! ## Waits -/

variable {foretold : α → List (Exchange I) → Prop}
variable {c : I.Call} {next : I.Answer c → Attempt I ε (Option α)}

variable [Pausing I] [Retryable ε] {policy : RetryPolicy} {what : String}

end SwarmUpkeep
