import SwarmUpkeep.Proofs.Program.Attempts

/-!
# Waits under rules

A wait keeps what each of its checks and each of its pauses keeps, whatever number of attempts it
makes, and where it ends with a value, a check has found that value. Where it ends without one, it
has made all the attempts that its policy allows, unless one of them failed for good.
-/

namespace SwarmUpkeep

open Attempt

variable {I : Interface} [Pausing I] {ε α σ : Type} [Retryable ε] {rules : Rules I σ}
variable {ok : α → σ → Prop} {inv : σ → Prop} {check : Attempt I ε (Option α)}
variable {policy : RetryPolicy} {what : String} {s : σ}

/-- A check keeps the invariant as long as it finds no value, and a value that it finds is as it
should be. -/
def Checks (rules : Rules I σ) (inv : σ → Prop) (ok : α → σ → Prop)
    (check : Attempt I ε (Option α)) : Prop :=
  ∀ s, inv s →
    check.Upholds rules (fun value s' => (value = none → inv s') ∧ ∀ a, value = some a → ok a s')
      (fun _ => inv) s

/-- Letting time pass keeps the invariant. -/
def Pauses (rules : Rules I σ) (inv : σ → Prop) : Prop :=
  ∀ s ms, inv s → (Pausing.pause ms : Program I Unit).Upholds rules (fun _ => inv) s

theorem pauseBefore_upholds (hpause : Pauses rules inv) (remaining : Nat) (hs : inv s) :
    (pauseBefore policy remaining : Program I Unit).Upholds rules (fun _ => inv) s := by
  unfold pauseBefore
  split
  · exact hs
  · exact hpause s _ hs

/-! ## Attempts that are counted -/

/-- An invariant that tells how many attempts have been made is carried on by a check that finds no
value. -/
def CountedChecks (rules : Rules I σ) (inv : Nat → σ → Prop) (ok : α → σ → Prop)
    (check : Attempt I ε (Option α)) : Prop :=
  ∀ made s, inv made s →
    check.Upholds rules
      (fun value s' => (value = none → inv (made + 1) s') ∧ ∀ a, value = some a → ok a s')
      (fun _ => inv (made + 1)) s

/-- A wait without a value has made all its attempts, unless one of them has failed for good. -/
def spentAll (policy : RetryPolicy) (inv : Nat → σ → Prop) : RetryError ε → σ → Prop
  | .exhausted _ _ _ => inv policy.attempts
  | .failed _ => fun s => ∃ made, inv made s

section Counted

variable {inv : Nat → σ → Prop} {made remaining : Nat}

theorem pollFrom_counts (hcheck : CountedChecks rules inv ok check)
    (hpause : ∀ made, Pauses rules (inv made)) (lastError : Option String)
    (hbudget : made + remaining = policy.attempts) (hs : inv made s) :
    (pollFrom policy what check remaining lastError).Upholds rules ok (spentAll policy inv) s := by
  induction remaining generalizing made lastError s with
  | zero =>
      have hspent : inv policy.attempts s := by
        rw [← hbudget]
        exact hs
      exact hspent
  | succ remaining ih =>
      have hrest : ∀ last s', inv (made + 1) s' →
          ((pauseBefore policy remaining).bind fun _ =>
            pollFrom policy what check remaining last).Upholds rules
              (outcomeIs ok (spentAll policy inv)) s' := by
        intro last s' hs'
        refine (pauseBefore_upholds (hpause _) remaining hs').bind ?_
        intro _ s'' hs''
        exact ih last (by omega) hs''
      unfold pollFrom
      refine Program.Upholds.bind (hcheck made s hs) ?_
      intro r s' hr
      cases r with
      | ok value =>
          cases value with
          | some a => exact hr.2 a rfl
          | none => exact hrest lastError s' (hr.1 rfl)
      | error e =>
          dsimp only
          split
          · exact hrest _ s' hr
          · exact ⟨made + 1, hr⟩

theorem pollUntil_counts (hcheck : CountedChecks rules inv ok check)
    (hpause : ∀ made, Pauses rules (inv made)) (hs : inv 0 s) :
    (pollUntil policy what check).Upholds rules ok (spentAll policy inv) s :=
  pollFrom_counts hcheck hpause none (Nat.zero_add _) hs

end Counted

theorem pollUntil_upholds (hcheck : Checks rules inv ok check) (hpause : Pauses rules inv)
    (hs : inv s) : (pollUntil policy what check).Upholds rules ok (fun _ => inv) s := by
  have hcounts : (pollUntil policy what check).Upholds rules ok (spentAll policy fun _ => inv) s :=
    pollUntil_counts (fun _ => hcheck) (fun _ => hpause) hs
  refine hcounts.monoError ?_
  intro e s' he
  cases e with
  | exhausted what attempts lastError => exact he
  | failed error =>
      obtain ⟨_, hs'⟩ := he
      exact hs'

/-! ## Questions alone -/

variable {allowed : I.Call → Prop}

theorem pollUntil_asks (hcheck : check.Asks allowed)
    (hpause : ∀ ms, (Pausing.pause ms : Program I Unit).Asks allowed) :
    (pollUntil policy what check).Asks allowed := by
  refine asks_iff.mpr (pollUntil_upholds (fun _ _ => ?_) ?_ trivial)
  · exact (asks_iff.mp hcheck).mono (fun _ _ _ => ⟨fun _ => trivial, fun _ _ => trivial⟩)
      fun _ _ h => h
  · exact fun _ ms _ => hpause ms

theorem retryTransient_asks {action : Attempt I ε α} (haction : action.Asks allowed)
    (hpause : ∀ ms, (Pausing.pause ms : Program I Unit).Asks allowed) :
    (retryTransient policy what action).Asks allowed :=
  pollUntil_asks (haction.bind fun a => asks_pure (some a)) hpause

end SwarmUpkeep
