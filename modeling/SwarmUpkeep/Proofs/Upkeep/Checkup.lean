import SwarmUpkeep.Proofs.Upkeep.Questions

/-!
# The course of a check

A check goes from the lock to the machines of a scale set, on to the members of a role, through the
machines one by one and then through the dead ones. What holds at each of these stations and what each
part makes of it tells how a check ends. A heal pass keeps what its checks and reconciliations keep.
-/

namespace SwarmUpkeep.Health

open Attempt Control

variable {σ : Type} {rules : Rules Surroundings σ} {s : σ}

/-! ## A check -/

/-- The report of a check with these verdicts. -/
def reportOf (set : String) (verdicts : List (MachineAddress × Verdict)) (newCapacity : Option Nat) :
    Report :=
  { scaleSet := set
    checked := namesWhere (· ≠ .skipped) verdicts
    skipped := namesWhere (· = .skipped) verdicts
    dead := (deadRows verdicts).map (·.computerName)
    newCapacity }

/-- What holds at the stations of a check: when nobody holds the lock, when the machines are known,
and when the members are known and the first machines have been examined with these verdicts. -/
structure Stations (σ : Type) where
  free : σ → Prop
  tabled : (table : List MachineAddress) → σ → Prop
  examined : (table : List MachineAddress) → (members : List Member) →
    (past : List MachineAddress) → (verdicts : List (MachineAddress × Verdict)) → σ → Prop

/-- The stations of a check at all of which the same holds. -/
def Stations.same (inv : σ → Prop) : Stations σ where
  free := inv
  tabled _ := inv
  examined _ _ _ _ := inv

/-- What holds at the stations of a check where it is told, too, which of the dead machines have been
replaced. -/
structure Rounds (σ : Type) extends Stations σ where
  replaced : (table : List MachineAddress) → (members : List Member) →
    (verdicts : List (MachineAddress × Verdict)) → (past : List MachineAddress) → σ → Prop

variable {config : Config} {set : String} {role : Role} {mark : Stations σ} {round : Rounds σ}
variable {post : Outcome → σ → Prop} {left : σ → Prop}

/-- What the parts of a check make of its stations, one dead machine after the other. -/
structure Rounds.Course (rules : Rules Surroundings σ) (config : Config) (set : String) (role : Role)
    (round : Rounds σ) (post : Outcome → σ → Prop) (left : σ → Prop) : Prop where
  table : ∀ s, round.free s →
    (Resolution.machineTable set).Upholds rules round.tabled (fun _ => left) s
  members : ∀ table s, round.tabled table s →
    (members .here (some role)).Upholds rules (fun members => round.examined table members [] [])
      (fun _ => left) s
  examine : ∀ table members past row rest verdicts s, table = past ++ row :: rest →
    round.examined table members past verdicts s →
    (examine config set members row).Upholds rules
      (fun verdict => round.examined table members (past ++ [row]) (verdicts ++ [(row, verdict)]))
      (fun _ => left) s
  begin : ∀ table members verdicts s, round.examined table members table verdicts s →
    round.replaced table members verdicts [] s
  replace : ∀ table members verdicts past row rest s, deadRows verdicts = past ++ row :: rest →
    round.replaced table members verdicts past s →
    (replace config set role members row).Upholds rules
      (fun _ => round.replaced table members verdicts (past ++ [row])) (fun _ => left) s
  scaleUp : ∀ table members verdicts s, deadRows verdicts ≠ [] →
    round.replaced table members verdicts (deadRows verdicts) s →
    (scaleUp config set (deadRows verdicts).length).Upholds rules
      (fun capacity => post (.checked (reportOf set verdicts (some capacity)))) (fun _ => left) s
  noneDead : ∀ table members verdicts s, deadRows verdicts = [] →
    round.replaced table members verdicts [] s → post (.checked (reportOf set verdicts none)) s

theorem Rounds.Course.check_upholds (h : round.Course rules config set role post left)
    (hlock : (Lock.isHeld config.swarm.upgradeQueue).Upholds rules
      (fun held s' => if held then post .stoodDown s' else round.free s') (fun _ => left) s) :
    (check config set role).Upholds rules post (fun _ => left) s := by
  refine Upholds.bind hlock.renamed fun held s hs => ?_
  cases held with
  | true => exact hs
  | false =>
      refine Upholds.bind (h.table s hs).renamed fun table s hs => ?_
      refine Upholds.bind (h.members table s hs).renamed fun members s hs => ?_
      refine Upholds.bind (Upholds.collect_along (round.examined table members) ?_ hs) ?_
      · intro past row rest verdicts s htable hs
        exact (h.examine table members past row rest verdicts s htable hs).bind fun _ _ hs => hs
      intro verdicts s hs
      have hbegin := h.begin table members verdicts s hs
      refine Upholds.bind (Upholds.each_along (round.replaced table members verdicts) ?_ hbegin) ?_
      · exact fun past row rest s hdead hs => h.replace table members verdicts past row rest s hdead hs
      intro _ s hs
      dsimp only
      split
      next hnone =>
        rw [List.isEmpty_iff] at hnone
        rw [hnone] at hs
        exact h.noneDead table members verdicts s hnone hs
      next hsome =>
        rw [List.isEmpty_iff] at hsome
        refine Upholds.bind (m := fun newCapacity => post (.checked (reportOf set verdicts
          newCapacity))) ?_ fun _ _ hs => hs
        exact (h.scaleUp table members verdicts s hsome hs).bind fun _ _ hs => hs

/-- What the parts of a check make of its stations. -/
structure Course (rules : Rules Surroundings σ) (config : Config) (set : String) (role : Role)
    (mark : Stations σ) (post : Outcome → σ → Prop) (left : σ → Prop) : Prop where
  table : ∀ s, mark.free s →
    (Resolution.machineTable set).Upholds rules mark.tabled (fun _ => left) s
  members : ∀ table s, mark.tabled table s →
    (members .here (some role)).Upholds rules (fun members => mark.examined table members [] [])
      (fun _ => left) s
  examine : ∀ table members past row rest verdicts s, table = past ++ row :: rest →
    mark.examined table members past verdicts s →
    (examine config set members row).Upholds rules
      (fun verdict => mark.examined table members (past ++ [row]) (verdicts ++ [(row, verdict)]))
      (fun _ => left) s
  replace : ∀ table members verdicts row s, row ∈ deadRows verdicts →
    mark.examined table members table verdicts s →
    (replace config set role members row).Upholds rules
      (fun _ => mark.examined table members table verdicts) (fun _ => left) s
  scaleUp : ∀ table members verdicts s, mark.examined table members table verdicts s →
    (scaleUp config set (deadRows verdicts).length).Upholds rules
      (fun capacity => post (.checked (reportOf set verdicts (some capacity)))) (fun _ => left) s
  noneDead : ∀ table members verdicts s, mark.examined table members table verdicts s →
    deadRows verdicts = [] → post (.checked (reportOf set verdicts none)) s

/-- Where each replacement keeps what held before all of them, it is not told how many were made. -/
theorem Course.rounds (h : Course rules config set role mark post left) :
    Rounds.Course rules config set role
      { mark with
        replaced := fun table members verdicts _ => mark.examined table members table verdicts }
      post left where
  table := h.table
  members := h.members
  examine := h.examine
  begin _ _ _ _ hs := hs
  replace table members verdicts past row rest s hdead hs :=
    h.replace table members verdicts row s (by simp [hdead]) hs
  scaleUp table members verdicts s _ hs := h.scaleUp table members verdicts s hs
  noneDead table members verdicts s hnone hs := h.noneDead table members verdicts s hs hnone

theorem Course.check_upholds (h : Course rules config set role mark post left)
    (hlock : (Lock.isHeld config.swarm.upgradeQueue).Upholds rules
      (fun held s' => if held then post .stoodDown s' else mark.free s') (fun _ => left) s) :
    (check config set role).Upholds rules post (fun _ => left) s :=
  h.rounds.check_upholds hlock

variable {inv : σ → Prop}

/-- Where looking at a machine keeps what holds, a machine is found dead only if the swarm does not
say that it is ready. -/
theorem examine_upholds {members : List Member} {row : MachineAddress}
    (hkeeps : ∀ c : Call, c.IsGlance → rules.Keeps inv c) (hs : inv s) :
    (examine config set members row).Upholds rules
      (fun verdict s' =>
        (verdict = .dead → (statusAt members row.privateIp).any Status.isReady = false) ∧ inv s')
      (fun _ => inv) s := by
  cases hready : (statusAt members row.privateIp).any Status.isReady with
  | false =>
      refine ((examine_glances config set members row).keeps hkeeps hs).mono ?_ fun _ _ hs' => hs'
      exact fun _ _ hs' => ⟨fun _ => rfl, hs'⟩
  | true =>
      refine Upholds.bind ((eligible_glances config set row).keeps hkeeps hs) ?_
      intro eligible s' hs'
      cases eligible with
      | false => exact ⟨fun h => (by cases h), hs'⟩
      | true =>
          simp only [hready, Bool.not_true, Bool.false_eq_true, if_false, if_true]
          exact ⟨fun h => (by cases h), hs'⟩

/-! ## A heal pass -/

/-- A heal pass keeps what its looks at the lock, its checks and its reconciliations keep. -/
theorem heal_upholds
    (hlock : ∀ s, inv s →
      (Lock.isHeld config.swarm.upgradeQueue).Upholds rules (fun _ => inv) (fun _ => inv) s)
    (hcheck : ∀ role s, inv s →
      (check config (config.setOf role) role).Upholds rules (fun _ => inv) (fun _ => inv) s)
    (hdrift : ∀ role s, inv s →
      (Drift.reconcile config (config.setOf role) role).Upholds rules (fun _ => inv) (fun _ => inv) s)
    (hs : inv s) : (heal config).Upholds rules (fun _ => inv) (fun _ => inv) s := by
  have hrole : ∀ role s, inv s →
      (healRole config role).Upholds rules (fun _ => inv) (fun _ => inv) s := by
    intro role s hs
    refine (hcheck role s hs).bind fun health s hs => ?_
    exact (hdrift role s hs).renamed.bind fun _ _ hs => hs
  refine Upholds.bind (hlock s hs).renamed fun held s hs => ?_
  cases held with
  | true => exact hs
  | false =>
      -- The workers have their turn whatever became of the managers.
      refine Upholds.bind (m := fun _ => inv) (upholds_outcome.mpr (hrole .manager s hs)) ?_
      intro managers s hs
      refine Upholds.bind (m := fun _ => inv) (upholds_outcome.mpr (hrole .worker s hs)) ?_
      intro workers s hs
      apply upholds_ofExcept.mpr
      generalize (do return [← managers, ← workers] : Except HealthError (List Pass)) = told
      cases told <;> exact hs

end SwarmUpkeep.Health
