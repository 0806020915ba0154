import SwarmUpkeep.Proofs.Lock.Custody

/-!
# The lock and an upgrade

How an upgrade leaves the lock: an upgrade that fails has not taken it or has given it up again, if
it can be given up at all, and one that succeeds has given it up or has named the host on which it
ran. The error of any of its parts ends it in the same way, since a part inside of the lock leaves
the party inside.
-/

namespace SwarmUpkeep

open Attempt Control

variable {σ : Type} {rules : Rules Surroundings σ} {queue : String} {party : Lock.Standing σ}
variable {isSelf : Option String → Prop} {named : String → σ → Prop} {s : σ}

namespace Lock.Coordination

theorem acquire_upholds (h : Coordination rules queue party isSelf named) (hs : party.outside s) :
    (acquire queue).Upholds rules
      (fun got => match got with
        | .acquired => party.inside
        | .alreadyLocked => party.outside)
      (fun _ => party.outside) s := by
  refine Upholds.bind (m := fun _ => party.outside) ?_ fun held s hs => ?_
  · refine Upholds.mapError (Program.perform_upholds_of_keeps h.isHeld hs fun answer s' _ hs' => ?_)
    cases answer <;> exact hs'
  · cases held with
    | true => exact hs
    | false =>
        refine upholds_bind.mpr (upholds_outcome.mpr ((h.create s hs).mono ?_ ?_))
        · intro created s' hs'
          cases created <;> exact hs'
        · intro e s' hs'
          cases e <;> exact hs'

end Lock.Coordination

namespace Upgrade

/-- How a successful upgrade leaves the lock: handed over to this host, or given up. -/
def Leaves (party : Lock.Standing σ) (isSelf : Option String → Prop) (named : String → σ → Prop)
    (report : Report) (s : σ) : Prop :=
  (∃ id, report.handedOff = some id ∧ report.lockReleased = false ∧ isSelf (some id) ∧ named id s) ∨
    (report.handedOff = none ∧ report.lockReleased = true ∧ party.released s)

variable (site : Site)
variable (h : Lock.Coordination rules site.config.swarm.upgradeQueue party isSelf named)
include h

theorem handOff_upholds (node : Node) (id : String) (hself : isSelf (some id))
    (hs : party.inside s) :
    (handOff site node id).Upholds rules (fun _ => named id) (fun _ => party.inside) s := by
  have hdrain := (Replica.drain_asks site node.hostname).quiet.work.keeps h.inside hs
  refine hdrain.bind fun replica s hs => ?_
  have hforget := (Replica.forget_asks site replica).aside.quiet.work.keeps h.inside hs
  refine hforget.renamed.bind fun _ s hs => ?_
  exact upholds_discard.mpr (h.enqueue s id hself hs).renamed

theorem conclude_upholds (selfId : Option String) (template : Url) (progress : Progress)
    (hself : isSelf selfId) (hs : party.inside s) :
    (conclude site selfId template progress).Upholds rules (Leaves party isSelf named)
      (fun _ => party.inside) s := by
  unfold conclude
  split
  next node id _ =>
    refine (handOff_upholds site h node id hself hs).bind fun _ s' hs' => ?_
    exact .inl ⟨id, rfl, rfl, hself, hs'⟩
  next =>
    have hrelease := (h.release s hs).mono (fun _ _ h' => h') fun _ => h.inside_of_stuck
    refine hrelease.renamed.bind fun _ s' hs' => ?_
    exact .inr ⟨rfl, rfl, hs'⟩

/-- Every error under the lock leaves the party inside, to give it up. -/
theorem runLocked_upholds (template : Url) (hs : party.inside s) :
    (runLocked site template).Upholds rules (Leaves party isSelf named)
      (fun _ => party.inside) s := by
  refine Upholds.bind (m := fun selfId s => isSelf selfId ∧ party.inside s) ?_ ?_
  · have hkeeps : rules.Keeps party.inside (.swarm .here .localId) := h.inside _ trivial
    refine Upholds.mapError (Program.perform_upholds_of_keeps hkeeps hs ?_)
    intro answer s' hmove hs'
    cases answer with
    | ok selfId => exact ⟨h.localId s selfId s' hs hmove, hs'⟩
    | error e => exact hs'
  · intro selfId s ⟨hself, hs⟩
    have hmembers := Asks.keeps (x := members .here (some .manager)) (Program.asks_perform trivial)
      h.inside hs
    refine hmembers.renamed.bind fun managers s hs => ?_
    refine Upholds.bind (m := fun _ => party.inside) ?_ fun _ s hs => ?_
    · refine upholds_ofExcept.mpr ?_
      cases guardManagers site.config selfId managers <;> exact hs
    have hdeployment := (updateDeployment_asks site.config template).quiet.work.keeps h.inside hs
    refine hdeployment.bind fun _ s hs => ?_
    have hnodes : ∀ c : Call, c.IsNodeWork → rules.Keeps party.inside c :=
      fun c hc => h.inside c hc.isWork
    have hmanagers := (upgradeSet_asks site selfId .manager .start).keeps hnodes hs
    refine hmanagers.bind fun progress s hs => ?_
    have hworkers := (upgradeSet_asks site selfId .worker progress).keeps hnodes hs
    exact hworkers.bind fun progress s hs =>
      conclude_upholds site h selfId template progress hself hs

theorem abandon_upholds (e : UpgradeError) (hs : party.inside s) :
    (abandon site e).Upholds rules (Leaves party isSelf named)
      (fun _ s' => party.released s' ∨ party.stuck s') s := by
  refine upholds_bind.mpr (upholds_discard.mpr (upholds_outcome.mpr ((h.release s hs).mono ?_ ?_)))
  · exact fun _ s' hs' => .inl hs'
  · exact fun _ s' hs' => .inr hs'

/-- An upgrade that starts outside of the lock ends in one of the few ways to leave it. -/
theorem run_upholds (templateUrl : String) (hs : party.outside s) :
    (run site templateUrl).Upholds rules (Leaves party isSelf named)
      (fun _ s' => party.outside s' ∨ party.released s' ∨ party.stuck s') s := by
  have hvalidate := (Template.validate_asks (fun _ => trivial) templateUrl
    site.config.swarm.allowInsecureTemplate).keeps h.outside hs
  refine (hvalidate.monoError fun _ _ hs => .inl hs).bind fun template s hs => ?_
  have hacquire := h.acquire_upholds hs
  refine Upholds.bind (hacquire.monoError fun _ _ hs => .inl hs).renamed ?_
  intro got s hs
  cases got with
  | alreadyLocked => exact .inl hs
  | acquired =>
      -- From here on no error gets out but through `abandon`.
      have hlocked := runLocked_upholds site h template hs
      refine upholds_bind.mpr (upholds_outcome.mpr (hlocked.mono ?_ ?_))
      · exact fun report s' hs' => hs'
      · exact fun e s' hs' => (abandon_upholds site h e hs').mono (fun _ _ h' => h') fun _ _ => .inr

end Upgrade

end SwarmUpkeep
