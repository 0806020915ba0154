import SwarmUpkeep.Proofs.Upkeep.Breakdown
import SwarmUpkeep.Proofs.Upkeep.Template
import SwarmUpkeep.Proofs.World.Runs
import SwarmUpkeep.Upkeep.Upgrade.Run

/-!
# The walk in which an upgrade aborted

An upgrade that is reported as aborted has broken off in the walk of a node: after what has been said
before, what is left of the run is that walk and what follows it, and all that is said after the walk
is that the lock is given up. So what the stage of the report tells of the walk holds of the run since
the walk of that node began.
-/

namespace SwarmUpkeep

open Attempt Control

namespace Abort

variable {σ α β ε : Type} {site : Site} {x : Control UpgradeError α}

/-- A part of a run breaks off in the walk of a node: it has come to that walk, the walk has broken off
with this error, and after that the lock has been given up at most. -/
structure BreaksOff (site : Site) (x : Control UpgradeError α) (before walk after :
    List (Exchange Surroundings)) (set : String) (node : Node) (error : UpgradeError) : Prop where
  reached : ∃ rest, Program.Leads x before (Program.bind (NodeWalk.run site set node) rest)
  member : node.isMember = true
  broken : Program.Leads (NodeWalk.run site set node) walk (.done (.error error))
  released : ∀ e ∈ after, e.call = .queue (.delete site.config.swarm.upgradeQueue)

/-- Where a part of a run ends with the report of an abort, it has broken off in the walk of a node. -/
def AbortsInWalk (site : Site) (x : Control UpgradeError α) : Prop :=
  ∀ record host stage cause, Program.Leads x record (.done (.error (.aborted host stage cause))) →
    ∃ before walk after set node, record = before ++ walk ++ after ∧
      BreaksOff site x before walk after set node (.aborted host stage cause)

/-- A part that fails otherwise reports no abort. -/
theorem abortsInWalk_mapError {f : ε → UpgradeError} (y : Control ε α)
    (hf : ∀ e host stage cause, f e ≠ .aborted host stage cause) :
    AbortsInWalk site (y.mapError f) := by
  intro record host stage cause h
  obtain ⟨result, past, rest, _, _, hrest⟩ := h.through
  cases result with
  | ok a =>
      obtain ⟨_, hdone⟩ := hrest.of_done
      cases hdone
  | error e =>
      obtain ⟨_, hdone⟩ := hrest.of_done
      simp only [Program.done.injEq, Except.error.injEq] at hdone
      exact absurd hdone.symm (hf e host stage cause)

theorem abortsInWalk_ofExcept {result : Except UpgradeError α}
    (h : ∀ host stage cause, result ≠ .error (.aborted host stage cause)) :
    AbortsInWalk site (Attempt.ofExcept result) := by
  intro record host stage cause hleads
  obtain ⟨_, hdone⟩ := hleads.of_done
  cases hdone
  exact absurd rfl (h host stage cause)

theorem abortsInWalk_fail {error : UpgradeError}
    (h : ∀ host stage cause, error ≠ .aborted host stage cause) :
    AbortsInWalk site (Attempt.fail error : Control UpgradeError α) :=
  abortsInWalk_ofExcept fun host stage cause heq => h host stage cause (Except.error.inj heq)

theorem AbortsInWalk.bind {f : α → Control UpgradeError β} (hx : AbortsInWalk site x)
    (hf : ∀ a, AbortsInWalk site (f a)) : AbortsInWalk site (x >>= f) := by
  intro record host stage cause h
  obtain ⟨result, past, rest, rfl, hpast, hrest⟩ := h.through
  cases result with
  | error e =>
      obtain ⟨rfl, hdone⟩ := hrest.of_done
      cases hdone
      obtain ⟨before, walk, after, set, node, rfl, ⟨rest, hreached⟩, hmember, hbroken, hreleased⟩ :=
        hx past host stage cause hpast
      exact ⟨before, walk, after, set, node, List.append_nil _, ⟨_, hreached.bind_bind _⟩, hmember,
        hbroken, hreleased⟩
  | ok a =>
      obtain ⟨before, walk, after, set, node, rfl, ⟨rest, hreached⟩, hmember, hbroken, hreleased⟩ :=
        hf a rest host stage cause hrest
      refine ⟨past ++ before, walk, after, set, node, ?_, ⟨rest, ?_⟩, hmember, hbroken, hreleased⟩
      · simp only [List.append_assoc]
      · exact Program.Leads.trans (hpast.bind _) hreached

/-- The walk of a member breaks off in itself. -/
theorem walk_aborts (site : Site) (set : String) {node : Node} (hmember : node.isMember = true) :
    AbortsInWalk site (NodeWalk.run site set node) := by
  intro record host stage cause h
  exact ⟨[], record, [], set, node, (List.append_nil _).symm, ⟨.done, Program.Leads.bind_done _⟩,
    hmember, h, fun e he => absurd he List.not_mem_nil⟩

theorem upgradeNodes_aborts (site : Site) (selfId : Option String) (set : String) (role : Role)
    (nodes : List Node) (progress : Upgrade.Progress) :
    AbortsInWalk site (Upgrade.upgradeNodes site selfId set role nodes progress) := by
  induction nodes generalizing progress with
  | nil => exact abortsInWalk_ofExcept fun _ _ _ h => by cases h
  | cons node rest ih =>
      unfold Upgrade.upgradeNodes
      split
      next => exact ih _
      next =>
        split
        next => exact ih _
        next hmember =>
          have hthere : node.isMember = true := by simpa using hmember
          exact (walk_aborts site set hthere).bind fun stage => ih _

theorem upgradeSet_aborts (site : Site) (selfId : Option String) (role : Role)
    (progress : Upgrade.Progress) :
    AbortsInWalk site (Upgrade.upgradeSet site selfId role progress) :=
  (abortsInWalk_mapError _ fun _ _ _ _ h => by cases h).bind fun resolved =>
    upgradeNodes_aborts site selfId _ role resolved.nodes progress

/-! ## Parts without a walk -/

theorem abortsInWalk_pure (a : α) : AbortsInWalk site (pure a : Control UpgradeError α) :=
  abortsInWalk_ofExcept fun _ _ _ h => by cases h

theorem carriedForward_error {config : Config} {parameters : List (String × Parameter)}
    {error : UpgradeError} (h : Template.carriedForward config parameters = .error error) :
    ∃ name, error = .missingParameter name := by
  rw [Template.carriedForward_eq] at h
  split at h
  next name _ _ => exact ⟨name, (Except.error.inj h).symm⟩
  next => cases h

theorem updateDeployment_aborts (config : Config) (template : Url) :
    AbortsInWalk site (Upgrade.updateDeployment config template) := by
  refine (abortsInWalk_mapError _ fun _ _ _ _ h => by cases h).bind fun deployment => ?_
  refine AbortsInWalk.bind (abortsInWalk_ofExcept fun host stage cause h => ?_) fun parameters => ?_
  · obtain ⟨name, hname⟩ := carriedForward_error h
    cases hname
  · refine (abortsInWalk_mapError _ fun _ _ _ _ h => by cases h).bind fun operation => ?_
    exact abortsInWalk_mapError _ fun _ _ _ _ h => by cases h

theorem drain_aborts (hostname : String) : AbortsInWalk site (Replica.drain site hostname) := by
  unfold Replica.drain
  split
  next => exact abortsInWalk_pure none
  next =>
    refine (abortsInWalk_mapError _ fun _ _ _ _ h => by cases h).bind fun found => ?_
    cases found with
    | none => exact abortsInWalk_pure none
    | some replica =>
        refine (abortsInWalk_mapError _ fun _ _ _ _ h => by cases h).bind fun marked => ?_
        refine (abortsInWalk_mapError _ fun e _ _ _ h => ?_).bind fun _ => abortsInWalk_pure _
        unfold UpgradeError.ofRetry at h
        split at h <;> cases h

theorem conclude_aborts (site : Site) (selfId : Option String) (template : Url)
    (progress : Upgrade.Progress) :
    AbortsInWalk site (Upgrade.conclude site selfId template progress) := by
  unfold Upgrade.conclude
  split
  next node id _ =>
    refine AbortsInWalk.bind ?_ fun _ => abortsInWalk_pure _
    refine (drain_aborts node.hostname).bind fun replica => ?_
    refine (abortsInWalk_mapError _ fun _ _ _ _ h => by cases h).bind fun _ => ?_
    exact AbortsInWalk.bind (abortsInWalk_mapError _ fun _ _ _ _ h => by cases h)
      fun _ => abortsInWalk_pure ()
  next =>
    exact (abortsInWalk_mapError _ fun _ _ _ _ h => by cases h).bind fun _ => abortsInWalk_pure _

theorem validate_aborts (raw : String) (allowInsecure : Bool) :
    AbortsInWalk site (Template.validate raw allowInsecure) := by
  refine (abortsInWalk_mapError _ fun _ _ _ _ h => by cases h).bind fun url => ?_
  refine (abortsInWalk_mapError _ fun _ _ _ _ h => by cases h).bind fun body => ?_
  split
  · exact abortsInWalk_pure url
  · exact abortsInWalk_fail fun _ _ _ h => by cases h

/-! ## A run -/

theorem runLocked_aborts (site : Site) (template : Url) :
    AbortsInWalk site (Upgrade.runLocked site template) := by
  refine (abortsInWalk_mapError _ fun _ _ _ _ h => by cases h).bind fun selfId => ?_
  refine (abortsInWalk_mapError _ fun _ _ _ _ h => by cases h).bind fun managers => ?_
  refine AbortsInWalk.bind (abortsInWalk_ofExcept fun host stage cause h => ?_) fun _ => ?_
  · unfold Upgrade.guardManagers at h
    split at h
    · split at h <;> cases h
    · cases h
  refine (updateDeployment_aborts site.config template).bind fun _ => ?_
  refine (upgradeSet_aborts site selfId .manager .start).bind fun progress => ?_
  refine (upgradeSet_aborts site selfId .worker progress).bind fun progress => ?_
  exact conclude_aborts site selfId template progress

/-- A run that is abandoned gives the lock up and ends with the error for which it is. -/
theorem abandon_leads {error : UpgradeError} {result : Except UpgradeError Upgrade.Report}
    {record : List (Exchange Surroundings)}
    (h : Program.Leads (Upgrade.abandon site error) record (.done result)) :
    result = .error error ∧
      ∀ e ∈ record, e.call = .queue (.delete site.config.swarm.upgradeQueue) := by
  have habandon : (Upgrade.abandon site error).Upholds Breakdown.rules (fun _ _ => False)
      (fun error' record => error' = error ∧
        ∀ e ∈ record, e.call = .queue (.delete site.config.swarm.upgradeQueue)) [] := by
    have hrelease : (Lock.release site.config.swarm.upgradeQueue).Asks fun c : Call =>
        c = .queue (.delete site.config.swarm.upgradeQueue) := Lock.release_asks rfl
    refine Upholds.bind (m := fun _ => Breakdown.GoesOn [] fun e =>
      e.call = .queue (.delete site.config.swarm.upgradeQueue)) ?_ ?_
    · exact upholds_discard.mpr (upholds_outcome.mpr (hrelease.keeps
        (fun c hc => Breakdown.goesOn_keeps fun _ => hc) (.here [] _)))
    · rintro _ _ ⟨rest, rfl, hrest⟩
      exact ⟨rfl, hrest⟩
  have hended := habandon.recorded h
  cases result with
  | ok report => exact hended.elim
  | error e => exact ⟨congrArg Except.error hended.1, hended.2⟩

theorem run_aborts (site : Site) (templateUrl : String) :
    AbortsInWalk site (Upgrade.run site templateUrl) := by
  refine (validate_aborts templateUrl _).bind fun template => ?_
  refine (abortsInWalk_mapError _ fun _ _ _ _ h => by cases h).bind fun got => ?_
  cases got with
  | alreadyLocked => exact abortsInWalk_fail fun _ _ _ h => by cases h
  | acquired =>
      intro record host stage cause h
      obtain ⟨result, past, rest, rfl, hpast, hrest⟩ := h.through
      obtain ⟨ended, locked, none, rfl, hlocked, hnone⟩ := hpast.through
      obtain ⟨rfl, hresult⟩ := hnone.of_done
      cases hresult
      cases ended with
      | ok report =>
          obtain ⟨_, hdone⟩ := hrest.of_done
          cases hdone
      | error e =>
          -- The error under the lock is reported once the lock has been given up.
          obtain ⟨hended, hgivenUp⟩ := abandon_leads hrest
          cases hended
          obtain ⟨before, walk, after, set, node, rfl, ⟨_, hreached⟩, hmember, hbroken, hreleased⟩ :=
            runLocked_aborts site template locked host stage cause hlocked
          refine ⟨before, walk, after ++ rest, set, node, by simp,
            ⟨_, (hreached.bind_bind _).bind_bind _⟩, hmember, hbroken, fun e he => ?_⟩
          exact (List.mem_append.mp he).elim (hreleased e) (hgivenUp e)

end Abort

/-- Whatever is answered, an upgrade that is reported as aborted with a node and a stage has broken off
in the walk of a member of that name. Since that walk began, a node that is still active has not been
removed, and has not been demoted unless it led the swarm and its successor could not be recorded; one
that is drained may have been removed, too, as a worker of whose replica the record could not be
deleted; one that is demoted has not been removed unless the record of its replica could not be
deleted; of one that is removed the model update has not been seen to complete; and of one with the
new model no reimage has been started. -/
theorem abort_tells {σ : Type} (respond : σ → (c : Call) → c.Answer × σ) (s : σ) (site : Site)
    (templateUrl : String) {host : String} {stage : Stage} {cause : UpgradeError}
    (haborted : (Program.run respond (Upgrade.run site templateUrl) s).1 =
      .error (.aborted host stage cause)) :
    ∃ before walk after set node,
      Program.transcript respond (Upgrade.run site templateUrl) s = before ++ walk ++ after ∧
      Abort.BreaksOff site (Upgrade.run site templateUrl) before walk after set node
        (.aborted host stage cause) ∧
      node.hostname = host ∧ Breakdown.Tells site set node walk stage := by
  have hleads := Program.transcript_leads respond (Upgrade.run site templateUrl) s
  rw [haborted] at hleads
  obtain ⟨before, walk, after, set, node, hrecord, hbroken⟩ :=
    Abort.run_aborts site templateUrl _ host stage cause hleads
  obtain ⟨_, _, hnamed, htells⟩ :=
    Program.Upholds.recorded (Breakdown.run_upholds site set node) hbroken.broken
  cases hnamed
  exact ⟨before, walk, after, set, node, hrecord, hbroken, rfl, htells⟩

namespace World

/-- Two managers of which the other one leads, and nobody is elected any more. -/
def unsucceeded : World :=
  { trial with
    members :=
      [⟨"m0", "host-0", .v4 10 0 0 4, .manager, .ready, false⟩,
        ⟨"m1", "host-1", .v4 10 0 0 5, .manager, .ready, true⟩]
    sets :=
      [("managers",
          ⟨.manager, 2,
            [⟨"0", "host-0", [⟨.v4 10 0 0 4, true⟩], .running, .succeeded, none⟩,
              ⟨"1", "host-1", [⟨.v4 10 0 0 5, true⟩], .running, .succeeded, none⟩], []⟩),
        ("workers", ⟨.worker, 0, [], []⟩)]
    knobs := { noElection := true } }

theorem abort_tells_unsucceeded :
    let upgrade := Upgrade.run trialSite "https://host/a.json"
    ∃ cause, (unsucceeded.run upgrade).1 = .error (.aborted "host-1" .active cause) ∧
      ∃ before walk after set node,
        upgrade.transcript respond unsucceeded = before ++ walk ++ after ∧
        Abort.BreaksOff trialSite upgrade before walk after set node
          (.aborted "host-1" .active cause) ∧
        node.hostname = "host-1" ∧ Breakdown.Tells trialSite set node walk .active := by
  intro upgrade
  have haborted : (unsucceeded.run upgrade).1 = .error (.aborted "host-1" .active
      (.timeout "new leader election after 5 attempts")) := by decide +kernel
  exact ⟨_, haborted, abort_tells respond unsucceeded trialSite "https://host/a.json" haborted⟩

/-- Two managers, on the other one of which a replica is hosted whose record cannot be deleted. -/
def filed : World :=
  { unsucceeded with
    site := { trialSite with hasAddon := true }
    members :=
      [⟨"m0", "host-0", .v4 10 0 0 4, .manager, .ready, true⟩,
        ⟨"m1", "host-1", .v4 10 0 0 5, .manager, .ready, false⟩]
    tables := [("replicas", [Records.replicaRow ⟨"r1", "host-1", .stable⟩])]
    faults := [⟨"t-delete(replicas,replicas,r1)", 0, none, .service (.fatal "forbidden")⟩] }

/-- Three managers, of which one goes by another name than its machine. -/
def strayed : World :=
  { trial with
    members :=
      [⟨"m0", "host-0", .v4 10 0 0 4, .manager, .ready, true⟩,
        ⟨"m1", "host-1", .v4 10 0 0 5, .manager, .ready, false⟩,
        ⟨"m2", "stray", .v4 10 0 0 6, .manager, .ready, false⟩]
    sets :=
      [("managers",
          ⟨.manager, 3,
            [⟨"0", "host-0", [⟨.v4 10 0 0 4, true⟩], .running, .succeeded, none⟩,
              ⟨"1", "host-1", [⟨.v4 10 0 0 5, true⟩], .running, .succeeded, none⟩,
              ⟨"2", "host-2", [⟨.v4 10 0 0 6, true⟩], .running, .succeeded, none⟩], []⟩),
        ("workers", ⟨.worker, 0, [], []⟩)] }

/-- A worker whose machine is listed twice; the second reimage of it cannot be started. -/
def twinned : World :=
  { trial with
    members :=
      [⟨"m0", "host-0", .v4 10 0 0 4, .manager, .ready, true⟩,
        ⟨"w1", "host-1", .v4 10 0 1 4, .worker, .ready, false⟩]
    sets :=
      [("managers",
          ⟨.manager, 1, [⟨"0", "host-0", [⟨.v4 10 0 0 4, true⟩], .running, .succeeded, none⟩], []⟩),
        ("workers",
          ⟨.worker, 2,
            [⟨"1", "host-1", [⟨.v4 10 0 1 4, true⟩], .running, .succeeded, none⟩,
              ⟨"1", "host-1", [⟨.v4 10 0 1 4, true⟩], .running, .succeeded, none⟩], []⟩)]
    faults := [⟨"reimage(workers,1)", 1, none, .service (.fatal "forbidden")⟩] }

/-- A leader is still active once it has been demoted, and a manager is still demoted once it has been
removed. A node that is active has been removed before its walk began, and one with the new model has
been reimaged before that. -/
theorem stages_lag :
    (let upgrade := Upgrade.run unsucceeded.site "https://host/a.json"
     (∃ cause, (unsucceeded.run upgrade).1 = .error (.aborted "host-1" .active cause)) ∧
       (upgrade.transcript respond unsucceeded).any (Exchange.demotes "m1") = true) ∧
    (let upgrade := Upgrade.run filed.site "https://host/a.json"
     (∃ cause, (filed.run upgrade).1 = .error (.aborted "host-1" .demoted cause)) ∧
       (upgrade.transcript respond filed).any (Exchange.removes "m1") = true) ∧
    (let upgrade := Upgrade.run strayed.site "https://host/a.json"
     (∃ cause, (strayed.run upgrade).1 = .error (.aborted "stray" .active cause)) ∧
       (upgrade.transcript respond strayed).any (Exchange.removes "m2") = true) ∧
    (let upgrade := Upgrade.run twinned.site "https://host/a.json"
     (∃ cause, (twinned.run upgrade).1 = .error (.aborted "host-1" .modelUpdated cause)) ∧
       (upgrade.transcript respond twinned).any (Exchange.reimages "workers" "1") = true) := by
  refine ⟨⟨⟨.timeout "new leader election after 5 attempts", ?_⟩, ?_⟩,
    ⟨⟨.records (.service (.fatal "forbidden")), ?_⟩, ?_⟩,
    ⟨⟨.service (.notFound "node m2"), ?_⟩, ?_⟩, ⟨⟨.service (.fatal "forbidden"), ?_⟩, ?_⟩⟩
  all_goals decide +kernel

end World

end SwarmUpkeep
