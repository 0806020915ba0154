import SwarmUpkeep.Proofs.Upkeep.Questions

/-!
# The course of an upgrade

A node's walk through its upgrade passes milestones, one after the other, and so does the upgrade
of the swarm as a whole. What holds at each of them is told by predicates on any kind of state,
under any rules for the surroundings. The laws below say what each part has to be allowed and what
it does to the milestones; with them a walk or a run that succeeds has passed all of them, and one
that breaks off has stopped at one of them.

A world obeys such laws with predicates on its members, and an account of what has been asked obeys
them with predicates on itself.
-/

namespace SwarmUpkeep

open Attempt Control

variable {σ : Type} {rules : Rules Surroundings σ} {s : σ}

/-! ## Operations -/

/-- Asking for the status of an operation changes nothing until it is told to have succeeded. -/
def Operation.Settles (rules : Rules Surroundings σ) (waiting settled : σ → Prop)
    (operation : Operation) : Prop :=
  ∀ s, waiting s →
    (operationStatus operation).Upholds rules
      (fun status s' => if status = .succeeded then settled s' else waiting s')
      (fun _ => waiting) s

/-- An operation settles what holds all along, if the question for its status keeps it. -/
theorem Operation.settles_of_keeps {inv : σ → Prop} {operation : Operation}
    (h : rules.Keeps inv (.provider (.status operation))) : operation.Settles rules inv inv := by
  intro s hs
  simp only [ite_self]
  exact Program.perform_upholds_of_keeps h hs fun answer s' _ hs' => by cases answer <;> exact hs'

/-- Letting time pass keeps what holds. -/
def KeptByPauses (rules : Rules Surroundings σ) (inv : σ → Prop) : Prop :=
  ∀ ms, rules.Keeps inv (.pause ms)

theorem KeptByPauses.pauses {inv : σ → Prop} (h : KeptByPauses rules inv) : Pauses rules inv := by
  intro s ms hs
  exact Program.perform_upholds_of_keeps (h ms) hs fun _ _ _ hs' => hs'

namespace Operation

variable {waiting settled : σ → Prop} {operation : Operation} {policy : RetryPolicy} {what : String}

/-- What a final status leaves behind. -/
def leaves (waiting settled : σ → Prop) : OperationStatus → σ → Prop
  | .inProgress, _ => False
  | .succeeded, s => settled s
  | .failed _, s => waiting s

theorem Settles.checks (h : operation.Settles rules waiting settled) :
    Checks rules waiting (leaves waiting settled) (do
      let status ← operationStatus operation
      return status.final?) := by
  intro s hs
  refine (h s hs).bind fun status s' hs' => ?_
  cases status with
  | inProgress => exact ⟨fun _ => hs', fun final hfinal => by cases hfinal⟩
  | succeeded => exact ⟨fun hnone => (by cases hnone), fun final hfinal => by cases hfinal; exact hs'⟩
  | failed reason =>
      exact ⟨fun hnone => (by cases hnone), fun final hfinal => by cases hfinal; exact hs'⟩

theorem await_upholds (hstatus : operation ≠ .done → operation.Settles rules waiting settled)
    (hpause : KeptByPauses rules waiting)
    (hdone : operation = .done → ∀ s, waiting s → settled s) (hs : waiting s) :
    (operation.await policy what).Upholds rules (fun _ => settled) (fun _ => waiting) s := by
  unfold await
  split
  next h => exact hdone h s hs
  next h =>
    refine Upholds.bind (pollUntil_upholds (hstatus h).checks hpause.pauses hs).renamed ?_
    intro status s' hs'
    cases status with
    | inProgress => exact hs'.elim
    | succeeded => exact hs'
    | failed reason => exact hs'

end Operation

/-- Where something that is gone counts as done, a member may turn out to be gone. -/
theorem Membership.unlessGone_upholds {action : Control ServiceError Unit} {gone left : σ → Prop}
    (h : action.Upholds rules (fun _ => gone)
      (fun e s' => if e.isNotFound then gone s' else left s') s) :
    (unlessGone action).Upholds rules (fun _ => gone) (fun _ => left) s := by
  refine upholds_bind.mpr (upholds_outcome.mpr (h.mono (fun _ _ hs => hs) ?_))
  intro e s' hs'
  cases e with
  | notFound what => exact hs'
  | conflict what => exact hs'
  | transient what => exact hs'
  | fatal what => exact hs'
  | undecodable what => exact hs'

namespace NodeWalk

/-! ## Milestones -/

/-- What holds at each milestone of a walk. A node that is to be removed has been demoted, if it is
a manager. -/
structure Milestones (σ : Type) where
  untouched : σ → Prop
  demoted : σ → Prop
  removed : σ → Prop
  updating : Operation → σ → Prop
  updated : σ → Prop
  reimaging : Operation → σ → Prop
  reimaged : σ → Prop
  returned : σ → Prop

/-- Some milestone holds. -/
inductive Milestones.Stops (mark : Milestones σ) (s : σ) : Prop where
  | untouched (h : mark.untouched s)
  | demoted (h : mark.demoted s)
  | removed (h : mark.removed s)
  | updating (operation : Operation) (h : mark.updating operation s)
  | updated (h : mark.updated s)
  | reimaging (operation : Operation) (h : mark.reimaging operation s)
  | reimaged (h : mark.reimaged s)

/-- The milestones of a walk at all of which the same holds. -/
def Milestones.same (inv : σ → Prop) : Milestones σ where
  untouched := inv
  demoted := inv
  removed := inv
  updating _ := inv
  updated := inv
  reimaging _ := inv
  reimaged := inv
  returned := inv

theorem Milestones.Stops.of_same {inv : σ → Prop} (h : (Milestones.same inv).Stops s) : inv s := by
  cases h <;> assumption

/-- What the parts of a walk do to the milestones, but for the demotion of a manager. -/
structure Passage (rules : Rules Surroundings σ) (set : String) (node : Node)
    (mark : Milestones σ) : Prop where
  drain : ∀ c, Call.Drains node.hostname c → rules.Keeps mark.untouched c
  spare : node.role ≠ .manager → ∀ s, mark.untouched s → mark.demoted s
  remove : ∀ s, mark.demoted s →
    (Membership.unlessGone (remove .here (node.memberId.getD ""))).Upholds rules
      (fun _ => mark.removed) (fun _ => mark.demoted) s
  forget : ∀ c, Call.IsFiling c → rules.Keeps mark.removed c
  update : ∀ s, mark.removed s →
    (updateModel set node.instanceId).Upholds rules mark.updating (fun _ => mark.removed) s
  updates : ∀ operation : Operation, operation ≠ .done →
    operation.Settles rules (mark.updating operation) mark.updated
  updateDone : ∀ s, mark.updating .done s → mark.updated s
  updatePauses : ∀ operation, KeptByPauses rules (mark.updating operation)
  reimage : ∀ s, mark.updated s →
    (reimage set node.instanceId).Upholds rules mark.reimaging (fun _ => mark.updated) s
  evicts : ∀ operation s, mark.reimaging operation s →
    (evictOverprovisioned set node.role).Upholds rules (fun _ => mark.reimaging operation)
      (fun _ => mark.reimaging operation) s
  reimages : ∀ operation : Operation,
    operation.Settles rules (mark.reimaging operation) mark.reimaged
  reimagePauses : ∀ operation, KeptByPauses rules (mark.reimaging operation)
  returns : ∀ s, mark.reimaged s →
    (members .here (some node.role)).Upholds rules
      (fun members s' =>
        if (returned node.hostname members).isSome then mark.returned s' else mark.reimaged s')
      (fun _ => mark.reimaged) s
  returnPauses : KeptByPauses rules mark.reimaged

/-- What all parts of a walk do to the milestones. All questions of a demotion after the demotion
itself keep what holds of a demoted manager. -/
structure Course (rules : Rules Surroundings σ) (set : String) (node : Node)
    (mark : Milestones σ) : Prop extends Passage rules set node mark where
  lists : node.role = .manager → rules.Keeps mark.untouched (.swarm .here (.members (some .manager)))
  demote : node.role = .manager → ∀ s, mark.untouched s →
    (demote .here (node.memberId.getD "")).Upholds rules (fun _ => mark.demoted)
      (fun _ => mark.untouched) s
  elects : node.role = .manager → ∀ c, Call.Elects .here c → rules.Keeps mark.demoted c

section Walk

variable {site : Site} {set : String} {node : Node} {mark : Milestones σ}

namespace Passage

theorem detach_upholds {left : σ → Prop} (h : Passage rules set node mark)
    (hstops : ∀ s, mark.Stops s → left s)
    (hdemote : node.role = .manager → ∀ s, mark.untouched s →
      (Succession.demoteManager site.config node.hostname (node.memberId.getD "")).Upholds rules
        (fun _ => mark.demoted) (fun _ => left) s)
    (hs : mark.untouched s) :
    (detach site node).Upholds rules (fun _ => mark.removed) (fun _ => left) s := by
  have hdrain := (Replica.drain_drains site node.hostname).keeps h.drain hs
  refine Upholds.bind (hdrain.monoError fun _ s hs => hstops s (.untouched hs)).renamed ?_
  intro replica s hs
  have hrest : ∀ stage s, mark.demoted s → (do
      during stage .service (Membership.unlessGone (Control.remove .here (node.memberId.getD "")))
      during stage .records (Replica.forget site replica)).Upholds rules (fun _ => mark.removed)
        (fun _ => left) s := by
    intro stage s hs
    have hremove := (h.remove s hs).monoError fun _ s hs => hstops s (.demoted hs)
    refine Upholds.bind hremove.renamed fun _ s hs => ?_
    have hforget := (Replica.forget_asks site replica).keeps h.forget hs
    exact (hforget.monoError fun _ s hs => hstops s (.removed hs)).renamed
  dsimp only
  split
  next hrole => exact Upholds.bind (hdemote hrole s hs).renamed fun _ => hrest _
  next hrole => exact hrest _ s (h.spare hrole s hs)

theorem awaitReimage_upholds (h : Passage rules set node mark) (operation : Operation)
    (hs : mark.reimaging operation s) :
    (awaitReimage site.config set node operation).Upholds rules (fun _ => mark.reimaged)
      (fun _ => mark.Stops) s := by
  have hcheck : Checks rules (mark.reimaging operation)
      (Operation.leaves (mark.reimaging operation) mark.reimaged) (do
        evictOverprovisioned set node.role
        let status ← operationStatus operation
        return status.final?) := by
    intro s hs
    exact (h.evicts operation s hs).bind fun _ => (h.reimages operation).checks
  refine Upholds.bind (Upholds.renamed (Upholds.monoError (pollUntil_upholds hcheck
    (h.reimagePauses operation).pauses hs) fun _ _ => .reimaging operation)) ?_
  intro status s hs
  cases status with
  | inProgress => exact hs.elim
  | succeeded => exact hs
  | failed reason => exact .reimaging operation hs

theorem awaitReturn_upholds (h : Passage rules set node mark) (hs : mark.reimaged s) :
    (awaitReturn site.config node).Upholds rules (fun _ => mark.returned)
      (fun _ => mark.Stops) s := by
  refine Upholds.renamed (Upholds.monoError (pollUntil_upholds (fun s hs => ?_)
    h.returnPauses.pauses hs) fun _ _ => .reimaged)
  refine (h.returns s hs).bind fun members s' hs' => ?_
  cases hreturned : returned node.hostname members with
  | none =>
      rw [hreturned] at hs'
      exact ⟨fun _ => hs', fun m hm => by cases hm⟩
  | some m =>
      rw [hreturned] at hs'
      exact ⟨fun hnone => (by cases hnone), fun _ _ => hs'⟩

theorem rebuild_upholds (h : Passage rules set node mark) (hs : mark.removed s) :
    (rebuild site.config set node).Upholds rules (fun _ => mark.returned)
      (fun _ => mark.Stops) s := by
  refine Upholds.bind ((h.update s hs).monoError fun _ _ => .removed).renamed ?_
  intro operation s hs
  have hawait : (operation.await site.config.timings.providerPolicy
      ("update model of " ++ node.hostname)).Upholds rules (fun _ => mark.updated)
      (fun _ => mark.updating operation) s :=
    Operation.await_upholds (h.updates operation) (h.updatePauses operation)
      (fun hdone s hs => h.updateDone s (hdone ▸ hs)) hs
  refine Upholds.bind (hawait.monoError fun _ _ => .updating operation).renamed fun _ s hs => ?_
  refine Upholds.bind ((h.reimage s hs).monoError fun _ _ => .updated).renamed ?_
  intro operation s hs
  refine Upholds.bind (h.awaitReimage_upholds operation hs).renamed fun _ s hs => ?_
  exact upholds_discard.mpr (h.awaitReturn_upholds hs).renamed

/-- A walk that succeeds has passed every milestone. -/
theorem run_upholds {left : σ → Prop} (h : Passage rules set node mark)
    (hstops : ∀ s, mark.Stops s → left s)
    (hdemote : node.role = .manager → ∀ s, mark.untouched s →
      (Succession.demoteManager site.config node.hostname (node.memberId.getD "")).Upholds rules
        (fun _ => mark.demoted) (fun _ => left) s)
    (hs : mark.untouched s) :
    (run site set node).Upholds rules (fun stage s' => stage = .rejoined ∧ mark.returned s')
      (fun _ => left) s := by
  refine Upholds.mapError ((h.detach_upholds hstops hdemote hs).bind fun _ s hs => ?_)
  refine Upholds.bind ((h.rebuild_upholds hs).monoError fun _ => hstops) fun _ s hs => ?_
  exact ⟨rfl, hs⟩

end Passage

namespace Course

theorem demoteManager_upholds (h : Course rules set node mark) (hrole : node.role = .manager)
    (hs : mark.untouched s) :
    (Succession.demoteManager site.config node.hostname (node.memberId.getD "")).Upholds rules
      (fun _ => mark.demoted) (fun _ => mark.Stops) s := by
  have hlists : (Control.members .here (some .manager)).Upholds rules (fun _ => mark.untouched)
      (fun _ => mark.untouched) s :=
    Program.perform_upholds_of_keeps (h.lists hrole) hs fun answer s' _ hs' => by
      cases answer <;> exact hs'
  refine Upholds.bind (hlists.monoError fun _ _ => .untouched).renamed fun managers s hs => ?_
  refine Upholds.bind (m := fun _ => mark.untouched) ?_ fun _ s hs => ?_
  · refine upholds_ofExcept.mpr ?_
    cases Succession.guardQuorum node.hostname (node.memberId.getD "") managers with
    | ok _ => exact hs
    | error e => exact .untouched hs
  refine Upholds.bind ((h.demote hrole s hs).monoError fun _ _ => .untouched).renamed ?_
  intro _ s hs
  split
  · -- The manager led the swarm, and its successor is recorded.
    have hleader : (Succession.awaitNewLeader .here (node.memberId.getD "")
        site.config.timings.leaderPolicy).Asks (Call.Elects .here) :=
      Succession.awaitNewLeader_asks ⟨rfl, rfl⟩ (fun _ => trivial) _ _
    have helected := hleader.keeps (h.elects hrole) hs
    refine Upholds.bind (helected.monoError fun _ _ => .demoted) fun leader s hs => ?_
    have hrecord : (Records.setLeader site.config.swarm.recordTables leader.addr).Asks
        (Call.Elects .here) := Records.setLeader_asks (fun _ => trivial) trivial leader.addr
    have hrecorded := hrecord.keeps (h.elects hrole) hs
    exact upholds_discard.mpr (hrecorded.monoError fun _ _ => .demoted).renamed
  · exact hs

theorem run_upholds (h : Course rules set node mark) (hs : mark.untouched s) :
    (run site set node).Upholds rules (fun stage s' => stage = .rejoined ∧ mark.returned s')
      (fun _ => mark.Stops) s :=
  h.toPassage.run_upholds (fun _ hs => hs) (fun hrole _ hs => h.demoteManager_upholds hrole hs) hs

end Course

end Walk

end NodeWalk

/-! ## A run -/

namespace Call

/-- A question of a run before it learns who this host is. -/
def IsPrologue : Call → Prop
  | .queue _ => True
  | .template _ => True
  | _ => False

/-- A question of a run once there are no more nodes to upgrade. -/
def IsEpilogue : Call → Prop
  | .queue _ => True
  | .table call => call.partition = Records.replicaPartition
  | .addon (.removeReplica _) => True
  | .pause _ => True
  | .now => True
  | _ => False

theorem Drains.isEpilogue {hostname : String} {c : Call} (h : c.Drains hostname) :
    c.IsEpilogue := by
  unfold Drains at h
  unfold IsEpilogue
  split at h <;> simp_all

end Call

namespace Upgrade

/-- What holds at each milestone of a run: before it learns who this host is, once it knows that,
when the set of a role is to be resolved, while some of its nodes are still to be upgraded, and when
there are no more. A run under the lock may fail anywhere. -/
structure Milestones (σ : Type) where
  idle : σ → Prop
  known : Option String → σ → Prop
  ready : Option String → Role → Progress → σ → Prop
  due : Option String → Role → List Node → Progress → σ → Prop
  through : Progress → σ → Prop
  failed : σ → Prop

/-- What the parts of a run do to the milestones. -/
structure Course (rules : Rules Surroundings σ) (site : Site) (mark : Milestones σ) : Prop where
  idle : ∀ c, Call.IsPrologue c → rules.Keeps mark.idle c
  localId : ∀ s, mark.idle s → localId.Upholds rules mark.known (fun _ => mark.failed) s
  managers : ∀ selfId, rules.Keeps (mark.known selfId) (.swarm .here (.members (some .manager)))
  failed_of_known : ∀ selfId s, mark.known selfId s → mark.failed s
  deploy : ∀ selfId template s, mark.known selfId s →
    (updateDeployment site.config template).Upholds rules
      (fun _ => mark.ready selfId .manager .start) (fun _ => mark.failed) s
  resolve : ∀ selfId role progress s, mark.ready selfId role progress s →
    (Resolution.resolve (site.config.setOf role) role).Upholds rules
      (fun resolved => mark.due selfId role resolved.nodes progress) (fun _ => mark.failed) s
  own : ∀ selfId role node rest progress s, mark.due selfId role (node :: rest) progress s →
    isOwn selfId node = true → mark.due selfId role rest (progress.withOwn node) s
  skip : ∀ selfId role node rest progress s, mark.due selfId role (node :: rest) progress s →
    node.isMember = false → mark.due selfId role rest (progress.skip node.hostname) s
  walk : ∀ selfId role node rest progress s, mark.due selfId role (node :: rest) progress s →
    isOwn selfId node = false → node.isMember = true →
    (NodeWalk.run site (site.config.setOf role) node).Upholds rules
      (fun stage => mark.due selfId role rest (progress.upgraded ⟨node.hostname, role, stage⟩))
      (fun _ => mark.failed) s
  turn : ∀ selfId progress s, mark.due selfId .manager [] progress s →
    mark.ready selfId .worker progress s
  last : ∀ selfId progress s, mark.due selfId .worker [] progress s → mark.through progress s
  through : ∀ progress c, Call.IsEpilogue c → rules.Keeps (mark.through progress) c
  failed_of_through : ∀ progress s, mark.through progress s → mark.failed s
  giveUp : rules.Keeps mark.failed (.queue (.delete site.config.swarm.upgradeQueue))

namespace Course

variable {site : Site} {mark : Milestones σ} {selfId : Option String} {role : Role}

theorem upgradeNodes_upholds (h : Course rules site mark) (nodes : List Node) (progress : Progress)
    (hs : mark.due selfId role nodes progress s) :
    (upgradeNodes site selfId (site.config.setOf role) role nodes progress).Upholds rules
      (mark.due selfId role []) (fun _ => mark.failed) s := by
  induction nodes generalizing progress s with
  | nil => exact hs
  | cons node rest ih =>
      unfold upgradeNodes
      split
      next hown => exact ih _ (h.own selfId role node rest progress s hs hown)
      next hown =>
        rw [Bool.not_eq_true] at hown
        split
        next hmember =>
          rw [Bool.not_eq_true'] at hmember
          exact ih _ (h.skip selfId role node rest progress s hs hmember)
        next hmember =>
          rw [Bool.not_eq_true', Bool.not_eq_false] at hmember
          refine (h.walk selfId role node rest progress s hs hown hmember).bind ?_
          exact fun stage s hs => ih _ hs

theorem upgradeSet_upholds (h : Course rules site mark) (progress : Progress)
    (hs : mark.ready selfId role progress s) :
    (upgradeSet site selfId role progress).Upholds rules (mark.due selfId role [])
      (fun _ => mark.failed) s :=
  (h.resolve selfId role progress s hs).renamed.bind fun resolved _ hs =>
    h.upgradeNodes_upholds resolved.nodes progress hs

theorem conclude_upholds (h : Course rules site mark) (template : Url) (progress : Progress)
    (hs : mark.through progress s) :
    (conclude site selfId template progress).Upholds rules
      (fun report s' => report.nodes = progress.nodes ∧ mark.through progress s')
      (fun _ => mark.failed) s := by
  have hepilogue := h.through progress
  unfold conclude
  split
  next node id _ =>
    have hasks : (handOff site node id).Asks Call.IsEpilogue :=
      handOff_asks (fun _ hc => hc.isEpilogue) trivial (fun _ => trivial) id
    have hhandOff := hasks.keeps hepilogue hs
    refine Upholds.bind (hhandOff.monoError fun _ => h.failed_of_through progress) fun _ s hs => ?_
    exact ⟨rfl, hs⟩
  next =>
    have hasks : (Lock.release site.config.swarm.upgradeQueue).Asks Call.IsEpilogue :=
      Lock.release_asks trivial
    have hrelease := hasks.keeps hepilogue hs
    refine Upholds.bind (hrelease.monoError fun _ => h.failed_of_through progress).renamed ?_
    exact fun _ s hs => ⟨rfl, hs⟩

theorem runLocked_upholds (h : Course rules site mark) (template : Url) (hs : mark.idle s) :
    (runLocked site template).Upholds rules
      (fun report s' => ∃ progress, report.nodes = progress.nodes ∧ mark.through progress s')
      (fun _ => mark.failed) s := by
  refine (h.localId s hs).renamed.bind fun selfId s hs => ?_
  have hmanagers : (Control.members .here (some .manager)).Upholds rules
      (fun _ => mark.known selfId) (fun _ => mark.known selfId) s :=
    Program.perform_upholds_of_keeps (h.managers selfId) hs fun answer s' _ hs' => by
      cases answer <;> exact hs'
  refine Upholds.bind (hmanagers.monoError fun _ => h.failed_of_known selfId).renamed ?_
  intro managers s hs
  refine Upholds.bind (m := fun _ => mark.known selfId) ?_ fun _ s hs => ?_
  · refine upholds_ofExcept.mpr ?_
    cases guardManagers site.config selfId managers with
    | ok _ => exact hs
    | error e => exact h.failed_of_known selfId s hs
  refine (h.deploy selfId template s hs).bind fun _ s hs => ?_
  refine (h.upgradeSet_upholds .start hs).bind fun progress s hs => ?_
  refine (h.upgradeSet_upholds progress (h.turn selfId progress s hs)).bind fun progress s hs => ?_
  refine (h.conclude_upholds template progress (h.last selfId progress s hs)).mono ?_ fun _ _ hs => hs
  exact fun report s hs => ⟨progress, hs⟩

/-- Giving the lock up after a failure ends a run with that failure. -/
theorem abandon_upholds (h : Course rules site mark) (error : UpgradeError) (hs : mark.failed s) :
    (abandon site error).Upholds rules (fun _ _ => False) (fun _ => mark.failed) s := by
  have hrelease : (Lock.release site.config.swarm.upgradeQueue).Asks fun c : Call =>
      c = .queue (.delete site.config.swarm.upgradeQueue) := Lock.release_asks rfl
  have hkept := hrelease.keeps (fun c hc => hc ▸ h.giveUp) hs
  exact upholds_bind.mpr (upholds_discard.mpr (upholds_outcome.mpr hkept))

/-- A run that succeeds is through with all nodes, and one that fails has not begun or has failed
under the lock. -/
theorem run_upholds (h : Course rules site mark) (templateUrl : String) (hs : mark.idle s) :
    (run site templateUrl).Upholds rules
      (fun report s' => ∃ progress, report.nodes = progress.nodes ∧ mark.through progress s')
      (fun _ s' => mark.idle s' ∨ mark.failed s') s := by
  have hvalidate := (Template.validate_asks (fun _ => trivial) templateUrl
    site.config.swarm.allowInsecureTemplate).keeps h.idle hs
  refine Upholds.bind (hvalidate.monoError fun _ _ => .inl) fun template s hs => ?_
  have hasks : (Lock.acquire site.config.swarm.upgradeQueue).Asks Call.IsPrologue :=
    Lock.acquire_asks trivial trivial
  have hacquire := hasks.keeps h.idle hs
  refine Upholds.bind (hacquire.monoError fun _ _ => .inl).renamed fun got s hs => ?_
  cases got with
  | alreadyLocked => exact .inl hs
  | acquired =>
      have hlocked := h.runLocked_upholds template hs
      refine upholds_bind.mpr (upholds_outcome.mpr (hlocked.mono (fun _ _ hs => hs) ?_))
      intro e s hs
      exact (h.abandon_upholds e hs).mono (fun _ _ h => h.elim) fun _ _ => .inr

end Course

end Upgrade

end SwarmUpkeep
