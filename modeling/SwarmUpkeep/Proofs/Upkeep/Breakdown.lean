import SwarmUpkeep.Proofs.Upkeep.Leadership

/-!
# What the stage of a walk that broke off tells

A walk that breaks off is reported with the stage that its node had reached. A node enters a stage
only when all that leads up to it has been done: a demotion counts once the successor of a leader has
been recorded, and a removal once the record of the node's replica is deleted. So a node may have been
demoted or removed already in the stage before. The model update and the reimage are told as they
are.
-/

namespace SwarmUpkeep

open Attempt Control

/-! ## Deeds -/

namespace Exchange

/-- The member has been demoted. -/
def demotes (id : String) : Exchange Surroundings → Bool
  | ⟨.swarm _ (.demote asked), .ok _⟩ => asked == id
  | _ => false

/-- The member has been removed. -/
def removes (id : String) : Exchange Surroundings → Bool
  | ⟨.swarm _ (.remove asked), .ok _⟩ => asked == id
  | _ => false

/-- The reimage of a machine has been started. -/
def reimages (set machine : String) : Exchange Surroundings → Bool
  | ⟨.provider (.reimage asked other), .ok _⟩ => asked == set && other == machine
  | _ => false

/-- The managers have been listed. -/
abbrev listing (managers : List Member) : Exchange Surroundings :=
  ⟨.swarm .here (.members (some .manager)), .ok managers⟩

/-- A member has been demoted on this host. -/
abbrev demotion (id : String) : Exchange Surroundings :=
  ⟨.swarm .here (.demote id), .ok ()⟩

/-- The record of a replica was to be deleted. -/
abbrev deletion (tables : RecordTables) (replicaId : String) (answer : Except ServiceError Unit) :
    Exchange Surroundings :=
  ⟨.table (.delete tables.replica Records.replicaPartition replicaId), answer⟩

end Exchange

namespace Call

/-- A question before the removal of a node: it removes nobody and is not put to the provider. -/
def IsPreliminary : Call → Prop
  | .swarm _ (.remove _) => False
  | .provider _ => False
  | _ => True

theorem Drains.isPreliminary {hostname : String} {c : Call} (h : c.Drains hostname) :
    c.IsPreliminary := by
  unfold Drains at h
  unfold IsPreliminary
  split at h <;> simp_all

theorem Elects.isPreliminary {engine : Engine} {c : Call} (h : c.Elects engine) :
    c.IsPreliminary := by
  unfold Elects at h
  unfold IsPreliminary
  split at h <;> simp_all

theorem IsPreliminary.removes {c : Call} (h : c.IsPreliminary) (id : String) (answer : c.Answer) :
    Exchange.removes id ⟨c, answer⟩ = false := by
  unfold IsPreliminary at h
  unfold Exchange.removes
  split <;> simp_all

theorem Drains.demotes {hostname : String} {c : Call} (h : c.Drains hostname) (id : String)
    (answer : c.Answer) : Exchange.demotes id ⟨c, answer⟩ = false := by
  unfold Drains at h
  unfold Exchange.demotes
  split <;> simp_all

end Call

namespace Breakdown

open NodeWalk

variable {site : Site} {set : String} {node : Node} {walk start : List (Exchange Surroundings)}
variable {id hostname : String} {c : Call} {ε α : Type}

/-- The model update of a machine has been seen to complete. -/
def SeesUpdate (set machine : String) (walk : List (Exchange Surroundings)) : Prop :=
  ∃ operation, ⟨.provider (.updateModel set machine), .ok operation⟩ ∈ walk ∧
    (operation = .done ∨ ⟨.provider (.status operation), .ok .succeeded⟩ ∈ walk)

/-- The member led the swarm by the listing just before its demotion, and all that has been done since
is to look for its successor, which has not been recorded. -/
def Unsucceeded (tables : RecordTables) (id : String) (walk : List (Exchange Surroundings)) : Prop :=
  ∃ past managers rest,
    walk = past ++ [.listing managers, .demotion id] ++ rest ∧
    (managers.any fun m => m.id == id && m.isLeader) = true ∧
    ∀ e ∈ rest, e.call.Elects .here ∧ e.recordsLeader tables = false

/-- The last that has been done is that the member was removed, and then the record of its replica could
not be deleted. -/
def RecordKept (tables : RecordTables) (id : String) (walk : List (Exchange Surroundings)) : Prop :=
  ∃ past replicaId e, walk = past ++ [⟨.swarm .here (.remove id), .ok ()⟩,
      .deletion tables replicaId (.error e)] ∧
    past.any (Exchange.removes id) = false

/-- The identifier under which a node is taken out of the swarm. -/
abbrev memberOf (node : Node) : String :=
  node.memberId.getD ""

/-- What the stage of a walk that broke off tells of what has been done to its node since the walk
began. -/
def Tells (site : Site) (set : String) (node : Node) (walk : List (Exchange Surroundings)) :
    Stage → Prop
  | .active =>
      walk.any (Exchange.removes (memberOf node)) = false ∧
        (walk.any (Exchange.demotes (memberOf node)) = true →
          Unsucceeded site.config.swarm.recordTables (memberOf node) walk)
  | .drainingAddon =>
      (walk.any (Exchange.removes (memberOf node)) = true → node.role ≠ .manager ∧
          RecordKept site.config.swarm.recordTables (memberOf node) walk) ∧
        (walk.any (Exchange.demotes (memberOf node)) = true →
          Unsucceeded site.config.swarm.recordTables (memberOf node) walk)
  | .demoted =>
      walk.any (Exchange.removes (memberOf node)) = true →
        RecordKept site.config.swarm.recordTables (memberOf node) walk
  | .removedFromMembership => ¬SeesUpdate set node.instanceId walk
  | .modelUpdated => walk.any (Exchange.reimages set node.instanceId) = false
  | _ => True

/-! ## What has been said so far -/

/-- The rules under which all may be said, and is remembered. -/
abbrev rules : Rules Surroundings (List (Exchange Surroundings)) :=
  .recorded fun _ _ => True

/-- From a start on, all that has been said is of a kind. -/
def GoesOn (start : List (Exchange Surroundings)) (kind : Exchange Surroundings → Prop)
    (walk : List (Exchange Surroundings)) : Prop :=
  ∃ rest, walk = start ++ rest ∧ ∀ e ∈ rest, kind e

variable {kind : Exchange Surroundings → Prop}

theorem GoesOn.here (start : List (Exchange Surroundings)) (kind : Exchange Surroundings → Prop) :
    GoesOn start kind start :=
  ⟨[], (List.append_nil start).symm, fun _ he => absurd he List.not_mem_nil⟩

theorem GoesOn.concat {e : Exchange Surroundings} (h : GoesOn start kind walk) (he : kind e) :
    GoesOn start kind (walk ++ [e]) := by
  obtain ⟨rest, rfl, hrest⟩ := h
  refine ⟨rest ++ [e], List.append_assoc _ _ _, fun e' he' => ?_⟩
  rcases List.mem_append.mp he' with hbefore | hlast
  · exact hrest e' hbefore
  · rw [List.mem_singleton.mp hlast]
    exact he

theorem goesOn_keeps (h : ∀ answer, kind ⟨c, answer⟩) : rules.Keeps (GoesOn start kind) c := by
  refine fun walk hwalk => ⟨trivial, ?_⟩
  rintro answer _ rfl
  exact hwalk.concat (h answer)

theorem any_concat_eq_false {holds : Exchange Surroundings → Bool} {e : Exchange Surroundings}
    (hwalk : walk.any holds = false) (he : holds e = false) : (walk ++ [e]).any holds = false := by
  simp [hwalk, he]

/-- Nothing has to be shown of a part that anything may follow. -/
theorem upholds_anything (x : Control ε α) (walk : List (Exchange Surroundings)) :
    x.Upholds rules (fun _ _ => True) (fun _ _ => True) walk := by
  have hasks : x.Asks fun _ => True := by
    change Program.Asks _ _
    induction (x : Program Surroundings (Except ε α)) with
    | done a => trivial
    | ask c next ih => exact ⟨trivial, fun answer _ _ => ih answer⟩
  exact hasks.keeps (fun c _ _ _ => ⟨trivial, fun _ _ _ => trivial⟩) trivial

/-! ## Up to the demotion -/

/-- Only a replica is drained, if there is an add-on at all. -/
theorem drain_upholds (site : Site) (hostname : String) :
    (Replica.drain site hostname).Upholds rules
      (fun replica walk => (∀ e ∈ walk, e.call.Drains hostname) ∧
        (replica ≠ none → site.hasAddon = true))
      (fun _ walk => ∀ e ∈ walk, e.call.Drains hostname) [] := by
  cases haddon : site.hasAddon with
  | false =>
      simp only [Replica.drain, haddon, Bool.not_false, if_true]
      exact ⟨fun e he => absurd he List.not_mem_nil, fun h => absurd rfl h⟩
  | true =>
      have hkept : (Replica.drain site hostname).Upholds rules
          (fun _ => GoesOn [] fun e => e.call.Drains hostname)
          (fun _ => GoesOn [] fun e => e.call.Drains hostname) [] :=
        (Replica.drain_drains site hostname).keeps (fun c hc => goesOn_keeps fun _ => hc) (.here [] _)
      refine hkept.mono ?_ ?_
      · rintro replica walk ⟨rest, rfl, hrest⟩
        exact ⟨hrest, fun _ => rfl⟩
      · rintro e walk ⟨rest, rfl, hrest⟩
        exact hrest

/-- All that has been said came before the removal. -/
def Prepares (walk : List (Exchange Surroundings)) : Prop :=
  ∀ e ∈ walk, e.call.IsPreliminary

theorem Prepares.removes (h : Prepares walk) (id : String) :
    walk.any (Exchange.removes id) = false := by
  rw [List.any_eq_false]
  rintro ⟨c, answer⟩ he
  simpa using (h _ he).removes id answer

theorem Prepares.concat {e : Exchange Surroundings} (h : Prepares walk) (he : e.call.IsPreliminary) :
    Prepares (walk ++ [e]) := by
  intro e' he'
  rcases List.mem_append.mp he' with hbefore | hlast
  · exact h e' hbefore
  · rw [List.mem_singleton.mp hlast]
    exact he

/-- What a demotion leaves where it breaks off: nobody has been removed, and a leader that has been
demoted has no successor on record. -/
def Deposes (tables : RecordTables) (id : String) (walk : List (Exchange Surroundings)) : Prop :=
  Prepares walk ∧ (walk.any (Exchange.demotes id) = true → Unsucceeded tables id walk)

theorem Deposes.of_undemoted {tables : RecordTables} (h : Prepares walk)
    (hnone : walk.any (Exchange.demotes id) = false) : Deposes tables id walk :=
  ⟨h, fun hsome => by rw [hnone] at hsome; cases hsome⟩

/-- A question by which a new leader is looked for and recorded, up to a record that is written. -/
def Seeks (tables : RecordTables) (e : Exchange Surroundings) : Prop :=
  e.call.Elects .here ∧ e.recordsLeader tables = false

/-- A leader has been demoted, and its successor is looked for. -/
structure Deposed (tables : RecordTables) (id : String) (managers : List Member)
    (start walk : List (Exchange Surroundings)) : Prop where
  prepared : Prepares start
  led : (managers.any fun m => m.id == id && m.isLeader) = true
  seeks : GoesOn (start ++ [.listing managers, .demotion id]) (Seeks tables) walk

variable {tables : RecordTables} {managers : List Member}

theorem Deposed.deposes (h : Deposed tables id managers start walk) : Deposes tables id walk := by
  obtain ⟨hstart, hled, rest, rfl, hrest⟩ := h
  refine ⟨?_, fun _ => ⟨start, managers, rest, rfl, hled, hrest⟩⟩
  intro e he
  rcases List.mem_append.mp he with hbefore | hsought
  · rcases List.mem_append.mp hbefore with hbefore | hlast
    · exact hstart e hbefore
    · simp only [List.mem_cons, List.not_mem_nil, or_false] at hlast
      rcases hlast with rfl | rfl
      · trivial
      · trivial
  · exact (hrest e hsought).1.isPreliminary

theorem deposed_keeps (h : ∀ answer, Seeks tables ⟨c, answer⟩) :
    rules.Keeps (Deposed tables id managers start) c := by
  refine fun walk hwalk => ⟨trivial, ?_⟩
  rintro answer _ rfl
  exact ⟨hwalk.prepared, hwalk.led, hwalk.seeks.concat (h answer)⟩

/-- A demotion of a leader is over once its successor is recorded. -/
theorem setLeader_upholds (leaderIp : Address) (h : Deposed tables id managers start walk) :
    (Records.setLeader tables leaderIp).Upholds rules (fun _ => Prepares)
      (fun _ => Deposes tables id) walk := by
  refine Upholds.bind (m := fun _ => Deposed tables id managers start) ?_ fun time walk h => ?_
  · exact upholds_lift.mpr (Program.perform_upholds_of_keeps
      (deposed_keeps fun _ => ⟨trivial, rfl⟩) h fun _ _ _ hs => hs)
  · refine Upholds.bind (m := fun _ => Prepares) (Upholds.mapError ⟨trivial, ?_⟩) fun _ _ h => h
    rintro answer _ rfl
    cases answer with
    | error e => exact Deposed.deposes ⟨h.prepared, h.led, h.seeks.concat ⟨trivial, rfl⟩⟩
    | ok _ => exact h.deposes.1.concat trivial

theorem awaitNewLeader_upholds (policy : RetryPolicy)
    (h : Deposed tables id managers start walk) :
    (Succession.awaitNewLeader .here id policy).Upholds rules
      (fun _ => Deposed tables id managers start) (fun _ => Deposes tables id) walk := by
  have hasks : (Succession.awaitNewLeader .here id policy).Asks fun c : Call =>
      ∀ answer, Seeks tables ⟨c, answer⟩ :=
    Succession.awaitNewLeader_asks (fun _ => ⟨⟨rfl, rfl⟩, rfl⟩) (fun _ _ => ⟨trivial, rfl⟩) id policy
  exact (hasks.keeps (fun _ hc => deposed_keeps hc) h).monoError fun _ _ h => h.deposes

theorem undemoted_of_drains (id : String) (hwalk : ∀ e ∈ walk, e.call.Drains hostname) :
    walk.any (Exchange.demotes id) = false := by
  rw [List.any_eq_false]
  rintro ⟨c, answer⟩ he
  simpa using (hwalk _ he).demotes id answer

/-- A demotion that breaks off has removed nobody, and has demoted nobody but a leader whose successor
is not recorded. -/
theorem demoteManager_upholds (config : Config) (id : String)
    (hwalk : ∀ e ∈ walk, e.call.Drains hostname) :
    (Succession.demoteManager config hostname id).Upholds rules (fun _ => Prepares)
      (fun _ => Deposes config.swarm.recordTables id) walk := by
  have hprepared : Prepares walk := fun e he => (hwalk e he).isPreliminary
  have hundemoted := undemoted_of_drains id hwalk
  have hlisting : (members .here (some .manager)).Upholds rules
      (fun managers walk' => walk' = walk ++ [.listing managers])
      (fun _ => Deposes config.swarm.recordTables id) walk := by
    refine ⟨trivial, ?_⟩
    rintro answer _ rfl
    cases answer with
    | error e =>
        exact .of_undemoted (hprepared.concat trivial) (any_concat_eq_false hundemoted rfl)
    | ok managers => rfl
  refine Upholds.bind hlisting.renamed ?_
  rintro managers _ rfl
  have hlisted : Prepares (walk ++ [.listing managers]) := hprepared.concat trivial
  have hspared : (walk ++ [Exchange.listing managers]).any (Exchange.demotes id) = false :=
    any_concat_eq_false hundemoted rfl
  refine Upholds.bind (m := fun _ walk' => walk' = walk ++ [.listing managers]) ?_ ?_
  · refine upholds_ofExcept.mpr ?_
    cases Succession.guardQuorum hostname id managers with
    | ok _ => rfl
    | error e => exact .of_undemoted hlisted hspared
  rintro _ _ rfl
  have hdemote : (demote .here id).Upholds rules
      (fun _ walk' => walk' = walk ++ [.listing managers, .demotion id])
      (fun _ => Deposes config.swarm.recordTables id) (walk ++ [.listing managers]) := by
    refine ⟨trivial, ?_⟩
    rintro answer _ rfl
    cases answer with
    | error e => exact .of_undemoted (hlisted.concat trivial) (any_concat_eq_false hspared rfl)
    | ok _ => exact List.append_assoc _ _ _
  refine Upholds.bind hdemote.renamed ?_
  rintro _ _ rfl
  -- Nothing can fail any more in the demotion of a member that did not lead.
  split
  next hled =>
    have hdeposed : Deposed config.swarm.recordTables id managers walk
        (walk ++ [.listing managers, .demotion id]) := ⟨hprepared, hled, .here _ _⟩
    refine (awaitNewLeader_upholds _ hdeposed).bind fun leader walk' h => ?_
    exact upholds_discard.mpr (setLeader_upholds leader.addr h).renamed
  next =>
    have hdemoted : Prepares (walk ++ [.listing managers] ++ [.demotion id]) := hlisted.concat trivial
    rw [List.append_assoc] at hdemoted
    exact hdemoted

/-! ## Up to the removal -/

/-- The stage in which a node is removed. -/
def removalStage (site : Site) (node : Node) : Stage :=
  if node.role = .manager then .demoted else drained site

theorem tells_drained (site : Site) (set : String)
    (hremoves : walk.any (Exchange.removes (memberOf node)) = false)
    (hdemotes : walk.any (Exchange.demotes (memberOf node)) = true →
      Unsucceeded site.config.swarm.recordTables (memberOf node) walk) :
    Tells site set node walk (drained site) := by
  unfold drained
  split
  · exact ⟨fun hremoved => absurd hremoved (by simp [hremoves]), hdemotes⟩
  · exact ⟨hremoves, hdemotes⟩

/-- The node may be removed: nobody has been, and it has been demoted only if it is a manager. -/
structure Ready (node : Node) (walk : List (Exchange Surroundings)) : Prop where
  prepared : Prepares walk
  spared : node.role ≠ .manager → walk.any (Exchange.demotes (memberOf node)) = false

/-- A node is not removed in its removal stage unless the record of its replica is kept. -/
theorem tells_removal
    (hremoves : walk.any (Exchange.removes (memberOf node)) = true →
      site.hasAddon = true ∧ RecordKept site.config.swarm.recordTables (memberOf node) walk)
    (hspared : node.role ≠ .manager → walk.any (Exchange.demotes (memberOf node)) = false) :
    Tells site set node walk (removalStage site node) := by
  unfold removalStage
  split
  next => exact fun hremoved => (hremoves hremoved).2
  next hrole =>
    have hdemotes : walk.any (Exchange.demotes (memberOf node)) = true →
        Unsucceeded site.config.swarm.recordTables (memberOf node) walk :=
      fun hdemoted => absurd hdemoted (by simp [hspared hrole])
    unfold drained
    split
    next => exact ⟨fun hremoved => ⟨hrole, (hremoves hremoved).2⟩, hdemotes⟩
    next haddon =>
      refine ⟨?_, hdemotes⟩
      rw [← Bool.not_eq_true]
      exact fun hremoved => haddon (hremoves hremoved).1

/-- A removal that fails removes nobody. -/
theorem remove_upholds (hready : Ready node walk) :
    (Membership.unlessGone (remove .here (memberOf node))).Upholds rules
      (fun _ walk' => ∃ answer, walk' = walk ++ [⟨.swarm .here (.remove (memberOf node)), answer⟩])
      (fun _ walk' => Tells site set node walk' (removalStage site node)) walk := by
  apply Membership.unlessGone_upholds
  refine ⟨trivial, ?_⟩
  rintro answer _ rfl
  cases answer with
  | ok _ => exact ⟨_, rfl⟩
  | error e =>
      change if e.isNotFound then _ else _
      split
      · exact ⟨_, rfl⟩
      · refine tells_removal (fun hremoved => ?_) fun hrole =>
          any_concat_eq_false (hready.spared hrole) rfl
        rw [any_concat_eq_false (hready.prepared.removes _) rfl] at hremoved
        cases hremoved

/-- Nothing has been asked of the provider. -/
def Unprovided (walk : List (Exchange Surroundings)) : Prop :=
  ∀ e ∈ walk, ∀ call, e.call ≠ .provider call

theorem Prepares.unprovided (h : Prepares walk) : Unprovided walk := by
  intro e he call hcall
  have hpreliminary := h e he
  rw [hcall] at hpreliminary
  exact hpreliminary

theorem Unprovided.concat {e : Exchange Surroundings} (h : Unprovided walk)
    (he : ∀ call, e.call ≠ .provider call) : Unprovided (walk ++ [e]) := by
  intro e' he'
  rcases List.mem_append.mp he' with hbefore | hlast
  · exact h e' hbefore
  · rw [List.mem_singleton.mp hlast]
    exact he

/-- Where the record of a replica is kept, its node may have been removed just before. -/
theorem tells_record_kept (set replicaId : String)
    {answer : (Call.swarm .here (.remove (memberOf node))).Answer} (hready : Ready node start)
    (haddon : site.hasAddon = true)
    (hwalk : walk = start ++ [⟨.swarm .here (.remove (memberOf node)), answer⟩])
    (e : ServiceError) :
    Tells site set node (walk ++ [.deletion site.config.swarm.recordTables replicaId (.error e)])
      (removalStage site node) := by
  subst hwalk
  have hbefore := hready.prepared.removes (memberOf node)
  refine tells_removal (fun hremoved => ⟨haddon, ?_⟩) fun hrole =>
    any_concat_eq_false (any_concat_eq_false (hready.spared hrole) rfl) rfl
  cases answer with
  | ok _ => exact ⟨start, replicaId, e, List.append_assoc _ _ _, hbefore⟩
  | error refused =>
      rw [any_concat_eq_false (any_concat_eq_false hbefore rfl) rfl] at hremoved
      cases hremoved

theorem forget_upholds {replica : Option ReplicaRecord}
    {answer : (Call.swarm .here (.remove (memberOf node))).Answer} (hready : Ready node start)
    (haddon : replica ≠ none → site.hasAddon = true)
    (hwalk : walk = start ++ [⟨.swarm .here (.remove (memberOf node)), answer⟩]) :
    (Replica.forget site replica).Upholds rules (fun _ => Unprovided)
      (fun _ walk' => Tells site set node walk' (removalStage site node)) walk := by
  have hunprovided : Unprovided walk := by
    rw [hwalk]
    exact hready.prepared.unprovided.concat fun call hcall => by cases hcall
  cases replica with
  | none => exact hunprovided
  | some replica =>
      refine Upholds.bind (m := fun answer walk' => walk' = walk ++
        [.deletion site.config.swarm.recordTables replica.replicaId answer]) ?_ ?_
      · refine upholds_outcome.mpr ⟨trivial, ?_⟩
        rintro answer _ rfl
        cases answer <;> rfl
      rintro answer _ rfl
      have hdeleted : Unprovided (walk ++
          [.deletion site.config.swarm.recordTables replica.replicaId answer]) :=
        hunprovided.concat fun call hcall => by cases hcall
      refine Upholds.mapError (upholds_ofExcept.mpr ?_)
      cases answer with
      | ok _ => exact hdeleted
      | error e =>
          have hkept := tells_record_kept set replica.replicaId hready
            (haddon (by simp)) hwalk e
          -- A record that is not there is as good as deleted.
          cases e with
          | notFound what => exact hdeleted
          | conflict what => exact hkept
          | transient what => exact hkept
          | fatal what => exact hkept
          | undecodable what => exact hkept

/-- What fails in a stage is judged by what the stage tells. -/
theorem during_upholds {stage : Stage} {failure : ε → UpgradeError} {x : Control ε α}
    {ok : α → List (Exchange Surroundings) → Prop}
    (h : x.Upholds rules ok (fun _ walk' => Tells site set node walk' stage) walk) :
    (during stage failure x).Upholds rules ok (fun e walk' => Tells site set node walk' e.1) walk :=
  Upholds.mapError h

theorem detach_upholds (site : Site) (set : String) (node : Node) :
    (detach site node).Upholds rules (fun _ => Unprovided)
      (fun e walk => Tells site set node walk e.1) [] := by
  have hdrain : (Replica.drain site node.hostname).Upholds rules
      (fun replica walk => (∀ e ∈ walk, e.call.Drains node.hostname) ∧
        (replica ≠ none → site.hasAddon = true))
      (fun _ walk => Tells site set node walk (drained site)) [] := by
    refine (drain_upholds site node.hostname).monoError fun e walk hwalk => ?_
    have hundemoted := undemoted_of_drains (memberOf node) hwalk
    have hprepared : Prepares walk := fun e he => (hwalk e he).isPreliminary
    exact tells_drained site set (hprepared.removes _) fun hdemoted => by
      rw [hundemoted] at hdemoted
      cases hdemoted
  refine Upholds.bind (during_upholds hdrain) ?_
  rintro replica walk ⟨hdrained, haddon⟩
  have hrest : ∀ walk, Ready node walk → (do
      during (removalStage site node) .service
        (Membership.unlessGone (remove .here (memberOf node)))
      during (removalStage site node) .records (Replica.forget site replica)).Upholds rules
        (fun _ => Unprovided)
        (fun (e : Stage × UpgradeError) walk => Tells site set node walk e.1) walk := by
    intro walk hready
    refine Upholds.bind (during_upholds (remove_upholds hready)) ?_
    rintro _ _ ⟨answer, rfl⟩
    exact during_upholds (forget_upholds hready haddon rfl)
  dsimp only
  split
  next hrole =>
    have hdemote := (demoteManager_upholds site.config (memberOf node) hdrained).monoError
      fun _ walk hdeposes => tells_drained site set (hdeposes.1.removes _) hdeposes.2
    refine Upholds.bind (during_upholds hdemote) fun _ walk hprepared => ?_
    have hstage : removalStage site node = .demoted := if_pos hrole
    rw [← hstage]
    exact hrest walk ⟨hprepared, fun hne => absurd hrole hne⟩
  next hrole =>
    have hstage : removalStage site node = drained site := if_neg hrole
    rw [← hstage]
    exact hrest walk ⟨fun e he => (hdrained e he).isPreliminary,
      fun _ => undemoted_of_drains _ hdrained⟩

/-! ## From the removal on -/

/-- The model update of a machine has been started, and has not been seen to complete. -/
structure Updating (set machine : String) (operation : Operation)
    (walk : List (Exchange Surroundings)) : Prop where
  started : ∀ other, ⟨.provider (.updateModel set machine), .ok other⟩ ∈ walk → other = operation
  unseen : ⟨.provider (.status operation), .ok .succeeded⟩ ∉ walk
  kept : walk.any (Exchange.reimages set machine) = false

variable {machine : String} {operation : Operation}

theorem Updating.concat {e : Exchange Surroundings} (h : Updating set machine operation walk)
    (hupdate : ∀ other, e ≠ ⟨.provider (.updateModel set machine), .ok other⟩)
    (hstatus : e ≠ ⟨.provider (.status operation), .ok .succeeded⟩)
    (hreimage : e.reimages set machine = false) : Updating set machine operation (walk ++ [e]) := by
  refine ⟨fun other hother => ?_, fun hseen => ?_, any_concat_eq_false h.kept hreimage⟩
  · rcases List.mem_append.mp hother with hbefore | hlast
    · exact h.started other hbefore
    · exact absurd (List.mem_singleton.mp hlast).symm (hupdate other)
  · rcases List.mem_append.mp hseen with hbefore | hlast
    · exact h.unseen hbefore
    · exact hstatus (List.mem_singleton.mp hlast).symm

theorem Updating.unseen_update (h : Updating set machine operation walk)
    (hpending : operation ≠ .done) : ¬SeesUpdate set machine walk := by
  rintro ⟨other, hstarted, hseen⟩
  obtain rfl := h.started other hstarted
  rcases hseen with hdone | hseen
  · exact hpending hdone
  · exact h.unseen hseen

theorem Unprovided.reimages (h : Unprovided walk) :
    walk.any (Exchange.reimages set machine) = false := by
  rw [List.any_eq_false]
  rintro ⟨c, answer⟩ he
  cases c with
  | provider call => exact absurd rfl (h _ he call)
  | _ => exact Bool.false_ne_true

theorem updateModel_upholds (hwalk : Unprovided walk) :
    (updateModel set node.instanceId).Upholds rules (Updating set node.instanceId)
      (fun _ walk' => Tells site set node walk' .removedFromMembership) walk := by
  have hnone : ∀ call answer, (⟨.provider call, answer⟩ : Exchange Surroundings) ∉ walk :=
    fun call answer he => hwalk _ he call rfl
  refine ⟨trivial, ?_⟩
  rintro answer _ rfl
  cases answer with
  | error e =>
      rintro ⟨operation, hstarted, _⟩
      rcases List.mem_append.mp hstarted with hbefore | hlast
      · exact hnone _ _ hbefore
      · cases List.mem_singleton.mp hlast
  | ok operation =>
      refine ⟨fun other hother => ?_, fun hseen => ?_, any_concat_eq_false hwalk.reimages rfl⟩
      · rcases List.mem_append.mp hother with hbefore | hlast
        · exact absurd hbefore (hnone _ _)
        · cases List.mem_singleton.mp hlast
          rfl
      · rcases List.mem_append.mp hseen with hbefore | hlast
        · exact hnone _ _ hbefore
        · cases List.mem_singleton.mp hlast

/-- Where waiting for a model update breaks off, the update has not been seen to complete. -/
theorem await_upholds (policy : RetryPolicy) (what : String)
    (hwalk : Updating set node.instanceId operation walk) :
    (operation.await policy what).Upholds rules
      (fun _ walk' => walk'.any (Exchange.reimages set node.instanceId) = false)
      (fun _ walk' => Tells site set node walk' .removedFromMembership) walk := by
  by_cases hdone : operation = .done
  · rw [Operation.await, if_pos hdone]
    exact hwalk.kept
  · have hstatus : operation.Settles rules (Updating set node.instanceId operation)
        fun walk => walk.any (Exchange.reimages set node.instanceId) = false := by
      refine fun walk hwalk => ⟨trivial, ?_⟩
      rintro answer _ rfl
      cases answer with
      | error e => exact hwalk.concat (fun _ h => by cases h) (fun h => by cases h) rfl
      | ok status =>
          change if status = .succeeded then _ else _
          split
          next => exact any_concat_eq_false hwalk.kept rfl
          next hpending =>
            exact hwalk.concat (fun _ h => by cases h) (fun h => by cases h; exact hpending rfl) rfl
    have hpause : KeptByPauses rules (Updating set node.instanceId operation) := by
      refine fun ms walk hwalk => ⟨trivial, ?_⟩
      rintro answer _ rfl
      exact hwalk.concat (fun _ h => by cases h) (fun h => by cases h) rfl
    exact (Operation.await_upholds (fun _ => hstatus) hpause
      (fun h => absurd h hdone) hwalk).monoError fun _ _ h => h.unseen_update hdone

theorem reimage_upholds (hwalk : walk.any (Exchange.reimages set node.instanceId) = false) :
    (reimage set node.instanceId).Upholds rules (fun _ _ => True)
      (fun _ walk' => Tells site set node walk' .modelUpdated) walk := by
  refine ⟨trivial, ?_⟩
  rintro answer _ rfl
  cases answer with
  | error e => exact any_concat_eq_false hwalk rfl
  | ok operation => trivial

theorem rebuild_upholds (config : Config) (hwalk : Unprovided walk) :
    (rebuild config set node).Upholds rules (fun _ _ => True)
      (fun e walk' => Tells site set node walk' e.1) walk := by
  refine Upholds.bind (during_upholds (updateModel_upholds hwalk)) fun operation walk hwalk => ?_
  refine Upholds.bind (during_upholds (await_upholds _ _ hwalk)) fun _ walk hwalk => ?_
  refine Upholds.bind (during_upholds (reimage_upholds hwalk)) fun operation walk _ => ?_
  refine Upholds.bind (during_upholds (upholds_anything _ walk)) fun _ walk _ => ?_
  exact upholds_discard.mpr (during_upholds (upholds_anything _ walk))

/-- A walk that breaks off names its node and a stage that tells what has been done to it. -/
theorem run_upholds (site : Site) (set : String) (node : Node) :
    (NodeWalk.run site set node).Upholds rules (fun _ _ => True)
      (fun e walk => ∃ stage cause, e = .aborted node.hostname stage cause ∧
        Tells site set node walk stage) [] := by
  refine Upholds.mapError (Upholds.monoError ?_ fun e walk h => ⟨e.1, e.2, rfl, h⟩)
  refine (detach_upholds site set node).bind fun _ walk hwalk => ?_
  exact (rebuild_upholds site.config hwalk).bind fun _ _ _ => trivial

end Breakdown

end SwarmUpkeep
