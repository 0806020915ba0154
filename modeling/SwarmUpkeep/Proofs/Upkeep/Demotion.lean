import SwarmUpkeep.Proofs.Program.Transcript
import SwarmUpkeep.Proofs.Upkeep.Checkup
import SwarmUpkeep.Proofs.Upkeep.Course

/-!
# Demotion before removal

No control loop takes a manager out of the swarm that it has not demoted. Who is a manager is what
the loop has been told last: by the listing or the inspection from which it has the identifier. The
evictions of a heal pass and of an upgrade go on when the manager to demote turns out to be gone; an
upgrade that takes out the node at which it is, and a handoff, go on only when the demotion was
done.
-/

namespace SwarmUpkeep

open Attempt Control

/-! ## What a transcript tells of a member -/

/-- The role under which an answer reports a member: the one that was listed, or the one that the
member has. -/
def Exchange.role? (id : String) : Exchange Surroundings → Option Role
  | ⟨.swarm _ (.members (some role)), .ok members⟩ =>
      if members.any fun m => m.id = id then some role else none
  | ⟨.swarm _ (.members none), .ok members⟩ =>
      (members.find? fun m => m.id = id).map (·.role)
  | ⟨.swarm _ (.inspect asked), .ok m⟩ => if asked = id then some m.role else none
  | _ => none

/-- The role under which a member was reported last. -/
def lastRole? (past : List (Exchange Surroundings)) (id : String) : Option Role :=
  past.reverse.findSome? (Exchange.role? id)

/-- A demotion of the member has been answered in such a way. -/
def Demoted (enough : Except ServiceError Unit → Prop) (past : List (Exchange Surroundings))
    (id : String) : Prop :=
  ∃ engine answer, (⟨.swarm engine (.demote id), answer⟩ : Exchange Surroundings) ∈ past ∧
    enough answer

/-- The demotion was done. -/
def IsDone (answer : Except ServiceError Unit) : Prop :=
  answer = .ok ()

/-- The demotion was done, or there was nobody to demote. -/
def IsDoneOrGone (answer : Except ServiceError Unit) : Prop :=
  answer = .ok () ∨ ∃ what, answer = .error (.notFound what)

/-- Whoever is removed has been reported, and who was last reported as a manager has been demoted. -/
def DemotedFirst (enough : Except ServiceError Unit → Prop) (past : List (Exchange Surroundings)) :
    Call → Prop
  | .swarm _ (.remove id) =>
      ∃ role, lastRole? past id = some role ∧ (role = .manager → Demoted enough past id)
  | _ => True

/-- The member is removed only after it was demoted. -/
def DemotedBefore (own : String) (past : List (Exchange Surroundings)) : Call → Prop
  | .swarm _ (.remove id) => id = own → Demoted IsDone past id
  | _ => True

theorem lastRole?_concat (past : List (Exchange Surroundings)) (e : Exchange Surroundings)
    (id : String) : lastRole? (past ++ [e]) id = (e.role? id).or (lastRole? past id) := by
  simp only [lastRole?, List.reverse_append, List.reverse_singleton, List.singleton_append,
    List.findSome?_cons]
  cases e.role? id <;> rfl

theorem Demoted.concat {enough : Except ServiceError Unit → Prop}
    {past : List (Exchange Surroundings)} {id : String} (h : Demoted enough past id)
    (e : Exchange Surroundings) : Demoted enough (past ++ [e]) id := by
  obtain ⟨engine, answer, hmem, henough⟩ := h
  exact ⟨engine, answer, List.mem_append_left _ hmem, henough⟩

/-- The members have been reported, under this role last. -/
def Reported (role : Role) (ids : List String) (past : List (Exchange Surroundings)) : Prop :=
  ∀ id ∈ ids, lastRole? past id = some role

namespace Call

/-- A question whose answer reports nobody in another role. -/
def IsSteady (role : Role) : Call → Prop
  | .swarm _ (.inspect _) => False
  | .swarm _ (.members listed) => listed = some role
  | _ => True

/-- A question that removes nobody. -/
def Spares : Call → Prop
  | .swarm _ (.remove _) => False
  | _ => True

/-- A question that is neither the removal of a member nor one after which a member's role must be
looked at anew. -/
def IsRoutine (role : Role) (c : Call) : Prop :=
  c.Spares ∧ c.IsSteady role

theorem ListsOnly.isSteady {role : Role} {c : Call} (h : c.ListsOnly role) : c.IsSteady role := by
  unfold ListsOnly at h
  unfold IsSteady
  split at h <;> simp_all [IsAside]

theorem ListsOnly.spares {role : Role} {c : Call} (h : c.ListsOnly role) : c.Spares := by
  unfold ListsOnly at h
  unfold Spares
  split at h <;> simp_all [IsAside]

theorem ListsOnly.isRoutine {role : Role} {c : Call} (h : c.ListsOnly role) : c.IsRoutine role :=
  ⟨h.spares, h.isSteady⟩

theorem IsAside.spares {c : Call} (h : c.IsAside) : c.Spares := by
  unfold IsAside at h
  unfold Spares
  split at h <;> simp_all

theorem IsPrologue.spares {c : Call} (h : c.IsPrologue) : c.Spares := by
  unfold IsPrologue at h
  unfold Spares
  split at h <;> simp_all

theorem IsEpilogue.spares {c : Call} (h : c.IsEpilogue) : c.Spares := by
  unfold IsEpilogue at h
  unfold Spares
  split at h <;> simp_all

theorem Spares.demotedFirst {enough : Except ServiceError Unit → Prop}
    {past : List (Exchange Surroundings)} {c : Call} (h : c.Spares) :
    DemotedFirst enough past c := by
  unfold Spares at h
  unfold DemotedFirst
  split at h
  · exact h.elim
  · trivial

end Call

variable {enough : Except ServiceError Unit → Prop} {role : Role} {ids : List String} {id : String}
variable {past : List (Exchange Surroundings)} {e : Exchange Surroundings} {c : Call}

/-- What a steady question is answered leaves the role in which a member was reported last. -/
theorem Reported.concat (h : Reported role ids past) (hsteady : e.call.IsSteady role) :
    Reported role ids (past ++ [e]) := by
  intro id hid
  have hlast := h id hid
  rw [lastRole?_concat]
  obtain ⟨c, answer⟩ := e
  unfold Exchange.role?
  split
  next listed members heq =>
    cases heq
    cases hsteady
    split
    · rfl
    · exact hlast
  next heq => cases heq; cases hsteady
  next heq => cases heq; exact hsteady.elim
  next => exact hlast

/-- A listing reports its members. -/
theorem Reported.listed (h : Reported role ids past) (engine : Engine) (members : List Member) :
    Reported role (members.map (·.id) ++ ids)
      (past ++ [⟨.swarm engine (.members (some role)), .ok members⟩]) := by
  intro id hid
  rw [lastRole?_concat]
  simp only [Exchange.role?]
  split
  · rfl
  next hunlisted =>
    rcases List.mem_append.mp hid with hmembers | hids
    · obtain ⟨m, hm, rfl⟩ := List.mem_map.mp hmembers
      exact absurd (List.any_eq_true.mpr ⟨m, hm, by simp⟩) hunlisted
    · exact h id hids

theorem Reported.mono {ids' : List String} (h : Reported role ids past) (hsub : ids' ⊆ ids) :
    Reported role ids' past :=
  fun id hid => h id (hsub hid)

namespace Demotion

/-! ## What the parts keep -/

/-- The rules under which nobody is removed before demotion was answered in such a way. -/
abbrev demotedFirst (enough : Except ServiceError Unit → Prop) :
    Rules Surroundings (List (Exchange Surroundings)) :=
  .recorded (DemotedFirst enough)

theorem spares_keeps (hc : c.Spares) : (demotedFirst enough).Keeps (fun _ => True) c :=
  fun _ _ => ⟨hc.demotedFirst, fun _ _ _ => trivial⟩

theorem reported_keeps (hc : c.IsRoutine role) :
    (demotedFirst enough).Keeps (Reported role ids) c := by
  intro past hpast
  refine ⟨hc.1.demotedFirst, ?_⟩
  rintro answer past' rfl
  exact hpast.concat hc.2

/-- The members have been reported, and one of them has been demoted if it is a manager. -/
def Removable (enough : Except ServiceError Unit → Prop) (role : Role) (ids : List String)
    (id : String) (past : List (Exchange Surroundings)) : Prop :=
  Reported role ids past ∧ (role = .manager → Demoted enough past id)

theorem removable_keeps (hc : c.IsRoutine role) :
    (demotedFirst enough).Keeps (Removable enough role ids id) c := by
  rintro past ⟨hreported, hdemoted⟩
  refine ⟨hc.1.demotedFirst, ?_⟩
  rintro answer past' rfl
  exact ⟨hreported.concat hc.2, fun hrole => (hdemoted hrole).concat _⟩

theorem remove_keeps (engine : Engine) (hid : id ∈ ids) :
    (demotedFirst enough).Keeps (Removable enough role ids id) (.swarm engine (.remove id)) := by
  rintro past ⟨hreported, hdemoted⟩
  refine ⟨⟨role, hreported id hid, hdemoted⟩, ?_⟩
  rintro answer past' rfl
  exact ⟨hreported.concat trivial, fun hrole => (hdemoted hrole).concat _⟩

/-- A demotion that is answered well enough makes the member removable. -/
theorem demote_upholds (engine : Engine) (hs : Reported role ids past) :
    (demote engine id).Upholds (demotedFirst enough)
      (fun _ past' => enough (.ok ()) → Removable enough role ids id past')
      (fun e past' => Reported role ids past' ∧
        (enough (.error e) → Removable enough role ids id past')) past := by
  refine Program.perform_upholds_of_keeps (reported_keeps ⟨trivial, trivial⟩) hs ?_
  rintro answer past' rfl hreported
  have hdemoted : enough answer → Demoted enough (past ++ [⟨.swarm engine (.demote id), answer⟩]) id :=
    fun henough => ⟨engine, answer, List.mem_append_right _ (List.mem_singleton.mpr rfl), henough⟩
  cases answer with
  | ok _ => exact fun henough => ⟨hreported, fun _ => hdemoted henough⟩
  | error e => exact ⟨hreported, fun henough => ⟨hreported, fun _ => hdemoted henough⟩⟩

theorem remove_upholds (engine : Engine) (hid : id ∈ ids) (hs : Removable enough role ids id past) :
    (Membership.unlessGone (remove engine id)).Upholds (demotedFirst enough)
      (fun _ => Reported role ids) (fun _ => Removable enough role ids id) past := by
  refine Membership.unlessGone_upholds ?_
  refine Program.perform_upholds_of_keeps (remove_keeps engine hid) hs fun answer past' _ hs' => ?_
  cases answer with
  | ok _ => exact hs'.1
  | error e =>
      simp only [outcomeIs]
      split
      · exact hs'.1
      · exact hs'

theorem evict_upholds (hid : id ∈ ids) (hs : Reported role ids past) :
    (Membership.evict id role).Upholds (demotedFirst IsDoneOrGone) (fun _ => Reported role ids)
      (fun _ => Reported role ids) past := by
  have hremove : ∀ past, Removable IsDoneOrGone role ids id past →
      (Membership.unlessGone (remove .here id)).Upholds (demotedFirst IsDoneOrGone)
        (fun _ => Reported role ids) (fun _ => Reported role ids) past :=
    fun past hs => (remove_upholds .here hid hs).monoError fun _ _ hs => hs.1
  unfold Membership.evict
  split
  · refine Upholds.bind (Membership.unlessGone_upholds ?_) fun _ => hremove
    refine (demote_upholds .here hs).mono (fun _ past' hs' => hs' (.inl rfl)) ?_
    intro e past' ⟨hreported, hremovable⟩
    cases e with
    | notFound what => exact hremovable (.inr ⟨what, rfl⟩)
    | conflict what => exact hreported
    | transient what => exact hreported
    | fatal what => exact hreported
    | undecodable what => exact hreported
  next hrole => exact hremove past ⟨hs, fun h => absurd h hrole⟩

theorem members_upholds (engine : Engine) (hs : Reported role ids past) :
    (members engine (some role)).Upholds (demotedFirst enough)
      (fun members => Reported role (members.map (·.id) ++ ids)) (fun _ => Reported role ids)
      past := by
  refine Program.perform_upholds_of_keeps (reported_keeps ⟨trivial, rfl⟩) hs ?_
  rintro answer past' rfl hs'
  cases answer with
  | ok members => exact hs.listed engine members
  | error e => exact hs'

/-! ## Healing -/

section Healing

variable {ε α : Type} {x : Control ε α}

theorem spares_upholds (hx : x.Asks Call.Spares) (past : List (Exchange Surroundings)) :
    x.Upholds (demotedFirst enough) (fun _ _ => True) (fun _ _ => True) past :=
  hx.keeps (fun _ hc => spares_keeps hc) trivial

theorem routine_upholds (hx : x.Asks (Call.IsRoutine role)) (hs : Reported role ids past) :
    x.Upholds (demotedFirst enough) (fun _ => Reported role ids) (fun _ => Reported role ids)
      past :=
  hx.keeps (fun _ hc => reported_keeps hc) hs

theorem aside_upholds (hx : x.Asks Call.IsAside) (hs : Reported role ids past) :
    x.Upholds (demotedFirst enough) (fun _ => Reported role ids) (fun _ _ => True) past :=
  (routine_upholds (hx.mono fun _ hc => hc.listsOnly.isRoutine) hs).monoError fun _ _ _ => trivial

end Healing

/-- Evicting members that have been reported. -/
theorem evictions_upholds {members : List Member} (hmembers : members.map (·.id) ⊆ ids)
    (hs : Reported role ids past) :
    (each (fun m => Membership.evict m.id role) members).Upholds (demotedFirst IsDoneOrGone)
      (fun _ => Reported role ids) (fun _ => Reported role ids) past :=
  Upholds.each (fun _ hm _ hs => evict_upholds (hmembers (List.mem_map_of_mem hm)) hs) hs

/-- Members picked from a listing are among those that it reports. -/
theorem filter_ids_subset (holds : Member → Bool) (members : List Member) (ids : List String) :
    (members.filter holds).map (·.id) ⊆ members.map (·.id) ++ ids :=
  fun _ hid => List.mem_append_left _ (List.map_subset _ List.filter_sublist.subset hid)

theorem reconcile_upholds (config : Config) (set : String) (role : Role)
    (past : List (Exchange Surroundings)) :
    (Drift.reconcile config set role).Upholds (demotedFirst IsDoneOrGone) (fun _ _ => True)
      (fun _ _ => True) past := by
  refine Upholds.bind (spares_upholds (Lock.isHeld_asks trivial) past).renamed fun held past _ => ?_
  split
  · exact trivial
  · have htable := (Resolution.machineTable_asks set).mono fun _ hc => hc.spares
    refine Upholds.bind (spares_upholds htable past).renamed fun table past _ => ?_
    have hlisted : (members .here (some role)).Upholds (demotedFirst IsDoneOrGone)
        (fun members => Reported role (members.map (·.id) ++ [])) (fun _ => Reported role []) past :=
      members_upholds .here fun _ hid => absurd hid List.not_mem_nil
    refine Upholds.bind (hlisted.monoError fun _ _ _ => trivial).renamed fun members past hs => ?_
    dsimp only
    refine Upholds.bind (Upholds.renamed ((evictions_upholds ?_ hs).monoError
      fun _ _ _ => trivial)) fun _ _ _ => trivial
    simp only [List.partition_eq_filter_filter, Drift.drifted, List.filter_filter]
    exact filter_ids_subset _ members []

theorem replace_upholds (config : Config) (set : String) (role : Role) (members : List Member)
    (row : MachineAddress) (hs : Reported role (members.map (·.id) ++ ids) past) :
    (Health.replace config set role members row).Upholds (demotedFirst IsDoneOrGone)
      (fun _ => Reported role (members.map (·.id) ++ ids)) (fun _ _ => True) past := by
  refine Upholds.bind (Upholds.renamed ((evictions_upholds (filter_ids_subset _ members ids)
    hs).monoError fun _ _ _ => trivial)) fun _ past hs => ?_
  have hdelete : (deleteMachine set row.machineId).Upholds (demotedFirst IsDoneOrGone)
      (fun _ => Reported role (members.map (·.id) ++ ids)) (fun _ _ => True) past :=
    Program.perform_upholds_of_keeps (reported_keeps ⟨trivial, trivial⟩) hs fun answer _ _ hs' => by
      cases answer with
      | ok operation => exact hs'
      | error e => exact trivial
  refine Upholds.bind hdelete.renamed fun operation past hs => ?_
  exact (aside_upholds (Operation.await_asks trivial (fun _ => trivial) _ _) hs).renamed

theorem scaleUp_upholds (config : Config) (set : String) (deleted : Nat)
    (past : List (Exchange Surroundings)) :
    (Health.scaleUp config set deleted).Upholds (demotedFirst IsDoneOrGone) (fun _ _ => True)
      (fun _ _ => True) past :=
  spares_upholds (Health.scaleUp_asks trivial (fun _ => trivial) (fun _ => trivial)
    (fun _ => trivial) config deleted) past

/-- Whatever becomes of the machines, the members that a check evicts have been reported. -/
theorem check_course (config : Config) (set : String) (role : Role) :
    Health.Course (demotedFirst IsDoneOrGone) config set role
      { free := fun _ => True
        tabled := fun _ _ => True
        examined := fun _ members _ _ => Reported role (members.map (·.id) ++ []) }
      (fun _ _ => True) (fun _ => True) where
  table _ _ :=
    have htable := (Resolution.machineTable_asks set).mono fun _ hc => hc.spares
    spares_upholds htable _
  members _ _ _ :=
    have hlisted := members_upholds .here fun _ hid => absurd hid List.not_mem_nil
    hlisted.monoError fun _ _ _ => trivial
  examine _ members _ row _ _ _ _ hs := aside_upholds (Health.examine_asks config set members row) hs
  replace _ members _ row _ _ hs := replace_upholds config set role members row hs
  scaleUp _ _ verdicts s _ := scaleUp_upholds config set (Health.deadRows verdicts).length s
  noneDead _ _ _ _ _ _ := trivial

theorem check_upholds (config : Config) (set : String) (role : Role)
    (past : List (Exchange Surroundings)) :
    (Health.check config set role).Upholds (demotedFirst IsDoneOrGone) (fun _ _ => True)
      (fun _ _ => True) past := by
  apply (check_course config set role).check_upholds
  refine (spares_upholds (Lock.isHeld_asks trivial) past).mono ?_ fun _ _ h => h
  intro held past _
  cases held <;> trivial

theorem heal_upholds (config : Config) (past : List (Exchange Surroundings)) :
    (Health.heal config).Upholds (demotedFirst IsDoneOrGone) (fun _ _ => True) (fun _ _ => True) past :=
  Health.heal_upholds (fun past _ => spares_upholds (Lock.isHeld_asks trivial) past)
    (fun role past _ => check_upholds config (config.setOf role) role past)
    (fun role past _ => reconcile_upholds config (config.setOf role) role past) trivial

/-! ## A handoff -/

theorem stepDown_upholds (config : Config) (wasLeader : Bool)
    (hs : Reported .manager [id] past) :
    (Handoff.stepDown config id wasLeader).Upholds (demotedFirst IsDone)
      (fun engine past' => engine.isSome = true → Removable IsDone .manager [id] id past')
      (fun _ _ => True) past := by
  have hlisted : (members .here (some .manager)).Upholds (demotedFirst IsDone)
      (fun managers => Reported .manager (managers.map (·.id) ++ [id]))
      (fun _ => Reported .manager [id]) past := members_upholds .here hs
  refine Upholds.bind (hlisted.monoError fun _ _ _ => trivial).renamed fun managers past hs => ?_
  have hreported : Reported .manager [id] past := hs.mono (List.subset_append_right _ _)
  split
  · split
    · refine Upholds.bind (m := fun _ _ => True) ?_ fun _ _ _ hnone => by cases hnone
      have hclear : (Records.clearLeader config.swarm.recordTables).Asks Call.IsAside :=
        Records.clearLeader_asks trivial
      exact ((aside_upholds hclear hreported).mono (fun _ _ _ => trivial) fun _ _ h => h).renamed
    · exact trivial
  next peer _ =>
    have hdemoted : (demote .here id).Upholds (demotedFirst IsDone)
        (fun _ => Removable IsDone .manager [id] id) (fun _ _ => True) past :=
      (demote_upholds .here hreported).mono (fun _ _ hs => hs rfl) fun _ _ _ => trivial
    refine Upholds.bind hdemoted.renamed fun _ past hs => ?_
    have hkeeps : ∀ c, Call.ListsOnly .manager c →
        (demotedFirst IsDone).Keeps (Removable IsDone .manager [id] id) c :=
      fun c hc => removable_keeps hc.isRoutine
    have hreach : ∀ addr past, Removable IsDone .manager [id] id past →
        (reach addr : Control RejoinError Engine).Upholds (demotedFirst IsDone)
          (fun _ => Removable IsDone .manager [id] id) (fun _ _ => True) past :=
      fun addr past hs => ⟨trivial, fun _ past' hmove => ((hkeeps (.reach addr) trivial) past hs).2 _ _ hmove⟩
    refine (hreach peer.addr past hs).bind fun engine past hs => ?_
    have hlists : Call.ListsOnly .manager (.swarm engine (.members (some .manager))) := rfl
    have hasks := Succession.awaitNewLeader_asks hlists (fun _ => trivial) id
      config.timings.leaderPolicy
    have hleader := hasks.keeps hkeeps hs
    refine Upholds.bind (hleader.monoError fun _ _ _ => trivial).renamed fun leader past hs => ?_
    have hreached : ∀ past, Removable IsDone .manager [id] id past → (do
        return some (← reach leader.addr) : Control RejoinError (Option Engine)).Upholds
          (demotedFirst IsDone) (fun engine past' => engine.isSome = true →
            Removable IsDone .manager [id] id past') (fun _ _ => True) past :=
      fun past hs => (hreach leader.addr past hs).bind fun _ _ hs _ => hs
    split
    · have hasks : (Records.setLeader config.swarm.recordTables leader.addr).Asks
          (Call.ListsOnly .manager) := Records.setLeader_asks (fun _ => trivial) trivial _
      have hrecord := hasks.keeps hkeeps hs
      refine Upholds.bind (m := fun _ => Removable IsDone .manager [id] id) ?_ fun _ => hreached
      exact upholds_discard.mpr (hrecord.monoError fun _ _ _ => trivial).renamed
    · exact hreached past hs

theorem successor_upholds (config : Config) (me : Member) (hs : Reported me.role [id] past) :
    (Handoff.successor config me id).Upholds (demotedFirst IsDone)
      (fun engine past' => engine.isSome = true → Removable IsDone me.role [id] id past')
      (fun _ _ => True) past := by
  unfold Handoff.successor
  cases hrole : me.role with
  | manager =>
      rw [hrole] at hs
      exact stepDown_upholds config me.isLeader hs
  | worker =>
      rw [hrole] at hs
      have hasks : (do
          let leader ← Handoff.requireLeader config
          return some (← reach leader.leaderIp) : Control RejoinError (Option Engine)).Asks
            Call.IsAside :=
        (Handoff.requireLeader_asks trivial trivial).bind fun _ => ⟨trivial, fun _ _ _ => trivial⟩
      refine (aside_upholds hasks hs).mono ?_ fun _ _ h => h
      exact fun _ _ hs _ => ⟨hs, fun hrole => by cases hrole⟩

theorem depart_upholds (site : Site) (id : String) (past : List (Exchange Surroundings)) :
    (Handoff.depart site id).Upholds (demotedFirst IsDone) (fun _ _ => True) (fun _ _ => True) past := by
  have hinspect : (inspect .here id).Upholds (demotedFirst IsDone)
      (fun me => Reported me.role [id]) (fun _ _ => True) past := by
    refine Program.perform_upholds_of_keeps (spares_keeps trivial) trivial ?_
    rintro answer past' rfl _
    cases answer with
    | error e => exact trivial
    | ok me =>
        intro asked hasked
        rw [List.mem_singleton.mp hasked, lastRole?_concat]
        simp [Exchange.role?]
  refine Upholds.bind hinspect.renamed fun me past hs => ?_
  refine (aside_upholds (Handoff.ownMachine_asks _ id me) hs).bind fun machine past hs => ?_
  refine Upholds.bind (aside_upholds (Replica.drain_asks site me.hostname) hs).renamed ?_
  intro replica past hs
  refine Upholds.bind (aside_upholds (Replica.forget_asks site replica).aside hs).renamed ?_
  intro _ past hs
  refine (successor_upholds site.config me hs).bind fun engine past hs => ?_
  have hleave : leave.Upholds (demotedFirst IsDone)
      (fun _ past' => engine.isSome = true → Removable IsDone me.role [id] id past')
      (fun _ _ => True) past := by
    refine Program.perform_upholds_of_keeps (spares_keeps trivial) trivial ?_
    rintro answer past' rfl _
    cases answer with
    | error e => exact trivial
    | ok _ => exact fun hsome =>
        ⟨(hs hsome).1.concat trivial, fun hrole => ((hs hsome).2 hrole).concat _⟩
  refine Upholds.bind hleave.renamed fun _ past hs => ?_
  refine Upholds.bind (m := fun _ _ => True) ?_ fun _ past _ => ?_
  · cases engine with
    | none => exact trivial
    | some engine =>
        exact ((remove_upholds engine (List.mem_singleton.mpr rfl) (hs rfl)).mono
          (fun _ _ _ => trivial) fun _ _ _ => trivial).renamed
  -- Nobody is removed from here on.
  refine spares_upholds ?_ past
  refine (Lock.release_asks trivial).mapError.bind fun _ => ?_
  refine Asks.bind (Asks.mapError (Program.asks_perform trivial)) fun operation => ?_
  refine (Operation.await_asks trivial (fun _ => trivial) _ _).mapError.bind fun _ => ?_
  exact Asks.discard (Asks.mapError (Program.asks_perform trivial))

theorem complete_upholds (site : Site) (past : List (Exchange Surroundings)) :
    (Handoff.complete site).Upholds (demotedFirst IsDone) (fun _ _ => True) (fun _ _ => True)
      past := by
  have hlocal : (localId.mapError RejoinError.service).Asks Call.Spares :=
    Asks.mapError (Program.asks_perform trivial)
  refine (spares_upholds hlocal past).bind fun found past _ => ?_
  cases found with
  | none => exact trivial
  | some id =>
      refine Upholds.bind (spares_upholds (Lock.peek_asks trivial) past).renamed ?_
      intro head past _
      cases head with
      | none => exact trivial
      | some signal =>
          dsimp only
          split
          · refine spares_upholds ?_ past
            exact (Lock.pendingSignals_asks trivial).mapError.bind fun _ => asks_pure _
          · refine Upholds.bind (spares_upholds (Lock.consumeFor_asks trivial trivial
              (fun _ => trivial) id) past).renamed fun taken past _ => ?_
            cases taken with
            | none => exact trivial
            | some _ => exact (depart_upholds site id past).bind fun _ _ _ => trivial

/-! ## An upgrade -/

/-- All that a walk has to know of members that have been reported, at each of its milestones. -/
def marks (role : Role) (ids : List String) (id : String) :
    NodeWalk.Milestones (List (Exchange Surroundings)) where
  untouched := Reported role ids
  demoted := Removable IsDoneOrGone role ids id
  removed := Reported role ids
  updating _ := Reported role ids
  updated := Reported role ids
  reimaging _ := Reported role ids
  reimaged := Reported role ids
  returned := Reported role ids

theorem evictOverprovisioned_upholds (set : String) (hs : Reported role ids past) :
    (NodeWalk.evictOverprovisioned set role).Upholds (demotedFirst IsDoneOrGone)
      (fun _ => Reported role ids) (fun _ => Reported role ids) past := by
  have hmachines : (machines set).Asks (Call.IsRoutine role) :=
    Program.asks_perform ⟨trivial, trivial⟩
  refine (routine_upholds hmachines hs).bind fun machines past hs => ?_
  refine (members_upholds .here hs).bind fun members past hs => ?_
  have hevicted := evictions_upholds (filter_ids_subset (fun m =>
    !(machines.any fun i => Ascii.sameFold i.computerName m.hostname)) members ids) hs
  have hsub : ids ⊆ members.map (·.id) ++ ids := List.subset_append_right _ _
  exact hevicted.mono (fun _ _ hs => hs.mono hsub) fun _ _ hs => hs.mono hsub

theorem demoted_course (set : String) {node : Node} (hid : node.memberId.getD "" ∈ ids) :
    NodeWalk.Course (demotedFirst IsDoneOrGone) set node
      (marks node.role ids (node.memberId.getD "")) where
  drain c hc := reported_keeps hc.isAside.listsOnly.isRoutine
  lists hrole := by rw [hrole]; exact reported_keeps ⟨trivial, rfl⟩
  demote hrole s hs := (demote_upholds .here hs).mono (fun _ _ h => h (.inl rfl)) fun _ _ h => h.1
  elects hrole c hc := by
    simp only [marks, hrole]
    exact removable_keeps hc.listsOnly.isRoutine
  spare hrole s hs := ⟨hs, fun h => absurd h hrole⟩
  remove s hs := remove_upholds .here hid hs
  forget c hc := reported_keeps hc.isAside.listsOnly.isRoutine
  update s hs := routine_upholds (x := updateModel set node.instanceId)
    (Program.asks_perform ⟨trivial, trivial⟩) hs
  updates operation _ := Operation.settles_of_keeps (reported_keeps ⟨trivial, trivial⟩)
  updateDone s hs := hs
  updatePauses operation ms := reported_keeps ⟨trivial, trivial⟩
  reimage s hs := routine_upholds (x := reimage set node.instanceId)
    (Program.asks_perform ⟨trivial, trivial⟩) hs
  evicts operation s hs := evictOverprovisioned_upholds set hs
  reimages operation := Operation.settles_of_keeps (reported_keeps ⟨trivial, trivial⟩)
  reimagePauses operation ms := reported_keeps ⟨trivial, trivial⟩
  returns s hs := by
    refine (members_upholds .here hs).mono (fun members s' hs' => ?_) fun _ _ hs' => hs'
    simp only [marks, ite_self]
    exact hs'.mono (List.subset_append_right _ _)
  returnPauses ms := reported_keeps ⟨trivial, trivial⟩

/-- The nodes that are still to be upgraded are of one role, and their members have been reported
in it. -/
def Picked (role : Role) (nodes : List Node) (past : List (Exchange Surroundings)) : Prop :=
  (∀ node ∈ nodes, node.role = role) ∧ Reported role (nodes.filterMap (·.memberId)) past

theorem Picked.tail {node : Node} {rest : List Node} (h : Picked role (node :: rest) past) :
    Picked role rest past := by
  refine ⟨(List.forall_mem_cons.mp h.1).2, h.2.mono ?_⟩
  intro id hid
  obtain ⟨other, hother, hid⟩ := List.mem_filterMap.mp hid
  exact List.mem_filterMap.mpr ⟨other, List.mem_cons_of_mem _ hother, hid⟩

theorem resolve_upholds (set : String) (role : Role) (past : List (Exchange Surroundings)) :
    (Resolution.resolve set role).Upholds (demotedFirst enough)
      (fun resolved => Picked role resolved.nodes) (fun _ _ => True) past := by
  have htable := (Resolution.machineTable_asks set).mono fun _ hc => hc.spares
  refine Upholds.bind (spares_upholds htable past).renamed fun table past _ => ?_
  have hlisted : (members .here (some role)).Upholds (demotedFirst enough)
      (fun members => Reported role (members.map (·.id) ++ [])) (fun _ => Reported role []) past :=
    members_upholds .here fun _ hid => absurd hid List.not_mem_nil
  refine Upholds.bind (hlisted.monoError fun _ _ _ => trivial).renamed fun members past hs => ?_
  cases Resolution.stray table members with
  | some m => exact trivial
  | none =>
      have hcollected : (collect (fun row => do
          return Resolution.node role members row (← Resolution.provisioning set row))
            table).Upholds (demotedFirst enough)
          (fun nodes past' => (∀ node ∈ nodes, node.role = role ∧
            ∀ id, node.memberId = some id → id ∈ members.map (·.id)) ∧
              Reported role (members.map (·.id) ++ []) past') (fun _ _ => True) past := by
        refine Upholds.collect (fun row _ past hs => ?_) hs
        refine (aside_upholds (Resolution.provisioning_asks trivial) hs).bind ?_
        intro provisionedAt past hs
        refine ⟨⟨rfl, fun id hid => ?_⟩, hs⟩
        obtain ⟨m, hm, rfl⟩ := Option.map_eq_some_iff.mp hid
        exact List.mem_map_of_mem (Resolution.mem_of_memberAt hm).1
      refine hcollected.bind fun nodes past ⟨hnodes, hs⟩ => ?_
      refine ⟨fun node hnode => (hnodes node hnode).1, hs.mono fun id hid => ?_⟩
      obtain ⟨node, hnode, hid⟩ := List.mem_filterMap.mp hid
      exact List.mem_append_left _ ((hnodes node hnode).2 id hid)

/-- The milestones of an upgrade: only while nodes are to be upgraded is there something to know. -/
def runMarks : Upgrade.Milestones (List (Exchange Surroundings)) where
  idle _ := True
  known _ _ := True
  ready _ _ _ _ := True
  due _ role nodes _ := Picked role nodes
  through _ _ := True
  failed _ := True

theorem upgrade_course (site : Site) :
    Upgrade.Course (demotedFirst IsDoneOrGone) site runMarks where
  idle c hc := spares_keeps hc.spares
  localId s _ := spares_upholds (x := localId) (Program.asks_perform trivial) s
  managers selfId := spares_keeps trivial
  failed_of_known _ _ _ := trivial
  deploy selfId template s _ :=
    spares_upholds ((Upgrade.updateDeployment_asks _ _).mono fun _ hc => hc.spares) s
  resolve selfId role progress s _ := resolve_upholds _ role s
  own selfId role node rest progress s hs _ := hs.tail
  skip selfId role node rest progress s hs _ := hs.tail
  walk selfId role node rest progress s hs _ hmember := by
    obtain ⟨hrole, _⟩ := List.forall_mem_cons.mp hs.1
    subst hrole
    obtain ⟨id, hid⟩ := Option.isSome_iff_exists.mp hmember
    have hown : node.memberId.getD "" ∈ (node :: rest).filterMap (·.memberId) :=
      List.mem_filterMap.mpr ⟨node, List.mem_cons_self, by rw [hid]; rfl⟩
    refine ((demoted_course (site.config.setOf node.role) hown).run_upholds hs.2).mono ?_ ?_
    · rintro stage s' ⟨_, hs'⟩
      exact Picked.tail ⟨hs.1, hs'⟩
    · exact fun _ _ _ => trivial
  turn _ _ _ _ := trivial
  last _ _ _ _ := trivial
  through progress c hc := spares_keeps hc.spares
  failed_of_through _ _ _ := trivial
  giveUp := spares_keeps trivial

/-! ## The node at which an upgrade is -/

/-- Once the node has been demoted, all that its walk does is in order. -/
def ownMarks (id : String) : NodeWalk.Milestones (List (Exchange Surroundings)) where
  untouched _ := True
  demoted past := Demoted IsDone past id
  removed past := Demoted IsDone past id
  updating _ past := Demoted IsDone past id
  updated past := Demoted IsDone past id
  reimaging _ past := Demoted IsDone past id
  reimaged past := Demoted IsDone past id
  returned past := Demoted IsDone past id

theorem Spares.demotedBefore (hc : c.Spares) : DemotedBefore id past c := by
  unfold Call.Spares at hc
  unfold DemotedBefore
  split at hc
  · exact hc.elim
  · trivial

theorem own_keeps (c : Call) : (Rules.recorded (DemotedBefore id)).Keeps
    (fun past => Demoted IsDone past id) c := by
  intro past hpast
  have hpermitted : DemotedBefore id past c := by
    unfold DemotedBefore
    split
    · rintro rfl
      exact hpast
    · trivial
  refine ⟨hpermitted, ?_⟩
  rintro answer past' rfl
  exact hpast.concat _

theorem own_upholds {ε α : Type} {x : Control ε α} (hx : x.Asks fun _ => True)
    (hs : Demoted IsDone past id) :
    x.Upholds (Rules.recorded (DemotedBefore id)) (fun _ past' => Demoted IsDone past' id)
      (fun _ past' => Demoted IsDone past' id) past :=
  hx.keeps (fun c _ => own_keeps c) hs

theorem own_course (set : String) {node : Node} (hrole : node.role = .manager) :
    NodeWalk.Course (.recorded (DemotedBefore (node.memberId.getD ""))) set node
      (ownMarks (node.memberId.getD "")) where
  drain c hc s _ := ⟨Spares.demotedBefore hc.isAside.spares, fun _ _ _ => trivial⟩
  lists _ s _ := ⟨trivial, fun _ _ _ => trivial⟩
  demote _ s _ := by
    refine ⟨trivial, ?_⟩
    rintro answer s' rfl
    cases answer with
    | error e => exact trivial
    | ok _ => exact ⟨_, _, List.mem_append_right _ (List.mem_singleton.mpr rfl), rfl⟩
  elects _ c _ := own_keeps c
  spare h := absurd hrole h
  remove s hs := own_upholds (Membership.unlessGone_asks (Program.asks_perform trivial)) hs
  forget c _ := own_keeps c
  update s hs := own_upholds (x := updateModel set node.instanceId) (Program.asks_perform trivial) hs
  updates operation _ := Operation.settles_of_keeps (own_keeps _)
  updateDone s hs := hs
  updatePauses operation ms := own_keeps _
  reimage s hs := own_upholds (x := reimage set node.instanceId) (Program.asks_perform trivial) hs
  evicts operation s hs := own_upholds (NodeWalk.evictOverprovisioned_asks trivial trivial
    (fun _ => trivial) fun _ => trivial) hs
  reimages operation := Operation.settles_of_keeps (own_keeps _)
  reimagePauses operation ms := own_keeps _
  returns s hs := by
    simp only [ownMarks, ite_self]
    exact own_upholds (x := members .here (some node.role)) (Program.asks_perform trivial) hs
  returnPauses ms := own_keeps _

end Demotion

/-- Whatever is answered, nobody who was last reported as a manager is removed before a demotion was
answered: done or gone in an upgrade and in a heal pass, and done in a handoff. The walk of a manager
removes it only after its demotion was done. -/
theorem removals_follow_demotions {σ : Type} (respond : σ → (c : Call) → c.Answer × σ) (s : σ) :
    (∀ site templateUrl, InOrder (DemotedFirst IsDoneOrGone)
      (Program.transcript respond (Upgrade.run site templateUrl) s)) ∧
    (∀ config set role, InOrder (DemotedFirst IsDoneOrGone)
      (Program.transcript respond (Health.check config set role) s)) ∧
    (∀ config set role, InOrder (DemotedFirst IsDoneOrGone)
      (Program.transcript respond (Drift.reconcile config set role) s)) ∧
    (∀ config, InOrder (DemotedFirst IsDoneOrGone)
      (Program.transcript respond (Health.heal config) s)) ∧
    (∀ site, InOrder (DemotedFirst IsDone)
      (Program.transcript respond (Handoff.complete site) s)) ∧
    ∀ site set node, node.role = .manager → InOrder (DemotedBefore (node.memberId.getD ""))
      (Program.transcript respond (NodeWalk.run site set node) s) := by
  refine ⟨?_, ?_, ?_, ?_, ?_, ?_⟩
  · intro site templateUrl
    have hrun := (Demotion.upgrade_course site).run_upholds templateUrl (s := []) trivial
    exact Program.Upholds.inOrder hrun respond s
  · intro config set role
    exact Program.Upholds.inOrder (Demotion.check_upholds config set role []) respond s
  · intro config set role
    exact Program.Upholds.inOrder (Demotion.reconcile_upholds config set role []) respond s
  · intro config
    exact Program.Upholds.inOrder (Demotion.heal_upholds config []) respond s
  · intro site
    exact Program.Upholds.inOrder (Demotion.complete_upholds site []) respond s
  · intro site set node hrole
    exact Program.Upholds.inOrder ((Demotion.own_course set hrole).run_upholds trivial) respond s

end SwarmUpkeep
