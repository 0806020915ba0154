import SwarmUpkeep.Proofs.Upkeep.Account
import SwarmUpkeep.Proofs.Upkeep.Course

/-!
# The sequence of an upgrade

Every transcript of an upgrade is in order by the account of it, and a run that succeeds has brought
back all nodes that were gathered, in their order.
-/

namespace SwarmUpkeep

open Attempt Control

namespace Account

/-- The account is in a phase, and so many nodes are back. -/
structure Stands (phase : Phase) (selfId : Option String) (reports : List Upgrade.NodeReport)
    (a : Account) : Prop where
  phase : a.phase = phase
  selfId : a.selfId = selfId
  reports : a.returned.map Errand.report = reports

end Account

/-- A question whose answer moves no account on. -/
def Call.IsMute : Call → Prop
  | .provider (.machines _) => True
  | .provider (.interfaces _) => True
  | .provider (.view _ _) => True
  | .provider (.deployment _) => True
  | .queue _ => True
  | .table _ => True
  | .addon _ => True
  | .template _ => True
  | .pause _ => True
  | .now => True
  | _ => False

theorem Leg.next_mute {leg : Leg} {e : Exchange Surroundings} (h : e.call.IsMute) :
    leg.next e = leg := by
  unfold Leg.next
  split <;> first | rfl | exact h.elim

namespace Account

variable {phase : Phase} {selfId : Option String} {reports : List Upgrade.NodeReport} {a : Account}
variable {e : Exchange Surroundings}

theorem note_phase (a : Account) (e : Exchange Surroundings) : (a.note e).phase = a.phase := by
  unfold note
  split <;> rfl

theorem Stands.note (h : Stands phase selfId reports a)
    (he : ∀ engine, e.call ≠ .swarm engine .localId) : Stands phase selfId reports (a.note e) := by
  obtain ⟨c, answer⟩ := e
  unfold Account.note
  split
  next engine _ heq =>
    cases heq
    exact absurd rfl (he engine)
  next => exact ⟨h.phase, h.selfId, h.reports⟩
  next => exact ⟨h.phase, h.selfId, h.reports⟩
  next => exact ⟨h.phase, h.selfId, h.reports⟩
  next => exact h

theorem move_mute (a : Account) (h : e.call.IsMute) : a.move e = a := by
  obtain ⟨selfId, planned, returned, machines, interfaces, members, phase⟩ := a
  unfold move
  cases phase with
  | unprepared => dsimp only; split <;> first | rfl | exact h.elim
  | deploying operation => dsimp only; split <;> first | rfl | exact h.elim
  | gathering role => dsimp only; split <;> first | rfl | exact h.elim
  | finished => rfl
  | walking leg errand rest =>
      have hleg : leg.next e = leg := Leg.next_mute h
      cases leg with
      | reimaged => dsimp only; split <;> first | rfl | exact h.elim
      | _ =>
          dsimp only
          rw [hleg]

/-- A mute question leaves the account where it stands. -/
theorem Stands.mute (h : Stands phase selfId reports a) (hmute : e.call.IsMute) :
    Stands phase selfId reports (a.next e) := by
  unfold Account.next
  rw [(a.note e).move_mute hmute]
  refine h.note fun engine heq => ?_
  rw [heq] at hmute
  exact hmute

/-- On the way, the account moves on by the leg, up to the last one. -/
theorem next_leg {leg : Leg} {errand : Errand} {rest : List Errand}
    (hphase : a.phase = .walking leg errand rest) (hleg : leg ≠ .reimaged) :
    a.next e = { a.note e with phase := .walking (leg.next e) errand rest } := by
  unfold Account.next move
  rw [note_phase, hphase]
  cases leg <;> first | rfl | exact absurd rfl hleg

theorem Stands.leg {leg : Leg} {errand : Errand} {rest : List Errand}
    (h : Stands (.walking leg errand rest) selfId reports a) (hleg : leg ≠ .reimaged)
    (he : ∀ engine, e.call ≠ .swarm engine .localId) :
    Stands (.walking (leg.next e) errand rest) selfId reports (a.next e) := by
  obtain ⟨_, hself, hreports⟩ := h.note he
  rw [next_leg h.phase hleg]
  exact ⟨rfl, hself, hreports⟩

end Account

/-- Where a run heads: for the first of the nodes that are due, or for what comes after them. -/
def Phase.headed (role : Role) : List Errand → Phase
  | errand :: rest => .walking .untouched errand rest
  | [] =>
      match role with
      | .manager => .gathering .worker
      | .worker => .finished

/-- The leg on which a node is removed: a manager has been demoted. -/
def Errand.ready (errand : Errand) : Leg :=
  if errand.role = .manager then .demoted else .untouched

namespace Account

variable {selfId : Option String} {reports : List Upgrade.NodeReport} {a : Account}

theorem Stands.proceed {role : Role} (due : List Errand) (hself : a.selfId = selfId)
    (hreports : a.returned.map Errand.report = reports) :
    Stands (.headed role due) selfId reports (a.proceed role due) := by
  cases due with
  | cons errand rest => exact ⟨rfl, hself, hreports⟩
  | nil => cases role <;> exact ⟨rfl, hself, hreports⟩

end Account

namespace Sequence

open Account

/-- The rules by which the account of an upgrade decides what it may ask. -/
abbrev rules (site : Site) : Rules Surroundings Account :=
  .accounted Account.next (Account.Permits site)

variable {site : Site} {phase : Phase} {selfId : Option String}
variable {reports : List Upgrade.NodeReport} {a : Account} {c : Call}

theorem permits_of_stands (h : Stands phase selfId reports a)
    (hc : c.IsFree ∨ phase.Permits site a c) : a.Permits site c := by
  unfold Account.Permits
  rw [h.phase]
  exact hc

theorem mute_keeps (hmute : c.IsMute) (hpermits : ∀ a, c.IsFree ∨ phase.Permits site a c) :
    (rules site).Keeps (Stands phase selfId reports) c := by
  intro a ha
  refine ⟨permits_of_stands ha (hpermits a), ?_⟩
  rintro answer a' rfl
  exact ha.mute hmute

/-- What is asked on a leg takes the account on by that leg. -/
theorem leg_upholds {leg : Leg} {errand : Errand} {rest : List Errand}
    {post : Surroundings.Answer c → Account → Prop}
    (ha : Stands (.walking leg errand rest) selfId reports a)
    (hpermits : leg.Permits site errand a.IsStale c) (hleg : leg ≠ .reimaged)
    (hlocal : ∀ engine, c ≠ .swarm engine .localId)
    (hpost : ∀ answer a', Stands (.walking (leg.next ⟨c, answer⟩) errand rest) selfId reports a' →
      post answer a') :
    (Program.perform (I := Surroundings) c).Upholds (rules site) post a := by
  refine ⟨permits_of_stands ha (.inr hpermits), ?_⟩
  rintro answer a' rfl
  exact hpost answer _ (ha.leg hleg hlocal)

/-- A question of a leg whose answer does not end it. -/
theorem leg_keeps {leg : Leg} {errand : Errand} {rest : List Errand}
    (hpermits : ∀ a : Account, leg.Permits site errand a.IsStale c)
    (hleg : leg ≠ .reimaged) (hlocal : ∀ engine, c ≠ .swarm engine .localId)
    (hsame : ∀ answer, leg.next ⟨c, answer⟩ = leg) :
    (rules site).Keeps (Stands (.walking leg errand rest) selfId reports) c := by
  intro a ha
  refine ⟨permits_of_stands ha (.inr (hpermits a)), ?_⟩
  rintro answer a' rfl
  have hnext := ha.leg (e := ⟨c, answer⟩) hleg hlocal
  rw [hsame answer] at hnext
  exact hnext

/-! ## The walk of a node -/

section Walk

variable {node : Node} {rest : List Errand}

/-- What the account has to be at each milestone of a walk. -/
def marks (selfId : Option String) (reports : List Upgrade.NodeReport) (node : Node)
    (rest : List Errand) : NodeWalk.Milestones Account where
  untouched := Stands (.walking .untouched (.ofNode node) rest) selfId reports
  demoted := Stands (.walking (Errand.ofNode node).ready (.ofNode node) rest) selfId reports
  removed := Stands (.walking .removed (.ofNode node) rest) selfId reports
  updating operation := Stands (.walking (.started operation) (.ofNode node) rest) selfId reports
  updated := Stands (.walking .updated (.ofNode node) rest) selfId reports
  reimaging operation := Stands (.walking (.reimaging operation) (.ofNode node) rest) selfId reports
  reimaged := Stands (.walking .reimaged (.ofNode node) rest) selfId reports
  returned := Stands (.headed node.role rest) selfId (reports ++ [(Errand.ofNode node).report])

theorem drain_keeps (hc : c.Drains node.hostname) :
    (rules site).Keeps (Stands (.walking .untouched (.ofNode node) rest) selfId reports) c := by
  unfold Call.Drains at hc
  split at hc
  · exact mute_keeps trivial fun a => .inr hc
  · exact mute_keeps trivial fun a => .inr trivial
  · exact mute_keeps trivial fun a => .inl trivial
  · exact hc.elim

theorem elects_keeps (hrole : node.role = .manager) (hc : c.Elects .here) :
    (rules site).Keeps (Stands (.walking (Errand.ofNode node).ready (.ofNode node) rest) selfId
      reports) c := by
  have hready : (Errand.ofNode node).ready = .demoted := if_pos hrole
  rw [hready]
  unfold Call.Elects at hc
  split at hc
  · obtain ⟨rfl, rfl⟩ := hc
    exact leg_keeps (fun a => rfl) (fun h => by cases h) (fun _ h => by cases h) fun answer => rfl
  · exact mute_keeps trivial fun a => .inr trivial
  · exact mute_keeps trivial fun a => .inl trivial
  · exact mute_keeps trivial fun a => .inl trivial
  · exact hc.elim

theorem filing_keeps (hc : c.IsFiling) :
    (rules site).Keeps (Stands (.walking .removed (.ofNode node) rest) selfId reports) c := by
  unfold Call.IsFiling at hc
  split at hc
  · exact mute_keeps trivial fun a => .inr trivial
  · exact hc.elim

theorem pause_keeps (phase : Phase) :
    KeptByPauses (rules site) (Stands phase selfId reports) :=
  fun _ => mute_keeps trivial fun _ => .inl trivial

theorem demote_upholds (hrole : node.role = .manager)
    (ha : (marks selfId reports node rest).untouched a) :
    (demote .here (node.memberId.getD "")).Upholds (rules site)
      (fun _ => (marks selfId reports node rest).demoted)
      (fun _ => (marks selfId reports node rest).untouched) a := by
  have hready : (Errand.ofNode node).ready = .demoted := if_pos hrole
  simp only [marks, hready]
  refine leg_upholds ha ⟨hrole, rfl⟩ (fun h => by cases h) (fun _ h => by cases h) ?_
  intro answer a' ha'
  cases answer <;> exact ha'

theorem remove_upholds (ha : (marks selfId reports node rest).demoted a) :
    (Membership.unlessGone (remove .here (node.memberId.getD ""))).Upholds (rules site)
      (fun _ => (marks selfId reports node rest).removed)
      (fun _ => (marks selfId reports node rest).demoted) a := by
  -- A manager is removed from its second leg, and a worker from its first.
  refine Membership.unlessGone_upholds (leg_upholds ha ?_ ?_ (fun _ h => by cases h) ?_)
  · unfold Errand.ready
    split
    · exact rfl
    next hrole => exact ⟨hrole, rfl⟩
  · unfold Errand.ready
    split <;> exact fun h => by cases h
  · intro answer a' ha'
    have hnext : (Errand.ofNode node).ready.next ⟨.swarm .here (.remove (node.memberId.getD "")), answer⟩ =
        if isRemoved answer then .removed else (Errand.ofNode node).ready := by
      unfold Errand.ready
      split <;> rfl
    rw [hnext] at ha'
    cases answer with
    | ok _ => exact ha'
    | error e =>
        have hremoved : isRemoved (.error e) = e.isNotFound := rfl
        rw [hremoved] at ha'
        simp only [outcomeIs]
        cases hgone : e.isNotFound with
        | true =>
            rw [hgone, if_pos rfl] at ha'
            exact ha'
        | false =>
            rw [hgone, if_neg Bool.false_ne_true] at ha'
            exact ha'

theorem update_upholds (set : String) (hset : set = site.config.setOf node.role)
    (ha : (marks selfId reports node rest).removed a) :
    (updateModel set node.instanceId).Upholds (rules site)
      (marks selfId reports node rest).updating
      (fun _ => (marks selfId reports node rest).removed) a := by
  refine leg_upholds ha ⟨hset, rfl⟩ (fun h => by cases h) (fun _ h => by cases h) ?_
  intro answer a' ha'
  cases answer <;> exact ha'

theorem reimage_upholds (set : String) (hset : set = site.config.setOf node.role)
    (ha : (marks selfId reports node rest).updated a) :
    (reimage set node.instanceId).Upholds (rules site)
      (marks selfId reports node rest).reimaging
      (fun _ => (marks selfId reports node rest).updated) a := by
  refine leg_upholds ha ⟨hset, rfl⟩ (fun h => by cases h) (fun _ h => by cases h) ?_
  intro answer a' ha'
  cases answer <;> exact ha'

/-- Asking for the status of an operation ends the leg that waits for it just if it succeeded. -/
theorem leg_settles {waiting done : Leg} {errand : Errand} {operation : Operation}
    (hpermits : ∀ isStale, waiting.Permits site errand isStale (.provider (.status operation)))
    (hleg : waiting ≠ .reimaged)
    (hdone : waiting.next ⟨.provider (.status operation), .ok .succeeded⟩ = done)
    (hwaiting : ∀ answer, answer ≠ .ok .succeeded →
      waiting.next ⟨.provider (.status operation), answer⟩ = waiting) :
    operation.Settles (rules site) (Stands (.walking waiting errand rest) selfId reports)
      (Stands (.walking done errand rest) selfId reports) := by
  intro a ha
  refine leg_upholds ha (hpermits _) hleg (fun _ h => by cases h) ?_
  intro answer a' ha'
  by_cases hanswer : answer = .ok .succeeded
  · subst hanswer
    rw [hdone] at ha'
    exact ha'
  · rw [hwaiting answer hanswer] at ha'
    cases answer with
    | error e => exact ha'
    | ok status =>
        have hstatus : status ≠ .succeeded := fun h => hanswer (by rw [h])
        simp only [outcomeIs, if_neg hstatus]
        exact ha'

theorem updating_settles (operation : Operation) (hpending : operation ≠ .done) :
    operation.Settles (rules site) ((marks selfId reports node rest).updating operation)
      (marks selfId reports node rest).updated := by
  have hstarted : Leg.started operation = .updating operation := if_neg hpending
  simp only [marks, hstarted]
  refine leg_settles (fun _ => rfl) (fun h => by cases h) rfl ?_
  intro answer hanswer
  cases answer with
  | error e => rfl
  | ok status => cases status <;> first | rfl | exact absurd rfl hanswer

theorem reimaging_settles (operation : Operation) :
    operation.Settles (rules site) ((marks selfId reports node rest).reimaging operation)
      (marks selfId reports node rest).reimaged := by
  refine leg_settles (fun _ => rfl) (fun h => by cases h) rfl ?_
  intro answer hanswer
  cases answer with
  | error e => rfl
  | ok status => cases status <;> first | rfl | exact absurd rfl hanswer

/-- During a reimage the latest listings are these. -/
structure Sighted (operation : Operation) (selfId : Option String)
    (reports : List Upgrade.NodeReport) (node : Node) (rest : List Errand)
    (machines : List Machine) (members : List Member) (a : Account) : Prop where
  stands : Stands (.walking (.reimaging operation) (.ofNode node) rest) selfId reports a
  machines : a.machines = some machines
  members : a.members = members

theorem evictions_keep {operation : Operation} {machines : List Machine} {members : List Member}
    {id : String} (hid : ∃ m ∈ NodeWalk.overprovisioned machines members, m.id = id)
    (hc : node.role = .manager ∧ c = .swarm .here (.demote id) ∨ c = .swarm .here (.remove id)) :
    (rules site).Keeps (Sighted operation selfId reports node rest machines members) c := by
  rintro a ⟨ha, hmachines, hmembers⟩
  have hstale : a.IsStale id := by
    unfold Account.IsStale
    rw [hmachines, hmembers]
    exact hid
  -- Neither call is noted, and neither ends the reimage.
  have hsame : ∀ answer, a.next ⟨c, answer⟩ = a := by
    intro answer
    rw [next_leg ha.phase fun h => by cases h]
    obtain ⟨selfId, planned, returned, machines, interfaces, members, phase⟩ := a
    cases ha.phase
    rcases hc with ⟨_, rfl⟩ | rfl <;> rfl
  refine ⟨permits_of_stands ha (.inr ?_), ?_⟩
  · rcases hc with ⟨hrole, rfl⟩ | rfl
    · exact ⟨hrole, hstale⟩
    · exact hstale
  · rintro answer a' rfl
    rw [hsame answer]
    exact ⟨ha, hmachines, hmembers⟩

/-- A member that is evicted during a reimage has the name of no machine, by the two listings that
precede the evictions. -/
theorem evicts_upholds (operation : Operation)
    (ha : (marks selfId reports node rest).reimaging operation a) :
    (NodeWalk.evictOverprovisioned (site.config.setOf node.role) node.role).Upholds (rules site)
      (fun _ => (marks selfId reports node rest).reimaging operation)
      (fun _ => (marks selfId reports node rest).reimaging operation) a := by
  refine Upholds.bind (m := fun machines a' =>
    (marks selfId reports node rest).reimaging operation a' ∧ a'.machines = some machines) ?_ ?_
  · refine ⟨permits_of_stands ha (.inr rfl), ?_⟩
    rintro answer a' rfl
    have hnext := ha.mute (e := ⟨.provider (.machines _), answer⟩) trivial
    cases answer with
    | error e => exact hnext
    | ok machines =>
        refine ⟨hnext, ?_⟩
        rw [next_leg ha.phase fun h => by cases h]
        rfl
  intro machines a ⟨ha, hmachines⟩
  refine Upholds.bind (m := fun members => Sighted operation selfId reports node rest machines
    members) ?_ ?_
  · refine ⟨permits_of_stands ha (.inr rfl), ?_⟩
    rintro answer a' rfl
    have hnext := ha.leg (e := ⟨.swarm .here (.members _), answer⟩) (fun h => by cases h)
      fun _ h => by cases h
    cases answer with
    | error e => exact hnext
    | ok members =>
        refine ⟨hnext, ?_, ?_⟩
        · rw [next_leg ha.phase fun h => by cases h]
          exact hmachines
        · rw [next_leg ha.phase fun h => by cases h]
          rfl
  intro members a ha
  have hevictions : (each (fun m => Membership.evict m.id node.role)
      (NodeWalk.overprovisioned machines members)).Asks fun c : Call => ∃ id,
        (∃ m ∈ NodeWalk.overprovisioned machines members, m.id = id) ∧
        (node.role = .manager ∧ c = .swarm .here (.demote id) ∨ c = .swarm .here (.remove id)) :=
    Asks.each fun m hm => Membership.evict_asks
      (fun hrole => ⟨m.id, ⟨m, hm, rfl⟩, .inl ⟨hrole, rfl⟩⟩) ⟨m.id, ⟨m, hm, rfl⟩, .inr rfl⟩
  refine Upholds.mono (hevictions.keeps (fun c hc => ?_) ha) (fun _ _ ha => ha.stands)
    fun _ _ ha => ha.stands
  obtain ⟨id, hid, hc⟩ := hc
  exact evictions_keep hid hc

theorem returns_upholds (ha : (marks selfId reports node rest).reimaged a) :
    (members .here (some node.role)).Upholds (rules site)
      (fun members a' =>
        if (NodeWalk.returned node.hostname members).isSome
        then (marks selfId reports node rest).returned a'
        else (marks selfId reports node rest).reimaged a')
      (fun _ => (marks selfId reports node rest).reimaged) a := by
  refine ⟨permits_of_stands ha (.inr rfl), ?_⟩
  rintro answer a' rfl
  have hnoted := ha.note (e := ⟨.swarm .here (.members (some node.role)), answer⟩)
    fun _ h => by cases h
  cases answer with
  | error e =>
      unfold Account.next move
      rw [hnoted.phase]
      exact hnoted
  | ok members =>
      have hnext : a.next ⟨.swarm .here (.members (some node.role)), .ok members⟩ =
          if (NodeWalk.returned node.hostname members).isSome then
            { a with members, returned := a.returned ++ [Errand.ofNode node] }.proceed
              node.role rest
          else { a with members } := by
        unfold Account.next move
        rw [hnoted.phase]
        rfl
      rw [hnext]
      by_cases hreturned : (NodeWalk.returned node.hostname members).isSome
      · refine (if_pos hreturned).mpr ?_
        rw [if_pos hreturned]
        refine Stands.proceed rest ha.selfId ?_
        rw [List.map_append, ha.reports]
        rfl
      · refine (if_neg hreturned).mpr ?_
        rw [if_neg hreturned]
        exact hnoted

theorem walk_course : NodeWalk.Course (rules site) (site.config.setOf node.role) node
    (marks selfId reports node rest) where
  drain c hc := drain_keeps hc
  lists hrole := leg_keeps (fun _ => ⟨hrole, rfl⟩) (fun h => by cases h) (fun _ h => by cases h)
    fun answer => rfl
  demote hrole a ha := demote_upholds hrole ha
  elects hrole c hc := elects_keeps hrole hc
  spare hrole a ha := by
    have hready : (Errand.ofNode node).ready = .untouched := if_neg hrole
    simp only [marks, hready]
    exact ha
  remove a ha := remove_upholds ha
  forget c hc := filing_keeps hc
  update a ha := update_upholds _ rfl ha
  updates operation hpending := updating_settles operation hpending
  updateDone a ha := ha
  updatePauses operation := pause_keeps _
  reimage a ha := reimage_upholds _ rfl ha
  evicts operation a ha := evicts_upholds operation ha
  reimages operation := reimaging_settles operation
  reimagePauses operation := pause_keeps _
  returns a ha := returns_upholds ha
  returnPauses := pause_keeps _

end Walk

/-! ## A run -/

/-- What the account has to be at each milestone of a run. The nodes that are due are those that
run a member and are not this host. -/
def runMarks : Upgrade.Milestones Account where
  idle := Stands .unprepared none []
  known selfId := Stands .unprepared selfId []
  ready selfId role progress := Stands (.gathering role) selfId progress.nodes
  due selfId role nodes progress a :=
    Stands (.headed role (nodes.filterMap (Errand.ofNode? selfId))) selfId progress.nodes a ∧
      ∀ node ∈ nodes, node.role = role
  through progress a := ∃ selfId, Stands .finished selfId progress.nodes a
  failed _ := True

/-- The phase after the answer that started the update of the deployment. -/
def prepared (operation : Operation) : Phase :=
  if operation = .done then .gathering .manager else .deploying operation

theorem localId_upholds (ha : Stands .unprepared selfId [] a) :
    localId.Upholds (rules site) (fun selfId => Stands .unprepared selfId []) (fun _ _ => True)
      a := by
  refine ⟨permits_of_stands ha (.inr trivial), ?_⟩
  rintro answer a' rfl
  cases answer with
  | error e => exact trivial
  | ok found =>
      obtain ⟨_, planned, returned, machines, interfaces, members, _⟩ := a
      cases ha.phase
      exact ⟨rfl, rfl, ha.reports⟩

theorem managers_keeps : (rules site).Keeps (Stands .unprepared selfId [])
    (.swarm .here (.members (some .manager))) := by
  intro a ha
  refine ⟨permits_of_stands ha (.inr rfl), ?_⟩
  rintro answer a' rfl
  have hnoted := ha.note (e := ⟨.swarm .here (.members (some .manager)), answer⟩)
    fun _ h => by cases h
  unfold Account.next move
  rw [hnoted.phase]
  exact hnoted

theorem deploying_settles (operation : Operation) (hpending : operation ≠ .done) :
    operation.Settles (rules site) (Stands (prepared operation) selfId [])
      (Stands (.gathering .manager) selfId []) := by
  have hprepared : prepared operation = .deploying operation := if_neg hpending
  rw [hprepared]
  intro a ha
  refine ⟨permits_of_stands ha (.inr rfl), ?_⟩
  rintro answer a' rfl
  have hnoted := ha.note (e := ⟨.provider (.status operation), answer⟩) fun _ h => by cases h
  unfold Account.next move
  rw [hnoted.phase]
  cases answer with
  | error e => exact hnoted
  | ok status =>
      cases status with
      | succeeded => exact ⟨rfl, hnoted.selfId, hnoted.reports⟩
      | inProgress => exact hnoted
      | failed reason => exact hnoted

theorem deploy_upholds (template : Url) (ha : Stands .unprepared selfId [] a) :
    (Upgrade.updateDeployment site.config template).Upholds (rules site)
      (fun _ => Stands (.gathering .manager) selfId []) (fun _ _ => True) a := by
  have hread : (deployment site.config.swarm.deploymentName).Upholds (rules site)
      (fun _ => Stands .unprepared selfId []) (fun _ => Stands .unprepared selfId []) a := by
    have hkeeps : (rules site).Keeps (Stands .unprepared selfId [])
        (.provider (.deployment site.config.swarm.deploymentName)) :=
      mute_keeps trivial fun _ => .inr trivial
    refine Program.perform_upholds_of_keeps hkeeps ha fun answer a' _ ha' => ?_
    cases answer <;> exact ha'
  refine Upholds.bind (hread.monoError fun _ _ _ => trivial).renamed fun deployment a ha => ?_
  refine Upholds.bind (m := fun _ => Stands .unprepared selfId []) ?_ fun parameters a ha => ?_
  · refine upholds_ofExcept.mpr ?_
    cases Template.carriedForward site.config deployment.parameters with
    | ok _ => exact ha
    | error e => exact trivial
  refine Upholds.bind (m := fun operation => Stands (prepared operation) selfId []) ?_ ?_
  · refine Upholds.renamed ⟨permits_of_stands ha (.inr trivial), ?_⟩
    rintro answer a' rfl
    cases answer with
    | error e => exact trivial
    | ok operation =>
        have hnext : a.next ⟨.provider (.updateDeployment site.config.swarm.deploymentName template
            parameters), .ok operation⟩ =
            if operation = .done then a.gather .manager
            else { a with phase := .deploying operation } := by
          unfold Account.next move
          rw [note_phase, ha.phase]
          rfl
        refine (congrArg (Stands (prepared operation) selfId []) hnext).mpr ?_
        unfold prepared
        split
        · exact ⟨rfl, ha.selfId, ha.reports⟩
        · exact ⟨rfl, ha.selfId, ha.reports⟩
  · intro operation a ha
    refine Upholds.renamed (Upholds.monoError (Operation.await_upholds
      (deploying_settles operation) (pause_keeps _) ?_ ha) fun _ _ _ => trivial)
    rintro rfl a ha
    exact ha

/-- What is known once the machines and the interfaces of a set have been listed. -/
structure Surveyed (role : Role) (selfId : Option String) (reports : List Upgrade.NodeReport)
    (table : List MachineAddress) (a : Account) : Prop where
  stands : Stands (.gathering role) selfId reports a
  machines : a.machines.isSome = true
  interfaces : a.interfaces.isSome = true
  table : Resolution.addressed (a.machines.getD []) (a.interfaces.getD []) = table

theorem machineTable_upholds {role : Role} (ha : Stands (.gathering role) selfId reports a) :
    (Resolution.machineTable (site.config.setOf role)).Upholds (rules site)
      (Surveyed role selfId reports) (fun _ _ => True) a := by
  refine Upholds.bind (m := fun machines a' => Stands (.gathering role) selfId reports a' ∧
    a'.machines = some machines) ?_ ?_
  · refine ⟨permits_of_stands ha (.inr rfl), ?_⟩
    rintro answer a' rfl
    cases answer with
    | error e => exact trivial
    | ok machines =>
        refine ⟨ha.mute trivial, ?_⟩
        exact congrArg Account.machines (move_mute _ (e := ⟨.provider (.machines _), _⟩) trivial)
  intro machines a ⟨ha, hmachines⟩
  refine Upholds.bind (m := fun interfaces => Surveyed role selfId reports
    (Resolution.addressed machines interfaces)) ?_ fun _ _ ha => ha
  refine ⟨permits_of_stands ha (.inr rfl), ?_⟩
  rintro answer a' rfl
  cases answer with
  | error e => exact trivial
  | ok interfaces =>
      have hnext : a.next ⟨.provider (.interfaces (site.config.setOf role)), .ok interfaces⟩ =
          { a with interfaces := some interfaces } :=
        move_mute _ (e := ⟨.provider (.interfaces _), _⟩) trivial
      have hstands := ha.mute (e := ⟨.provider (.interfaces (site.config.setOf role)),
        .ok interfaces⟩) trivial
      rw [hnext] at hstands ⊢
      refine ⟨hstands, ?_, rfl, ?_⟩
      · simp only [hmachines, Option.isSome_some]
      · simp only [hmachines, Option.getD_some]

theorem members_upholds {role : Role} {table : List MachineAddress}
    (ha : Surveyed role selfId reports table a) :
    (members .here (some role)).Upholds (rules site)
      (fun members => Stands (.headed role (table.filterMap (Errand.ofRow? selfId role members)))
        selfId reports) (fun _ _ => True) a := by
  refine ⟨permits_of_stands ha.stands (.inr ⟨rfl, ha.machines, ha.interfaces⟩), ?_⟩
  rintro answer a' rfl
  cases answer with
  | error e => exact trivial
  | ok members =>
      have hnoted := ha.stands.note (e := ⟨.swarm .here (.members (some role)), .ok members⟩)
        fun _ h => by cases h
      have herrands : (a.note ⟨.swarm .here (.members (some role)), .ok members⟩).errands role
          members = table.filterMap (Errand.ofRow? selfId role members) := by
        unfold errands
        rw [hnoted.selfId, ← ha.table]
        rfl
      simp only [Account.next, move, hnoted.phase, herrands]
      exact Stands.proceed _ hnoted.selfId hnoted.reports

theorem resolve_upholds {role : Role} (ha : Stands (.gathering role) selfId reports a) :
    (Resolution.resolve (site.config.setOf role) role).Upholds (rules site)
      (fun resolved a' =>
        Stands (.headed role (resolved.nodes.filterMap (Errand.ofNode? selfId))) selfId reports a' ∧
          ∀ node ∈ resolved.nodes, node.role = role)
      (fun _ _ => True) a := by
  refine Upholds.bind (machineTable_upholds ha).renamed fun table a ha => ?_
  refine Upholds.bind (members_upholds ha).renamed fun members a ha => ?_
  cases Resolution.stray table members with
  | some m => exact trivial
  | none =>
      -- When a machine was provisioned plays no part in the errand to it.
      refine Upholds.bind (m := fun nodes a' =>
        nodes.map (fun node => (Errand.ofNode? selfId node, node.role)) =
          table.map (fun row => (Errand.ofRow? selfId role members row, role)) ∧
        Stands (.headed role (table.filterMap (Errand.ofRow? selfId role members))) selfId reports
          a') (Upholds.collect_map (fun row _ a ha => ?_) ha) fun nodes a ⟨hnodes, ha⟩ => ?_
      · have hasks : (Resolution.provisioning (site.config.setOf role) row).Asks fun c : Call =>
            c = .provider (.view (site.config.setOf role) row.machineId) :=
          Resolution.provisioning_asks rfl
        refine Upholds.bind (Upholds.monoError (hasks.keeps ?_ ha) fun _ _ _ => trivial) ?_
        · rintro c rfl
          exact mute_keeps trivial fun _ => .inl trivial
        · intro provisionedAt a ha
          exact ⟨Prod.ext (Errand.ofNode?_node selfId role members row provisionedAt) rfl, ha⟩
      · have hfirst := congrArg (List.filterMap Prod.fst) hnodes
        rw [List.filterMap_map, List.filterMap_map] at hfirst
        have hdue : nodes.filterMap (Errand.ofNode? selfId) =
            table.filterMap (Errand.ofRow? selfId role members) := hfirst
        refine ⟨hdue ▸ ha, fun node hnode => ?_⟩
        have hlook : (Errand.ofNode? selfId node, node.role) ∈
            table.map fun row => (Errand.ofRow? selfId role members row, role) :=
          hnodes ▸ List.mem_map_of_mem hnode
        obtain ⟨row, _, hrow⟩ := List.mem_map.mp hlook
        exact (congrArg Prod.snd hrow).symm

theorem run_course (site : Site) : Upgrade.Course (rules site) site runMarks where
  idle c hc := by
    unfold Call.IsPrologue at hc
    split at hc
    · exact mute_keeps trivial fun _ => .inr trivial
    · exact mute_keeps trivial fun _ => .inr trivial
    · exact hc.elim
  localId a ha := localId_upholds ha
  managers selfId := managers_keeps
  failed_of_known _ _ _ := trivial
  deploy selfId template a ha := deploy_upholds template ha
  resolve selfId role progress a ha := resolve_upholds ha
  own selfId role node rest progress a ha hown := by
    obtain ⟨hstands, hroles⟩ := ha
    have hnone : Errand.ofNode? selfId node = none := if_pos (.inl hown)
    rw [List.filterMap_cons_none hnone] at hstands
    exact ⟨hstands, (List.forall_mem_cons.mp hroles).2⟩
  skip selfId role node rest progress a ha hmember := by
    obtain ⟨hstands, hroles⟩ := ha
    have hnone : Errand.ofNode? selfId node = none := if_pos (.inr (by rw [hmember]; rfl))
    rw [List.filterMap_cons_none hnone] at hstands
    exact ⟨hstands, (List.forall_mem_cons.mp hroles).2⟩
  walk selfId role node rest progress a ha hown hmember := by
    obtain ⟨hstands, hroles⟩ := ha
    obtain ⟨rfl, hrest⟩ := List.forall_mem_cons.mp hroles
    have hsome : Errand.ofNode? selfId node = some (.ofNode node) := by
      refine if_neg ?_
      rw [hown, hmember]
      exact fun h => by cases h <;> contradiction
    rw [List.filterMap_cons_some hsome] at hstands
    refine (walk_course.run_upholds hstands).mono ?_ fun _ _ _ => trivial
    rintro stage a' ⟨rfl, ha'⟩
    exact ⟨ha', hrest⟩
  turn selfId progress a ha := ha.1
  last selfId progress a ha := ⟨selfId, ha.1⟩
  through progress c hc := .exists fun selfId => by
    unfold Call.IsEpilogue at hc
    split at hc
    · exact mute_keeps trivial fun _ => .inr trivial
    · exact mute_keeps trivial fun _ => .inr trivial
    · exact mute_keeps trivial fun _ => .inr trivial
    · exact mute_keeps trivial fun _ => .inl trivial
    · exact mute_keeps trivial fun _ => .inl trivial
    · exact hc.elim
  failed_of_through _ _ _ := trivial
  giveUp a _ := ⟨.inl trivial, fun _ _ _ => trivial⟩

end Sequence

end SwarmUpkeep
