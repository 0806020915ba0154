import SwarmUpkeep.Proofs.Program.Transcript
import SwarmUpkeep.Proofs.Upkeep.Course

/-!
# The leader and its record

Hosts join the swarm through the manager that the leader record names. When an upgrade takes out the
manager that leads, the swarm elects another, and before the upgrade goes on it writes that one into
the record. It writes nothing else there.

The account below keeps track of that by the answers of a run. While a machine is reimaged, members
that have no machine are evicted; all other demotions belong to the walk of a node. The account knows
the latest of these, the managers that were listed directly before it, and what has been said since.
-/

namespace SwarmUpkeep

open Attempt Control

/-! ## What an answer tells -/

/-- The managers that the control plane of this host lists. -/
def Exchange.managers? : Exchange Surroundings → Option (List Member)
  | ⟨.swarm .here (.members (some .manager)), .ok managers⟩ => some managers
  | _ => none

/-- Whether a row is the leader record, by its table, its partition and its key. -/
def Records.isLeaderRow (tables : RecordTables) (table partition key : String) : Bool :=
  table == tables.leader && partition == leaderPartition && key == leaderKey

/-- Whether the leader record has been written. -/
def Exchange.recordsLeader (tables : RecordTables) : Exchange Surroundings → Bool
  | ⟨.table (.upsert table row), .ok _⟩ => Records.isLeaderRow tables table row.partition row.key
  | _ => false

/-! ## The account -/

/-- A manager that has been demoted, the managers listed directly before that, and what has been said
since. -/
structure Demise where
  id : String
  managers : List Member
  since : List (Exchange Surroundings)

namespace Demise

/-- The manager was listed as the leader. -/
def Led (d : Demise) : Prop :=
  ∃ m ∈ d.managers, m.id = d.id ∧ m.isLeader = true

/-- How often the leader record has been written since. -/
def records (tables : RecordTables) (d : Demise) : Nat :=
  d.since.countP (Exchange.recordsLeader tables)

/-- A manager has been listed as the leader since. -/
def Reports (d : Demise) (heir : Member) : Prop :=
  ∃ e ∈ d.since, ∃ managers, e.managers? = some managers ∧ heir ∈ managers ∧ heir.isLeader = true

def hears (d : Demise) (e : Exchange Surroundings) : Demise :=
  { d with since := d.since ++ [e] }

theorem records_hears {tables : RecordTables} {d : Demise} {e : Exchange Surroundings}
    (h : e.recordsLeader tables = false) : (d.hears e).records tables = d.records tables := by
  simp [records, hears, List.countP_append, h]

theorem Reports.hears {d : Demise} {heir : Member} (h : d.Reports heir)
    (e : Exchange Surroundings) : (d.hears e).Reports heir := by
  obtain ⟨told, htold, hrest⟩ := h
  exact ⟨told, List.mem_append_left _ htold, hrest⟩

end Demise

/-- What is known from the answers so far: whether a machine is being reimaged, the managers if the
latest answer lists them, and the latest demotion in the walk of a node. -/
structure Leadership where
  reimaging : Bool
  listed : Option (List Member)
  demise : Option Demise

namespace Leadership

/-- The account of nothing. -/
def start : Leadership :=
  ⟨false, none, none⟩

/-- Whether a machine is being reimaged after an answer. -/
def reimagingAfter (reimaging : Bool) : Exchange Surroundings → Bool
  | ⟨.provider (.reimage _ _), .ok _⟩ => true
  | ⟨.provider (.status _), .ok .succeeded⟩ => false
  | _ => reimaging

/-- The latest demotion in the walk of a node after an answer. -/
def demiseAfter (l : Leadership) : Exchange Surroundings → Option Demise
  | ⟨.swarm engine (.demote id), .ok done⟩ =>
      if l.reimaging then l.demise.map (·.hears ⟨.swarm engine (.demote id), .ok done⟩)
      else some ⟨id, l.listed.getD [], []⟩
  | e => l.demise.map (·.hears e)

/-- The account after one more answer. -/
def next (l : Leadership) (e : Exchange Surroundings) : Leadership :=
  ⟨reimagingAfter l.reimaging e, e.managers?, l.demiseAfter e⟩

/-- If the manager that was demoted last led the swarm, then the leader record has been written once
since. -/
def IsRefreshed (tables : RecordTables) (l : Leadership) : Prop :=
  ∀ d, l.demise = some d → d.Led → d.records tables = 1

/-- The row is a leader record of another manager, which has been listed as the leader since the
leader was demoted, and none has been written since. -/
def Awaits (tables : RecordTables) (l : Leadership) (row : Row) : Prop :=
  ∃ d heir time, l.demise = some d ∧ d.Led ∧ d.records tables = 0 ∧ d.Reports heir ∧
    heir.id ≠ d.id ∧ row = Records.leaderRow ⟨heir.addr, time⟩

/-- What may be asked by the account of what has been answered. -/
def Permits (tables : RecordTables) (l : Leadership) : Call → Prop
  | .table (.upsert table row) =>
      Records.isLeaderRow tables table row.partition row.key = true → l.Awaits tables row
  | .table (.delete table partition key) => Records.isLeaderRow tables table partition key = false
  | .swarm _ (.demote _) => l.reimaging = false → l.listed.isSome = true
  | .swarm _ (.remove _) => l.IsRefreshed tables
  | .provider (.updateModel _ _) => l.IsRefreshed tables
  | .provider (.reimage _ _) => l.IsRefreshed tables
  | _ => True

end Leadership

/-! ## Questions that leave the account as it stands -/

/-- A question that has nothing to do with the leader record, a demotion or a reimage, except that it
may be for the status of one. -/
def Call.SparesLeader (tables : RecordTables) : Call → Prop
  | .table (.upsert name row) => Records.isLeaderRow tables name row.partition row.key = false
  | .table (.delete name partition key) => Records.isLeaderRow tables name partition key = false
  | .swarm _ (.demote _) => False
  | .provider (.reimage _ _) => False
  | _ => True

/-- The replica records have a partition of their own. -/
theorem Records.isLeaderRow_replica (tables : RecordTables) (table key : String) :
    isLeaderRow tables table replicaPartition key = false := by
  have hne : (replicaPartition == leaderPartition) = false := by decide
  simp only [isLeaderRow, hne, Bool.and_false, Bool.false_and]

namespace Call

variable {tables : RecordTables} {c : Call}

theorem sparesLeader_table {call : TableCall} (h : call.partition = Records.replicaPartition) :
    SparesLeader tables (.table call) := by
  cases call with
  | get table partition key => trivial
  | query table partition => trivial
  | upsert table row =>
      have hrow : row.partition = Records.replicaPartition := h
      simp only [SparesLeader, hrow, Records.isLeaderRow_replica]
  | delete table partition key =>
      have hrow : partition = Records.replicaPartition := h
      simp only [SparesLeader, hrow, Records.isLeaderRow_replica]

theorem IsFiling.sparesLeader (h : c.IsFiling) : c.SparesLeader tables := by
  unfold IsFiling at h
  split at h
  · exact sparesLeader_table h
  · exact h.elim

theorem IsPrologue.sparesLeader (h : c.IsPrologue) : c.SparesLeader tables := by
  unfold IsPrologue at h
  split at h
  · trivial
  · trivial
  · exact h.elim

theorem IsEpilogue.sparesLeader (h : c.IsEpilogue) : c.SparesLeader tables := by
  unfold IsEpilogue at h
  split at h
  next => trivial
  next => exact sparesLeader_table h
  next => trivial
  next => trivial
  next => trivial
  next => exact h.elim

theorem Drains.sparesLeader {hostname : String} (h : c.Drains hostname) : c.SparesLeader tables :=
  h.isEpilogue.sparesLeader

theorem IsSurvey.sparesLeader (h : c.IsSurvey) : c.SparesLeader tables := by
  unfold IsSurvey at h
  unfold SparesLeader
  split at h <;> simp_all

end Call

namespace Leadership

variable {tables : RecordTables} {l : Leadership} {e : Exchange Surroundings} {c : Call}
variable {busy : Bool}

/-- The rules by which the account decides what may be asked. -/
abbrev rules (tables : RecordTables) : Rules Surroundings Leadership :=
  .accounted next (Permits tables)

/-- Whether a machine is being reimaged; and the leader record is as it should be. -/
structure Stands (tables : RecordTables) (busy : Bool) (l : Leadership) : Prop where
  reimaging : l.reimaging = busy
  refreshed : l.IsRefreshed tables

theorem demiseAfter_of_ne_demote (h : ∀ engine id, e.call ≠ .swarm engine (.demote id)) :
    l.demiseAfter e = l.demise.map (·.hears e) := by
  unfold demiseAfter
  split
  · exact absurd rfl (h _ _)
  · rfl

theorem demiseAfter_of_reimaging (h : l.reimaging = true) :
    l.demiseAfter e = l.demise.map (·.hears e) := by
  unfold demiseAfter
  split
  · rw [if_pos h]
  · rfl

/-- An answer that is no news of a demotion or of the leader record. -/
theorem IsRefreshed.next (h : l.IsRefreshed tables) (hrecords : e.recordsLeader tables = false)
    (hdemise : l.demiseAfter e = l.demise.map (·.hears e)) : (l.next e).IsRefreshed tables := by
  intro d hd hled
  have hmap : l.demise.map (·.hears e) = some d := hdemise.symm.trans hd
  obtain ⟨before, hbefore, rfl⟩ := Option.map_eq_some_iff.mp hmap
  rw [Demise.records_hears hrecords]
  exact h before hbefore hled

theorem recordsLeader_of_sparesLeader {answer : c.Answer} (h : c.SparesLeader tables) :
    Exchange.recordsLeader tables (⟨c, answer⟩ : Exchange Surroundings) = false := by
  unfold Exchange.recordsLeader
  split
  next heq =>
    cases heq
    exact h
  next => rfl

theorem Stands.permits (h : Stands tables busy l) (hc : c.SparesLeader tables) :
    l.Permits tables c := by
  unfold Permits
  split
  next table row =>
    have hother : Records.isLeaderRow tables table row.partition row.key = false := hc
    intro hrow
    rw [hother] at hrow
    cases hrow
  next => exact hc
  next => exact hc.elim
  next => exact h.refreshed
  next => exact h.refreshed
  next => exact hc.elim
  next => trivial

theorem ne_demote_of_sparesLeader (h : c.SparesLeader tables) (engine : Engine) (id : String) :
    c ≠ .swarm engine (.demote id) := by
  intro hdemote
  rw [hdemote] at h
  exact h

theorem reimagingAfter_idle (h : c.SparesLeader tables) (answer : c.Answer) :
    reimagingAfter false ⟨c, answer⟩ = false := by
  unfold reimagingAfter
  split
  next heq =>
    cases heq
    exact h.elim
  next => rfl
  next => rfl

/-- While no machine is being reimaged, such a question leaves everything as it stands. -/
theorem idle_keeps (hc : c.SparesLeader tables) :
    (rules tables).Keeps (Stands tables false) c := by
  intro l hl
  refine ⟨hl.permits hc, ?_⟩
  rintro answer l' rfl
  refine ⟨?_, hl.refreshed.next (recordsLeader_of_sparesLeader hc)
    (demiseAfter_of_ne_demote (ne_demote_of_sparesLeader hc))⟩
  simp only [next, hl.reimaging]
  exact reimagingAfter_idle hc answer

/-- A question that belongs to no reimage but may be asked during one: for the machines, for the
members, to evict one, or to let time pass. -/
def IsSweep : Call → Prop
  | .swarm _ (.members _) => True
  | .swarm _ (.demote _) => True
  | .swarm _ (.remove _) => True
  | .provider (.machines _) => True
  | .pause _ => True
  | _ => False

/-- Evictions during a reimage are no demotions in the walk of a node. -/
theorem busy_keeps (hc : IsSweep c) : (rules tables).Keeps (Stands tables true) c := by
  intro l hl
  have hpermits : l.Permits tables c := by
    unfold IsSweep at hc
    split at hc
    next => trivial
    next => exact fun hidle => by rw [hl.reimaging] at hidle; cases hidle
    next => exact hl.refreshed
    next => trivial
    next => trivial
    next => exact hc.elim
  refine ⟨hpermits, ?_⟩
  rintro answer l' rfl
  refine ⟨?_, hl.refreshed.next ?_ (demiseAfter_of_reimaging hl.reimaging)⟩
  · simp only [next, hl.reimaging]
    unfold IsSweep at hc
    split at hc <;> first | rfl | exact hc.elim
  · unfold IsSweep at hc
    split at hc <;> first | rfl | exact hc.elim

/-! ## The demotion of a manager -/

/-- The leader has been demoted, its successor is not recorded yet, and these managers have been
listed as the leader since. -/
def Vacant (tables : RecordTables) (id : String) (heirs : List Member) (l : Leadership) : Prop :=
  l.reimaging = false ∧ ∃ d, l.demise = some d ∧ d.id = id ∧ d.Led ∧ d.records tables = 0 ∧
    ∀ heir ∈ heirs, d.Reports heir

variable {id : String} {heirs : List Member} {heir : Member}

theorem Vacant.next (h : Vacant tables id heirs l) (hc : c.SparesLeader tables)
    (answer : c.Answer) : Vacant tables id heirs (l.next ⟨c, answer⟩) := by
  obtain ⟨hidle, d, hd, hid, hled, hrecords, hheirs⟩ := h
  refine ⟨?_, d.hears ⟨c, answer⟩, ?_, hid, hled, ?_, fun heir hheir => (hheirs heir hheir).hears _⟩
  · simp only [Leadership.next, hidle]
    exact reimagingAfter_idle hc answer
  · refine (demiseAfter_of_ne_demote (ne_demote_of_sparesLeader hc)).trans ?_
    rw [hd]
    rfl
  · rw [Demise.records_hears (recordsLeader_of_sparesLeader hc)]
    exact hrecords

/-- A listing of the managers tells who leads. -/
theorem Vacant.listed {managers : List Member} (h : Vacant tables id [] l) (hheir : heir ∈ managers)
    (hleads : heir.isLeader = true) :
    Vacant tables id [heir] (l.next ⟨.swarm .here (.members (some .manager)), .ok managers⟩) := by
  obtain ⟨hidle, d, hd, hid, hled, hrecords, _⟩ :=
    h.next (c := .swarm .here (.members (some .manager))) trivial (.ok managers)
  refine ⟨hidle, d, hd, hid, hled, hrecords, ?_⟩
  obtain ⟨_, before, hbefore, _⟩ := h
  have hhears : some (before.hears ⟨.swarm .here (.members (some .manager)), .ok managers⟩) =
      some d := by
    rw [← hd]
    simp only [Leadership.next, demiseAfter, hbefore, Option.map_some]
  cases hhears
  intro other hother
  rw [List.mem_singleton.mp hother]
  exact ⟨_, List.mem_append_right _ (List.mem_singleton.mpr rfl), managers, rfl, hheir, hleads⟩

theorem awaitNewLeader_upholds {policy : RetryPolicy} (hl : Vacant tables id [] l) :
    (Succession.awaitNewLeader .here id policy).Upholds (rules tables)
      (fun heir l' => heir.id ≠ id ∧ Vacant tables id [heir] l') (fun _ _ => True) l := by
  have hlisting : ∀ l : Leadership, Vacant tables id [] l →
      (members .here (some .manager)).Upholds (rules tables)
        (fun managers l' => Vacant tables id [] l' ∧
          ∀ heir ∈ managers, heir.isLeader = true → Vacant tables id [heir] l')
        (fun _ => Vacant tables id []) l := by
    intro l hl
    refine ⟨trivial, ?_⟩
    rintro answer l' rfl
    have hnext := hl.next (c := .swarm .here (.members (some .manager))) trivial answer
    cases answer with
    | error e => exact hnext
    | ok managers => exact ⟨hnext, fun heir hheir hleads => hl.listed hheir hleads⟩
  have hcheck : Checks (rules tables) (Vacant tables id [])
      (fun heir l' => heir.id ≠ id ∧ Vacant tables id [heir] l') (do
        let leader ← Membership.currentLeader .here
        return leader.filter fun m => m.id != id) := by
    intro l hl
    refine Upholds.bind (m := fun leader l' => Vacant tables id [] l' ∧
      ∀ heir, leader = some heir → Vacant tables id [heir] l') ?_ ?_
    · refine (hlisting l hl).bind fun managers l' ⟨hvacant, hheirs⟩ => ⟨hvacant, ?_⟩
      intro heir hfound
      exact hheirs heir (List.mem_of_find?_eq_some hfound) (List.find?_some hfound)
    · rintro leader l' ⟨hvacant, hheir⟩
      refine ⟨fun _ => hvacant, ?_⟩
      intro heir hfiltered
      obtain ⟨hleader, hne⟩ := Option.filter_eq_some_iff.mp hfiltered
      exact ⟨by simpa using hne, hheir heir hleader⟩
  have hpauses : Pauses (rules tables) (Vacant tables id []) := by
    intro l ms hl
    refine ⟨trivial, ?_⟩
    rintro answer l' rfl
    exact hl.next (c := .pause ms) trivial answer
  exact Upholds.mapError ((pollUntil_upholds hcheck hpauses hl).monoError fun _ _ _ => trivial)

/-- The record of a leader that has been listed is the one that was wanted. -/
theorem setLeader_upholds (hne : heir.id ≠ id) (hl : Vacant tables id [heir] l) :
    (Records.setLeader tables heir.addr).Upholds (rules tables) (fun _ => Stands tables false)
      (fun _ _ => True) l := by
  refine Upholds.bind (m := fun _ => Vacant tables id [heir]) ?_ fun time l hl => ?_
  · refine upholds_lift.mpr ⟨trivial, ?_⟩
    rintro answer l' rfl
    exact hl.next (c := .now) trivial answer
  obtain ⟨hidle, d, hd, hid, hled, hrecords, hheirs⟩ := hl
  have hreports := hheirs heir (List.mem_singleton.mpr rfl)
  refine Upholds.bind (m := fun _ => Stands tables false) (Upholds.mapError ⟨?_, ?_⟩) fun _ _ hl => hl
  · intro _
    exact ⟨d, heir, time, hd, hled, hrecords, hreports, hid ▸ hne, rfl⟩
  · rintro answer l' rfl
    cases answer with
    | error e => trivial
    | ok _ =>
        refine ⟨hidle, ?_⟩
        intro after hafter _
        have hhears : l.demise.map (·.hears ⟨.table (.upsert tables.leader
            (Records.leaderRow ⟨heir.addr, time⟩)), .ok ()⟩) = some after := hafter
        rw [hd] at hhears
        cases hhears
        have hwritten : Exchange.recordsLeader tables ⟨.table (.upsert tables.leader
            (Records.leaderRow ⟨heir.addr, time⟩)), .ok ()⟩ = true := by
          simp [Exchange.recordsLeader, Records.isLeaderRow, Records.leaderRow, Row.withText,
            Row.empty]
        simp only [Demise.records, Demise.hears, List.countP_append, List.countP_singleton,
          hwritten, if_true]
        exact congrArg (· + 1) hrecords

/-- The listing in which a manager is looked up before its demotion. -/
structure Listed (tables : RecordTables) (managers : List Member) (l : Leadership) : Prop where
  stands : Stands tables false l
  listed : l.listed = some managers

/-- A manager is demoted after a listing, and if it leads by that, then a successor is missing. -/
theorem demote_upholds {managers : List Member} (hl : Listed tables managers l) :
    (demote .here id).Upholds (rules tables)
      (fun _ l' => if managers.any fun m => m.id == id && m.isLeader then Vacant tables id [] l'
        else Stands tables false l') (fun _ => Stands tables false) l := by
  obtain ⟨⟨hidle, hrefreshed⟩, hlisted⟩ := hl
  refine ⟨fun _ => by rw [hlisted]; rfl, ?_⟩
  rintro answer l' rfl
  have hstill : (l.next ⟨.swarm .here (.demote id), answer⟩).reimaging = false := hidle
  cases answer with
  | error e => exact ⟨hstill, hrefreshed.next rfl rfl⟩
  | ok done =>
      have hdemise : (l.next ⟨.swarm .here (.demote id), .ok done⟩).demise =
          some ⟨id, managers, []⟩ := by
        simp [Leadership.next, demiseAfter, hidle, hlisted]
      have hled : (⟨id, managers, []⟩ : Demise).Led ↔
          (managers.any fun m => m.id == id && m.isLeader) = true := by
        simp [Demise.Led, List.any_eq_true]
      split
      next hany => exact ⟨hstill, _, hdemise, rfl, hled.mpr hany, rfl, fun _ h => by cases h⟩
      next hany =>
        refine ⟨hstill, fun d hd hdled => ?_⟩
        cases hdemise.symm.trans hd
        exact absurd (hled.mp hdled) hany

theorem demoteManager_upholds (config : Config) (hostname : String)
    (hl : Stands config.swarm.recordTables false l) :
    (Succession.demoteManager config hostname id).Upholds (rules config.swarm.recordTables)
      (fun _ => Stands config.swarm.recordTables false) (fun _ _ => True) l := by
  have hlisting : (members .here (some .manager)).Upholds (rules config.swarm.recordTables)
      (fun managers => Listed config.swarm.recordTables managers) (fun _ _ => True) l := by
    refine Program.perform_upholds_of_keeps (idle_keeps trivial) hl ?_
    rintro answer l' rfl hl'
    cases answer with
    | error e => trivial
    | ok managers => exact ⟨hl', rfl⟩
  refine Upholds.bind hlisting.renamed fun managers l hl => ?_
  refine Upholds.bind (m := fun _ => Listed config.swarm.recordTables managers) ?_ fun _ l hl => ?_
  · refine upholds_ofExcept.mpr ?_
    cases Succession.guardQuorum hostname id managers with
    | ok _ => exact hl
    | error e => trivial
  refine Upholds.bind ((demote_upholds hl).monoError fun _ _ _ => trivial).renamed ?_
  intro _ l hl
  split
  next hled =>
    rw [if_pos hled] at hl
    refine (awaitNewLeader_upholds hl).bind fun heir l ⟨hne, hl⟩ => ?_
    exact upholds_discard.mpr (setLeader_upholds hne hl).renamed
  next hled =>
    rw [if_neg hled] at hl
    exact hl

/-! ## The walk of a node -/

/-- Nothing but the demotion of a manager and the reimage changes how the account stands. -/
def marks (tables : RecordTables) : NodeWalk.Milestones Leadership where
  untouched := Stands tables false
  demoted := Stands tables false
  removed := Stands tables false
  updating _ := Stands tables false
  updated := Stands tables false
  reimaging _ := Stands tables true
  reimaged := Stands tables false
  returned := Stands tables false

theorem idle_upholds {ε α : Type} {x : Control ε α} (hx : x.Asks (Call.SparesLeader tables))
    (hl : Stands tables false l) :
    x.Upholds (rules tables) (fun _ => Stands tables false) (fun _ => Stands tables false) l :=
  hx.keeps (fun _ hc => idle_keeps hc) hl

theorem reimage_upholds (set machine : String) (hl : Stands tables false l) :
    (reimage set machine).Upholds (rules tables) (fun _ => Stands tables true)
      (fun _ => Stands tables false) l := by
  refine ⟨hl.refreshed, ?_⟩
  rintro answer l' rfl
  have hrefreshed : (l.next ⟨.provider (.reimage set machine), answer⟩).IsRefreshed tables :=
    hl.refreshed.next rfl rfl
  cases answer with
  | ok operation => exact ⟨rfl, hrefreshed⟩
  | error e => exact ⟨hl.reimaging, hrefreshed⟩

theorem reimage_settles (operation : Operation) :
    operation.Settles (rules tables) (Stands tables true) (Stands tables false) := by
  intro l hl
  refine ⟨trivial, ?_⟩
  rintro answer l' rfl
  have hrefreshed : (l.next ⟨.provider (.status operation), answer⟩).IsRefreshed tables :=
    hl.refreshed.next rfl rfl
  cases answer with
  | error e => exact ⟨hl.reimaging, hrefreshed⟩
  | ok status =>
      cases status with
      | succeeded => exact ⟨rfl, hrefreshed⟩
      | inProgress => exact ⟨hl.reimaging, hrefreshed⟩
      | failed reason => exact ⟨hl.reimaging, hrefreshed⟩

theorem walk_passage (tables : RecordTables) (set : String) (node : Node) :
    NodeWalk.Passage (rules tables) set node (marks tables) where
  drain c hc := idle_keeps hc.sparesLeader
  spare _ l hl := hl
  remove l hl := idle_upholds (Membership.unlessGone_asks (Program.asks_perform trivial)) hl
  forget c hc := idle_keeps hc.sparesLeader
  update l hl := idle_upholds (x := updateModel set node.instanceId) (Program.asks_perform trivial) hl
  updates operation _ := Operation.settles_of_keeps (idle_keeps trivial)
  updateDone l hl := hl
  updatePauses operation ms := idle_keeps trivial
  reimage l hl := reimage_upholds set node.instanceId hl
  evicts operation l hl :=
    have hasks : (NodeWalk.evictOverprovisioned set node.role).Asks IsSweep :=
      NodeWalk.evictOverprovisioned_asks trivial trivial (fun _ => trivial) fun _ => trivial
    hasks.keeps (fun _ hc => busy_keeps hc) hl
  reimages operation := reimage_settles operation
  reimagePauses operation ms := busy_keeps trivial
  returns l hl := by
    simp only [marks, ite_self]
    exact idle_upholds (x := members .here (some node.role)) (Program.asks_perform trivial) hl
  returnPauses ms := idle_keeps trivial

/-! ## A run -/

/-- Between the walks of nodes the leader record is as it should be. -/
def runMarks (tables : RecordTables) : Upgrade.Milestones Leadership where
  idle := Stands tables false
  known _ := Stands tables false
  ready _ _ _ := Stands tables false
  due _ _ _ _ := Stands tables false
  through _ := Stands tables false
  failed _ := True

theorem run_course (site : Site) :
    Upgrade.Course (rules site.config.swarm.recordTables) site
      (runMarks site.config.swarm.recordTables) where
  idle _ hc := idle_keeps hc.sparesLeader
  localId _ hl :=
    (idle_upholds (x := localId) (Program.asks_perform trivial) hl).monoError fun _ _ _ => trivial
  managers _ := idle_keeps trivial
  failed_of_known _ _ _ := trivial
  deploy _ template _ hl :=
    have hasks := (Upgrade.updateDeployment_surveys site.config template).mono
      fun _ hc => hc.sparesLeader
    (idle_upholds hasks hl).monoError fun _ _ _ => trivial
  resolve _ _ _ _ hl :=
    have hasks := Resolution.resolve_asks trivial trivial (fun _ => trivial) trivial
    (idle_upholds hasks hl).monoError fun _ _ _ => trivial
  own _ _ _ _ _ _ hl _ := hl
  skip _ _ _ _ _ _ hl _ := hl
  walk _ role node _ _ _ hl _ _ :=
    have hwalk := (walk_passage site.config.swarm.recordTables (site.config.setOf role)
      node).run_upholds (fun _ _ => trivial)
        (fun _ _ hl => demoteManager_upholds site.config node.hostname hl) hl
    hwalk.mono (fun _ _ hl' => hl'.2) fun _ _ hl' => hl'
  turn _ _ _ hl := hl
  last _ _ _ hl := hl
  through _ _ hc := idle_keeps hc.sparesLeader
  failed_of_through _ _ _ := trivial
  giveUp _ _ := ⟨trivial, fun _ _ _ => trivial⟩

end Leadership

end SwarmUpkeep
