import SwarmUpkeep.Proofs.World.Faults
import SwarmUpkeep.Proofs.World.Tables
import SwarmUpkeep.Proofs.World.Traces

/-!
# Replicas of nodes that leave

Before a node leaves the swarm, its replica is looked up by its name and removed, and the record of
it is deleted once the node is out. Only one replica is looked up, the first that is listed. Nothing
keeps a node from having more than one on record, and all the others outlive it.
-/

namespace SwarmUpkeep

open Attempt Control

/-- The replica that the add-on has removed. -/
def Exchange.drained? : Exchange Surroundings → Option ReplicaRecord
  | ⟨.addon (.removeReplica replica), .ok _⟩ => some replica
  | _ => none

/-- A question that neither has a replica removed nor writes among the records of replicas. -/
def Call.SparesReplicas : Call → Prop
  | .swarm _ _ | .provider _ | .pause _ | .now => True
  | .table (.upsert _ row) => row.partition ≠ Records.replicaPartition
  | _ => False

theorem Call.IsRenewal.sparesReplicas {c : Call} (h : c.IsRenewal) : c.SparesReplicas := by
  cases c with
  | swarm engine call => trivial
  | provider call => trivial
  | pause milliseconds => trivial
  | _ => exact h.elim

theorem Call.SparesReplicas.drained? {c : Call} (h : c.SparesReplicas) (answer : c.Answer) :
    Exchange.drained? ⟨c, answer⟩ = none := by
  cases c with
  | addon call => exact h.elim
  | _ => rfl

/-- The node is out of the swarm. -/
def Stage.IsOut : Stage → Prop
  | .removedFromMembership | .modelUpdated | .reimaging | .booting | .rejoined => True
  | _ => False

theorem NodeWalk.drained_not_isOut (site : Site) : ¬(NodeWalk.drained site).IsOut := by
  unfold NodeWalk.drained
  split <;> exact id

/-- A walk has come so far that its node is out of the swarm: it has come to its end, or it has
broken off in a stage after that. -/
inductive NodeWalk.HasLeft : Except UpgradeError Stage → Prop
  | finished (stage : Stage) : HasLeft (.ok stage)
  | broken {hostname : String} {stage : Stage} {cause : UpgradeError} (hout : stage.IsOut) :
      HasLeft (.error (.aborted hostname stage cause))

/-- A part that fails before the node is out of the swarm says so. -/
theorem NodeWalk.during_upholds {σ α ε : Type} {rules : Rules Surroundings σ} {ok : α → σ → Prop}
    {err : ε → σ → Prop} {stage : Stage} {kind : ε → UpgradeError} {x : Control ε α} {s : σ}
    (h : x.Upholds rules ok err s) (hstage : ¬stage.IsOut) :
    (during stage kind x).Upholds rules ok (fun e _ => ¬e.1.IsOut) s :=
  Upholds.mapError (h.monoError fun _ _ _ => hstage)

namespace ReplicaRecord

/-- A replica whose removal has begun, as it is put on record. -/
abbrev marked (replica : ReplicaRecord) : ReplicaRecord :=
  { replica with description := .upgradeInProgress }

/-- The replica is on record under the name of a host, whatever the case of it. -/
def isOn (hostname : String) (replica : ReplicaRecord) : Bool :=
  Ascii.sameFold replica.nodeName hostname

end ReplicaRecord

namespace World

variable {w : World} {table : String} {assumed : World → Call → Prop}

/-! ## The replicas on record -/

/-- A row among the records of replicas, but not that of this replica. -/
def isBeside (found : Option ReplicaRecord) (row : Row) : Bool :=
  row.partition == Records.replicaPartition && found.all fun replica => replica.replicaId != row.key

/-- The replicas of which these are the rows; a row that cannot be read is passed over. -/
def readReplicas (rows : List Row) : List ReplicaRecord :=
  rows.filterMap fun row => (Records.replicaOfRow row).toOption

/-- The replicas on record in a table, in the order of their identifiers. -/
def replicas (w : World) (table : String) : List ReplicaRecord :=
  readReplicas ((w.rows table).filter (isBeside none))

/-- The replica that is to be drained from a host, as it is put on record before that. -/
def drainedFrom (hostname : String) (rows : List Row) : Option ReplicaRecord :=
  ((readReplicas rows).find? (ReplicaRecord.isOn hostname)).map ReplicaRecord.marked

theorem filter_isBeside_none (rows : List Row) :
    rows.filter (isBeside none) =
      rows.filter fun row => row.partition == Records.replicaPartition := by
  refine List.filter_congr fun row _ => ?_
  simp [isBeside]

theorem filter_isBeside (found : Option ReplicaRecord) (rows : List Row) :
    (rows.filter (isBeside none)).filter (isBeside found) = rows.filter (isBeside found) := by
  rw [List.filter_filter]
  refine List.filter_congr fun row _ => ?_
  cases hrow : isBeside found row with
  | false => rfl
  | true => simp_all [isBeside]

/-- With the row of a replica gone, the rows beside it are all that is left. -/
theorem filter_not_isAt_beside (replica : ReplicaRecord) (rows : List Row) :
    (rows.filter fun row => !isAt Records.replicaPartition replica.replicaId row).filter
        (isBeside none) =
      rows.filter (isBeside (some replica)) := by
  rw [List.filter_filter]
  refine List.filter_congr fun row _ => ?_
  by_cases hpartition : row.partition = Records.replicaPartition
  · simp [isBeside, isAt, hpartition, eq_comm, bne]
  · rw [isBeside, isBeside, beq_false_of_ne hpartition]
    rfl

/-- Where all rows can be read, none is passed over. -/
theorem readReplicas_of_mapM {rows : List Row} {replicas : List ReplicaRecord}
    (h : rows.mapM Records.replicaOfRow = .ok replicas) : readReplicas rows = replicas := by
  induction rows generalizing replicas with
  | nil =>
      cases h
      rfl
  | cons row rows ih =>
      rw [List.mapM_cons] at h
      cases hrow : Records.replicaOfRow row with
      | error e =>
          rw [hrow] at h
          cases h
      | ok replica =>
          cases hrest : rows.mapM Records.replicaOfRow with
          | error e =>
              rw [hrow, hrest] at h
              cases h
          | ok rest =>
              rw [hrow, hrest] at h
              cases h
              rw [readReplicas, List.filterMap_cons_some (by rw [hrow]; rfl)]
              exact congrArg _ (ih hrest)

theorem replicaId_of_read {row : Row} {replica : ReplicaRecord}
    (h : (Records.replicaOfRow row).toOption = some replica) : replica.replicaId = row.key := by
  unfold Records.replicaOfRow at h
  split at h
  · cases h
  · cases h
    rfl

theorem replicas_ascending (h : w.IsFiled) (table : String) :
    (w.replicas table).Pairwise fun r r' => r.replicaId < r'.replicaId := by
  have hrows := (filter_lists (h table) Records.replicaPartition).ascending
  rw [replicas, filter_isBeside_none]
  refine hrows.filterMap _ fun row row' hless r hr r' hr' => ?_
  rw [replicaId_of_read hr, replicaId_of_read hr']
  exact hless

/-- Rows are told apart by the identifiers of their replicas. -/
theorem readReplicas_beside (found : Option ReplicaRecord) (table : String) :
    readReplicas ((w.rows table).filter (isBeside found)) =
      (w.replicas table).filter fun r => found.all fun f => f.replicaId != r.replicaId := by
  rw [← filter_isBeside, readReplicas, replicas, readReplicas, List.filter_filterMap,
    List.filterMap_filter]
  refine List.filterMap_congr fun row hrow => ?_
  obtain ⟨_, hrow⟩ := List.mem_filter.mp hrow
  cases hread : (Records.replicaOfRow row).toOption with
  | none => simp
  | some replica =>
      have hpartition : row.partition = Records.replicaPartition := by simpa [isBeside] using hrow
      simp [isBeside, hpartition, Option.filter, replicaId_of_read hread]

/-- Beside the first replica on a host, all others are left. -/
theorem readReplicas_drainedFrom (h : w.IsFiled) (table hostname : String) :
    readReplicas (((w.rows table).filter (isBeside none)).filter
        (isBeside (drainedFrom hostname ((w.rows table).filter (isBeside none))))) =
      (w.replicas table).eraseP (ReplicaRecord.isOn hostname) := by
  rw [filter_isBeside, readReplicas_beside, drainedFrom, ← replicas]
  cases hfind : (w.replicas table).find? (ReplicaRecord.isOn hostname) with
  | none =>
      rw [List.eraseP_of_forall_not (by simpa using hfind)]
      simp
  | some first =>
      obtain ⟨hkind, before, after, hsplit, hbefore⟩ := List.find?_eq_some_iff_append.mp hfind
      have hascending := replicas_ascending h table
      rw [hsplit] at hascending ⊢
      -- No other record has the identifier of the first, so that its row is the only one left out.
      have hapart : (before ++ first :: after).Pairwise fun r r' => r.replicaId ≠ r'.replicaId :=
        hascending.imp String.ne_of_lt
      have hothers := (List.pairwise_cons.mp ((List.pairwise_middle Ne.symm).mp hapart)).1
      rw [List.eraseP_append_right _ (by simpa using hbefore), List.eraseP_cons_of_pos hkind]
      simp only [Option.map_some, Option.all_some, List.filter_append, List.filter_cons,
        bne_self_eq_false, Bool.false_eq_true, if_false]
      rw [← List.filter_append, List.filter_eq_self]
      simpa using hothers

/-- After the first of a kind is gone, nothing of that kind is left just if there was no other. -/
theorem eraseP_spares_none_iff {α : Type} {kind : α → Bool} (as : List α) :
    (∀ a ∈ as.eraseP kind, kind a = false) ↔ as.countP kind ≤ 1 := by
  induction as with
  | nil => simp
  | cons a as ih =>
      by_cases ha : kind a = true
      · simp [ha]
      · simp [ha, ih]

/-! ## What a question leaves -/

/-- A deletion fails as if there were no such row only if there is none. -/
def ToldGone (w : World) : Call → Prop
  | .table (.delete table partition key) =>
      ∀ e, (w.respond (.table (.delete table partition key))).1 = .error e → e.isNotFound = true →
        w.held table partition key = none
  | _ => True

instance (w : World) : DecidablePred (ToldGone w)
  | .table (.delete table partition key) =>
      match h : (w.respond (.table (.delete table partition key))).1 with
      | .ok _ => isTrue (by simp [ToldGone, h])
      | .error e =>
          decidable_of_iff (e.isNotFound = true → (w.held table partition key).isNone = true)
            (by simp [ToldGone, h])
  | .table (.get _ _ _) | .table (.upsert _ _) | .table (.query _ _) | .swarm _ _ | .reach _
  | .provider _ | .queue _ | .addon _ | .probe _ | .template _ | .pause _ | .now => isTrue trivial

theorem rows_of_tables {w' : World} (h : w'.tables = w.tables) (table : String) :
    w'.rows table = w.rows table := by
  unfold rows
  rw [h]

theorem noted_tables (w : World) (text : String) : (w.noted text).tables = w.tables := by
  rw [noted_eq]

/-- A question that spares the replicas leaves all their rows. -/
theorem respond_beside {c : Call} (hc : c.SparesReplicas) (found : Option ReplicaRecord) :
    ((w.respond c).2.rows table).filter (isBeside found) =
      (w.rows table).filter (isBeside found) := by
  cases c with
  | swarm engine call =>
      have hnoted := noted_tables w (engine.text ++ call.text)
      have hleft : (w.respond (.swarm engine call)).2.tables = w.tables :=
        respond_swarm_leaves (motive := fun left => left.tables = w.tables) hnoted
          ((swarm_stays _ call).tables.trans hnoted)
      rw [rows_of_tables hleft]
  | provider call =>
      have hnoted := noted_tables w call.text
      have hleft : (w.respond (.provider call)).2.tables = w.tables :=
        respond_provider_leaves (motive := fun left => left.tables = w.tables) (fun _ => rfl) hnoted
          ((provider_stays _ call).tables.trans hnoted)
      rw [rows_of_tables hleft]
  | table call =>
      have hnoted := rows_of_tables (noted_tables w call.text) table
      cases call with
      | upsert written row =>
          apply respond_table_leaves (motive := fun left =>
            (left.rows table).filter (isBeside found) = (w.rows table).filter (isBeside found))
          · rw [hnoted]
          · simp only [World.table, rows_set]
            split
            next hsame =>
              rw [← hnoted, ← hsame]
              refine filter_putRow fun r hr => ?_
              have hpartition := (isAt_iff.mp hr).1
              simpa [isBeside, hpartition] using fun h => absurd h hc
            next => rw [hnoted]
      | _ => exact hc.elim
  | pause milliseconds => rfl
  | now => rfl
  | _ => exact hc.elim

/-- What a table is asked fails and leaves the rows, or it is answered by them. -/
theorem table_moves {s s' : Traced} {call : TableCall} {answer : call.Answer}
    (h : (tracedRules assumed).moves s (.table call) answer s') :
    ((∃ e, answer = call.failed e) ∧ s'.1.rows = s.1.rows) ∨
      ∃ noted : World, noted.rows = s.1.rows ∧ (answer, s'.1) = noted.table call := by
  have hnoted : (s.1.noted call.text).rows = s.1.rows := funext (rows_of_tables (noted_tables _ _))
  rcases table_answers (answer_of_moves h) with ⟨hleft, hfailed⟩ | hserved
  · exact .inl ⟨hfailed, hleft ▸ hnoted⟩
  · exact .inr ⟨_, hnoted, hserved⟩

/-- A row is gone from its place, or the deletion fails and leaves the rows. -/
theorem delete_moves {s s' : Traced} {partition key : String} {answer : Except ServiceError Unit}
    (h : (tracedRules assumed).moves s (.table (.delete table partition key)) answer s') :
    (answer = .ok () ∧
        s'.1.rows table = (s.1.rows table).filter fun row => !isAt partition key row) ∨
      ∃ e, answer = .error e ∧ s'.1.rows table = s.1.rows table := by
  rcases table_moves h with ⟨⟨e, rfl⟩, hrows⟩ | ⟨noted, hnoted, hserved⟩
  · exact .inr ⟨e, rfl, congrFun hrows table⟩
  · simp only [World.table] at hserved
    split at hserved
    · obtain ⟨rfl, hleft⟩ := Prod.mk.inj hserved
      exact .inl ⟨rfl, by rw [hleft, rows_set, if_pos rfl, hnoted]⟩
    · obtain ⟨rfl, hleft⟩ := Prod.mk.inj hserved
      exact .inr ⟨_, rfl, by rw [hleft, hnoted]⟩

/-- The rows of replicas beside this one, and the replicas that have been removed on the way. -/
structure Stock (table : String) (found : Option ReplicaRecord) (rows : List Row)
    (removed : List ReplicaRecord) (s : Traced) : Prop where
  rows : (s.1.rows table).filter (isBeside found) = rows
  removed : s.told.filterMap Exchange.drained? = removed

namespace Stock

variable {found : Option ReplicaRecord} {rows : List Row} {removed : List ReplicaRecord}
variable {s s' : Traced}

theorem narrow (h : Stock table none rows removed s) (found : Option ReplicaRecord) :
    Stock table found (rows.filter (isBeside found)) removed s := by
  refine ⟨?_, h.removed⟩
  rw [← h.rows, filter_isBeside]

theorem told {c : Call} {answer : c.Answer} (h : Stock table found rows removed s)
    (hmove : (tracedRules assumed).moves s c answer s')
    (hrows : (s'.1.rows table).filter (isBeside found) = (s.1.rows table).filter (isBeside found)) :
    Stock table found rows (removed ++ (Exchange.drained? ⟨c, answer⟩).toList) s' := by
  refine ⟨hrows.trans h.rows, ?_⟩
  rw [told_of_moves hmove, List.filterMap_append, h.removed]
  cases hdrained : Exchange.drained? ⟨c, answer⟩ <;> simp [hdrained]

theorem silent {c : Call} {answer : c.Answer} (h : Stock table found rows removed s)
    (hmove : (tracedRules assumed).moves s c answer s')
    (hrows : (s'.1.rows table).filter (isBeside found) = (s.1.rows table).filter (isBeside found))
    (hdrained : Exchange.drained? ⟨c, answer⟩ = none) : Stock table found rows removed s' := by
  simpa [hdrained] using h.told hmove hrows

theorem keeps {c : Call} (hc : c.SparesReplicas) :
    (tracedRules assumed).Keeps (Stock table found rows removed) c := by
  refine traced_keeps fun s answer s' h hmove => h.silent hmove ?_ (hc.drained? answer)
  rw [← respond_beside (w := s.1) hc found, answer_of_moves hmove]

theorem spared {ε α : Type} {x : Control ε α} (hx : x.Asks Call.SparesReplicas)
    (h : Stock table found rows removed s) :
    x.Upholds (tracedRules assumed) (fun _ => Stock table found rows removed)
      (fun _ => Stock table found rows removed) s :=
  hx.keeps (fun _ => keeps) h

end Stock

/-! ## The walk of a node -/

section Walk

variable {site : Site} {found : Option ReplicaRecord} {rows : List Row} {s : Traced}
variable {removed : List ReplicaRecord}

theorem listReplicas_upholds {tables : RecordTables}
    (h : Stock tables.replica none rows removed s) :
    (Records.listReplicas tables).Upholds (tracedRules assumed)
      (fun replicas s' => replicas = readReplicas rows ∧
        Stock tables.replica none rows removed s')
      (fun _ _ => True) s := by
  refine Upholds.bind
    (m := fun listed s' => listed = rows ∧ Stock tables.replica none rows removed s')
    (Upholds.mapError ⟨trivial, fun answer s' hmove => ?_⟩) ?_
  · rcases table_moves hmove with ⟨⟨e, rfl⟩, _⟩ | ⟨noted, hnoted, hserved⟩
    · trivial
    · obtain ⟨rfl, hleft⟩ := Prod.mk.inj hserved
      have hrows : s'.1.rows = s.1.rows := (congrArg World.rows hleft).trans hnoted
      refine ⟨?_, h.silent hmove (by rw [hrows]) rfl⟩
      rw [← h.rows, filter_isBeside_none, ← hnoted]
  · rintro listed s' ⟨rfl, h⟩
    cases hread : listed.mapM Records.replicaOfRow with
    | error e => trivial
    | ok replicas => exact ⟨(readReplicas_of_mapM hread).symm, h⟩

theorem markReplica_upholds {tables : RecordTables} {replica : ReplicaRecord}
    (h : Stock tables.replica none rows removed s) :
    (Records.markReplica tables replica .upgradeInProgress).Upholds (tracedRules assumed)
      (fun marked s' => marked = replica.marked ∧
        Stock tables.replica (some replica.marked) (rows.filter (isBeside (some replica.marked)))
          removed s')
      (fun _ _ => True) s := by
  have hnarrow := h.narrow (some replica.marked)
  refine Upholds.bind (m := fun _ => Stock tables.replica (some replica.marked)
    (rows.filter (isBeside (some replica.marked))) removed)
    (Upholds.mapError ⟨trivial, fun answer s' hmove => ?_⟩) ?_
  · rcases table_moves hmove with ⟨⟨e, rfl⟩, _⟩ | ⟨noted, hnoted, hserved⟩
    · trivial
    · obtain ⟨rfl, hleft⟩ := Prod.mk.inj hserved
      have hrows : s'.1.rows tables.replica =
          putRow (Records.replicaRow replica.marked) (s.1.rows tables.replica) := by
        rw [hleft, rows_set, if_pos rfl, hnoted]
      refine hnarrow.silent hmove ?_ rfl
      rw [hrows, filter_putRow]
      intro r hr
      have hkey : r.key = replica.replicaId := (isAt_iff.mp hr).2
      simp [isBeside, hkey]
  · exact fun _ s' h => ⟨rfl, h⟩

/-- However often it is tried, a replica is removed once. -/
theorem removeReplica_upholds {policy : RetryPolicy} {what : String} {replica : ReplicaRecord}
    (h : Stock table found rows removed s) :
    (retryTransient policy what (removeReplica replica)).Upholds (tracedRules assumed)
      (fun _ => Stock table found rows (removed ++ [replica])) (fun _ _ => True) s := by
  have hpauses : Pauses (tracedRules assumed) (Stock table found rows removed) := fun s ms h =>
    Program.perform_upholds_of_keeps (Stock.keeps trivial) h fun _ _ _ h => h
  refine Upholds.monoError (pollUntil_upholds (fun s h => ?_) hpauses h) fun _ _ _ => trivial
  refine Upholds.bind (m := fun _ => Stock table found rows (removed ++ [replica]))
    ⟨trivial, fun answer s' hmove => ?_⟩ ?_
  · have hnoted := funext (rows_of_tables (noted_tables s.1 (AddonCall.removeReplica replica).text))
    have hrows : (s.1.respond (.addon (.removeReplica replica))).2.rows = s.1.rows :=
      respond_addon_leaves (motive := fun left => left.rows = s.1.rows) hnoted hnoted
    rw [answer_of_moves hmove] at hrows
    cases answer with
    | error e => exact h.silent hmove (by rw [hrows]) rfl
    | ok done => exact h.told hmove (by rw [hrows])
  · intro done s' h
    exact ⟨fun hnone => absurd hnone (by simp), fun _ _ => h⟩

/-- The replica that is drained is the first on record for the name. -/
theorem drain_upholds (haddon : site.hasAddon = true) {hostname : String}
    (h : Stock site.config.swarm.recordTables.replica none rows [] s) :
    (Replica.drain site hostname).Upholds (tracedRules assumed)
      (fun drained s' => drained = drainedFrom hostname rows ∧
        Stock site.config.swarm.recordTables.replica drained (rows.filter (isBeside drained))
          drained.toList s')
      (fun _ _ => True) s := by
  unfold Replica.drain
  simp only [haddon, Bool.not_true, Bool.false_eq_true, if_false]
  refine Upholds.bind (m := fun first s' =>
    first = (readReplicas rows).find? (ReplicaRecord.isOn hostname) ∧
      Stock site.config.swarm.recordTables.replica none rows [] s') ?_ ?_
  · refine Upholds.mapError (Upholds.bind (listReplicas_upholds h) ?_)
    rintro _ s ⟨rfl, h⟩
    exact ⟨rfl, h⟩
  · rintro first s ⟨hfirst, h⟩
    rw [drainedFrom, ← hfirst]
    cases first with
    | none => exact ⟨rfl, h.narrow none⟩
    | some replica =>
        refine (markReplica_upholds h).renamed.bind ?_
        rintro _ s ⟨rfl, h⟩
        exact (removeReplica_upholds h).renamed.bind fun _ s h => ⟨rfl, h⟩

/-- The record of the replica that has been drained is deleted, unless a fault denies that it is
there. -/
theorem forget_upholds (h : Stock site.config.swarm.recordTables.replica found rows removed s) :
    (Replica.forget site found).Upholds (tracedRules ToldGone)
      (fun _ => Stock site.config.swarm.recordTables.replica none rows removed)
      (fun _ _ => True) s := by
  cases found with
  | none => exact h
  | some replica =>
      refine ⟨trivial, fun answer s' hmove => ?_⟩
      have hdrained : s'.told.filterMap Exchange.drained? = removed := by
        rw [told_of_moves hmove, List.filterMap_append, h.removed]
        simp [Exchange.drained?]
      rcases delete_moves hmove with ⟨rfl, hrows⟩ | ⟨e, rfl, hrows⟩
      · refine ⟨?_, hdrained⟩
        rw [hrows, filter_not_isAt_beside, h.rows]
      · cases e with
        | notFound what =>
            have hnone := hmove.1.1 (.notFound what) (congrArg Prod.fst (answer_of_moves hmove)) rfl
            refine ⟨?_, hdrained⟩
            have hkept : (s.1.rows site.config.swarm.recordTables.replica).filter
                (fun row => !isAt Records.replicaPartition replica.replicaId row) =
                  s.1.rows site.config.swarm.recordTables.replica := by
              rw [List.filter_eq_self]
              simpa [held] using hnone
            rw [hrows, ← hkept, filter_not_isAt_beside, h.rows]
        | _ => trivial

/-- The node is removed and the record of its replica deleted. -/
theorem remove_upholds {stage : Stage} (hstage : ¬stage.IsOut) (id : String)
    (h : Stock site.config.swarm.recordTables.replica found rows removed s) :
    Upholds (tracedRules ToldGone)
      (fun _ => Stock site.config.swarm.recordTables.replica none rows removed)
      (fun e _ => ¬e.1.IsOut)
      (do
        NodeWalk.during stage .service (Membership.unlessGone (remove .here id))
        NodeWalk.during stage .records (Replica.forget site found)) s := by
  have hremove : (Membership.unlessGone (remove .here id)).Asks Call.SparesReplicas :=
    Membership.unlessGone_asks (Program.asks_perform trivial)
  refine (NodeWalk.during_upholds (h.spared hremove) hstage).bind fun _ s h => ?_
  exact NodeWalk.during_upholds (forget_upholds h) hstage

/-- One replica has been removed from a host, if it had any, and no row but that of this one is gone
from what the rows were. -/
abbrev Drained (table hostname : String) (rows : List Row) : Traced → Prop :=
  Stock table none (rows.filter (isBeside (drainedFrom hostname rows)))
    (drainedFrom hostname rows).toList

/-- Once a node is out of the swarm, one replica has been removed from it and only the row of this
one is gone; a walk that breaks off before says so. -/
theorem detach_upholds (haddon : site.hasAddon = true) (node : Node)
    (h : Stock site.config.swarm.recordTables.replica none rows [] s) :
    (NodeWalk.detach site node).Upholds (tracedRules ToldGone)
      (fun _ => Drained site.config.swarm.recordTables.replica node.hostname rows)
      (fun e _ => ¬e.1.IsOut) s := by
  have hdraining := NodeWalk.drained_not_isOut site
  refine (NodeWalk.during_upholds (drain_upholds haddon h) hdraining).bind ?_
  rintro _ s ⟨rfl, h⟩
  dsimp only
  split
  · have hleader : Records.leaderPartition ≠ Records.replicaPartition := by decide
    have hdemote : (Succession.demoteManager site.config node.hostname (node.memberId.getD "")).Asks
        Call.SparesReplicas :=
      Succession.demoteManager_asks trivial trivial (fun _ => hleader) trivial (fun _ => trivial) _
    refine (NodeWalk.during_upholds (h.spared hdemote) hdraining).bind fun _ s h => ?_
    have hdemoted : ¬Stage.demoted.IsOut := id
    exact remove_upholds hdemoted _ h
  · exact remove_upholds hdraining _ h

/-- A walk whose node is out of the swarm leaves what the removal of the node has left. -/
theorem run_upholds (haddon : site.hasAddon = true) (set : String) (node : Node)
    (h : Stock site.config.swarm.recordTables.replica none rows [] s) :
    (NodeWalk.run site set node).Upholds (tracedRules ToldGone)
      (fun _ => Drained site.config.swarm.recordTables.replica node.hostname rows)
      (fun e s' => NodeWalk.HasLeft (.error e) →
        Drained site.config.swarm.recordTables.replica node.hostname rows s') s := by
  refine Upholds.mapError (Upholds.bind ((detach_upholds haddon node h).monoError ?_) ?_)
  · intro e s hstage hleft
    cases hleft with
    | broken hout => exact absurd hout hstage
  · intro _ s h
    have hrebuild := (NodeWalk.rebuild_asks site.config set node).mono
      fun _ => Call.IsRenewal.sparesReplicas
    refine Upholds.bind ((h.spared hrebuild).monoError fun _ _ h _ => h) ?_
    exact fun _ s h => h

end Walk

/-- Of the replicas on record for a node whose walk has come so far that it is out of the swarm, the
first and no other has been removed and is no longer on record, whatever the faults are, unless one
of them denies that a record is there. So no replica outlives its node just if it has at most one. -/
theorem walk_retires_first {site : Site} (haddon : site.hasAddon = true) (set : String)
    (node : Node) (hfiled : w.IsFiled)
    (htold : ∀ v ∈ (NodeWalk.run site set node).visits respond w, ToldGone v.1 v.2)
    (hleft : NodeWalk.HasLeft (w.run (NodeWalk.run site set node)).1) :
    let walk := NodeWalk.run site set node
    let before := w.replicas site.config.swarm.replicaTable
    let after := (w.run walk).2.replicas site.config.swarm.replicaTable
    (walk.transcript respond w).filterMap Exchange.drained? =
        ((before.find? (·.isOn node.hostname)).map ReplicaRecord.marked).toList ∧
      after = before.eraseP (·.isOn node.hostname) ∧
      ((∀ replica ∈ after, replica.isOn node.hostname = false) ↔
        before.countP (·.isOn node.hostname) ≤ 1) := by
  intro walk before after
  have hstart : Stock site.config.swarm.recordTables.replica none
      ((w.rows site.config.swarm.replicaTable).filter (isBeside none)) [] (w, []) := ⟨rfl, rfl⟩
  obtain ⟨s, hworld, _, htranscript, hend⟩ :=
    ends_of_traced (run_upholds haddon set node hstart) htold
  have hdrained : Drained site.config.swarm.replicaTable node.hostname
      ((w.rows site.config.swarm.replicaTable).filter (isBeside none)) s := by
    cases hresult : (w.run walk).1 with
    | ok stage =>
        rw [hresult] at hend
        exact hend
    | error e =>
        rw [hresult] at hend hleft
        exact hend hleft
  have hafter : after = before.eraseP (ReplicaRecord.isOn node.hostname) := by
    rw [← readReplicas_drainedFrom hfiled, ← hdrained.rows, hworld]
    rfl
  refine ⟨?_, hafter, ?_⟩
  · rw [← htranscript, hdrained.removed]
    rfl
  · rw [hafter]
    exact eraseP_spares_none_iff before

/-- Two managers. The one that does not lead has a replica on record twice, under its name in two
cases, and a third replica is on record for the other one. -/
def twofold : World :=
  { trial with
    site := addonSite
    members :=
      [⟨"m0", "host-0", .v4 10 0 0 4, .manager, .ready, true⟩,
        ⟨"m1", "host-1", .v4 10 0 0 5, .manager, .ready, false⟩]
    sets :=
      [("managers",
          ⟨.manager, 2,
            [⟨"0", "host-0", [⟨.v4 10 0 0 4, true⟩], .running, .succeeded, none⟩,
              ⟨"1", "host-1", [⟨.v4 10 0 0 5, true⟩], .running, .succeeded, none⟩], []⟩),
        ("workers", ⟨.worker, 0, [], []⟩)]
    tables :=
      [("replicas",
          putRow (Records.replicaRow ⟨"r0", "host-0", .stable⟩)
            (putRow (Records.replicaRow ⟨"r1", "HOST-1", .stable⟩)
              (putRow (Records.replicaRow ⟨"r2", "host-1", .stable⟩) [])))] }

/-- The node behind the manager that does not lead. -/
def twofoldNode : Node :=
  ⟨"1", .v4 10 0 0 5, some "m1", .manager, "host-1", .ready, none⟩

theorem twofold_isFiled : twofold.IsFiled := by
  intro table
  simp only [World.rows, twofold, Keyed.find?]
  split
  · exact putRow_pairwise (putRow_pairwise (putRow_pairwise .nil))
  · exact .nil

theorem walk_retires_first_twofold :
    let walk := NodeWalk.run addonSite "managers" twofoldNode
    let before := twofold.replicas addonSite.config.swarm.replicaTable
    let after := (twofold.run walk).2.replicas addonSite.config.swarm.replicaTable
    addonSite.hasAddon = true ∧ twofold.IsFiled ∧
      (∀ v ∈ walk.visits respond twofold, ToldGone v.1 v.2) ∧
      NodeWalk.HasLeft (twofold.run walk).1 ∧
      (walk.transcript respond twofold).filterMap Exchange.drained? =
        ((before.find? (·.isOn twofoldNode.hostname)).map ReplicaRecord.marked).toList ∧
      after = before.eraseP (·.isOn twofoldNode.hostname) ∧
      ((∀ replica ∈ after, replica.isOn twofoldNode.hostname = false) ↔
        before.countP (·.isOn twofoldNode.hostname) ≤ 1) := by
  intro walk before after
  have htold : ∀ v ∈ walk.visits respond twofold, ToldGone v.1 v.2 := by decide +kernel
  have hleft : NodeWalk.HasLeft (twofold.run walk).1 := by
    have hdone : (twofold.run walk).1 = .ok .rejoined := by decide +kernel
    rw [hdone]
    exact .finished _
  exact ⟨rfl, twofold_isFiled, htold, hleft,
    walk_retires_first rfl "managers" twofoldNode twofold_isFiled htold hleft⟩

/-- The second replica of the node stays on record, and nobody has removed it. -/
theorem twofold_survives :
    let walk := NodeWalk.run addonSite "managers" twofoldNode
    (twofold.run walk).1 = .ok .rejoined ∧
      (twofold.run walk).2.replicas addonSite.config.swarm.replicaTable =
        [⟨"r0", "host-0", .stable⟩, ⟨"r2", "host-1", .stable⟩] ∧
      (walk.transcript respond twofold).filterMap Exchange.drained? =
        [⟨"r1", "HOST-1", .upgradeInProgress⟩] := by
  decide +kernel

end World

end SwarmUpkeep
