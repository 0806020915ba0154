import Mathlib.Data.Set.List
import SwarmUpkeep.Proofs.Net.Address
import SwarmUpkeep.Proofs.World.Runs
import SwarmUpkeep.Proofs.World.Tables
import SwarmUpkeep.Upkeep.Records

/-!
# The records as a ledger

Whatever is done to the records, in whichever order, they answer like a ledger: one leader, who may
be missing, and a replica under each identifier that has one. For this both kinds of records have
to read back from their rows as they were written, and to stay apart from each other even where
they share a table.
-/

namespace SwarmUpkeep

/-- The table that is asked about. -/
def TableCall.table : TableCall → String
  | get table _ _ | upsert table _ | delete table _ _ | query table _ => table

namespace Records

/-! ## Rows read back -/

theorem leaderOfRow_leaderRow {record : LeaderRecord} (h : record.updatedAt.IsWritten) :
    leaderOfRow (leaderRow record) = .ok (record.leaderIp, some record.updatedAt) := by
  have hip : (leaderRow record).text? "leader_ip" = some record.leaderIp.text := rfl
  have htime : (leaderRow record).text? "updated_at" =
      some (Timestamp.numeric record.updatedAt) := rfl
  unfold leaderOfRow
  rw [hip, htime]
  simp only [pure_bind, Address.parse?_text, Timestamp.readStrict_numeric h]
  rfl

theorem replicaOfRow_replicaRow (replica : ReplicaRecord) :
    replicaOfRow (replicaRow replica) = .ok replica := by
  have hname : (replicaRow replica).text? "node_name" = some replica.nodeName := rfl
  have hdescription : (replicaRow replica).text? "description" =
      some replica.description.text := rfl
  unfold replicaOfRow
  rw [hname, hdescription]
  simp only [Option.map_some, Option.getD_some, ReplicaDescription.parse_text]
  rfl

theorem replicaRow_injective : Function.Injective replicaRow := by
  intro r r' h
  have hread := congrArg replicaOfRow h
  rw [replicaOfRow_replicaRow, replicaOfRow_replicaRow] at hread
  exact Except.ok.inj hread

theorem mapM_replicaOfRow (replicas : List ReplicaRecord) :
    (replicas.map replicaRow).mapM replicaOfRow = .ok replicas := by
  have hread : replicaOfRow ∘ replicaRow = fun r => pure (id r) := funext replicaOfRow_replicaRow
  rw [List.mapM_map, hread, List.mapM_pure, List.map_id]
  rfl

/-! ## What is done to the records -/

/-- One use of the records. -/
inductive Use where
  | setLeader (leaderIp : Address)
  | clearLeader
  | getLeader
  | putReplica (replica : ReplicaRecord)
  | markReplica (replica : ReplicaRecord) (description : ReplicaDescription)
  | deleteReplica (replicaId : String)
  | listReplicas
  | replicaForNode (nodeName : String)

abbrev Use.Result : Use → Type
  | setLeader _ => LeaderRecord
  | clearLeader => Unit
  | getLeader => Option LeaderRecord
  | putReplica _ => Unit
  | markReplica _ _ => ReplicaRecord
  | deleteReplica _ => Unit
  | listReplicas => List ReplicaRecord
  | replicaForNode _ => Option ReplicaRecord

def Use.program (tables : RecordTables) :
    (use : Use) → Program Surroundings (Except RecordError use.Result)
  | .setLeader leaderIp => Records.setLeader tables leaderIp
  | .clearLeader => Records.clearLeader tables
  | .getLeader => Records.getLeader tables
  | .putReplica replica => Records.putReplica tables replica
  | .markReplica replica description => Records.markReplica tables replica description
  | .deleteReplica replicaId => Records.deleteReplica tables replicaId
  | .listReplicas => Records.listReplicas tables
  | .replicaForNode nodeName => Records.replicaForNode tables nodeName

theorem Use.program_asks {allowed : Call → Prop} (tables : RecordTables) (use : Use)
    (htable : ∀ call : TableCall, call.table = tables.leader ∨ call.table = tables.replica →
      allowed (.table call))
    (hnow : allowed .now) : (use.program tables).Asks allowed := by
  have hput : ∀ replica, (Records.putReplica tables replica).Asks allowed := fun replica =>
    Attempt.Asks.mapError (Program.asks_perform (htable (.upsert _ _) (.inr rfl)))
  have hlist : (Records.listReplicas tables).Asks allowed :=
    Attempt.Asks.bind (Attempt.Asks.mapError
      (Program.asks_perform (htable (.query _ _) (.inr rfl)))) fun _ => Attempt.asks_ofExcept _
  cases use with
  | setLeader leaderIp => exact setLeader_asks (fun _ => htable _ (.inl rfl)) hnow leaderIp
  | clearLeader => exact clearLeader_asks (htable _ (.inl rfl))
  | getLeader => exact getLeader_asks (htable _ (.inl rfl)) hnow
  | putReplica replica => exact hput replica
  | markReplica replica description => exact (hput _).bind fun _ => Attempt.asks_pure _
  | deleteReplica replicaId =>
      refine Attempt.Asks.bind (Attempt.Asks.outcome
        (Program.asks_perform (htable (.delete _ _ _) (.inr rfl)))) fun result => ?_
      exact (Attempt.asks_ofExcept _).mapError
  | listReplicas => exact hlist
  | replicaForNode nodeName => exact hlist.bind fun _ => Attempt.asks_pure _

/-- One use after another, whether they fail or not. -/
def play (tables : RecordTables) : List Use → Program Surroundings Unit
  | [] => .done ()
  | use :: rest => (use.program tables).bind fun _ => play tables rest

theorem play_asks (tables : RecordTables) (uses : List Use) :
    (play tables uses).Asks Call.IsFiled := by
  induction uses with
  | nil => exact trivial
  | cons use uses ih =>
      exact (use.program_asks tables (fun _ _ => trivial) trivial).bind fun _ => ih

end Records

/-! ## The ledger -/

open Records

/-- The leader, if there is one, and the replica under each identifier. -/
structure Ledger where
  leader : Option LeaderRecord
  replica : String → Option ReplicaRecord

namespace Ledger

def empty : Ledger :=
  ⟨none, fun _ => none⟩

def setLeader (ledger : Ledger) (record : Option LeaderRecord) : Ledger :=
  { ledger with leader := record }

def setReplica (ledger : Ledger) (id : String) (replica : Option ReplicaRecord) : Ledger :=
  { ledger with replica := fun other => if other = id then replica else ledger.replica other }

theorem setReplica_replica (ledger : Ledger) (id other : String) (replica : Option ReplicaRecord) :
    (ledger.setReplica id replica).replica other =
      if other = id then replica else ledger.replica other :=
  rfl

/-- The ledger after a use of it at some instant. -/
def next (ledger : Ledger) (now : Instant) : Use → Ledger
  | .setLeader leaderIp => ledger.setLeader (some ⟨leaderIp, now⟩)
  | .clearLeader => ledger.setLeader none
  | .putReplica replica => ledger.setReplica replica.replicaId (some replica)
  | .markReplica replica description =>
      ledger.setReplica replica.replicaId (some { replica with description })
  | .deleteReplica replicaId => ledger.setReplica replicaId none
  | .getLeader | .listReplicas | .replicaForNode _ => ledger

/-- These are the replicas of the ledger, in the order of their identifiers. -/
structure Lists (ledger : Ledger) (replicas : List ReplicaRecord) : Prop where
  ascending : replicas.Pairwise fun r r' => r.replicaId < r'.replicaId
  mem_iff : ∀ r, r ∈ replicas ↔ ledger.replica r.replicaId = some r

/-- What a use of the ledger at some instant results in. -/
def Answers (ledger : Ledger) (now : Instant) : (use : Use) → Except RecordError use.Result → Prop
  | .setLeader leaderIp, result => result = .ok ⟨leaderIp, now⟩
  | .clearLeader, result => result = .ok ()
  | .getLeader, result => result = .ok ledger.leader
  | .putReplica _, result => result = .ok ()
  | .markReplica replica description, result => result = .ok { replica with description }
  | .deleteReplica _, result => result = .ok ()
  | .listReplicas, result => ∃ replicas, result = .ok replicas ∧ ledger.Lists replicas
  | .replicaForNode nodeName, result =>
      ∃ replicas, ledger.Lists replicas ∧
        result = .ok (replicas.find? fun r => Ascii.sameFold r.nodeName nodeName)

variable {σ : Type} {respond : σ → (c : Call) → c.Answer × σ} {held : σ → Holdings}
variable {clock : σ → Instant} {tables : RecordTables} {ledger : Ledger} {s : σ}

/-- The ledger after one use after another, each at the instant that the clock tells then. -/
def after (respond : σ → (c : Call) → c.Answer × σ) (tables : RecordTables) :
    List Use → σ → Ledger → Ledger
  | [], _, ledger => ledger
  | use :: rest, s, ledger =>
      after respond tables rest ((use.program tables).run respond s).2
        (ledger.next (respond s .now).1 use)

/-- The tables hold what the ledger says. -/
structure Filed (tables : RecordTables) (ledger : Ledger) (held : Holdings) : Prop where
  leader : held tables.leader leaderPartition leaderKey = ledger.leader.map leaderRow
  replica : ∀ id, held tables.replica replicaPartition id = (ledger.replica id).map replicaRow
  written : ∀ record, ledger.leader = some record → record.updatedAt.IsWritten
  named : ∀ id r, ledger.replica id = some r → r.replicaId = id

namespace Filed

theorem of_empty (h : ∀ table partition key, held s table partition key = none) :
    Filed tables empty (held s) where
  leader := h _ _ _
  replica _ := h _ _ _
  written _ h := nomatch h
  named _ _ h := nomatch h

variable {held : Holdings}

/-- A leader is filed where no replica is. -/
theorem setLeader (h : Filed tables ledger held) {record : Option LeaderRecord}
    (hwritten : ∀ r, record = some r → r.updatedAt.IsWritten) :
    Filed tables (ledger.setLeader record)
      (held.set tables.leader leaderPartition leaderKey (record.map leaderRow)) where
  leader := Holdings.set_self
  replica id := by
    rw [Holdings.set_of_ne fun hplace => absurd hplace.2.1 (by decide)]
    exact h.replica id
  written := hwritten
  named := h.named

/-- A replica is filed where no other replica and no leader is. -/
theorem setReplica (h : Filed tables ledger held) {id : String} {replica : Option ReplicaRecord}
    (hnamed : ∀ r, replica = some r → r.replicaId = id) :
    Filed tables (ledger.setReplica id replica)
      (held.set tables.replica replicaPartition id (replica.map replicaRow)) where
  leader := by
    rw [Holdings.set_of_ne fun hplace => absurd hplace.2.1 (by decide)]
    exact h.leader
  replica other := by
    rw [setReplica_replica]
    split
    next hother =>
      rw [hother]
      exact Holdings.set_self
    next hother =>
      rw [Holdings.set_of_ne fun hplace => hother hplace.2.2]
      exact h.replica other
  written := h.written
  named other r hr := by
    rw [setReplica_replica] at hr
    split at hr
    next hother =>
      rw [hother]
      exact hnamed r hr
    next => exact h.named other r hr

/-- The rows of the replicas read back as the list of them. -/
theorem lists (h : Filed tables ledger held) {rows : List Row}
    (hrows : (held tables.replica).Lists replicaPartition rows) :
    ∃ replicas, rows.mapM replicaOfRow = .ok replicas ∧ ledger.Lists replicas := by
  have hread : ∀ row ∈ rows, ∃ r, replicaRow r = row := by
    intro row hrow
    have hplace := (hrows.mem_iff row).mp hrow
    rw [h.replica, Option.map_eq_some_iff] at hplace
    obtain ⟨r, _, hr⟩ := hplace
    exact ⟨r, hr⟩
  obtain ⟨replicas, rfl⟩ : rows ∈ Set.range (List.map replicaRow) := by
    rw [Set.range_list_map]
    exact hread
  refine ⟨replicas, mapM_replicaOfRow replicas,
    (List.pairwise_map (f := replicaRow)).mp hrows.ascending, fun r => ?_⟩
  have hmem : r ∈ replicas ↔ replicaRow r ∈ replicas.map replicaRow :=
    (List.mem_map_of_injective replicaRow_injective).symm
  rw [hmem, hrows.mem_iff, h.replica]
  exact Option.map_injective replicaRow_injective |>.eq_iff (b := some r)

end Filed

/-! ## One use -/

variable {table partition key : String}

/-- A row that is to be gone is gone, whether it was there or not. -/
theorem deleteRow_upholds :
    Program.Upholds (Holdings.rules clock held)
      (fun result s' => result = .ok () ∧ held s' = (held s).set table partition key none)
      (do
        let result ← (Control.deleteRow table partition key).outcome
        (Attempt.ofExcept (ignoreNotFound result)).mapError .service : Control RecordError Unit)
      s := by
  refine ⟨trivial, ?_⟩
  rintro answer s' ⟨hremove, hanswer⟩
  split at hanswer
  next =>
    subst hanswer
    exact ⟨rfl, hremove⟩
  next =>
    obtain ⟨what, rfl⟩ := hanswer
    exact ⟨rfl, hremove⟩

theorem putReplica_upholds (h : Filed tables ledger (held s)) (replica : ReplicaRecord) :
    Program.Upholds (Holdings.rules clock held)
      (fun result s' => result = .ok () ∧
        Filed tables (ledger.setReplica replica.replicaId (some replica)) (held s'))
      (Records.putReplica tables replica) s := by
  refine ⟨trivial, ?_⟩
  rintro _ s' ⟨rfl, hput⟩
  refine ⟨rfl, ?_⟩
  rw [hput]
  exact h.setReplica fun r hr => Option.some.inj hr ▸ rfl

theorem listReplicas_upholds (h : Filed tables ledger (held s)) :
    Program.Upholds (Holdings.rules clock held)
      (fun result s' => (∃ replicas, result = .ok replicas ∧ ledger.Lists replicas) ∧
        held s' = held s)
      (Records.listReplicas tables) s := by
  refine ⟨trivial, ?_⟩
  rintro _ s' ⟨hheld, rows, rfl, hrows⟩
  obtain ⟨replicas, hread, hlists⟩ := h.lists hrows
  exact ⟨⟨replicas, hread, hlists⟩, hheld⟩

theorem getLeader_upholds (h : Filed tables ledger (held s)) :
    (Records.getLeader tables).Upholds (Holdings.rules clock held)
      (fun leader s' => leader = ledger.leader ∧ held s' = held s) (fun _ _ => False) s := by
  have hrow : ((Control.getRow tables.leader leaderPartition leaderKey).mapError
      RecordError.service).Upholds (Holdings.rules clock held)
      (fun row s' => row = ledger.leader.map leaderRow ∧ held s' = held s) (fun _ _ => False)
      s := by
    refine ⟨trivial, ?_⟩
    rintro _ s' ⟨rfl, hheld⟩
    exact ⟨h.leader, hheld⟩
  refine hrow.bind ?_
  rintro _ s' ⟨rfl, hheld⟩
  cases hleader : ledger.leader with
  | none => exact ⟨rfl, hheld⟩
  | some record =>
      have hread : (Attempt.ofExcept (leaderOfRow (leaderRow record)) :
          Control RecordError _).Upholds (Holdings.rules clock held)
          (fun told s' => told = (record.leaderIp, some record.updatedAt) ∧ held s' = held s)
          (fun _ _ => False) s' := by
        rw [leaderOfRow_leaderRow (h.written record hleader)]
        exact ⟨rfl, hheld⟩
      refine hread.bind ?_
      rintro _ s' ⟨rfl, hheld⟩
      exact ⟨rfl, hheld⟩

/-- Every use of the records results in what the ledger answers, and the tables hold what the
ledger says after it. -/
theorem use_upholds (use : Use) (h : Filed tables ledger (held s)) :
    Program.Upholds (Holdings.rules clock held)
      (fun result s' => ledger.Answers (clock s) use result ∧
        Filed tables (ledger.next (clock s) use) (held s'))
      (use.program tables) s := by
  cases use with
  | setLeader leaderIp =>
      refine ⟨trivial, ?_⟩
      rintro _ s' ⟨rfl, hwritten, hheld⟩
      refine ⟨trivial, ?_⟩
      rintro _ s'' ⟨rfl, hput⟩
      refine ⟨rfl, ?_⟩
      rw [hput, hheld]
      exact h.setLeader fun r hr => Option.some.inj hr ▸ hwritten
  | clearLeader =>
      apply deleteRow_upholds.mono
      rintro _ s' ⟨rfl, hheld⟩
      refine ⟨rfl, ?_⟩
      rw [hheld]
      exact h.setLeader fun _ hr => nomatch hr
  | getLeader =>
      refine Program.Upholds.mono (getLeader_upholds h) fun result s' hresult => ?_
      cases result with
      | ok leader =>
          obtain ⟨rfl, hheld⟩ := hresult
          exact ⟨rfl, hheld ▸ h⟩
      | error e => exact hresult.elim
  | putReplica replica =>
      apply (putReplica_upholds h replica).mono
      rintro _ s' ⟨rfl, hfiled⟩
      exact ⟨rfl, hfiled⟩
  | markReplica replica description =>
      refine Program.Upholds.bind (putReplica_upholds h { replica with description }) ?_
      rintro _ s' ⟨rfl, hfiled⟩
      exact ⟨rfl, hfiled⟩
  | deleteReplica replicaId =>
      apply deleteRow_upholds.mono
      rintro _ s' ⟨rfl, hheld⟩
      refine ⟨rfl, ?_⟩
      rw [hheld]
      exact h.setReplica fun _ hr => nomatch hr
  | listReplicas =>
      apply (listReplicas_upholds h).mono
      rintro result s' ⟨hresult, hheld⟩
      exact ⟨hresult, hheld ▸ h⟩
  | replicaForNode nodeName =>
      refine Program.Upholds.bind (listReplicas_upholds h) ?_
      rintro _ s' ⟨⟨replicas, rfl, hlists⟩, hheld⟩
      exact ⟨⟨replicas, hlists, rfl⟩, hheld ▸ h⟩

/-! ## One use after another -/

theorem play_append (tables : RecordTables) (past rest : List Use) :
    play tables (past ++ rest) = (play tables past).bind fun _ => play tables rest := by
  induction past with
  | nil => rfl
  | cons use past ih =>
      simp only [List.cons_append, play, ih]
      rw [Program.bind_assoc]

/-- The tables hold at each time what the ledger says. -/
theorem filed_after (past : List Use) (h : Filed tables ledger (held s))
    (hserved : Program.Obeys (Holdings.serving respond held) respond
      ((play tables past).visits respond s)) :
    Filed tables (after respond tables past s ledger)
      (held ((play tables past).run respond s).2) := by
  induction past generalizing s ledger with
  | nil => exact h
  | cons use past ih =>
      simp only [play, Program.visits_bind] at hserved
      obtain ⟨huse, hrest⟩ := List.forall_mem_append.mp hserved
      have hfiled := (use_upholds use h).run huse
      simp only [play, Program.run_bind]
      exact ih hfiled.2 hrest

/-- Whatever has been done to records that were not there at first, they answer every use as the
ledger does. -/
theorem records_answer (past : List Use) (use : Use)
    (hempty : ∀ table partition key, held s table partition key = none)
    (hserved : Program.Obeys (Holdings.serving respond held) respond
      ((play tables (past ++ [use])).visits respond s)) :
    let s' := ((play tables past).run respond s).2
    (after respond tables past s empty).Answers (respond s' .now).1 use
      ((use.program tables).run respond s').1 := by
  rw [play_append, Program.visits_bind] at hserved
  obtain ⟨hpast, hlast⟩ := List.forall_mem_append.mp hserved
  have hfiled := filed_after past (Filed.of_empty hempty) hpast
  have huse : Program.Obeys (Holdings.serving respond held) respond
      ((use.program tables).visits respond ((play tables past).run respond s).2) := by
    intro v hv
    apply hlast
    rw [play, Program.visits_bind]
    exact List.mem_append_left _ hv
  exact ((use_upholds use hfiled).run huse).1

/-- One table for all records, and addresses of both versions. -/
theorem records_answer_trial :
    let tables : RecordTables := ⟨"state", "state"⟩
    let past : List Use :=
      [.setLeader (.v6 0 0 0 0 0 0xffff 0x0a00 4), .putReplica ⟨"r1", "Host-0", .stable⟩,
        .putReplica ⟨"current", "host-1", .stable⟩, .clearLeader]
    let respond := World.respond
    (∀ table partition key, World.trial.held table partition key = none) ∧
      Program.Obeys (Holdings.serving respond World.held) respond
        ((play tables (past ++ [.replicaForNode "HOST-0"])).visits respond World.trial) ∧
      (after respond tables past World.trial empty).Answers
        (((play tables past).run respond World.trial).2.respond .now).1 (.replicaForNode "HOST-0")
        (((Use.replicaForNode "HOST-0").program tables).run respond
          ((play tables past).run respond World.trial).2).1 := by
  have hempty : ∀ table partition key, World.trial.held table partition key = none :=
    fun _ _ _ => rfl
  have hserved := World.serving_of_clock (w := World.trial) (play_asks ⟨"state", "state"⟩
    [.setLeader (.v6 0 0 0 0 0 0xffff 0x0a00 4), .putReplica ⟨"r1", "Host-0", .stable⟩,
        .putReplica ⟨"current", "host-1", .stable⟩, .clearLeader, .replicaForNode "HOST-0"])
     ⟨rfl, fun _ => .nil⟩ (by decide) (by decide +kernel)
  exact ⟨hempty, hserved, records_answer _ _ hempty hserved⟩

end Ledger

end SwarmUpkeep
