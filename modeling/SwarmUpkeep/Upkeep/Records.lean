import SwarmUpkeep.Config.Settings
import SwarmUpkeep.Control.Call

/-!
# Records in the tables

The leader record is one row of one table, and each replica record is a row of another, under the
replica's identifier. Only the upgrade and the handoff that follows it write here, under the
upgrade lock; readers take no lock.
-/

namespace SwarmUpkeep

/-- Why a record could not be read or written. -/
inductive RecordError where
  | service (error : ServiceError)
  | malformed (what reason : String)
deriving DecidableEq, Inhabited

def RecordError.message : RecordError → String
  | service e => "Table error: " ++ e.message
  | malformed what reason => "Malformed " ++ what ++ " record: " ++ reason

/-- The kind of an error, with the kind of its cause behind a slash. -/
def RecordError.kind : RecordError → String
  | service e => "Api/" ++ e.kind
  | malformed _ _ => "Malformed"

/-- The tables that hold the records. -/
structure RecordTables where
  leader : String
  replica : String
deriving DecidableEq, Inhabited

namespace Records

open Control

def leaderPartition : String := "leader"

def leaderKey : String := "current"

def replicaPartition : String := "replicas"

/-! ## Rows -/

def leaderRow (record : LeaderRecord) : Row :=
  ((Row.empty leaderPartition leaderKey).withText "leader_ip" record.leaderIp.text).withText
    "updated_at" (Timestamp.numeric record.updatedAt)

def replicaRow (replica : ReplicaRecord) : Row :=
  ((Row.empty replicaPartition replica.replicaId).withText "node_name" replica.nodeName).withText
    "description" replica.description.text

/-- The leader's address and, if the row has one, the time of the record. -/
def leaderOfRow (row : Row) : Except RecordError (Address × Option Instant) := do
  let ip ← match row.text? "leader_ip" with
    | some s => pure s
    | none => throw (.malformed "leader" "missing leader_ip")
  let ip ← match Address.parse? ip with
    | some ip => pure ip
    | none => throw (.malformed "leader" "invalid IP address syntax")
  match row.text? "updated_at" with
  | none => return (ip, none)
  | some s =>
      match Timestamp.readStrict s with
      | .ok t => return (ip, some t)
      | .error e => throw (.malformed "leader" e.message)

def replicaOfRow (row : Row) : Except RecordError ReplicaRecord :=
  match row.text? "node_name" with
  | none => .error (.malformed "replica" (row.key ++ " has no node_name"))
  | some nodeName =>
      .ok ⟨row.key, nodeName,
        ((row.text? "description").map ReplicaDescription.parse).getD .stable⟩

/-! ## Reading and writing -/

/-- The leader record. One without a time counts as written now. -/
def getLeader (tables : RecordTables) : Control RecordError (Option LeaderRecord) := do
  match ← (getRow tables.leader leaderPartition leaderKey).mapError .service with
  | none => return none
  | some row =>
      match ← Attempt.ofExcept (leaderOfRow row) with
      | (ip, some t) => return some ⟨ip, t⟩
      | (ip, none) => return some ⟨ip, ← now⟩

def setLeader (tables : RecordTables) (leaderIp : Address) : Control RecordError LeaderRecord := do
  let record : LeaderRecord := ⟨leaderIp, ← now⟩
  (upsertRow tables.leader (leaderRow record)).mapError .service
  return record

def clearLeader (tables : RecordTables) : Control RecordError Unit := do
  let result ← (deleteRow tables.leader leaderPartition leaderKey).outcome
  (Attempt.ofExcept (ignoreNotFound result)).mapError .service

/-- All replica records, in the order of their identifiers. -/
def listReplicas (tables : RecordTables) : Control RecordError (List ReplicaRecord) := do
  let rows ← (queryRows tables.replica replicaPartition).mapError .service
  Attempt.ofExcept (rows.mapM replicaOfRow)

/-- The first replica record of a node, whatever the case of its name. -/
def replicaForNode (tables : RecordTables) (nodeName : String) :
    Control RecordError (Option ReplicaRecord) := do
  let replicas ← listReplicas tables
  return replicas.find? fun r => Ascii.sameFold r.nodeName nodeName

def putReplica (tables : RecordTables) (replica : ReplicaRecord) : Control RecordError Unit :=
  (upsertRow tables.replica (replicaRow replica)).mapError .service

/-- Writes the record of a replica with another description. -/
def markReplica (tables : RecordTables) (replica : ReplicaRecord)
    (description : ReplicaDescription) : Control RecordError ReplicaRecord := do
  let updated := { replica with description }
  putReplica tables updated
  return updated

def deleteReplica (tables : RecordTables) (replicaId : String) : Control RecordError Unit := do
  let result ← (deleteRow tables.replica replicaPartition replicaId).outcome
  (Attempt.ofExcept (ignoreNotFound result)).mapError .service

end Records

def SwarmSettings.recordTables (settings : SwarmSettings) : RecordTables :=
  ⟨settings.leaderTable, settings.replicaTable⟩

end SwarmUpkeep
