import SwarmUpkeep.Json.Decode
import SwarmUpkeep.Json.Printer
import SwarmUpkeep.Swarm.Role
import SwarmUpkeep.Net.Address
import SwarmUpkeep.Time.Timestamp

/-!
# Records about the swarm

What is kept between runs: which manager is believed to lead, which add-on replica lives on which
node, and which node has to complete its own upgrade next. Leader records and rejoin signals have
a JSON form, which is read from an object or from an array of the fields.
-/

namespace SwarmUpkeep

/-- The manager believed to lead the swarm, and since when. -/
structure LeaderRecord where
  leaderIp : Address
  updatedAt : Instant
deriving DecidableEq, Inhabited

/-- What a replica is going through. -/
inductive ReplicaDescription where
  | stable
  | upgradeInProgress
deriving DecidableEq, Inhabited

namespace ReplicaDescription

def text : ReplicaDescription → String
  | stable => "stable"
  | upgradeInProgress => "upgrade in progress"

/-- Any other text describes a stable replica. -/
def parse (s : String) : ReplicaDescription :=
  if s = upgradeInProgress.text then upgradeInProgress else stable

theorem parse_text (d : ReplicaDescription) : parse d.text = d := by
  cases d <;> decide

end ReplicaDescription

/-- An add-on replica and the node that hosts it. -/
structure ReplicaRecord where
  replicaId : String
  nodeName : String
  description : ReplicaDescription
deriving DecidableEq, Inhabited

/-- Names the node that has to complete its own upgrade next. -/
structure RejoinSignal where
  nodeId : String
  enqueuedAt : Instant
deriving DecidableEq, Inhabited

namespace Json.Document

def timestamp? (d : Document) : Option Instant :=
  d.text?.bind fun s => (Timestamp.readLenient s).toOption

def address? (d : Document) : Option Address :=
  d.text?.bind Address.parse?

end Json.Document

open Json.Document

namespace RejoinSignal

def isFor (signal : RejoinSignal) (nodeId : String) : Bool :=
  signal.nodeId == nodeId

/-- The JSON text of a signal. -/
def text (signal : RejoinSignal) : String :=
  String.ofList
    ("\x7b\"node_id\":".toList ++ Json.quoted signal.nodeId ++ ",\"enqueued_at\":".toList ++
      Json.quoted (Timestamp.zulu signal.enqueuedAt) ++ ['}'])

def ofDocument? (d : Json.Document) : Option RejoinSignal := do
  match ← d.fields? ["node_id", "enqueued_at"] with
  | [nodeId, enqueuedAt] =>
      return ⟨← required text? nodeId, ← required timestamp? enqueuedAt⟩
  | _ => none

def parse? (s : String) : Option RejoinSignal :=
  Json.Document.parse? s >>= ofDocument?

end RejoinSignal

namespace LeaderRecord

/-- The JSON text of a record. -/
def text (record : LeaderRecord) : String :=
  String.ofList
    ("\x7b\"leader_ip\":".toList ++ Json.quoted record.leaderIp.text ++ ",\"updated_at\":".toList ++
      Json.quoted (Timestamp.zulu record.updatedAt) ++ ['}'])

def ofDocument? (d : Json.Document) : Option LeaderRecord := do
  match ← d.fields? ["leader_ip", "updated_at"] with
  | [leaderIp, updatedAt] =>
      return ⟨← required address? leaderIp, ← required timestamp? updatedAt⟩
  | _ => none

def parse? (s : String) : Option LeaderRecord :=
  Json.Document.parse? s >>= ofDocument?

end LeaderRecord

/-- The role that a JSON text names: the name itself, or an object with that one name and `null`. -/
def Role.ofDocument? : Json.Document → Option Role
  | .string (some name) => Role.ofText? name
  | .object [(some name, .null)] => Role.ofText? name
  | _ => none

end SwarmUpkeep
