import SwarmUpkeep.Control.Call
import SwarmUpkeep.Remote.TableApi
import SwarmUpkeep.Text.Ascii

/-!
# Queues in tables

A queue is a table of its own: creating the table decides who has created the queue. A message is
a row whose key starts with the time, so that the rows stand in the order in which they were put.
A message never brings back a queue that is gone.
-/

namespace SwarmUpkeep.TableQueue

open TableService

def partition : String := "messages"

def textName : String := "text"

/-- The nanoseconds since 1970 that a key can hold; zero for an instant beyond them. -/
def keyNanos (t : Instant) : Nat :=
  let nanos := t.sinceEpoch
  if TokenSource.least64 ≤ nanos ∧ nanos ≤ TokenSource.greatest64 then nanos.toNat else 0

/-- The key of a message: twenty digits for the time, and a number that nobody else has. -/
def messageKey (t : Instant) (nonce : String) : String :=
  String.ofList (Ascii.padded 20 (keyNanos t)) ++ "-" ++ nonce

def messageRow (key text : String) : Row :=
  (Row.empty partition key).withText textName text

def messageOf (row : Row) : Message :=
  ⟨row.key, (row.text? textName).getD ""⟩

def create (queue : String) : Attempt TableService ServiceError Bool :=
  createTable queue

def delete (queue : String) : Attempt TableService ServiceError Unit :=
  deleteTable queue

def exists? (queue : String) : Attempt TableService ServiceError Bool :=
  tableExists queue

def put (queue text : String) : Attempt TableService ServiceError Unit := do
  let t ← (Program.perform (I := TableService) .now)
  let nonce ← (Program.perform (I := TableService) .nonce)
  insertOnly queue (messageRow (messageKey t nonce) text)

/-- The message at the head of a queue. -/
def peek (pages : Nat) (queue : String) : Attempt TableService ServiceError (Option Message) := do
  if ← tableExists queue then
    let rows ← queryPartition queue partition (some 1) pages
    return rows.head?.map messageOf
  else Attempt.fail (.notFound ("queue " ++ queue))

/-- Taking a message leaves it in the queue until it is deleted. -/
def get (pages : Nat) (queue : String) : Attempt TableService ServiceError (Option Message) :=
  peek pages queue

def deleteMessage (queue : String) (message : Message) : Attempt TableService ServiceError Unit :=
  TableService.delete queue partition message.id

def count (pages : Nat) (queue : String) : Attempt TableService ServiceError Nat := do
  return (← queryPartition queue partition none pages).length

/-- Answers the calls to a queue. -/
def respond (pages : Nat) : (call : QueueCall) → Program TableService call.Answer
  | .create queue => create queue
  | .delete queue => delete queue
  | .exists queue => exists? queue
  | .put queue text => put queue text
  | .peek queue => peek pages queue
  | .get queue => get pages queue
  | .deleteMessage queue message => deleteMessage queue message
  | .count queue => count pages queue

end SwarmUpkeep.TableQueue
