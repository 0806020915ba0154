import SwarmUpkeep.Swarm.Record
import SwarmUpkeep.Proofs.Json.Token
import SwarmUpkeep.Proofs.Time.Timestamp

/-!
# Records read back

The text of a record is an object with two strings for members, from which the record is read
again, whatever characters the strings hold.
-/

namespace SwarmUpkeep

namespace Json

/-- The object that is written with two strings for members. -/
theorem Document.parse?_pair (first second s t : String) :
    Document.parse? (String.ofList ('{' :: (quoted first ++ ':' :: (quoted s ++
        ',' :: (quoted second ++ ':' :: (quoted t ++ ['}'])))))) =
      some (.object [(some first, .string (some s)), (some second, .string (some t))]) := by
  have htokens : tokensFrom .between ('{' :: (quoted first ++ ':' :: (quoted s ++
      ',' :: (quoted second ++ ':' :: (quoted t ++ ['}']))))) =
      some [.openObject, .string (some first), .colon, .string (some s), .comma,
        .string (some second), .colon, .string (some t), .closeObject] := by
    rw [tokensFrom_punctuation rfl, tokensFrom_quoted, tokensFrom_punctuation rfl,
      tokensFrom_quoted, tokensFrom_punctuation rfl, tokensFrom_quoted,
      tokensFrom_punctuation rfl, tokensFrom_quoted]
    rfl
  unfold Document.parse? tokens
  rw [String.toList_ofList, htokens]
  rfl

end Json

open Json.Document

/-- A timestamp in a document that was written for an instant. -/
theorem Json.Document.timestamp?_zulu {t : Instant} (h : t.IsTold) :
    timestamp? (.string (some (Timestamp.zulu t))) = some t := by
  simp only [timestamp?, text?, Option.bind_some, Timestamp.readLenient_zulu h, Except.toOption]

/-- A signal is read back from its text. -/
theorem RejoinSignal.parse?_text {signal : RejoinSignal} (h : signal.enqueuedAt.IsTold) :
    parse? signal.text = some signal := by
  have htext : signal.text = String.ofList ('{' :: (Json.quoted "node_id" ++
      ':' :: (Json.quoted signal.nodeId ++ ',' :: (Json.quoted "enqueued_at" ++
        ':' :: (Json.quoted (Timestamp.zulu signal.enqueuedAt) ++ ['}']))))) := by
    have hopen : "\x7b\"node_id\":".toList = '{' :: (Json.quoted "node_id" ++ [':']) := by
      decide +kernel
    have hcomma : ",\"enqueued_at\":".toList = ',' :: (Json.quoted "enqueued_at" ++ [':']) := by
      decide +kernel
    unfold text
    -- The text of the time stays closed: it is of no matter here what it is.
    generalize Timestamp.zulu signal.enqueuedAt = time
    simp only [hopen, hcomma, List.append_assoc, List.cons_append, List.nil_append]
  have hfields (first second : Json.Document) : fields? ["node_id", "enqueued_at"]
      (.object [(some "node_id", first), (some "enqueued_at", second)]) =
      some [some first, some second] := by
    simp [fields?]
  unfold parse?
  rw [htext, Json.Document.parse?_pair]
  simp only [bind, Option.bind_some, ofDocument?, hfields, required, text?,
    timestamp?_zulu h]
  rfl

end SwarmUpkeep
