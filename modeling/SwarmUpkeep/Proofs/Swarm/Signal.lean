import SwarmUpkeep.Proofs.Swarm.Record
import SwarmUpkeep.Proofs.Time.Reading

/-!
# Signals that are passed on

A signal is written by one host and read by another, which takes more texts than are ever written:
members in any order and others beside them, an array of the fields, escapes, blanks, short fields
and other offsets. Whichever it takes, the signal that it reads is one that its own text names, and
so nothing is lost when it is passed on.
-/

namespace SwarmUpkeep

open Json.Document

theorem Json.Document.timestamp?_isTold {d : Json.Document} {t : Instant}
    (h : timestamp? d = some t) : t.IsTold := by
  obtain ⟨s, -, hread⟩ := Option.bind_eq_some_iff.mp h
  cases hlenient : Timestamp.readLenient s with
  | error e => simp [hlenient, Except.toOption] at hread
  | ok read =>
      simp only [hlenient, Except.toOption, Option.some.injEq] at hread
      exact hread ▸ Timestamp.readLenient_gives s read hlenient

namespace RejoinSignal

theorem isTold_of_ofDocument? {d : Json.Document} {signal : RejoinSignal}
    (h : ofDocument? d = some signal) : signal.enqueuedAt.IsTold := by
  obtain ⟨fields, -, h⟩ := Option.bind_eq_some_iff.mp h
  split at h
  next nodeId enqueuedAt =>
    obtain ⟨id, -, h⟩ := Option.bind_eq_some_iff.mp h
    obtain ⟨time, htime, h⟩ := Option.bind_eq_some_iff.mp h
    cases h
    obtain ⟨field, -, htime⟩ := Option.bind_eq_some_iff.mp htime
    exact timestamp?_isTold htime
  next => cases h

/-- Every signal is read back from its text, if its instant is one that a text names, as all are in
the years that have four digits. The signal that is read from any text at all is such a signal. So
what is written for it is read as the same signal, for which the same text is written again. -/
theorem signals_round_trip :
    (∀ signal : RejoinSignal, signal.enqueuedAt.IsTold → parse? signal.text = some signal) ∧
    ∀ (s : String) (signal : RejoinSignal), parse? s = some signal →
      signal.enqueuedAt.IsTold ∧ parse? signal.text = some signal ∧
        (parse? signal.text).map text = some signal.text := by
  refine ⟨fun signal htold => parse?_text htold, fun s signal hparse => ?_⟩
  obtain ⟨d, -, hd⟩ := Option.bind_eq_some_iff.mp hparse
  have htold : signal.enqueuedAt.IsTold := isTold_of_ofDocument? hd
  have hagain : parse? signal.text = some signal := parse?_text htold
  refine ⟨htold, hagain, ?_⟩
  rw [hagain, Option.map_some]

/-- A signal in the last second of the year 9999, which is a leap second. -/
def trialSignal : RejoinSignal :=
  ⟨"a \"quoted\" \\ \x00\n😀", ⟨253402300799, 1999999999⟩⟩

/-- A text that is never written: a member too many, the others in the other order, with blanks,
short fields, a leap second and an offset, and escapes in the name. -/
def foreignText : String :=
  "\x7b\"extra\":[\x7b\"node_id\":1\x7d], \"enqueued_at\":\" 2018-3-01 1:0:60.5 +0230\"," ++
    "\"node_id\":\"n\\u0000\\ud83d\\ude00\"\x7d"

theorem signals_round_trip_trial :
    (trialSignal.enqueuedAt.IsTold ∧ parse? trialSignal.text = some trialSignal) ∧
      parse? foreignText = some ⟨"n\x00😀", ⟨1519857059, 1500000000⟩⟩ ∧
      parse? (RejoinSignal.text ⟨"n\x00😀", ⟨1519857059, 1500000000⟩⟩) =
        some ⟨"n\x00😀", ⟨1519857059, 1500000000⟩⟩ := by
  have htold : trialSignal.enqueuedAt.IsTold := ⟨by decide +kernel, .inr (by decide +kernel)⟩
  have hforeign : parse? foreignText = some ⟨"n\x00😀", ⟨1519857059, 1500000000⟩⟩ := by
    decide +kernel
  obtain ⟨hwritten, hread⟩ := signals_round_trip
  exact ⟨⟨htold, hwritten trialSignal htold⟩, hforeign, (hread _ _ hforeign).2.1⟩

end RejoinSignal

end SwarmUpkeep
