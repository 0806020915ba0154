import Mathlib.Data.List.Basic
import SwarmUpkeep.Proofs.Program.Upholds

/-!
# Transcripts

A transcript holds the questions of a run with their answers, and nothing of the surroundings that
gave them. What a program may ask after a given transcript is a rule like any other: its states are
accounts of what has been asked and answered. Since such rules leave every answer free, what is
upheld under them holds of every run, whoever answers.
-/

namespace SwarmUpkeep

variable {I : Interface} {σ τ α : Type}

/-- A question with its answer. -/
structure Exchange (I : Interface) where
  call : I.Call
  answer : I.Answer call

/-- Rules by which an account of what has been said decides what may be asked. -/
def Rules.accounted (next : τ → Exchange I → τ) (permits : τ → I.Call → Prop) : Rules I τ where
  allows := permits
  moves t c answer t' := t' = next t ⟨c, answer⟩

/-- Rules by which the transcript itself decides what may be asked. -/
abbrev Rules.recorded (permits : List (Exchange I) → I.Call → Prop) :
    Rules I (List (Exchange I)) :=
  .accounted (fun past e => past ++ [e]) permits

/-- Each question of a record is permitted after what has been said before it. -/
def InOrder (permits : List (Exchange I) → I.Call → Prop) (record : List (Exchange I)) : Prop :=
  ∀ past e rest, record = past ++ e :: rest → permits past e.call

namespace InOrder

variable {permits : List (Exchange I) → I.Call → Prop} {record : List (Exchange I)} {e : Exchange I}

theorem nil : InOrder permits [] := by
  intro past e rest h
  simp at h

/-- A record is in order up to its last question, and that one is permitted after it. -/
theorem concat_iff :
    InOrder permits (record ++ [e]) ↔ InOrder permits record ∧ permits record e.call := by
  constructor
  · intro h
    refine ⟨?_, h record e [] rfl⟩
    rintro past other rest rfl
    exact h past other (rest ++ [e]) (by simp)
  · rintro ⟨h, hlast⟩ past other rest hrecord
    rcases List.eq_nil_or_concat' rest with rfl | ⟨rest, last, rfl⟩
    · obtain ⟨rfl, hsame⟩ := List.append_inj' hrecord rfl
      rw [← List.singleton_inj.mp hsame]
      exact hlast
    · rw [← List.cons_append, ← List.append_assoc] at hrecord
      exact h past other rest (List.append_inj_left' hrecord rfl)

end InOrder

namespace Program

/-- From a program to what is left of it once its first questions have been answered so. -/
inductive Leads : Program I α → List (Exchange I) → Program I α → Prop where
  | here (p : Program I α) : Leads p [] p
  | ask {c : I.Call} {next : I.Answer c → Program I α} {answer : I.Answer c}
      {record : List (Exchange I)} {left : Program I α} (h : Leads (next answer) record left) :
      Leads (.ask c next) (⟨c, answer⟩ :: record) left

/-- The questions of a run with their answers. -/
def transcript (respond : σ → (c : I.Call) → I.Answer c × σ) :
    Program I α → σ → List (Exchange I)
  | .done _, _ => []
  | .ask c next, s =>
      ⟨c, (respond s c).1⟩ :: (next (respond s c).1).transcript respond (respond s c).2

/-- What is said at each of some visits. -/
def exchanges (respond : σ → (c : I.Call) → I.Answer c × σ) (visits : List (σ × I.Call)) :
    List (Exchange I) :=
  visits.map fun v => ⟨v.2, (respond v.1 v.2).1⟩

theorem transcript_eq_exchanges (respond : σ → (c : I.Call) → I.Answer c × σ) (p : Program I α)
    (s : σ) : p.transcript respond s = exchanges respond (p.visits respond s) := by
  induction p generalizing s with
  | done a => rfl
  | ask c next ih => exact congrArg (_ :: ·) (ih _ _)

/-- Each question of a run in order is permitted after what has been said at the visits before. -/
theorem permitted_of_inOrder {respond : σ → (c : I.Call) → I.Answer c × σ}
    {permits : List (Exchange I) → I.Call → Prop} {p : Program I α} {s : σ}
    {before after : List (σ × I.Call)} {v : σ × I.Call}
    (h : InOrder permits (p.transcript respond s))
    (hvisits : p.visits respond s = before ++ v :: after) :
    permits (exchanges respond before) v.2 := by
  rw [transcript_eq_exchanges, hvisits, exchanges, List.map_append, List.map_cons] at h
  exact h _ _ _ rfl

theorem transcript_leads (respond : σ → (c : I.Call) → I.Answer c × σ) (p : Program I α) (s : σ) :
    p.Leads (p.transcript respond s) (.done (p.run respond s).1) := by
  induction p generalizing s with
  | done a => exact .here _
  | ask c next ih => exact .ask (ih _ _)

theorem transcript_bind {β : Type} (respond : σ → (c : I.Call) → I.Answer c × σ)
    (p : Program I α) (f : α → Program I β) (s : σ) :
    (p.bind f).transcript respond s =
      p.transcript respond s ++
        (f (p.run respond s).1).transcript respond (p.run respond s).2 := by
  simp only [transcript_eq_exchanges, visits_bind, exchanges, List.map_append]

variable {next : τ → Exchange I → τ} {permits : τ → I.Call → Prop} {post : α → τ → Prop}

/-- What is left of a program upholds the rules from the account of what has been said. -/
theorem Upholds.leads {p left : Program I α} {record : List (Exchange I)} {t : τ}
    (h : p.Upholds (.accounted next permits) post t) (hleads : p.Leads record left) :
    left.Upholds (.accounted next permits) post (record.foldl next t) := by
  induction hleads generalizing t with
  | here p => exact h
  | ask _ ih => exact ih (h.2 _ _ rfl)

theorem Leads.append {p left : Program I α} {past rest : List (Exchange I)}
    (h : p.Leads (past ++ rest) left) : ∃ middle, p.Leads past middle ∧ middle.Leads rest left := by
  induction past generalizing p with
  | nil => exact ⟨p, .here p, h⟩
  | cons e past ih =>
      cases h with
      | ask h =>
          obtain ⟨middle, hpast, hrest⟩ := ih h
          exact ⟨middle, .ask hpast, hrest⟩

theorem Leads.trans {p middle left : Program I α} {past rest : List (Exchange I)}
    (h : p.Leads past middle) (h' : middle.Leads rest left) : p.Leads (past ++ rest) left := by
  induction h with
  | here p => exact h'
  | ask _ ih => exact .ask (ih h')

variable {β : Type}

/-- What is left of the first part of a sequence is followed by the second. -/
theorem Leads.bind {p left : Program I α} {record : List (Exchange I)} (h : p.Leads record left)
    (f : α → Program I β) : (p.bind f).Leads record (left.bind f) := by
  induction h with
  | here p => exact .here _
  | ask _ ih => exact .ask ih

/-- Where the first part of a sequence has come to a part of its own, so has the sequence. -/
theorem Leads.bind_bind {γ : Type} {p : Program I α} {q : Program I γ} {k : γ → Program I α}
    {record : List (Exchange I)} (h : p.Leads record (q.bind k)) (f : α → Program I β) :
    (p.bind f).Leads record (q.bind fun c => (k c).bind f) := by
  rw [← bind_assoc]
  exact h.bind f

/-- A program comes to itself at once. -/
theorem Leads.bind_done (p : Program I α) : p.Leads [] (p.bind .done) := by
  rw [Program.bind_done]
  exact .here p

/-- A sequence has come to its end by way of the end of its first part. -/
theorem Leads.through {p : Program I α} {f : α → Program I β} {record : List (Exchange I)} {b : β}
    (h : (p.bind f).Leads record (.done b)) :
    ∃ a past rest, record = past ++ rest ∧ p.Leads past (.done a) ∧
      (f a).Leads rest (.done b) := by
  induction p generalizing record with
  | done a => exact ⟨a, [], record, rfl, .here _, h⟩
  | ask c next ih =>
      cases h with
      | ask h =>
          obtain ⟨a, past, rest, rfl, hpast, hrest⟩ := ih _ h
          exact ⟨a, _ :: past, rest, rfl, .ask hpast, hrest⟩

/-- What is done asks nothing more. -/
theorem Leads.of_done {a : α} {left : Program I α} {record : List (Exchange I)}
    (h : (Program.done a).Leads record left) : record = [] ∧ left = .done a := by
  cases h
  exact ⟨rfl, rfl⟩

/-- A single question is all that is said where it has been answered. -/
theorem leads_perform {c : I.Call} {record : List (Exchange I)} {answer : I.Answer c}
    (h : (perform c).Leads record (.done answer)) : record = [⟨c, answer⟩] := by
  cases h with
  | ask h =>
      cases h
      rfl

/-- All that is said in a program is something that it may ask. -/
theorem Asks.leads {allowed : I.Call → Prop} {p left : Program I α} {record : List (Exchange I)}
    (h : p.Asks allowed) (hleads : p.Leads record left) : ∀ e ∈ record, allowed e.call := by
  induction hleads with
  | here p => exact List.forall_mem_nil _
  | ask _ ih => exact List.forall_mem_cons.mpr ⟨h.1, ih (h.2 _ () trivial)⟩

/-- Every question of a transcript is permitted by the account of what comes before it. -/
theorem Upholds.permitted {p left : Program I α} {past rest : List (Exchange I)} {e : Exchange I}
    {t : τ} (h : p.Upholds (.accounted next permits) post t)
    (hleads : p.Leads (past ++ e :: rest) left) : permits (past.foldl next t) e.call := by
  obtain ⟨middle, hpast, hrest⟩ := hleads.append
  cases hrest with
  | ask _ => exact (h.leads hpast).1

/-- A whole run ends as the postcondition says, from the account of its transcript. -/
theorem Upholds.transcript {p : Program I α} {t : τ}
    (h : p.Upholds (.accounted next permits) post t)
    (respond : σ → (c : I.Call) → I.Answer c × σ) (s : σ) :
    post (p.run respond s).1 ((p.transcript respond s).foldl next t) :=
  h.leads (transcript_leads respond p s)

/-- Every run of a program that upholds such rules is in order by the account of it. -/
theorem Upholds.inOrder_accounted {p : Program I α} {t : τ}
    (h : p.Upholds (.accounted next permits) post t)
    (respond : σ → (c : I.Call) → I.Answer c × σ) (s : σ) :
    InOrder (fun past => permits (past.foldl next t)) (p.transcript respond s) := by
  intro past e rest hrecord
  have hleads := p.transcript_leads respond s
  rw [hrecord] at hleads
  exact h.permitted hleads

/-- A record adds up to itself. -/
theorem foldl_recorded (record : List (Exchange I)) :
    record.foldl (fun past e => past ++ [e]) [] = record := by
  rw [List.foldl_append_eq_append, ← List.flatMap_def, List.flatMap_singleton', List.nil_append]

/-- Every run of a program that upholds rules on transcripts is in order by them. -/
theorem Upholds.inOrder {permits : List (Exchange I) → I.Call → Prop}
    {post : α → List (Exchange I) → Prop} {p : Program I α}
    (h : p.Upholds (.recorded permits) post []) (respond : σ → (c : I.Call) → I.Answer c × σ)
    (s : σ) : InOrder permits (p.transcript respond s) := by
  intro past e rest hrecord
  have hleads := p.transcript_leads respond s
  rw [hrecord] at hleads
  have hpermitted := h.permitted hleads
  rw [foldl_recorded] at hpermitted
  exact hpermitted

/-- A program that upholds rules on transcripts ends as the postcondition says of what has been
said. -/
theorem Upholds.recorded {permits : List (Exchange I) → I.Call → Prop}
    {post : α → List (Exchange I) → Prop} {p : Program I α} {record : List (Exchange I)} {a : α}
    (h : p.Upholds (.recorded permits) post []) (hleads : p.Leads record (.done a)) :
    post a record := by
  have hpost := h.leads hleads
  rw [foldl_recorded] at hpost
  exact hpost

/-- By the account of what has been told from a start on, all that has been asked since then was
permitted, and this question is. -/
def PermittedSince (next : τ → Exchange I → τ) (permits : τ → I.Call → Prop) (t : τ)
    (start told : List (Exchange I)) (c : I.Call) : Prop :=
  ∃ since, told = start ++ since ∧ InOrder (fun since => permits (since.foldl next t)) since ∧
    permits (since.foldl next t) c

theorem Upholds.since {p : Program I α} {t : τ} {start since : List (Exchange I)}
    (h : p.Upholds (.accounted next permits) post (since.foldl next t))
    (hsince : InOrder (fun since => permits (since.foldl next t)) since) :
    p.Upholds (.recorded (PermittedSince next permits t start)) (fun _ _ => True)
      (start ++ since) := by
  induction p generalizing since with
  | done a => trivial
  | ask c rest ih =>
      obtain ⟨hallows, hrest⟩ := h
      refine ⟨⟨since, rfl, hsince, hallows⟩, ?_⟩
      rintro answer _ rfl
      dsimp only
      rw [List.append_assoc]
      apply ih answer
      · rw [List.foldl_append]
        exact hrest answer _ rfl
      · exact InOrder.concat_iff.mpr ⟨hsince, hallows⟩

end Program

/-! ## Attempts -/

namespace Attempt

variable {ε ε' β : Type}

/-- A sequence ends in its first part, with an error, or in its second. -/
theorem leads_bind {x : Attempt I ε α} {f : α → Attempt I ε β} {record : List (Exchange I)}
    {result : Except ε β} (h : Program.Leads (Attempt.bind x f) record (.done result)) :
    (∃ e, result = .error e ∧ Program.Leads x record (.done (.error e))) ∨
      ∃ a past rest, record = past ++ rest ∧ Program.Leads x past (.done (.ok a)) ∧
        Program.Leads (f a) rest (.done result) := by
  obtain ⟨first, past, rest, rfl, hpast, hrest⟩ := Program.Leads.through h
  cases first with
  | ok a => exact .inr ⟨a, past, rest, rfl, hpast, hrest⟩
  | error e =>
      obtain ⟨rfl, hdone⟩ := hrest.of_done
      cases hdone
      exact .inl ⟨e, rfl, by rwa [List.append_nil]⟩

theorem leads_mapError {f : ε → ε'} {x : Attempt I ε α} {record : List (Exchange I)}
    {result : Except ε' α} (h : Program.Leads (x.mapError f) record (.done result)) :
    ∃ r, result = r.mapError f ∧ Program.Leads x record (.done r) := by
  obtain ⟨r, past, rest, rfl, hpast, hrest⟩ := Program.Leads.through h
  obtain ⟨rfl, hdone⟩ : rest = [] ∧ (Program.done result : Program I (Except ε' α)) =
      .done (r.mapError f) := by
    cases r <;> exact hrest.of_done
  exact ⟨r, Program.done.inj hdone, by rwa [List.append_nil]⟩

theorem transcript_mapError (respond : σ → (c : I.Call) → I.Answer c × σ) (f : ε → ε')
    (x : Attempt I ε α) (s : σ) :
    Program.transcript respond (x.mapError f) s = Program.transcript respond x s := by
  refine (Program.transcript_bind respond x _ s).trans ?_
  cases (Program.run respond x s).1 <;> exact List.append_nil _

end Attempt

end SwarmUpkeep
