import SwarmUpkeep.Proofs.Program.Attempts
import SwarmUpkeep.Proofs.Program.Transcript
import SwarmUpkeep.Upkeep.Operations

/-!
# The attempts of a wait

What a wait does can be told by the attempts that would be made one after another if none of them
ended it. Of these it makes those up to the first that does, or all that its policy allows; it ends
as that one says, and if none does, with the last failure in passing; and between two attempts,
never after the last, it pauses for the interval of its policy.
-/

namespace SwarmUpkeep

open Attempt Control

variable {ε α β σ : Type} [Retryable ε]

/-- One attempt of a wait: what is said in it, and what comes of it. -/
structure Poll (ε β : Type) where
  record : List (Exchange Surroundings)
  outcome : Except ε β

namespace Poll

/-- How an attempt ends a wait, if it does: with the value that is found in what it gives, or as a
failure for good. -/
def conclusion? (found : β → Option α) : Except ε β → Option (Except (RetryError ε) α)
  | .ok b => (found b).map .ok
  | .error e => if Retryable.isTransient e then none else some (.error (.failed e))

/-- The text of a failure in passing. -/
def complaint? : Except ε β → Option String
  | .error e => if Retryable.isTransient e then some (Retryable.message e) else none
  | .ok _ => none

/-- How many attempts are made, by what would come of all that are allowed: those up to the first
that ends the wait, and all if none does. -/
def made (found : β → Option α) (outcomes : List (Except ε β)) : Nat :=
  min (outcomes.findIdx (fun o => (conclusion? found o).isSome) + 1) outcomes.length

/-- What comes of a wait: what the first attempt that ends it says, and if none does, that all have
been made, with the last failure in passing. -/
def verdict (policy : RetryPolicy) (what : String) (found : β → Option α)
    (outcomes : List (Except ε β)) : Except (RetryError ε) α :=
  (outcomes.findSome? (conclusion? found)).getD
    (.error (.exhausted what policy.attempts (outcomes.filterMap complaint?).getLast?))

/-- A check that looks for a value in what an attempt gives. -/
def checking (found : β → Option α) (attempt : Control ε β) : Control ε (Option α) := do
  return found (← attempt)

/-- What is said between two attempts. -/
def pauses (policy : RetryPolicy) : List (Exchange Surroundings) :=
  if policy.interval = 0 then [] else [⟨.pause policy.interval, ()⟩]

variable (respond : σ → (c : Call) → c.Answer × σ) (policy : RetryPolicy)

/-- The state in which the next of the remaining attempts starts, after one made in a state and a
pause. -/
def resumed (attempt : Control ε β) (remaining : Nat) (s : σ) : σ :=
  (Program.run respond (pauseBefore policy remaining : Program Surroundings Unit)
    (Program.run respond attempt s).2).2

/-- So many attempts one after another, with a pause between two of them, whatever comes of them. -/
def series (attempt : Control ε β) : Nat → σ → List (Poll ε β)
  | 0, _ => []
  | n + 1, s =>
      ⟨Program.transcript respond attempt s, (Program.run respond attempt s).1⟩ ::
        series attempt n (resumed respond policy attempt n s)

variable {respond policy} {found : β → Option α} {attempt : Control ε β} {what : String}
variable {s : σ}

theorem made_cons_of_some {o : Except ε β} {outcomes : List (Except ε β)}
    (h : (conclusion? found o).isSome = true) : made found (o :: outcomes) = 1 := by
  simp [made, List.findIdx_cons, h]

theorem made_cons_of_none {o : Except ε β} {outcomes : List (Except ε β)}
    (h : (conclusion? found o).isSome = false) :
    made found (o :: outcomes) = made found outcomes + 1 := by
  simp [made, List.findIdx_cons, h, Nat.succ_min_succ]

theorem exists_made_cons (found : β → Option α) (o : Except ε β) (outcomes : List (Except ε β)) :
    ∃ k, made found (o :: outcomes) = k + 1 := by
  cases h : (conclusion? found o).isSome with
  | true => exact ⟨0, made_cons_of_some h⟩
  | false => exact ⟨_, made_cons_of_none h⟩

omit [Retryable ε] in
theorem length_series (n : Nat) (s : σ) : (series respond policy attempt n s).length = n := by
  induction n generalizing s with
  | zero => rfl
  | succ n ih => rw [series, List.length_cons, ih]

theorem transcript_pauseBefore (n : Nat) (s : σ) :
    Program.transcript respond (pauseBefore policy n : Program Surroundings Unit) s =
      if n = 0 then [] else pauses policy := by
  unfold pauseBefore pauses
  by_cases hn : n = 0
  · rw [if_pos (.inl hn), if_pos hn]
    rfl
  · rw [if_neg hn]
    by_cases hinterval : policy.interval = 0
    · rw [if_pos (.inr hinterval), if_pos hinterval]
      rfl
    · rw [if_neg (by simp [hn, hinterval]), if_neg hinterval]
      rfl

/-- What remains of a wait begins with an attempt, and goes on unless that ends it. -/
theorem pollFrom_succ (found : β → Option α) (attempt : Control ε β) (n : Nat)
    (last : Option String) :
    pollFrom policy what (checking found attempt) (n + 1) last =
      Program.bind (I := Surroundings) attempt fun outcome =>
        match conclusion? found outcome with
        | some result => .done result
        | none =>
            (pauseBefore policy n).bind fun _ =>
              pollFrom policy what (checking found attempt) n ((complaint? outcome).or last) := by
  refine (Program.bind_assoc attempt _ _).trans ?_
  congr 1
  funext outcome
  cases outcome with
  | ok b =>
      dsimp only [conclusion?]
      cases hfound : found b with
      | some a => rfl
      | none => rfl
  | error e =>
      dsimp only [conclusion?, complaint?]
      cases htransient : Retryable.isTransient e with
      | true => simp [htransient]
      | false => simp [htransient]

theorem run_pollFrom_succ (n : Nat) (last : Option String) (s : σ) :
    (Program.run respond (pollFrom policy what (checking found attempt) (n + 1) last) s).1 =
      (conclusion? found (Program.run respond attempt s).1).getD
        (Program.run respond (pollFrom policy what (checking found attempt) n
          ((complaint? (Program.run respond attempt s).1).or last))
          (resumed respond policy attempt n s)).1 := by
  refine (congrArg (fun p => (Program.run respond p s).1)
    (pollFrom_succ found attempt n last)).trans ?_
  refine (congrArg Prod.fst (Program.run_bind respond attempt _ s)).trans ?_
  cases conclusion? found (Program.run respond attempt s).1 with
  | some result => rfl
  | none =>
      exact congrArg Prod.fst
        (Program.run_bind (I := Surroundings) respond (pauseBefore policy n) _ _)

theorem transcript_pollFrom_succ (n : Nat) (last : Option String) (s : σ) :
    Program.transcript respond (pollFrom policy what (checking found attempt) (n + 1) last) s =
      Program.transcript respond attempt s ++
        if (conclusion? found (Program.run respond attempt s).1).isSome then []
        else (if n = 0 then [] else pauses policy) ++
          Program.transcript respond (pollFrom policy what (checking found attempt) n
            ((complaint? (Program.run respond attempt s).1).or last))
            (resumed respond policy attempt n s) := by
  refine (congrArg (fun p => Program.transcript respond p s)
    (pollFrom_succ found attempt n last)).trans ?_
  refine (Program.transcript_bind respond attempt _ s).trans ?_
  congr 1
  cases conclusion? found (Program.run respond attempt s).1 with
  | some result => rfl
  | none =>
      refine (Program.transcript_bind (I := Surroundings) respond (pauseBefore policy n)
        _ _).trans ?_
      rw [transcript_pauseBefore]
      rfl

theorem lastComplaint_cons (o : Except ε β) (outcomes : List (Except ε β))
    (last : Option String) :
    ((o :: outcomes).filterMap complaint?).getLast?.or last =
      (outcomes.filterMap complaint?).getLast?.or ((complaint? o).or last) := by
  rw [List.filterMap_cons]
  cases complaint? o with
  | none => rfl
  | some text =>
      dsimp only
      rw [List.getLast?_cons]
      cases (outcomes.filterMap complaint?).getLast? <;> rfl

/-- A wait ends as the first of its attempts that ends it says. -/
theorem run_pollFrom (n : Nat) (last : Option String) (s : σ) :
    (Program.run respond (pollFrom policy what (checking found attempt) n last) s).1 =
      let outcomes := (series respond policy attempt n s).map outcome
      (outcomes.findSome? (conclusion? found)).getD
        (.error (.exhausted what policy.attempts
          ((outcomes.filterMap complaint?).getLast?.or last))) := by
  induction n generalizing last s with
  | zero => rfl
  | succ n ih =>
      rw [run_pollFrom_succ, ih, series, List.map_cons]
      dsimp only
      rw [List.findSome?_cons, lastComplaint_cons]
      cases conclusion? found (Program.run respond attempt s).1 with
      | some result => rfl
      | none => rfl

/-- A wait says what is said in its attempts, up to the one that ends it, with a pause between two
of them. -/
theorem transcript_pollFrom (n : Nat) (last : Option String) (s : σ) :
    Program.transcript respond (pollFrom policy what (checking found attempt) n last) s =
      let made := (series respond policy attempt n s).take
        (made found ((series respond policy attempt n s).map outcome))
      List.intercalate (pauses policy) (made.map record) := by
  induction n generalizing last s with
  | zero => rfl
  | succ n ih =>
      rw [transcript_pollFrom_succ, ih, series, List.map_cons]
      dsimp only
      cases hconclusion : (conclusion? found (Program.run respond attempt s).1).isSome with
      | true =>
          rw [made_cons_of_some hconclusion]
          simp
      | false =>
          rw [made_cons_of_none hconclusion, List.take_succ_cons, List.map_cons, if_neg (by simp)]
          dsimp only
          -- Only an attempt that another one follows is followed by a pause.
          cases n with
          | zero => simp [series]
          | succ n =>
              obtain ⟨k, hk⟩ := exists_made_cons found
                (Program.run respond attempt (resumed respond policy attempt (n + 1) s)).1
                ((series respond policy attempt n (resumed respond policy attempt n
                  (resumed respond policy attempt (n + 1) s))).map outcome)
              rw [if_neg (Nat.succ_ne_zero n), series, List.map_cons, hk, List.take_succ_cons,
                List.map_cons, List.intercalate_cons_cons, List.append_assoc]

/-- How long what has been said has let time pass. -/
def asleep : List (Exchange Surroundings) → Nat
  | [] => 0
  | ⟨.pause ms, _⟩ :: rest => ms + asleep rest
  | _ :: rest => asleep rest

theorem asleep_append (record rest : List (Exchange Surroundings)) :
    asleep (record ++ rest) = asleep record + asleep rest := by
  fun_induction asleep record with
  | case1 => exact (Nat.zero_add _).symm
  | case2 ms answer record ih =>
      rw [List.cons_append, asleep, ih, Nat.add_assoc]
  | case3 e record hother ih =>
      rw [List.cons_append, asleep, ih]
      exact hother

theorem asleep_pauses (policy : RetryPolicy) : asleep (pauses policy) = policy.interval := by
  unfold pauses
  split
  next hinterval => exact hinterval.symm
  next => rfl

/-- Between so many records there is one pause less. -/
theorem asleep_intercalate (policy : RetryPolicy) (records : List (List (Exchange Surroundings))) :
    asleep (List.intercalate (pauses policy) records) =
      policy.interval * (records.length - 1) + asleep records.flatten := by
  induction records with
  | nil => rfl
  | cons record rest ih =>
      cases rest with
      | nil => simp
      | cons next rest =>
          have hflatten : asleep (record :: next :: rest).flatten =
              asleep record + asleep (next :: rest).flatten := asleep_append _ _
          rw [List.intercalate_cons_cons, asleep_append, asleep_append, ih, asleep_pauses, hflatten]
          simp only [List.length_cons, Nat.add_sub_cancel, Nat.mul_succ]
          omega

variable (respond policy) in
/-- The attempts that a wait makes: of all that would be made if none ended it, those up to the
first that does. -/
def ofWait (found : β → Option α) (attempt : Control ε β) (s : σ) : List (Poll ε β) :=
  (series respond policy attempt policy.attempts s).take
    (made found ((series respond policy attempt policy.attempts s).map outcome))

/-- What a wait does, told by the attempts that would be made if none ended it. -/
structure Exactly (respond : σ → (c : Call) → c.Answer × σ) (policy : RetryPolicy)
    (what : String) (found : β → Option α) (attempt : Control ε β) (s : σ)
    (wait : Control (RetryError ε) α) : Prop where
  count : (ofWait respond policy found attempt s).length =
    made found ((series respond policy attempt policy.attempts s).map outcome)
  result : (Program.run respond wait s).1 =
    verdict policy what found ((series respond policy attempt policy.attempts s).map outcome)
  transcript : Program.transcript respond wait s =
    List.intercalate (pauses policy) ((ofWait respond policy found attempt s).map record)
  slept : asleep (Program.transcript respond wait s) =
    policy.interval * ((ofWait respond policy found attempt s).length - 1) +
      asleep ((ofWait respond policy found attempt s).flatMap record)
  budget : ∀ budget ∈ policy.budget?,
    policy.interval * ((ofWait respond policy found attempt s).length - 1) ≤ budget

theorem length_ofWait :
    (ofWait respond policy found attempt s).length =
      made found ((series respond policy attempt policy.attempts s).map outcome) := by
  rw [ofWait, List.length_take, ← List.length_map outcome]
  exact Nat.min_eq_left (Nat.min_le_right _ _)

theorem length_ofWait_le : (ofWait respond policy found attempt s).length ≤ policy.attempts := by
  rw [ofWait, List.length_take, length_series]
  exact Nat.min_le_right _ _

theorem pollUntil_exactly (found : β → Option α) (attempt : Control ε β) (s : σ) :
    Exactly respond policy what found attempt s
      (pollUntil policy what (checking found attempt)) where
  count := length_ofWait
  result := by
    refine (run_pollFrom policy.attempts none s).trans ?_
    dsimp only
    rw [Option.or_none]
    rfl
  transcript := transcript_pollFrom policy.attempts none s
  slept := by
    refine (congrArg asleep (transcript_pollFrom policy.attempts none s)).trans ?_
    refine (asleep_intercalate policy _).trans ?_
    rw [List.length_map, ← List.flatMap_def]
    rfl
  budget := by
    intro budget hbudget
    have hproduct : policy.interval * (policy.attempts - 1) = budget := by
      simp only [RetryPolicy.budget?, Option.mem_def] at hbudget
      split at hbudget
      next => exact Option.some.inj hbudget
      next => cases hbudget
    rw [← hproduct]
    exact Nat.mul_le_mul_left _ (Nat.sub_le_sub_right length_ofWait_le 1)

/-- Of the attempts that are made, those before the last do not end the wait, and the last does
unless all have been made. -/
theorem made_ending (found : β → Option α) (outcomes : List (Except ε β)) :
    (∀ o ∈ (outcomes.take (made found outcomes)).dropLast, conclusion? found o = none) ∧
      (outcomes.take (made found outcomes)).getLast?.bind (conclusion? found) =
        outcomes.findSome? (conclusion? found) ∧
      (outcomes.findSome? (conclusion? found) = none →
        outcomes.take (made found outcomes) = outcomes) := by
  induction outcomes with
  | nil => simp
  | cons o outcomes ih =>
      cases hconclusion : conclusion? found o with
      | some result =>
          rw [made_cons_of_some (by rw [hconclusion]; rfl)]
          simp [hconclusion]
      | none =>
          rw [made_cons_of_none (by rw [hconclusion]; rfl), List.take_succ_cons,
            List.findSome?_cons_of_isNone (by rw [hconclusion]; rfl)]
          obtain ⟨hvain, hlast, hall⟩ := ih
          -- At least one of the rest is made, if there is one, so the last that is made is the same.
          cases outcomes with
          | nil => simp [hconclusion]
          | cons next rest =>
              obtain ⟨k, hk⟩ := exists_made_cons found next rest
              rw [hk, List.take_succ_cons] at hvain hlast hall ⊢
              refine ⟨?_, ?_, fun hnone => congrArg (o :: ·) (hall hnone)⟩
              · rw [List.dropLast_cons_cons]
                exact List.forall_mem_cons.mpr ⟨hconclusion, hvain⟩
              · rw [List.getLast?_cons_cons]
                exact hlast

omit [Retryable ε] in
/-- What holds of an attempt whoever answers holds of each attempt of a series. -/
theorem forall_series {holds : List (Exchange Surroundings) → Except ε β → Prop}
    (h : ∀ record outcome, Program.Leads attempt record (.done outcome) → holds record outcome)
    (n : Nat) (s : σ) : ∀ p ∈ series respond policy attempt n s, holds p.record p.outcome := by
  induction n generalizing s with
  | zero => exact List.forall_mem_nil _
  | succ n ih =>
      exact List.forall_mem_cons.mpr ⟨h _ _ (Program.transcript_leads respond attempt s), ih _⟩

/-- How a wait ends, told by the attempts that it has made. -/
structure Ends (policy : RetryPolicy) (what : String) (found : β → Option α)
    (polls : List (Poll ε β)) (result : Except (RetryError ε) α) : Prop where
  few : polls.length ≤ policy.attempts
  vain : ∀ p ∈ polls.dropLast, conclusion? found p.outcome = none
  spent : polls.getLast?.bind (conclusion? found ·.outcome) = none → polls.length = policy.attempts
  result : result = (polls.getLast?.bind (conclusion? found ·.outcome)).getD
    (.error (.exhausted what policy.attempts
      ((polls.map outcome).filterMap complaint?).getLast?))

theorem ofWait_ends (found : β → Option α) (attempt : Control ε β) (s : σ) :
    Ends policy what found (ofWait respond policy found attempt s)
      (Program.run respond (pollUntil policy what (checking found attempt)) s).1 := by
  have houtcomes : (ofWait respond policy found attempt s).map outcome =
      ((series respond policy attempt policy.attempts s).map outcome).take
        (made found ((series respond policy attempt policy.attempts s).map outcome)) :=
    List.map_take
  have hlast :
      (ofWait respond policy found attempt s).getLast?.bind (conclusion? found ·.outcome) =
        ((ofWait respond policy found attempt s).map outcome).getLast?.bind
          (conclusion? found) := by
    rw [List.getLast?_map, Option.bind_map]
    rfl
  obtain ⟨hvain, hfound, hall⟩ :=
    made_ending found ((series respond policy attempt policy.attempts s).map outcome)
  rw [← houtcomes] at hvain hfound hall
  refine ⟨length_ofWait_le, ?_, ?_, ?_⟩
  · intro p hp
    refine hvain p.outcome ?_
    rw [← List.map_dropLast]
    exact List.mem_map_of_mem hp
  · intro hnone
    rw [hlast, hfound] at hnone
    have hlength := congrArg List.length (hall hnone)
    rw [List.length_map, List.length_map, length_series] at hlength
    exact hlength
  · rw [(pollUntil_exactly found attempt s).result, hlast, hfound, verdict]
    cases hconclusion : (List.map outcome
        (series respond policy attempt policy.attempts s)).findSome? (conclusion? found) with
    | some result => rfl
    | none => rw [hall hconclusion]

omit [Retryable ε] in
theorem checking_id (check : Control ε (Option α)) : checking id check = check := by
  refine Eq.trans ?_ (Program.bind_done check)
  refine congrArg (Program.bind (I := Surroundings) check) ?_
  funext outcome
  cases outcome <;> rfl

/-- An answer that tells how an operation has ended, or that it cannot be told. -/
def isTelling : Except ServiceError OperationStatus → Bool
  | .ok status => status != .inProgress
  | .error e => !e.isTransient

theorem isSome_conclusion (o : Except ServiceError OperationStatus) :
    (conclusion? OperationStatus.final? o).isSome = isTelling o := by
  cases o with
  | ok status => cases status <;> rfl
  | error e =>
      have htransient : Retryable.isTransient e = e.isTransient := rfl
      dsimp only [conclusion?, isTelling]
      rw [htransient]
      cases e.isTransient <;> rfl

theorem findSome_conclusion (outcomes : List (Except ServiceError OperationStatus)) :
    outcomes.findSome? (conclusion? OperationStatus.final?) =
      (outcomes.find? isTelling).bind (conclusion? OperationStatus.final?) := by
  induction outcomes with
  | nil => rfl
  | cons o outcomes ih =>
      have htelling := isSome_conclusion o
      rw [List.findSome?_cons, List.find?_cons]
      cases hconclusion : conclusion? OperationStatus.final? o with
      | none =>
          rw [hconclusion] at htelling
          rw [← htelling]
          exact ih
      | some result =>
          rw [hconclusion] at htelling
          rw [← htelling]
          exact hconclusion.symm

theorem verdict_eq_ok (policy : RetryPolicy) (what : String)
    {outcomes : List (Except ServiceError OperationStatus)} {status : OperationStatus} :
    verdict policy what OperationStatus.final? outcomes = .ok status ↔
      outcomes.find? isTelling = some (.ok status) := by
  rw [verdict, findSome_conclusion]
  cases hfind : outcomes.find? isTelling with
  | none => simp
  | some o =>
      have htelling := List.find?_some hfind
      cases o with
      | ok answered =>
          cases answered with
          | inProgress => cases htelling
          | succeeded => simp [conclusion?, OperationStatus.final?]
          | failed reason => simp [conclusion?, OperationStatus.final?]
      | error e =>
          have htransient : Retryable.isTransient e = false := Bool.not_eq_true' _ |>.mp htelling
          simp [conclusion?, htransient]

theorem run_await_pending (url : String) (s : σ) :
    (Program.run respond ((Operation.pending url).await policy what) s).1 =
      match verdict policy what OperationStatus.final?
          ((series respond policy (operationStatus (.pending url)) policy.attempts s).map
            outcome) with
      | .ok (.failed reason) => .error (.failed what reason)
      | .ok _ => .ok ()
      | .error e => .error (.ofRetry e) := by
  rw [← (pollUntil_exactly OperationStatus.final? _ _).result]
  unfold Operation.await
  rw [if_neg (by simp)]
  have hchecked : (do
      let status ← operationStatus (.pending url)
      return status.final?) =
        checking OperationStatus.final? (operationStatus (.pending url)) := rfl
  rw [hchecked]
  refine (congrArg Prod.fst (Attempt.run_bind (I := Surroundings) respond _ _ s)).trans ?_
  rw [Attempt.run_mapError]
  cases (Program.run respond (pollUntil policy what
      (checking OperationStatus.final? (operationStatus (.pending url)))) s).1 with
  | error e => rfl
  | ok status => cases status <;> rfl

/-- A pending operation is awaited with success exactly if the first answer that tells how it has
ended says so. -/
theorem run_await_pending_ok {url : String} :
    (Program.run respond ((Operation.pending url).await policy what) s).1 = .ok () ↔
      ((series respond policy (operationStatus (.pending url)) policy.attempts s).map
        outcome).find? isTelling = some (.ok .succeeded) := by
  refine Iff.trans ?_ (verdict_eq_ok policy what)
  rw [run_await_pending]
  cases hverdict : verdict policy what OperationStatus.final?
      ((series respond policy (operationStatus (.pending url)) policy.attempts s).map outcome) with
  | error e => simp
  | ok status =>
      cases status with
      | inProgress =>
          have htelling := List.find?_some ((verdict_eq_ok policy what).mp hverdict)
          cases htelling
      | succeeded => simp
      | failed reason => simp

/-- Every wait, whether for a value or for something to be done, makes exactly the attempts that it
has to and no pause too many, and an operation that is pending has succeeded if the first answer
that tells how it has ended says so. -/
theorem waits_are_exact (respond : σ → (c : Call) → c.Answer × σ) (policy : RetryPolicy)
    (what : String) (s : σ) :
    (∀ check : Control ε (Option α),
      Exactly respond policy what id check s (pollUntil policy what check)) ∧
    (∀ action : Control ε α,
      Exactly respond policy what some action s (retryTransient policy what action)) ∧
    ∀ url, (Program.run respond ((Operation.pending url).await policy what) s).1 = .ok () ↔
      ((series respond policy (operationStatus (.pending url)) policy.attempts s).map
        outcome).find? isTelling = some (.ok .succeeded) := by
  refine ⟨fun check => ?_, fun action => pollUntil_exactly some action s,
    fun url => run_await_pending_ok⟩
  have hexactly : Exactly respond policy what id check s
      (pollUntil policy what (checking id check)) := pollUntil_exactly id check s
  rw [checking_id] at hexactly
  exact hexactly

end Poll
end SwarmUpkeep
