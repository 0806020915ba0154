import SwarmUpkeep.Proofs.Program.Upholds

/-!
# Attempts under rules

The laws by which an attempt is judged part by part. Where a sequence fails, its remainder asks
nothing, so that only the postcondition for errors is left to show.
-/

namespace SwarmUpkeep.Attempt

variable {I : Interface} {ε ε' α β σ : Type} {rules : Rules I σ}
variable {ok ok' : α → σ → Prop} {err err' : ε → σ → Prop} {s : σ}

/-- The postcondition of a result, by whether it is a value or an error. -/
def outcomeIs (ok : α → σ → Prop) (err : ε → σ → Prop) : Except ε α → σ → Prop
  | .ok a => ok a
  | .error e => err e

/-- The attempt asks only what is allowed and ends as one of the two postconditions says. -/
def Upholds (rules : Rules I σ) (ok : α → σ → Prop) (err : ε → σ → Prop) (x : Attempt I ε α)
    (s : σ) : Prop :=
  Program.Upholds rules (outcomeIs ok err) x s

theorem upholds_ofExcept {r : Except ε α} :
    (ofExcept r : Attempt I ε α).Upholds rules ok err s ↔ outcomeIs ok err r s :=
  Iff.rfl

theorem upholds_bind {ok : β → σ → Prop} {x : Attempt I ε α} {f : α → Attempt I ε β} :
    (x >>= f).Upholds rules ok err s ↔
      x.Upholds rules (fun a s' => (f a).Upholds rules ok err s') err s := by
  -- The remainder of a failed attempt is done, and its postcondition is the one for errors.
  refine Program.upholds_bind.trans (iff_of_eq ?_)
  congr 1
  funext r s'
  cases r <;> rfl

theorem upholds_mapError {err : ε' → σ → Prop} {f : ε → ε'} {x : Attempt I ε α} :
    (x.mapError f).Upholds rules ok err s ↔ x.Upholds rules ok (fun e => err (f e)) s := by
  refine Program.upholds_bind.trans (iff_of_eq ?_)
  congr 1
  funext r s'
  cases r <;> rfl

theorem upholds_outcome {ok : Except ε α → σ → Prop} {err : ε' → σ → Prop} {x : Attempt I ε α} :
    (x.outcome : Attempt I ε' (Except ε α)).Upholds rules ok err s ↔
      x.Upholds rules (fun a => ok (.ok a)) (fun e => ok (.error e)) s := by
  refine Program.upholds_bind.trans (iff_of_eq ?_)
  congr 1
  funext r s'
  cases r <;> rfl

theorem upholds_lift {p : Program I α} :
    (liftM p : Attempt I ε α).Upholds rules ok err s ↔ p.Upholds rules ok s :=
  Program.upholds_bind

theorem upholds_discard {ok : Unit → σ → Prop} {x : Attempt I ε α} :
    (discard x : Attempt I ε Unit).Upholds rules ok err s ↔
      x.Upholds rules (fun _ => ok ()) err s :=
  upholds_bind

theorem Upholds.mono {x : Attempt I ε α} (h : x.Upholds rules ok err s)
    (hok : ∀ a s', ok a s' → ok' a s') (herr : ∀ e s', err e s' → err' e s') :
    x.Upholds rules ok' err' s :=
  Program.Upholds.mono h fun r => by
    cases r with
    | ok a => exact hok a
    | error e => exact herr e

theorem Upholds.monoError {x : Attempt I ε α} (h : x.Upholds rules ok err s)
    (herr : ∀ e s', err e s' → err' e s') : x.Upholds rules ok err' s :=
  h.mono (fun _ _ ha => ha) herr

theorem Upholds.and {x : Attempt I ε α} (h : x.Upholds rules ok err s)
    (h' : x.Upholds rules ok' err' s) :
    x.Upholds rules (fun a s => ok a s ∧ ok' a s) (fun e s => err e s ∧ err' e s) s :=
  (Program.Upholds.and h h').mono fun r s hs => by cases r <;> exact hs

/-- A sequence is judged by its first part and, from where that has a value, by its second. -/
theorem Upholds.bind {ok : β → σ → Prop} {m : α → σ → Prop} {x : Attempt I ε α}
    {f : α → Attempt I ε β} (h : x.Upholds rules m err s)
    (hf : ∀ a s', m a s' → (f a).Upholds rules ok err s') :
    (x >>= f).Upholds rules ok err s :=
  upholds_bind.mpr (h.mono hf fun _ _ he => he)

theorem Upholds.mapError {err : ε' → σ → Prop} {f : ε → ε'} {x : Attempt I ε α}
    (h : x.Upholds rules ok (fun e => err (f e)) s) : (x.mapError f).Upholds rules ok err s :=
  upholds_mapError.mpr h

/-- A postcondition that does not look at the error is the same for an error of another name. -/
theorem Upholds.renamed {left : σ → Prop} {f : ε → ε'} {x : Attempt I ε α}
    (h : x.Upholds rules ok (fun _ => left) s) :
    (x.mapError f).Upholds rules ok (fun _ => left) s :=
  upholds_mapError.mpr h

/-- A walk through a list is judged by what holds of the items that have been dealt with. -/
theorem Upholds.each_along {f : α → Attempt I ε Unit} {as : List α} (inv : List α → σ → Prop)
    (hf : ∀ past a rest s, as = past ++ a :: rest → inv past s →
      (f a).Upholds rules (fun _ => inv (past ++ [a])) err s)
    (hs : inv [] s) : (each f as).Upholds rules (fun _ => inv as) err s := by
  have hfrom : ∀ rest past s, as = past ++ rest → inv past s →
      (each f rest).Upholds rules (fun _ => inv as) err s := by
    intro rest
    induction rest with
    | nil =>
        intro past s has hs
        have hall : inv as s := by
          rw [has, List.append_nil]
          exact hs
        exact hall
    | cons a rest ih =>
        intro past s has hs
        refine (hf past a rest s has hs).bind fun _ s' hs' => ?_
        exact ih (past ++ [a]) s' (by rw [has, List.append_cons]) hs'
  exact hfrom as [] s rfl hs

theorem Upholds.each {f : α → Attempt I ε Unit} {inv : σ → Prop} {as : List α}
    (hf : ∀ a ∈ as, ∀ s, inv s → (f a).Upholds rules (fun _ => inv) err s) (hs : inv s) :
    (each f as).Upholds rules (fun _ => inv) err s := by
  induction as generalizing s with
  | nil => exact hs
  | cons a rest ih =>
      obtain ⟨ha, hrest⟩ := List.forall_mem_cons.mp hf
      exact (ha s hs).bind fun _ s' hs' => ih hrest hs'

/-- A collection is judged by what holds of the items that have been dealt with and of their
results. -/
theorem Upholds.collect_along {f : α → Attempt I ε β} {as : List α}
    (inv : List α → List β → σ → Prop)
    (hf : ∀ past a rest bs s, as = past ++ a :: rest → inv past bs s →
      (f a).Upholds rules (fun b => inv (past ++ [a]) (bs ++ [b])) err s)
    (hs : inv [] [] s) : (collect f as).Upholds rules (inv as) err s := by
  have hfrom : ∀ rest past bs s, as = past ++ rest → inv past bs s →
      (collect f rest).Upholds rules (fun more => inv as (bs ++ more)) err s := by
    intro rest
    induction rest with
    | nil =>
        intro past bs s has hs
        have hall : inv as (bs ++ []) s := by
          rw [has, List.append_nil, List.append_nil]
          exact hs
        exact hall
    | cons a rest ih =>
        intro past bs s has hs
        refine (hf past a rest bs s has hs).bind fun b s' hb => ?_
        have hrest := ih (past ++ [a]) (bs ++ [b]) s' (by rw [has, List.append_cons]) hb
        refine hrest.bind fun more s'' hmore => ?_
        rw [← List.append_cons] at hmore
        exact hmore
  exact hfrom as [] [] s rfl hs

/-- Results that look as their items foretell do so in the order of the items. -/
theorem Upholds.collect_map {γ : Type} {f : α → Attempt I ε β} {inv : σ → Prop} {look : β → γ}
    {foretold : α → γ} {as : List α}
    (hf : ∀ a ∈ as, ∀ s, inv s →
      (f a).Upholds rules (fun b s' => look b = foretold a ∧ inv s') err s)
    (hs : inv s) :
    (collect f as).Upholds rules (fun bs s' => bs.map look = as.map foretold ∧ inv s') err s := by
  apply collect_along fun past bs s => bs.map look = past.map foretold ∧ inv s
  · intro past a rest bs s has hpast
    have hmem : a ∈ as := by simp [has]
    refine (hf a hmem s hpast.2).mono (fun b s' hb => ⟨?_, hb.2⟩) fun _ _ he => he
    rw [List.map_append, List.map_append, hpast.1, List.map_singleton, List.map_singleton, hb.1]
  · exact ⟨rfl, hs⟩

/-- What holds of each result as it comes holds of all of them in the end. -/
theorem Upholds.collect {f : α → Attempt I ε β} {inv : σ → Prop} {made : β → Prop} {as : List α}
    (hf : ∀ a ∈ as, ∀ s, inv s → (f a).Upholds rules (fun b s' => made b ∧ inv s') err s)
    (hs : inv s) :
    (collect f as).Upholds rules (fun bs s' => (∀ b ∈ bs, made b) ∧ inv s') err s := by
  apply collect_along fun _ bs s => (∀ b ∈ bs, made b) ∧ inv s
  · intro past a rest bs s has hbs
    have hmem : a ∈ as := by simp [has]
    refine (hf a hmem s hbs.2).mono (fun b s' hb => ⟨?_, hb.2⟩) fun _ _ he => he
    intro other hother
    rcases List.mem_append.mp hother with hpast | hlast
    · exact hbs.1 other hpast
    · rw [List.mem_singleton.mp hlast]
      exact hb.1
  · exact ⟨fun b hb => absurd hb List.not_mem_nil, hs⟩

/-! ## Questions alone -/

/-- Whatever is answered, the attempt asks nothing but what is allowed. -/
def Asks (allowed : I.Call → Prop) (x : Attempt I ε α) : Prop :=
  Program.Asks allowed x

variable {allowed allowed' : I.Call → Prop}

theorem asks_iff {x : Attempt I ε α} :
    x.Asks allowed ↔ x.Upholds (.only allowed) (fun _ _ => True) (fun _ _ => True) () := by
  refine iff_of_eq ?_
  unfold Asks Program.Asks Upholds
  congr 1
  funext r _
  cases r <;> rfl

theorem asks_pure (a : α) : (pure a : Attempt I ε α).Asks allowed :=
  trivial

theorem asks_fail (e : ε) : (fail e : Attempt I ε α).Asks allowed :=
  trivial

theorem asks_ofExcept (r : Except ε α) : (ofExcept r : Attempt I ε α).Asks allowed :=
  trivial

theorem Asks.bind {x : Attempt I ε α} {f : α → Attempt I ε β} (h : x.Asks allowed)
    (hf : ∀ a, (f a).Asks allowed) : (x >>= f).Asks allowed :=
  Program.Asks.bind h fun r => by
    cases r with
    | ok a => exact hf a
    | error e => trivial

theorem Asks.mapError {f : ε → ε'} {x : Attempt I ε α} (h : x.Asks allowed) :
    (x.mapError f).Asks allowed :=
  Program.Asks.bind h fun r => by cases r <;> trivial

theorem Asks.outcome {x : Attempt I ε α} (h : x.Asks allowed) :
    (x.outcome : Attempt I ε' (Except ε α)).Asks allowed :=
  Program.Asks.bind h fun _ => trivial

theorem Asks.lift {p : Program I α} (h : p.Asks allowed) :
    (liftM p : Attempt I ε α).Asks allowed :=
  Program.Asks.bind h fun _ => trivial

theorem Asks.discard {x : Attempt I ε α} (h : x.Asks allowed) :
    (discard x : Attempt I ε Unit).Asks allowed :=
  h.bind fun _ => asks_pure ()

theorem Asks.each {f : α → Attempt I ε Unit} {as : List α} (hf : ∀ a ∈ as, (f a).Asks allowed) :
    (each f as).Asks allowed := by
  induction as with
  | nil => exact asks_pure ()
  | cons a rest ih =>
      obtain ⟨ha, hrest⟩ := List.forall_mem_cons.mp hf
      exact ha.bind fun _ => ih hrest

theorem Asks.collect {f : α → Attempt I ε β} {as : List α} (hf : ∀ a ∈ as, (f a).Asks allowed) :
    (collect f as).Asks allowed := by
  induction as with
  | nil => exact asks_pure []
  | cons a rest ih =>
      obtain ⟨ha, hrest⟩ := List.forall_mem_cons.mp hf
      exact ha.bind fun _ => (ih hrest).bind fun _ => asks_pure _

theorem Asks.mono {x : Attempt I ε α} (h : x.Asks allowed)
    (himp : ∀ c, allowed c → allowed' c) : x.Asks allowed' :=
  Program.Asks.mono h himp

/-- What every question that the attempt may ask keeps is kept by the attempt. -/
theorem Asks.keeps {inv : σ → Prop} {x : Attempt I ε α} (h : x.Asks allowed)
    (hkeeps : ∀ c, allowed c → rules.Keeps inv c) (hs : inv s) :
    x.Upholds rules (fun _ => inv) (fun _ => inv) s :=
  (Program.Asks.keeps h hkeeps hs).mono fun r s' hs' => by cases r <;> exact hs'

/-! ## Runs -/

theorem bind_assoc {γ : Type} (x : Attempt I ε α) (f : α → Attempt I ε β) (g : β → Attempt I ε γ) :
    (x.bind f).bind g = x.bind fun a => (f a).bind g := by
  refine (Program.bind_assoc x _ _).trans ?_
  refine congrArg (Program.bind x) ?_
  funext result
  cases result <;> rfl

theorem run_bind (respond : σ → (c : I.Call) → I.Answer c × σ) (x : Attempt I ε α)
    (f : α → Attempt I ε β) (s : σ) :
    Program.run (I := I) respond (Attempt.bind x f) s =
      match (Program.run respond x s).1 with
      | .ok a => Program.run respond (f a) (Program.run respond x s).2
      | .error e => (.error e, (Program.run respond x s).2) := by
  refine (Program.run_bind respond x _ s).trans ?_
  cases (Program.run respond x s).1 <;> rfl

theorem run_mapError (respond : σ → (c : I.Call) → I.Answer c × σ) (f : ε → ε')
    (x : Attempt I ε α) (s : σ) :
    Program.run respond (x.mapError f) s =
      ((Program.run respond x s).1.mapError f, (Program.run respond x s).2) := by
  refine (Program.run_bind respond x _ s).trans ?_
  cases (Program.run respond x s).1 <;> rfl

end SwarmUpkeep.Attempt
