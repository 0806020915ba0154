import SwarmUpkeep.Control.Retry

/-!
# Programs under rules

A program is judged against rules: which questions may be asked in a state, and how the
surroundings may answer them and move on. The state need not be that of the surroundings; it can
be any account of what has been asked and answered. A program upholds the rules if it asks only
what is allowed, whatever the rules let the surroundings do, and ends as a postcondition says.

An attempt has two postconditions, one for its value and one for its error.
-/

namespace SwarmUpkeep

/-- What may be asked in a state, and how a state may change with the answer. -/
structure Rules (I : Interface) (σ : Type) where
  allows : σ → I.Call → Prop
  moves : σ → (c : I.Call) → I.Answer c → σ → Prop

variable {I : Interface} {σ : Type}

/-- Rules that limit the questions and leave the answers free. -/
def Rules.only (allowed : I.Call → Prop) : Rules I Unit where
  allows _ := allowed
  moves _ _ _ _ := True

/-- A question may be asked wherever the invariant holds, and its answer leaves it true. -/
def Rules.Keeps (rules : Rules I σ) (inv : σ → Prop) (c : I.Call) :
    Prop :=
  ∀ s, inv s → rules.allows s c ∧ ∀ answer s', rules.moves s c answer s' → inv s'

/-- What keeps each of several invariants keeps that one of them holds. -/
theorem Rules.Keeps.exists {rules : Rules I σ} {ι : Type} {inv : ι → σ → Prop} {c : I.Call}
    (h : ∀ i, rules.Keeps (inv i) c) : rules.Keeps (fun s => ∃ i, inv i s) c := by
  rintro s ⟨i, hs⟩
  obtain ⟨hallows, hmoves⟩ := h i s hs
  exact ⟨hallows, fun answer s' hmove => ⟨i, hmoves answer s' hmove⟩⟩

/-- The same rules for states that carry along what has been asked and where. -/
def Rules.traced (rules : Rules I σ) :
    Rules I (σ × List (σ × I.Call)) where
  allows s := rules.allows s.1
  moves s c answer s' := rules.moves s.1 c answer s'.1 ∧ s'.2 = s.2 ++ [(s.1, c)]

namespace Program

variable {α β : Type} {rules : Rules I σ} {post post' : α → σ → Prop}

/-- From a state on, the program asks only what is allowed and ends as the postcondition says. -/
def Upholds (rules : Rules I σ) (post : α → σ → Prop) : Program I α → σ → Prop
  | .done a, s => post a s
  | .ask c next, s =>
      rules.allows s c ∧
        ∀ answer s', rules.moves s c answer s' → (next answer).Upholds rules post s'

theorem upholds_ask {c : I.Call} {next : I.Answer c → Program I α} {s : σ} :
    (Program.ask c next).Upholds rules post s ↔
      rules.allows s c ∧
        ∀ answer s', rules.moves s c answer s' → (next answer).Upholds rules post s' :=
  Iff.rfl

theorem upholds_bind {post : β → σ → Prop} {p : Program I α} {f : α → Program I β} {s : σ} :
    (p.bind f).Upholds rules post s ↔
      p.Upholds rules (fun a s' => (f a).Upholds rules post s') s := by
  induction p generalizing s with
  | done a => exact Iff.rfl
  | ask c next ih => simp only [ask_bind, upholds_ask, ih]

theorem Upholds.mono {p : Program I α} {s : σ} (h : p.Upholds rules post s)
    (hpost : ∀ a s', post a s' → post' a s') : p.Upholds rules post' s := by
  induction p generalizing s with
  | done a => exact hpost a s h
  | ask c next ih =>
      obtain ⟨hallows, hnext⟩ := h
      exact ⟨hallows, fun answer s' hmove => ih answer (hnext answer s' hmove)⟩

theorem Upholds.bind {post : β → σ → Prop} {m : α → σ → Prop} {p : Program I α}
    {f : α → Program I β} {s : σ} (h : p.Upholds rules m s)
    (hf : ∀ a s', m a s' → (f a).Upholds rules post s') :
    (p.bind f).Upholds rules post s :=
  upholds_bind.mpr (h.mono hf)

/-- Two postconditions under the same rules hold at once. -/
theorem Upholds.and {p : Program I α} {s : σ} (h : p.Upholds rules post s)
    (h' : p.Upholds rules post' s) : p.Upholds rules (fun a s => post a s ∧ post' a s) s := by
  induction p generalizing s with
  | done a => exact ⟨h, h'⟩
  | ask c next ih =>
      obtain ⟨hallows, hnext⟩ := h
      obtain ⟨_, hnext'⟩ := h'
      exact ⟨hallows, fun answer s' hmove =>
        ih answer (hnext answer s' hmove) (hnext' answer s' hmove)⟩

/-! ## Questions alone -/

/-- Whatever is answered, the program asks nothing but what is allowed. -/
def Asks (allowed : I.Call → Prop) (p : Program I α) : Prop :=
  p.Upholds (.only allowed) (fun _ _ => True) ()

variable {allowed allowed' : I.Call → Prop}

theorem asks_perform {c : I.Call} (h : allowed c) : (perform c).Asks allowed :=
  ⟨h, fun _ _ _ => trivial⟩

theorem Asks.bind {p : Program I α} {f : α → Program I β} (h : p.Asks allowed)
    (hf : ∀ a, (f a).Asks allowed) : (p.bind f).Asks allowed :=
  Upholds.bind h fun a _ _ => hf a

theorem Asks.mono {p : Program I α} (h : p.Asks allowed) (himp : ∀ c, allowed c → allowed' c) :
    p.Asks allowed' := by
  induction p with
  | done a => trivial
  | ask c next ih =>
      obtain ⟨hallowed, hnext⟩ := h
      exact ⟨himp c hallowed, fun answer _ _ => ih answer (hnext answer () trivial)⟩

/-- Questions are answered by programs that ask what is allowed to them. -/
theorem Asks.via {J : Interface} {allowed' : J.Call → Prop} {p : Program I α}
    {answer : (c : I.Call) → Program J (I.Answer c)} (h : p.Asks allowed)
    (hanswer : ∀ c, allowed c → (answer c).Asks allowed') : (p.via answer).Asks allowed' := by
  induction p with
  | done a => trivial
  | ask c next ih =>
      obtain ⟨hallowed, hnext⟩ := h
      exact (hanswer c hallowed).bind fun reply => ih reply (hnext reply () trivial)

theorem via_bind {J : Interface} (answer : (c : I.Call) → Program J (I.Answer c))
    (p : Program I α) (f : α → Program I β) :
    (p.bind f).via answer = (p.via answer).bind fun a => (f a).via answer := by
  induction p with
  | done a => rfl
  | ask c next ih =>
      simp only [ask_bind, via, bind_assoc]
      congr 1
      funext reply
      exact ih reply

/-- Questions whose answers need questions again are answered in two steps or in one. -/
theorem Asks.via_via {J K : Interface} {p : Program I α}
    {answer : (c : I.Call) → Program J (I.Answer c)} {deeper : (c : J.Call) → Program K (J.Answer c)}
    {whole : (c : I.Call) → Program K (I.Answer c)} (h : p.Asks allowed)
    (hwhole : ∀ c, allowed c → whole c = (answer c).via deeper) :
    p.via whole = (p.via answer).via deeper := by
  induction p with
  | done a => rfl
  | ask c next ih =>
      obtain ⟨hallowed, hnext⟩ := h
      simp only [Program.via, via_bind]
      rw [hwhole c hallowed]
      congr 1
      funext reply
      exact ih reply (hnext reply () trivial)

variable {inv : σ → Prop}

theorem perform_upholds_of_keeps {c : I.Call} {post : I.Answer c → σ → Prop} {s : σ}
    (h : rules.Keeps inv c) (hs : inv s)
    (hpost : ∀ answer s', rules.moves s c answer s' → inv s' → post answer s') :
    (perform c).Upholds rules post s :=
  ⟨(h s hs).1, fun answer s' hmove => hpost answer s' hmove ((h s hs).2 answer s' hmove)⟩

/-- What every question that the program may ask keeps is kept by the program. -/
theorem Asks.keeps {p : Program I α} {s : σ} (h : p.Asks allowed)
    (hkeeps : ∀ c, allowed c → rules.Keeps inv c) (hs : inv s) :
    p.Upholds rules (fun _ => inv) s := by
  induction p generalizing s with
  | done a => exact hs
  | ask c next ih =>
      obtain ⟨hallowed, hnext⟩ := h
      obtain ⟨hallows, hmoves⟩ := hkeeps c hallowed s hs
      refine ⟨hallows, ?_⟩
      intro answer s' hmove
      exact ih answer (hnext answer () trivial) (hmoves answer s' hmove)

/-! ## Runs -/

variable {respond : σ → (c : I.Call) → I.Answer c × σ}

/-- The questions of a run, each with the state in which it is asked. -/
def visits (respond : σ → (c : I.Call) → I.Answer c × σ) : Program I α → σ → List (σ × I.Call)
  | .done _, _ => []
  | .ask c next, s => (s, c) :: (next (respond s c).1).visits respond (respond s c).2

/-- A sequence asks what its first part asks and then what its second part asks from there. -/
theorem visits_bind (p : Program I α) (f : α → Program I β) (s : σ) :
    (p.bind f).visits respond s =
      p.visits respond s ++ (f (p.run respond s).1).visits respond (p.run respond s).2 := by
  induction p generalizing s with
  | done a => rfl
  | ask c next ih => exact congrArg ((s, c) :: ·) (ih _ _)

/-- What a responder does where a program comes to ask it something. -/
def Obeys (rules : Rules I σ) (respond : σ → (c : I.Call) → I.Answer c × σ)
    (visits : List (σ × I.Call)) : Prop :=
  ∀ v ∈ visits, rules.moves v.1 v.2 (respond v.1 v.2).1 (respond v.1 v.2).2

/-- A run under a responder that moves as the rules say ends as the postcondition says. -/
theorem Upholds.run {p : Program I α} {s : σ} (h : p.Upholds rules post s)
    (hobeys : Obeys rules respond (p.visits respond s)) :
    post (p.run respond s).1 (p.run respond s).2 := by
  induction p generalizing s with
  | done a => exact h
  | ask c next ih =>
      obtain ⟨hmove, hrest⟩ := List.forall_mem_cons.mp hobeys
      exact ih _ (h.2 _ _ hmove) hrest

/-- A run under a responder that moves as the rules say asks only what they allow. -/
theorem Upholds.allows {p : Program I α} {s : σ} (h : p.Upholds rules post s)
    (hobeys : Obeys rules respond (p.visits respond s)) :
    ∀ v ∈ p.visits respond s, rules.allows v.1 v.2 := by
  induction p generalizing s with
  | done a => exact fun v hv => absurd hv List.not_mem_nil
  | ask c next ih =>
      obtain ⟨hmove, hrest⟩ := List.forall_mem_cons.mp hobeys
      exact List.forall_mem_cons.mpr ⟨h.1, ih _ (h.2 _ _ hmove) hrest⟩

/-- What a program asks of any responder is what it may ask. -/
theorem Asks.visits {p : Program I α} (h : p.Asks allowed)
    (respond : σ → (c : I.Call) → I.Answer c × σ) (s : σ) :
    ∀ v ∈ p.visits respond s, allowed v.2 := by
  induction p generalizing s with
  | done a => exact fun v hv => absurd hv List.not_mem_nil
  | ask c next ih =>
      obtain ⟨hallowed, hnext⟩ := h
      exact List.forall_mem_cons.mpr ⟨hallowed, ih _ (hnext _ () trivial) _⟩

/-- A run under a responder that moves as the rules say ends as a postcondition says that looks
at its visits, too. -/
theorem Upholds.run_traced {post : α → σ × List (σ × I.Call) → Prop} {p : Program I α} {s : σ}
    {past : List (σ × I.Call)} (h : p.Upholds rules.traced post (s, past))
    (hobeys : Obeys rules respond (p.visits respond s)) :
    post (p.run respond s).1 ((p.run respond s).2, past ++ p.visits respond s) := by
  induction p generalizing s past with
  | done a =>
      simp only [visits, List.append_nil]
      exact h
  | ask c next ih =>
      obtain ⟨hmove, hrest⟩ := List.forall_mem_cons.mp hobeys
      have hnext := ih _ (h.2 _ (_, past ++ [(s, c)]) ⟨hmove, rfl⟩) hrest
      simp only [visits]
      rw [List.append_cons]
      exact hnext

/-! ## Responders behind programs -/

section

variable {J : Interface} {answer : (c : I.Call) → Program J (I.Answer c)}
variable {deeper : σ → (c : J.Call) → J.Answer c × σ}

/-- The responder that answers by programs of its own, which ask another responder. -/
def behind (answer : (c : I.Call) → Program J (I.Answer c))
    (deeper : σ → (c : J.Call) → J.Answer c × σ) (s : σ) (c : I.Call) : I.Answer c × σ :=
  (answer c).run deeper s

theorem run_via (p : Program I α) (s : σ) :
    (p.via answer).run deeper s = p.run (behind answer deeper) s := by
  induction p generalizing s with
  | done a => rfl
  | ask c next ih =>
      rw [via, run_bind, ih]
      rfl

theorem visits_via (p : Program I α) (s : σ) :
    (p.via answer).visits deeper s =
      (p.visits (behind answer deeper) s).flatMap fun v => (answer v.2).visits deeper v.1 := by
  induction p generalizing s with
  | done a => rfl
  | ask c next ih =>
      rw [via, visits_bind, ih]
      rfl

/-- A responder moves as the rules say if the programs by which it answers do so, each where it is
asked, and what they ask is answered by rules of its own. -/
theorem Obeys.via {deep : Rules J σ} {p : Program I α} {s : σ}
    (hserved : Obeys deep deeper ((p.via answer).visits deeper s))
    (hallowed : ∀ v ∈ p.visits (behind answer deeper) s, allowed v.2)
    (hanswer : ∀ s c, allowed c → (answer c).Upholds deep (rules.moves s c) s) :
    Obeys rules (behind answer deeper) (p.visits (behind answer deeper) s) := by
  intro v hv
  rw [visits_via] at hserved
  exact (hanswer v.1 v.2 (hallowed v hv)).run fun w hw =>
    hserved w (List.mem_flatMap.mpr ⟨v, hv, hw⟩)

end

end Program

end SwarmUpkeep
