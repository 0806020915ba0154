/-!
# Programs over an interface

A program asks its surroundings one question after another and continues with each answer. What
can be asked, and what the answers look like, is an `Interface`; the program itself is a tree, so
that the same definition can be run against a simulated world, against any other responder, or one
question at a time between the questions of other programs.

An `Attempt` is a program whose result may be an error, sequenced so that an error ends it.
-/

namespace SwarmUpkeep

/-- What can be asked, and what the answer to each question looks like. -/
structure Interface where
  Call : Type
  Answer : Call → Type

/-- A tree of questions with a branch for every answer. -/
inductive Program (I : Interface) (α : Type) : Type where
  | done (value : α)
  | ask (call : I.Call) (next : I.Answer call → Program I α)

namespace Program

variable {I J : Interface} {α β γ σ : Type}

def bind : Program I α → (α → Program I β) → Program I β
  | .done a, f => f a
  | .ask c next, f => .ask c fun answer => (next answer).bind f

instance : Monad (Program I) where
  pure := .done
  bind := .bind

/-- Asks one question and gives its answer. -/
def perform (c : I.Call) : Program I (I.Answer c) :=
  .ask c .done

/-- Runs a program against a responder with a state. -/
def run (respond : σ → (c : I.Call) → I.Answer c × σ) : Program I α → σ → α × σ
  | .done a, s => (a, s)
  | .ask c next, s =>
      let (answer, s') := respond s c
      (next answer).run respond s'

/-- Answers each question by a program over another interface, with a state between them. -/
def interpret (answer : σ → (c : I.Call) → Program J (I.Answer c × σ)) :
    Program I α → σ → Program J (α × σ)
  | .done a, s => .done (a, s)
  | .ask c next, s =>
      (answer s c).bind fun (reply, s') => (next reply).interpret answer s'

/-- Answers each question by a program over another interface. -/
def via (answer : (c : I.Call) → Program J (I.Answer c)) : Program I α → Program J α
  | .done a => .done a
  | .ask c next => (answer c).bind fun reply => (next reply).via answer

@[simp]
theorem pure_eq (a : α) : (pure a : Program I α) = .done a :=
  rfl

@[simp]
theorem done_bind (a : α) (f : α → Program I β) : (Program.done a).bind f = f a :=
  rfl

@[simp]
theorem ask_bind (c : I.Call) (next : I.Answer c → Program I α) (f : α → Program I β) :
    (Program.ask c next).bind f = .ask c fun answer => (next answer).bind f :=
  rfl

theorem bind_eq (p : Program I α) (f : α → Program I β) : p >>= f = p.bind f :=
  rfl

@[simp]
theorem bind_done (p : Program I α) : p.bind .done = p := by
  induction p with
  | done a => rfl
  | ask c next ih => simp only [ask_bind]; congr 1; funext answer; exact ih answer

theorem bind_assoc (p : Program I α) (f : α → Program I β) (g : β → Program I γ) :
    (p.bind f).bind g = p.bind fun a => (f a).bind g := by
  induction p with
  | done a => rfl
  | ask c next ih => simp only [ask_bind]; congr 1; funext answer; exact ih answer

instance : LawfulMonad (Program I) :=
  LawfulMonad.mk' (Program I) (fun p => bind_done p) (fun _ _ => rfl)
    (fun p f g => bind_assoc p f g)

@[simp]
theorem run_done (respond : σ → (c : I.Call) → I.Answer c × σ) (a : α) (s : σ) :
    (Program.done a).run respond s = (a, s) :=
  rfl

@[simp]
theorem run_ask (respond : σ → (c : I.Call) → I.Answer c × σ) (c : I.Call)
    (next : I.Answer c → Program I α) (s : σ) :
    (Program.ask c next).run respond s =
      (next (respond s c).1).run respond (respond s c).2 :=
  rfl

/-- Running a sequence runs its first part and then, from there, its second. -/
theorem run_bind (respond : σ → (c : I.Call) → I.Answer c × σ) (p : Program I α)
    (f : α → Program I β) (s : σ) :
    (p.bind f).run respond s = (f (p.run respond s).1).run respond (p.run respond s).2 := by
  induction p generalizing s with
  | done a => rfl
  | ask c next ih => exact ih _ _

end Program

/-- A program that ends in a value or in an error. -/
def Attempt (I : Interface) (ε α : Type) : Type :=
  Program I (Except ε α)

namespace Attempt

variable {I : Interface} {ε ε' α β : Type}

/-- Continues with the value, or ends with the error. -/
def bind (x : Attempt I ε α) (f : α → Attempt I ε β) : Attempt I ε β :=
  Program.bind x fun
    | .ok a => f a
    | .error e => .done (.error e)

instance : Monad (Attempt I ε) where
  pure a := Program.done (.ok a)
  bind := Attempt.bind

/-- Ends with an error. -/
def fail (e : ε) : Attempt I ε α :=
  Program.done (.error e)

/-- A result that is known already. -/
def ofExcept (r : Except ε α) : Attempt I ε α :=
  Program.done r

/-- A program that cannot fail. -/
def lift (p : Program I α) : Attempt I ε α :=
  Program.bind p fun a => .done (.ok a)

instance : MonadLift (Program I) (Attempt I ε) :=
  ⟨lift⟩

/-- Names the error as one of another kind. -/
def mapError (f : ε → ε') (x : Attempt I ε α) : Attempt I ε' α :=
  Program.bind x fun
    | .ok a => .done (.ok a)
    | .error e => .done (.error (f e))

/-- The result, be it a value or an error, as a value. -/
def outcome (x : Attempt I ε α) : Attempt I ε' (Except ε α) :=
  Program.bind x fun r => .done (.ok r)

/-- Does something for each item in turn, up to the first error. -/
def each (f : α → Attempt I ε Unit) : List α → Attempt I ε Unit
  | [] => pure ()
  | a :: rest => do
      f a
      each f rest

/-- The results for each item in turn, up to the first error. -/
def collect (f : α → Attempt I ε β) : List α → Attempt I ε (List β)
  | [] => pure []
  | a :: rest => do
      let b ← f a
      let bs ← collect f rest
      return b :: bs

end Attempt

end SwarmUpkeep
