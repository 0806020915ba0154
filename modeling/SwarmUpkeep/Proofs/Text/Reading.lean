/-!
# What readers give

A reader takes a text apart or fails. What is known of its parts, should they be read, is handed
from each part to the next, up to what the whole gives.
-/

namespace SwarmUpkeep

variable {ε α β : Type} {part : α → Prop} {post : β → Prop}

/-- Whatever is read has the property. -/
def Gives (post : α → Prop) (read : Except ε α) : Prop :=
  ∀ a, read = .ok a → post a

theorem gives_error (e : ε) : Gives post (.error e : Except ε β) := by
  intro b h
  cases h

theorem gives_ok {b : β} (h : post b) : Gives post (.ok b : Except ε β) := by
  intro b' hb
  cases hb
  exact h

/-- What follows a part may count on what that part gives. -/
theorem Gives.bind {read : Except ε α} {next : α → Except ε β} (h : Gives part read)
    (hnext : ∀ a, part a → Gives post (next a)) : Gives post (read >>= next) := by
  cases read with
  | error e => exact gives_error e
  | ok a => exact hnext a (h a rfl)

/-- What is read in a part may be of no matter. -/
theorem gives_bind {read : Except ε α} {next : α → Except ε β}
    (h : ∀ a, Gives post (next a)) : Gives post (read >>= next) := by
  have hread : Gives (fun _ => True) read := fun _ _ => trivial
  exact hread.bind fun a _ => h a

end SwarmUpkeep
