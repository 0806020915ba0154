import SwarmUpkeep.Proofs.Program.Attempts
import SwarmUpkeep.Proofs.Time.Timestamp
import SwarmUpkeep.World.Respond

/-!
# The clock of a world

The clock moves on by a microsecond each time it is read, and a world that starts early enough
tells instants that can be written for as long as a program runs.
-/

namespace SwarmUpkeep.World

variable {w : World} {c : Call} {allowed : Call → Prop} {inv : World → Prop}

/-- A call with a time that can be written leaves an invariant true and moves as the rules say. Only
the reading of the clock moves the clock. -/
structure Timely (rules : Rules Surroundings World) (inv : World → Prop) (w : World) (c : Call) :
    Prop where
  moves : (w.respond .now).1.IsWritten → rules.moves w c (w.respond c).1 (w.respond c).2
  inv : inv (w.respond c).2
  clock : c ≠ .now → (w.respond c).2.clock = w.clock

theorem respond_clock_bounds (h : c ≠ .now → (w.respond c).2.clock = w.clock) :
    w.clock.sinceEpoch ≤ (w.respond c).2.clock.sinceEpoch ∧
      (w.respond c).2.clock.sinceEpoch ≤ w.clock.sinceEpoch + 1000 := by
  by_cases hnow : c = .now
  · subst hnow
    have htime : (w.respond .now).2.clock.sinceEpoch = w.clock.sinceEpoch + 1000 :=
      Instant.sinceEpoch_ofNanos _
    rw [htime]
    omega
  · rw [h hnow]
    omega

/-- A world obeys rules for as long as its clock tells instants that can be written, if each call
that may be asked does. -/
theorem obeys_of_clock {rules : Rules Surroundings World} {α : Type}
    {p : Program Surroundings α} (hasks : p.Asks allowed)
    (htimely : ∀ w c, allowed c → inv w → Timely rules inv w c) (h : inv w)
    (hclock : 0 ≤ w.clock.sinceEpoch)
    (hlimit : w.clock.sinceEpoch + 1000 * ((p.visits respond w).length : Int) < Instant.limit) :
    Program.Obeys rules respond (p.visits respond w) := by
  induction p generalizing w with
  | done a => exact fun v hv => nomatch hv
  | ask c next ih =>
      obtain ⟨hc, hnext⟩ := hasks
      rw [Program.visits, List.length_cons] at hlimit
      push_cast at hlimit
      obtain ⟨hmoves, hinv, hsame⟩ := htimely w c hc h
      obtain ⟨hleast, hgreatest⟩ := respond_clock_bounds hsame
      have hwritten : (w.respond .now).1.IsWritten :=
        Instant.isWritten_ofNanos (by omega) (by omega)
      exact List.forall_mem_cons.mpr
        ⟨hmoves hwritten, ih _ (hnext _ () trivial) hinv (by omega) (by omega)⟩

end SwarmUpkeep.World
