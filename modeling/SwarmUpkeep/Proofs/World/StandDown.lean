import SwarmUpkeep.Proofs.Program.Interleaved
import SwarmUpkeep.Proofs.Upkeep.Checkup
import SwarmUpkeep.Proofs.World.OwnHost

/-!
# Healing beside an upgrade

A heal pass looks at the upgrade lock when it starts and again at the start of each of its checks
and reconciliations, and stands down if it is held. What it evicts, deletes and scales up after that
it does without another look. So an upgrade that begins between the look and the deed is not
noticed; one that is under way when the pass looks is left alone.
-/

namespace SwarmUpkeep

open Attempt Control

namespace Call

/-- Whether a question takes a member or a machine away, or changes how many machines there are. -/
def mutates : Call → Bool
  | .swarm _ (.demote _) => true
  | .swarm _ (.remove _) => true
  | .provider (.delete _ _) => true
  | .provider (.setCapacity _ _) => true
  | _ => false

/-- A question of a pass between two looks at the lock. -/
def IsSweep : Call → Prop
  | .queue _ => False
  | _ => True

theorem IsAside.isSweep {c : Call} (h : c.IsAside) : c.IsSweep := by
  unfold IsAside at h
  unfold IsSweep
  split at h <;> simp_all

end Call

namespace StandDown

/-- Whether the latest look at the lock has found that nobody holds it. -/
def clear (queue : String) (cleared : Bool) : Exchange Surroundings → Bool
  | ⟨.queue (.exists asked), .ok held⟩ => if asked = queue then !held else cleared
  | ⟨.queue (.exists asked), .error _⟩ => if asked = queue then false else cleared
  | _ => cleared

/-- The rules by which nothing is changed unless the latest look at the lock allows it. -/
abbrev rules (queue : String) : Rules Surroundings Bool :=
  .accounted (clear queue) fun cleared c => c.mutates = true → cleared = true

variable {queue : String} {cleared : Bool} {c : Call} {ε α : Type} {x : Control ε α}

theorem clear_of_ne {e : Exchange Surroundings} (h : e.call ≠ .queue (.exists queue)) :
    clear queue cleared e = cleared := by
  obtain ⟨c, answer⟩ := e
  unfold clear
  split
  next asked held heq =>
    cases heq
    rw [if_neg (fun hasked => h (by rw [hasked]))]
  next asked e heq =>
    cases heq
    rw [if_neg (fun hasked => h (by rw [hasked]))]
  next => rfl

/-- After a look the lock counts as free just if the answer says so. -/
theorem clear_look {answer : Except ServiceError Bool} :
    clear queue cleared ⟨.queue (.exists queue), answer⟩ = true ↔ answer = .ok false := by
  cases answer with
  | error e => simp [clear]
  | ok held => simp [clear]

theorem sweep_keeps (hc : c.IsSweep) : (rules queue).Keeps (· = true) c := by
  rintro cleared rfl
  refine ⟨fun _ => rfl, ?_⟩
  rintro answer s rfl
  refine clear_of_ne ?_
  rintro rfl
  exact hc

/-- After a look that has found the lock free, everything may be asked but for another look. -/
theorem sweep_upholds (hx : x.Asks Call.IsSweep) (hs : cleared = true) :
    x.Upholds (rules queue) (fun _ s => s = true) (fun _ _ => True) cleared :=
  Upholds.monoError (hx.keeps (fun _ hc => sweep_keeps hc) hs) fun _ _ _ => trivial

theorem isHeld_upholds :
    (Lock.isHeld queue).Upholds (rules queue) (fun held s => held = false → s = true)
      (fun _ _ => True) cleared := by
  have hlook : (queueExists queue).Upholds (rules queue) (fun held s => held = false → s = true)
      (fun _ _ => True) cleared := by
    refine ⟨fun h => (by cases h), ?_⟩
    rintro answer s rfl
    cases answer with
    | error e => exact trivial
    | ok held =>
        rintro rfl
        exact clear_look.mpr rfl
  exact hlook.renamed

/-! ## The parts of a pass -/

theorem evictions_asks (role : Role) (members : List Member) :
    (each (fun m => Membership.evict m.id role) members).Asks Call.IsSweep :=
  Asks.each fun _ _ => Membership.evict_asks (fun _ => trivial) trivial

theorem reconcile_upholds (config : Config) (set : String) (role : Role) (cleared : Bool) :
    (Drift.reconcile config set role).Upholds (rules config.swarm.upgradeQueue) (fun _ _ => True)
      (fun _ _ => True) cleared := by
  refine Upholds.bind isHeld_upholds.renamed fun held s hs => ?_
  cases held with
  | true => exact trivial
  | false =>
      refine Upholds.mono (sweep_upholds ?_ (hs rfl)) (fun _ _ _ => trivial) fun _ _ h => h
      refine ((Resolution.machineTable_asks set).mono fun _ hc => hc.isSweep).mapError.bind ?_
      intro table
      refine Asks.bind (Asks.mapError (Program.asks_perform trivial)) fun members => ?_
      exact (evictions_asks role _).mapError.bind fun _ => asks_pure _

/-- From the look at the lock on, a check counts it as free. -/
theorem check_course (config : Config) (set : String) (role : Role) :
    Health.Course (rules queue) config set role (.same (· = true)) (fun _ _ => True)
      (fun _ => True) where
  table _ hs := sweep_upholds ((Resolution.machineTable_asks set).mono fun _ hc => hc.isSweep) hs
  members _ _ hs := sweep_upholds (Program.asks_perform trivial) hs
  examine _ members _ row _ _ _ _ hs :=
    sweep_upholds ((Health.examine_asks config set members row).mono fun _ hc => hc.isSweep) hs
  replace _ _ _ _ _ _ hs :=
    sweep_upholds (Health.replace_asks (fun _ _ _ _ => trivial) (fun _ _ _ => trivial) trivial
      (fun _ => trivial) (fun _ => trivial) config) hs
  scaleUp _ _ verdicts _ hs :=
    have hscaled := sweep_upholds (Health.scaleUp_asks trivial (fun _ => trivial)
      (fun _ => trivial) (fun _ => trivial) config (Health.deadRows verdicts).length) hs
    hscaled.mono (fun _ _ _ => trivial) fun _ _ h => h
  noneDead _ _ _ _ _ _ := trivial

theorem check_upholds (config : Config) (set : String) (role : Role) (cleared : Bool) :
    (Health.check config set role).Upholds (rules config.swarm.upgradeQueue) (fun _ _ => True)
      (fun _ _ => True) cleared := by
  apply (check_course config set role).check_upholds
  refine isHeld_upholds.mono ?_ fun _ _ h => h
  intro held s hs
  cases held with
  | true => trivial
  | false => exact hs rfl

theorem heal_upholds (config : Config) (cleared : Bool) :
    (Health.heal config).Upholds (rules config.swarm.upgradeQueue) (fun _ _ => True)
      (fun _ _ => True) cleared :=
  Health.heal_upholds (fun _ _ => isHeld_upholds.mono (fun _ _ _ => trivial) fun _ _ h => h)
    (fun role s _ => check_upholds config (config.setOf role) role s)
    (fun role s _ => reconcile_upholds config (config.setOf role) role s) trivial

end StandDown

namespace World

open StandDown

/-! ## A pass among others -/

/-- Before each of its changes a pass has looked at the lock, and at its latest look nobody held
it. -/
def LooksFirst (queue : String) (turns : List (Turn Surroundings World)) : Prop :=
  ∀ past t rest, turns = past ++ t :: rest → t.own = true → t.call.mutates = true →
    ∃ before look after, past = before ++ look :: after ∧ look.own = true ∧
      look.call = .queue (.exists queue) ∧ Keyed.find? look.state.queues queue = none ∧
      ∀ u ∈ after, u.own = true → u.call ≠ .queue (.exists queue)

/-- A queue that is told not to exist does not exist. -/
theorem exists_answer {w : World} {queue : String}
    (h : (w.respond (.queue (.exists queue))).1 = .ok false) :
    Keyed.find? w.queues queue = none := by
  have hanswer : w.respond (.queue (.exists queue)) =
      (.ok false, (w.respond (.queue (.exists queue))).2) := by
    rw [← h]
  rcases queue_answers hanswer with ⟨_, _, e, he⟩ | ⟨_, hserved⟩
  · cases he
  · rw [← (noted_stirs w (QueueCall.exists queue).text).queues]
    have hnone := congrArg Prod.fst hserved
    simp only [World.queue, Except.ok.injEq] at hnone
    exact Option.isSome_eq_false_iff.mp hnone.symm |> Option.isNone_iff_eq_none.mp

/-- If the lock counts as free in the end, there has been a look that found it so, or it counted as
free from the start. -/
theorem latest_look {queue : String} {past : List (Turn Surroundings World)} {cleared : Bool}
    (h : (Program.ownPart respond past).foldl (clear queue) cleared = true) :
    (cleared = true ∧ ∀ u ∈ past, u.own = true → u.call ≠ .queue (.exists queue)) ∨
    ∃ before look after, past = before ++ look :: after ∧ look.own = true ∧
      look.call = .queue (.exists queue) ∧ Keyed.find? look.state.queues queue = none ∧
      ∀ u ∈ after, u.own = true → u.call ≠ .queue (.exists queue) := by
  induction past generalizing cleared with
  | nil => exact .inl ⟨h, fun u hu => absurd hu List.not_mem_nil⟩
  | cons t rest ih =>
      cases hown : t.own with
      | false =>
          have hrest : Program.ownPart respond (t :: rest) = Program.ownPart respond rest := by
            simp [Program.ownPart, hown]
          rw [hrest] at h
          rcases ih h with ⟨hcleared, hnone⟩ | ⟨before, look, after, rfl, hlook⟩
          · refine .inl ⟨hcleared, List.forall_mem_cons.mpr ⟨fun h => ?_, hnone⟩⟩
            rw [hown] at h
            cases h
          · exact .inr ⟨t :: before, look, after, rfl, hlook⟩
      | true =>
          have hrest : Program.ownPart respond (t :: rest) =
              t.exchange respond :: Program.ownPart respond rest := by
            simp [Program.ownPart, hown]
          rw [hrest, List.foldl_cons] at h
          rcases ih h with ⟨hcleared, hnone⟩ | ⟨before, look, after, rfl, hlook⟩
          -- No look comes after this turn: it is the latest look itself, or it decides nothing.
          · by_cases hcall : t.call = .queue (.exists queue)
            · obtain ⟨own, state, call⟩ := t
              subst hcall
              have hanswer := clear_look.mp hcleared
              exact .inr ⟨[], _, rest, rfl, hown, rfl, exists_answer hanswer, hnone⟩
            · rw [clear_of_ne hcall] at hcleared
              exact .inl ⟨hcleared, List.forall_mem_cons.mpr ⟨fun _ => hcall, hnone⟩⟩
          · exact .inr ⟨t :: before, look, after, rfl, hlook⟩

theorem looksFirst_of_upholds {α β : Type} {queue : String} {p : Program Surroundings α}
    {post : α → Bool → Prop} (h : p.Upholds (StandDown.rules queue) post false)
    (schedule : List Bool) (other : Program Surroundings β) (w : World) :
    LooksFirst queue (Program.turns respond schedule p other w) := by
  intro past t rest hturns hown hmutates
  have hcleared := h.permitted_turn hturns hown hmutates
  rcases latest_look hcleared with ⟨hfalse, _⟩ | hlook
  · cases hfalse
  · exact hlook

/-- Whatever else goes on in the world at the same time, each demotion, removal, deletion and change
of capacity of a heal pass, or of a single check or reconciliation, comes after a look at the lock
of its own, at the latest of which nobody held the lock. -/
theorem healing_looks_first {β : Type} (config : Config) (schedule : List Bool)
    (other : Program Surroundings β) (w : World) :
    LooksFirst config.swarm.upgradeQueue
      (Program.turns respond schedule (Health.heal config) other w) ∧
    (∀ set role, LooksFirst config.swarm.upgradeQueue
      (Program.turns respond schedule (Health.check config set role) other w)) ∧
    ∀ set role, LooksFirst config.swarm.upgradeQueue
      (Program.turns respond schedule (Drift.reconcile config set role) other w) := by
  refine ⟨?_, ?_, ?_⟩
  · exact looksFirst_of_upholds (heal_upholds config false) schedule other w
  · intro set role
    exact looksFirst_of_upholds (check_upholds config set role false) schedule other w
  · intro set role
    exact looksFirst_of_upholds (reconcile_upholds config set role false) schedule other w

/-- Two managers with machines, and a third that is down and has none. -/
def drifted : World :=
  { pair with
    members :=
      [⟨"m0", "host-0", .v4 10 0 0 4, .manager, .ready, false⟩,
        ⟨"m1", "host-1", .v4 10 0 0 5, .manager, .ready, true⟩,
        ⟨"m9", "host-9", .v4 10 0 0 9, .manager, .down, false⟩] }

/-- An upgrade that takes the lock right after a reconciliation has looked at it does not keep the
reconciliation from its evictions. -/
theorem eviction_under_lock :
    ∃ t ∈ Program.turns respond [true, false, false, false, true, true, true, true, true]
        (Drift.reconcile trialSite.config "managers" .manager)
        (Upgrade.run trialSite "https://host/a.json") drifted,
      t.own = true ∧ t.call.mutates = true ∧
        (Keyed.find? t.state.queues trialSite.config.swarm.upgradeQueue).isSome = true := by
  decide +kernel

end World

end SwarmUpkeep
