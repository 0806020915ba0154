import SwarmUpkeep.Proofs.Lock.Handoff
import SwarmUpkeep.Proofs.Lock.Upgrade

/-!
# The discipline of the lock

What a party may do to the queue, told from its own questions and answers alone: only inside may it
put a message or delete the queue. Creating the queue and removing a message bring it inside. An
upgrade and a handoff both keep this discipline, whatever anyone answers them.
-/

namespace SwarmUpkeep

open Attempt Control

/-- The queue that is asked about. -/
def QueueCall.name : QueueCall → String
  | create queue | delete queue | .exists queue | put queue _ | peek queue | get queue
  | deleteMessage queue _ | count queue => queue

namespace Lock

/-- Whether a party is inside once its question has been answered. -/
def standing (inside : Bool) : (c : Call) → c.Answer → Bool
  | .queue (.create _), .ok created => created || inside
  | .queue (.deleteMessage _ _), .ok () => true
  | .queue (.put _ _), .ok () => false
  | .queue (.delete _), .ok () => false
  | _, _ => inside

/-- Whether the discipline lets a party ask something of the queue. -/
def permits (queue : String) (inside : Bool) (call : QueueCall) : Prop :=
  call.name = queue ∧
    match call with
    | .put _ _ | .delete _ => inside = true
    | _ => True

/-- The discipline as rules. The answers are left open. -/
def discipline (queue : String) : Rules Surroundings Bool where
  allows inside c := ∀ call, c = .queue call → permits queue inside call
  moves inside c answer inside' := inside' = standing inside c answer

/-- Where a party stands, by its own account. Once the lock is handed over or given up nothing more
is said of it. -/
def account : Standing Bool where
  outside inside := inside = false
  inside inside := inside = true
  stuck inside := inside = true
  released _ := True

variable {queue : String} {inside : Bool}

theorem standing_elsewhere {c : Call} (h : ∀ call, c ≠ .queue call) (answer : c.Answer) :
    standing inside c answer = inside := by
  cases c with
  | queue call => exact absurd rfl (h call)
  | _ => rfl

theorem discipline_keeps_elsewhere {c : Call} (h : ∀ call, c ≠ .queue call) (inv : Bool → Prop) :
    (discipline queue).Keeps inv c := by
  intro inside hinside
  refine ⟨fun call hc => absurd hc (h call), ?_⟩
  rintro answer _ rfl
  rw [standing_elsewhere h]
  exact hinside

/-- A question to the queue that is permitted outside may be asked, and what its answer makes of
the party is read off. -/
theorem discipline_upholds {call : QueueCall} {p : call.Answer → Bool → Prop}
    (hpermits : permits queue inside call)
    (hpost : ∀ answer, p answer (standing inside (.queue call) answer)) :
    (Program.perform (I := Surroundings) (.queue call)).Upholds (discipline queue) p inside := by
  refine ⟨?_, ?_⟩
  · rintro _ ⟨⟩
    exact hpermits
  · rintro answer _ rfl
    exact hpost answer

theorem discipline_keeps {call : QueueCall} {inv : Bool → Prop}
    (hpermits : ∀ inside, inv inside → permits queue inside call)
    (hstanding : ∀ inside answer, standing inside (.queue call) answer = inside) :
    (discipline queue).Keeps inv (.queue call) := by
  intro inside hinside
  refine discipline_upholds (p := fun _ => inv) (hpermits inside hinside) fun answer => ?_
  rw [hstanding]
  exact hinside

theorem discipline_custody (queue : String) : Custody (discipline queue) queue account where
  outside _ h := discipline_keeps_elsewhere h.ne_queue _
  inside _ h := discipline_keeps_elsewhere h.ne_queue _
  released _ h := discipline_keeps_elsewhere h.ne_queue _
  inside_of_stuck _ h := h
  release inside hinside := by
    have hdelete : (deleteQueue queue).Upholds (discipline queue) (fun _ _ => True)
        (fun _ => account.inside) inside := by
      refine discipline_upholds ⟨rfl, hinside⟩ fun answer => ?_
      cases answer with
      | ok _ => trivial
      | error e => exact hinside
    refine upholds_bind.mpr (upholds_outcome.mpr (hdelete.mono ?_ ?_))
    · exact fun _ _ _ => trivial
    · -- A queue that is gone counts as deleted.
      intro e inside' hinside'
      refine upholds_mapError.mpr (upholds_ofExcept.mpr ?_)
      cases e with
      | notFound what => trivial
      | _ => exact hinside'

theorem discipline_coordination (queue : String) :
    Coordination (discipline queue) queue account (fun _ => True) (fun _ _ => True) where
  toCustody := discipline_custody queue
  isHeld := discipline_keeps (fun _ _ => ⟨rfl, trivial⟩) fun _ _ => rfl
  create inside hinside := by
    refine discipline_upholds ⟨rfl, trivial⟩ fun answer => ?_
    cases answer with
    | ok created =>
        cases created with
        | true => rfl
        | false => exact hinside
    | error e => exact hinside
  localId _ _ _ _ _ := trivial
  enqueue inside id _ hinside := by
    refine Upholds.bind (m := fun _ => account.inside) ?_ fun _ inside hinside => ?_
    · have hnow : (discipline queue).Keeps account.inside .now :=
        discipline_keeps_elsewhere (fun _ h => by cases h) _
      exact upholds_lift.mpr (Program.perform_upholds_of_keeps hnow hinside fun _ _ _ h => h)
    · refine Upholds.bind (m := fun _ _ => True) (Upholds.mapError ?_) fun _ _ _ => trivial
      refine discipline_upholds ⟨rfl, hinside⟩ fun answer => ?_
      cases answer with
      | ok _ => trivial
      | error e => exact hinside

theorem discipline_takeover (queue : String) :
    Takeover (discipline queue) queue account (fun _ => True) where
  toCustody := discipline_custody queue
  peek := discipline_keeps (fun _ _ => ⟨rfl, trivial⟩) fun _ _ => rfl
  count := discipline_keeps (fun _ _ => ⟨rfl, trivial⟩) fun _ _ => rfl
  leave := discipline_keeps_elsewhere (fun _ h => by cases h) _
  get inside hinside := by
    refine discipline_upholds ⟨rfl, trivial⟩ fun answer => ?_
    cases answer with
    | ok got => exact ⟨hinside, fun _ _ => trivial⟩
    | error e => exact hinside
  take inside message _ hinside := by
    refine discipline_upholds ⟨rfl, trivial⟩ fun answer => ?_
    cases answer with
    | ok _ => rfl
    | error e => exact hinside

/-- An upgrade keeps the discipline. -/
theorem run_disciplined (site : Site) (templateUrl : String) :
    Program.Upholds (discipline site.config.swarm.upgradeQueue) (fun _ _ => True)
      (Upgrade.run site templateUrl) false :=
  Program.Upholds.mono
    (Upgrade.run_upholds site (discipline_coordination _) templateUrl (s := false) rfl)
    fun _ _ _ => trivial

/-- A handoff keeps the discipline. -/
theorem complete_disciplined (site : Site) :
    Program.Upholds (discipline site.config.swarm.upgradeQueue) (fun _ _ => True)
      (Handoff.complete site) false :=
  Program.Upholds.mono (Handoff.complete_upholds site (discipline_takeover _) (s := false) rfl)
    fun _ _ _ => trivial

end Lock

end SwarmUpkeep
