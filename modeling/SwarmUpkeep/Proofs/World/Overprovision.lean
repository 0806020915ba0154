import SwarmUpkeep.Proofs.Control.Polls
import SwarmUpkeep.Proofs.Upkeep.Reconciliation
import SwarmUpkeep.Proofs.World.Turnover

/-!
# Who is evicted while a node is reimaged

Each attempt to see the end of a reimage lists the machines of the scale set and the members of the
node's role, and evicts those members whose name no machine has, in the order of the listing, before
it asks how the reimage goes. The first step that fails breaks the attempt off; what has come of the
reimage is then not asked for, and whether the wait goes on depends on the failure alone.
-/

namespace SwarmUpkeep

open Attempt Control

namespace Overprovision

/-- What has come of a step of an eviction. -/
def verdict? : Exchange Surroundings → Option (Except ServiceError Unit)
  | ⟨.swarm .here (.demote _), answer⟩ => some answer
  | ⟨.swarm .here (.remove _), answer⟩ => some answer
  | _ => none

/-- The steps are taken in turn, up to the first that fails; a step for which a member is gone
already does not. -/
inductive Carried : List SwarmCall → List (Exchange Surroundings) → Except ServiceError Unit → Prop
  | done : Carried [] [] (.ok ())
  | step {x : Exchange Surroundings} {c : SwarmCall} {answer : Except ServiceError Unit}
      {calls : List SwarmCall} {record : List (Exchange Surroundings)}
      {result : Except ServiceError Unit} (hcall : x.call = .swarm .here c)
      (hanswer : verdict? x = some answer)
      (hsettled : answer = .ok () ∨ ∃ what, answer = .error (.notFound what))
      (hrest : Carried calls record result) : Carried (c :: calls) (x :: record) result
  | fails {x : Exchange Surroundings} {c : SwarmCall} {calls : List SwarmCall} {e : ServiceError}
      (hcall : x.call = .swarm .here c) (hanswer : verdict? x = some (.error e))
      (hfailed : ∀ what, e ≠ .notFound what) : Carried (c :: calls) [x] (.error e)

variable {calls more : List SwarmCall} {record rest : List (Exchange Surroundings)}
variable {result : Except ServiceError Unit}

theorem Carried.append (h : Carried calls record (.ok ())) (hmore : Carried more rest result) :
    Carried (calls ++ more) (record ++ rest) result := by
  -- The induction is on the steps, for which what comes of them has to be a variable.
  generalize hok : (Except.ok () : Except ServiceError Unit) = first at h
  induction h with
  | done => exact hmore
  | step hcall hanswer hsettled _ ih => exact .step hcall hanswer hsettled (ih hok)
  | fails => cases hok

theorem Carried.append_of_error {e : ServiceError} (h : Carried calls record (.error e))
    (more : List SwarmCall) : Carried (calls ++ more) record (.error e) := by
  generalize herror : (Except.error e : Except ServiceError Unit) = first at h
  induction h with
  | done => cases herror
  | step hcall hanswer hsettled _ ih => exact .step hcall hanswer hsettled (ih herror)
  | fails hcall hanswer hfailed => exact .fails hcall hanswer hfailed

/-- A step that may find the member gone is carried out. -/
theorem unlessGone_carried {c : SwarmCall} {action : Control ServiceError Unit}
    (haction : ∀ record answer, Program.Leads action record (.done answer) →
      ∃ x : Exchange Surroundings, record = [x] ∧ x.call = .swarm .here c ∧
        verdict? x = some answer)
    (h : Program.Leads (Membership.unlessGone action) record (.done result)) :
    Carried [c] record result := by
  obtain ⟨settled, past, rest, rfl, hpast, hrest⟩ := Program.Leads.through h
  obtain ⟨answer, past, none, rfl, hanswer, hnone⟩ := Program.Leads.through hpast
  obtain ⟨rfl, hdone⟩ := hnone.of_done
  cases hdone
  obtain ⟨rfl, hdone⟩ := hrest.of_done
  obtain ⟨x, rfl, hcall, hverdict⟩ := haction _ _ hanswer
  cases hdone
  cases answer with
  | ok u => exact .step hcall hverdict (.inl rfl) .done
  | error e =>
      cases e with
      | notFound what => exact .step hcall hverdict (.inr ⟨what, rfl⟩) .done
      | conflict what => exact .fails hcall hverdict fun _ h => by cases h
      | transient what => exact .fails hcall hverdict fun _ h => by cases h
      | fatal what => exact .fails hcall hverdict fun _ h => by cases h
      | undecodable what => exact .fails hcall hverdict fun _ h => by cases h

theorem demote_carried {id : String}
    (h : Program.Leads (Membership.unlessGone (demote .here id)) record (.done result)) :
    Carried [.demote id] record result :=
  unlessGone_carried (fun _ _ h =>
    ⟨_, Program.leads_perform (I := Surroundings) (c := .swarm .here (.demote id)) h, rfl, rfl⟩) h

theorem remove_carried {id : String}
    (h : Program.Leads (Membership.unlessGone (remove .here id)) record (.done result)) :
    Carried [.remove id] record result :=
  unlessGone_carried (fun _ _ h =>
    ⟨_, Program.leads_perform (I := Surroundings) (c := .swarm .here (.remove id)) h, rfl, rfl⟩) h

theorem evict_carried {role : Role} {m : Member}
    (h : Program.Leads (Membership.evict m.id role) record (.done result)) :
    Carried (Inventory.eviction role m) record result := by
  unfold Membership.evict at h
  unfold Inventory.eviction
  split at h
  next hrole =>
    rw [if_pos hrole]
    rcases Attempt.leads_bind h with ⟨e, rfl, hdemote⟩ | ⟨_, past, rest, rfl, hdemote, hremove⟩
    · exact (demote_carried hdemote).append_of_error [.remove m.id]
    · exact (demote_carried hdemote).append (remove_carried hremove)
  next hrole =>
    rw [if_neg hrole]
    exact remove_carried h

/-- Evictions of several members are carried out one after the other. -/
theorem evictions_carried {role : Role} {members : List Member}
    (h : Program.Leads (each (fun m => Membership.evict m.id role) members) record (.done result)) :
    Carried (members.flatMap (Inventory.eviction role)) record result := by
  induction members generalizing record with
  | nil =>
      obtain ⟨rfl, hdone⟩ := Program.Leads.of_done h
      cases hdone
      exact .done
  | cons m members ih =>
      rw [List.flatMap_cons]
      rcases Attempt.leads_bind h with ⟨e, rfl, hevict⟩ | ⟨_, past, rest, rfl, hevict, hrest⟩
      · exact (evict_carried hevict).append_of_error _
      · exact (evict_carried hevict).append (ih hrest)

/-- The members of a listing whose name no machine has, whatever the case of its letters. -/
def unbacked (machines : List Machine) (members : List Member) : List Member :=
  members.filter fun m =>
    Ascii.lower m.hostname ∉ machines.map fun machine => Ascii.lower machine.computerName

theorem overprovisioned_eq (machines : List Machine) (members : List Member) :
    NodeWalk.overprovisioned machines members = unbacked machines members := by
  refine List.filter_congr fun m _ => ?_
  rw [Bool.eq_iff_iff]
  simp [Ascii.sameFold_iff]

example : (unbacked [⟨"0", "Host-1", true⟩]
    [{ (default : Member) with hostname := "host-1" },
      { (default : Member) with hostname := "host-2" }]).map (·.hostname) = ["host-2"] := by
  decide +kernel

/-- What is said before an attempt of the wait evicts: the machines of the set are listed, and then
the members of the role. -/
def listings (set : String) (role : Role) (machines : List Machine) (members : List Member) :
    List (Exchange Surroundings) :=
  [⟨.provider (.machines set), .ok machines⟩, ⟨.swarm .here (.members (some role)), .ok members⟩]

/-- What an attempt to see the end of a reimage says and what comes of it. -/
inductive IsPoll (set : String) (role : Role) (operation : Operation) :
    List (Exchange Surroundings) → Except ServiceError OperationStatus → Prop
  | withoutMachines (e : ServiceError) :
      IsPoll set role operation [⟨.provider (.machines set), .error e⟩] (.error e)
  | withoutMembers (machines : List Machine) (e : ServiceError) :
      IsPoll set role operation [⟨.provider (.machines set), .ok machines⟩,
        ⟨.swarm .here (.members (some role)), .error e⟩] (.error e)
  | broken {machines : List Machine} {members : List Member}
      {record : List (Exchange Surroundings)} {e : ServiceError}
      (h : Carried ((unbacked machines members).flatMap (Inventory.eviction role)) record
        (.error e)) :
      IsPoll set role operation (listings set role machines members ++ record) (.error e)
  | evicted {machines : List Machine} {members : List Member}
      {record : List (Exchange Surroundings)}
      (h : Carried ((unbacked machines members).flatMap (Inventory.eviction role)) record (.ok ()))
      (answer : Except ServiceError OperationStatus) :
      IsPoll set role operation
        (listings set role machines members ++ record ++ [⟨.provider (.status operation), answer⟩])
        answer

/-- An attempt to see the end of a reimage. -/
def check (set : String) (role : Role) (operation : Operation) :
    Control ServiceError OperationStatus := do
  NodeWalk.evictOverprovisioned set role
  operationStatus operation

/-- The machines and the members are listed, and then the members without a machine evicted. -/
theorem evictOverprovisioned_listed {set : String} {role : Role}
    (h : Program.Leads (NodeWalk.evictOverprovisioned set role) record (.done result)) :
    (∃ e, result = .error e ∧ ∀ operation, IsPoll set role operation record (.error e)) ∨
      ∃ machines members rest, record = listings set role machines members ++ rest ∧
        Carried ((unbacked machines members).flatMap (Inventory.eviction role)) rest result := by
  rcases Attempt.leads_bind h with ⟨e, rfl, hmachines⟩ | ⟨machines, past, rest, rfl, hmachines, h⟩
  · rw [Program.leads_perform hmachines]
    exact .inl ⟨e, rfl, fun _ => .withoutMachines e⟩
  rw [Program.leads_perform hmachines]
  rcases Attempt.leads_bind h with ⟨e, rfl, hmembers⟩ | ⟨members, past, rest, rfl, hmembers, h⟩
  · rw [Program.leads_perform hmembers]
    exact .inl ⟨e, rfl, fun _ => .withoutMembers machines e⟩
  rw [Program.leads_perform hmembers]
  rw [overprovisioned_eq] at h
  exact .inr ⟨machines, members, rest, rfl, evictions_carried h⟩

theorem check_isPoll {set : String} {role : Role} {operation : Operation}
    {outcome : Except ServiceError OperationStatus}
    (h : Program.Leads (check set role operation) record (.done outcome)) :
    IsPoll set role operation record outcome := by
  rcases Attempt.leads_bind h with ⟨e, rfl, hevict⟩ | ⟨_, past, rest, rfl, hevict, hstatus⟩
  · rcases evictOverprovisioned_listed hevict with
      ⟨e', he, hpoll⟩ | ⟨machines, members, rest, rfl, hcarried⟩
    · cases he
      exact hpoll operation
    · exact .broken hcarried
  · rw [Program.leads_perform hstatus]
    rcases evictOverprovisioned_listed hevict with
      ⟨e, he, _⟩ | ⟨machines, members, rest, rfl, hcarried⟩
    · cases he
    · exact .evicted hcarried outcome

/-! ## The wait -/

variable {σ : Type} (respond : σ → (c : Call) → c.Answer × σ) (config : Config) (set : String)
variable (node : Node) (operation : Operation) (s : σ)

/-- The wait for the final status of a reimage. -/
def wait : Control (RetryError ServiceError) OperationStatus :=
  pollUntil config.timings.providerPolicy ("reimage of " ++ node.hostname)
    (Poll.checking OperationStatus.final? (check set node.role operation))

/-- What comes of the reimage of a host by what comes of the wait for its final status. -/
def reimaged (hostname : String) :
    Except (RetryError ServiceError) OperationStatus → Except UpgradeError Unit
  | .ok (.failed reason) => .error (.operation (.failed ("reimage of " ++ hostname) reason))
  | .ok _ => .ok ()
  | .error e => .error (.ofRetry .service e)

theorem awaitReimage_eq :
    NodeWalk.awaitReimage config set node operation =
      Attempt.bind ((wait config set node operation).mapError (UpgradeError.ofRetry .service))
        fun status => ofExcept (reimaged node.hostname (.ok status)) := by
  have hcheck : Poll.checking OperationStatus.final? (check set node.role operation) = (do
      NodeWalk.evictOverprovisioned set node.role
      let status ← operationStatus operation
      return status.final?) := Attempt.bind_assoc _ _ _
  rw [wait, hcheck]
  refine congrArg (Attempt.bind _) ?_
  funext status
  cases status <;> rfl

theorem run_awaitReimage :
    (Program.run respond (NodeWalk.awaitReimage config set node operation) s).1 =
      reimaged node.hostname (Program.run respond (wait config set node operation) s).1 := by
  rw [awaitReimage_eq]
  refine (congrArg Prod.fst (Attempt.run_bind (I := Surroundings) respond _ _ s)).trans ?_
  rw [Attempt.run_mapError]
  cases (Program.run respond (wait config set node operation) s).1 <;> rfl

theorem transcript_awaitReimage :
    Program.transcript respond (NodeWalk.awaitReimage config set node operation) s =
      Program.transcript respond (wait config set node operation) s := by
  rw [awaitReimage_eq]
  refine Eq.trans ?_ (Attempt.transcript_mapError (I := Surroundings) respond
    (UpgradeError.ofRetry .service) (wait config set node operation) s)
  refine (Program.transcript_bind (I := Surroundings) respond _ _ s).trans ?_
  cases (Program.run respond ((wait config set node operation).mapError _) s).1 <;>
    exact List.append_nil _

/-- A listing of a role in a world lists members of that role alone. -/
theorem role_of_listed {α : Type} {p : Program Surroundings α} {w : World} {role : Role}
    {members : List Member} {m : Member}
    (h : ⟨.swarm .here (.members (some role)), .ok members⟩ ∈ p.transcript World.respond w)
    (hm : m ∈ members) : m.role = role := by
  rw [Program.transcript_eq_exchanges] at h
  obtain ⟨⟨world, c⟩, _, hvisit⟩ := List.mem_map.mp h
  obtain rfl : c = .swarm .here (.members (some role)) := congrArg Exchange.call hvisit
  have hanswer : (world.respond (.swarm .here (.members (some role)))).1 = .ok members :=
    eq_of_heq (Exchange.mk.inj hvisit).2
  rw [World.members_answer (Prod.ext hanswer rfl)] at hm
  simpa using (List.mem_filter.mp hm).2

/-- While a node is reimaged, every attempt to see the end of it evicts exactly those members of its
role that no machine of the set has the name of, in turn and up to the first step that fails, and
the wait ends with a status of the reimage only in an attempt that has evicted them all. -/
theorem awaitReimage_evicts_unbacked :
    (∃ (polls : List (Poll ServiceError OperationStatus))
        (waited : Except (RetryError ServiceError) OperationStatus),
      Program.transcript respond (NodeWalk.awaitReimage config set node operation) s =
        List.intercalate (Poll.pauses config.timings.providerPolicy) (polls.map Poll.record) ∧
      (∀ p ∈ polls, IsPoll set node.role operation p.record p.outcome) ∧
      Poll.Ends config.timings.providerPolicy ("reimage of " ++ node.hostname)
        OperationStatus.final? polls waited ∧
      (Program.run respond (NodeWalk.awaitReimage config set node operation) s).1 =
        reimaged node.hostname waited) ∧
    ∀ (w : World) (members : List Member),
      ⟨.swarm .here (.members (some node.role)), .ok members⟩ ∈
        Program.transcript World.respond (NodeWalk.awaitReimage config set node operation) w →
      ∀ m ∈ members, m.role = node.role := by
  refine ⟨⟨Poll.ofWait respond config.timings.providerPolicy OperationStatus.final?
    (check set node.role operation) s, _, ?_, ?_, Poll.ofWait_ends _ _ _,
    run_awaitReimage respond config set node operation s⟩,
    fun w members hlisted m => role_of_listed hlisted⟩
  · rw [transcript_awaitReimage]
    exact (Poll.pollUntil_exactly _ _ _).transcript
  · intro p hp
    exact Poll.forall_series (fun _ _ => check_isPoll) _ _ p (List.mem_of_mem_take hp)

end Overprovision

end SwarmUpkeep
