import SwarmUpkeep.Proofs.Upkeep.Grounds
import SwarmUpkeep.Proofs.Upkeep.Itinerary
import SwarmUpkeep.Proofs.World.Provisioning

/-!
# After a handoff

A host that completes its upgrade leaves the swarm, gives the lock up and has its machine reimaged,
without waiting for the end of that. Until then the machine keeps its age, and nobody vouches for
it any more, so that a heal pass spares it only for what every machine is spared: the lock is held
again, the machine is not found running, it is too young, or it answers a probe.
-/

namespace SwarmUpkeep

open Attempt Control

/-! ## The machine of a host -/

/-- What a handoff has told of the machine of its host: it has been found at the address of the
member, in the scale set of the role of the member, and a reimage of it has been started. -/
inductive Handoff.OwnMachine (site : Site) (id : String) (told : List (Exchange Surroundings)) :
    String → String → Prop
  | told {me : Member} {row : MachineAddress} {lookup : List (Exchange Surroundings)}
      {reimage : Operation} (hme : ⟨.swarm .here (.inspect id), .ok me⟩ ∈ told)
      (hlookup : Itinerary.Lookup (site.config.setOf me.role) me row lookup)
      (hlooked : ∀ e ∈ lookup, e ∈ told)
      (hreimage : ⟨.provider (.reimage (site.config.setOf me.role) row.machineId), .ok reimage⟩ ∈
        told) :
      OwnMachine site id told (site.config.setOf me.role) row.machineId

/-- A host that completes its upgrade has found its machine and started to reimage it. -/
theorem Itinerary.Completing.ownMachine {site : Site} {id : String} {log : Log}
    {told : List (Exchange Surroundings)} (h : Completing site id log)
    (hlog : ∀ e ∈ log, e ∈ told) :
    ∃ set machine, Handoff.OwnMachine site id told set machine := by
  cases h with
  | completed htaking hdeparting =>
      cases hdeparting with
      | @departed me machine _ _ lookup _ _ _ _ _ _ hlookup _ _ _ _ _ hrenewal =>
          cases hrenewal with
          | @renewed _ reimage _ _ =>
              have hme : (⟨.swarm .here (.inspect id), .ok me⟩ : Exchange Surroundings) ∈ told :=
                hlog _ (by simp)
              have hlooked : ∀ e ∈ lookup, e ∈ told := fun e he => hlog e (by simp [he])
              have hreimage : (⟨.provider (.reimage (site.config.setOf me.role) machine.machineId),
                  .ok reimage⟩ : Exchange Surroundings) ∈ told := hlog _ (by simp)
              exact ⟨_, _, .told hme hlookup hlooked hreimage⟩

namespace World

variable {w : World} {site : Site} {config : Config} {id : String}

/-- Settings with which a run may start, without an add-on. -/
def soundSite : Site :=
  { trialSite with config := soundConfig }

/-- This host, which is named by the signal in the queue, beside another manager. Its machine was
provisioned an hour ago and answers no probe. -/
def forsaken : World :=
  { trial with
    site := soundSite
    members :=
      [⟨"m0", "host-0", .v4 10 0 0 4, .manager, .ready, true⟩,
        ⟨"m1", "host-1", .v4 10 0 0 5, .manager, .ready, false⟩]
    sets :=
      [("managers",
          ⟨.manager, 2,
            [⟨"0", "host-0", [⟨.v4 10 0 0 4, true⟩], .running, .succeeded, some ⟨0, 0⟩⟩,
              ⟨"1", "host-1", [⟨.v4 10 0 0 5, true⟩], .running, .succeeded, none⟩], []⟩),
        ("workers", ⟨.worker, 0, [], []⟩)]
    queues := [("upgrades", [⟨"msg-1", RejoinSignal.text ⟨"m0", default⟩⟩])]
    probes := [(.v4 10 0 0 4, [false])]
    clock := ⟨3600, 0⟩ }

/-- The host has completed its upgrade, and a heal pass deletes its machine while the reimage of
the machine is under way. -/
theorem forsaken_deleted :
    let handoff := Handoff.complete soundSite
    let left := (forsaken.run handoff).2
    (forsaken.run handoff).1.toOption = some (.completed "m0") ∧
      (∃ v ∈ handoff.visits respond forsaken, v.2.machine? = some ("managers", "0")) ∧
        ∃ v ∈ (Health.heal soundConfig).visits respond left,
          v.2.deletes? = some ("managers", "0") ∧
            v.1.reimaged? "op-2" = some ("managers", "0") := by
  decide +kernel

end World

end SwarmUpkeep
