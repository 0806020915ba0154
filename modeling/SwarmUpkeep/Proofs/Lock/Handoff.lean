import SwarmUpkeep.Proofs.Lock.Custody
import SwarmUpkeep.Proofs.Program.Transcript

/-!
# The lock and a handoff

How the completion of an upgrade on its own host leaves the lock. The host is inside from the
moment it takes the signal. Unlike an upgrade, it gives the lock up only on its way through: an
error before that ends it inside, and an error after that cannot bring it back.
-/

namespace SwarmUpkeep.Handoff

open Attempt Control

section

variable {site : Site} {id : String} {record past rest : List (Exchange Surroundings)}
variable {α : Type} {next : Member → MachineAddress → Control RejoinError α}
variable {result : Except RejoinError α}

/-- All of a departure before the lock is given up, and what comes next. -/
def withdraw (site : Site) (id : String)
    (next : Member → MachineAddress → Control RejoinError α) : Control RejoinError α := do
  let me ← (inspect .here id).mapError .service
  let machine ← ownMachine (site.config.setOf me.role) id me
  let replica ← (Replica.drain site me.hostname).mapError .upgrade
  (Replica.forget site replica).mapError .records
  let engine ← successor site.config me id
  leave.mapError .service
  removeThrough id engine
  next me machine

/-- What comes next: the lock is given up, and the machine of the host is renewed. -/
def renew (site : Site) (me : Member) (machine : MachineAddress) : Control RejoinError Unit := do
  (Lock.release site.config.swarm.upgradeQueue).mapError .lock
  let operation ← (updateModel (site.config.setOf me.role) machine.machineId).mapError .service
  (operation.await site.config.timings.providerPolicy ("update model of " ++ me.hostname)).mapError
    .operation
  discard <| (reimage (site.config.setOf me.role) machine.machineId).mapError .service

/-- What has been said last is a part of a departure that has failed before the lock is given up:
the inspection of the own node, the lookup of its machine, the drain of its replica, the deletion of
the replica's record, the search for a control plane to be removed through, the leave or the
removal. -/
inductive Stranded (site : Site) (id : String) :
    List (Exchange Surroundings) → RejoinError → Prop
  | inspection {last : List (Exchange Surroundings)} {e : ServiceError}
      (h : Program.Leads (inspect .here id) last (.done (.error e))) :
      Stranded site id last (.service e)
  | machine {last : List (Exchange Surroundings)} {e : RejoinError} (me : Member)
      (h : Program.Leads (ownMachine (site.config.setOf me.role) id me) last
        (.done (.error e))) :
      Stranded site id last e
  | drain {last : List (Exchange Surroundings)} {e : UpgradeError} (me : Member)
      (h : Program.Leads (Replica.drain site me.hostname) last (.done (.error e))) :
      Stranded site id last (.upgrade e)
  | record {last : List (Exchange Surroundings)} {e : RecordError}
      (replica : Option ReplicaRecord)
      (h : Program.Leads (Replica.forget site replica) last (.done (.error e))) :
      Stranded site id last (.records e)
  | succession {last : List (Exchange Surroundings)} {e : RejoinError} (me : Member)
      (h : Program.Leads (successor site.config me id) last (.done (.error e))) :
      Stranded site id last e
  | leave {last : List (Exchange Surroundings)} {e : ServiceError}
      (h : Program.Leads Control.leave last (.done (.error e))) :
      Stranded site id last (.service e)
  | removal {last : List (Exchange Surroundings)} {e : RejoinError} (engine : Option Engine)
      (h : Program.Leads (removeThrough id engine) last (.done (.error e))) :
      Stranded site id last e

/-- A question that is asked of no queue. -/
def IsUnqueued (c : Call) : Prop :=
  ∀ call, c ≠ .queue call

/-- No queue has been asked for anything. -/
def LeavesQueues (record : List (Exchange Surroundings)) : Prop :=
  ∀ said ∈ record, IsUnqueued said.call

/-- A withdrawal has failed before the queue of the lock was asked for anything, or it has come to
what is next. -/
def Withdrawn (site : Site) (id : String)
    (next : Member → MachineAddress → Control RejoinError α)
    (record : List (Exchange Surroundings)) (result : Except RejoinError α) : Prop :=
  (∃ e past last, result = .error e ∧ record = past ++ last ∧ Stranded site id last e ∧
      LeavesQueues record) ∨
    ∃ me machine past rest, record = past ++ rest ∧
      Program.Leads (next me machine) rest (.done result)

theorem Withdrawn.behind (h : Withdrawn site id next rest result) (hpast : LeavesQueues past) :
    Withdrawn site id next (past ++ rest) result := by
  rcases h with ⟨e, before, last, hresult, rfl, hstranded, hquiet⟩ |
    ⟨me, machine, before, after, rfl, hnext⟩
  · exact .inl ⟨e, past ++ before, last, hresult, (List.append_assoc ..).symm, hstranded,
      List.forall_mem_append.mpr ⟨hpast, hquiet⟩⟩
  · exact .inr ⟨me, machine, past ++ before, after, (List.append_assoc ..).symm, hnext⟩

/-- One part of a withdrawal after the other. -/
theorem withdrawn_bind {β : Type} {x : Control RejoinError β} {f : β → Control RejoinError α}
    (h : Program.Leads (Attempt.bind x f) record (.done result))
    (hasks : x.Asks IsUnqueued)
    (hstranded : ∀ e, Program.Leads x record (.done (.error e)) → Stranded site id record e)
    (hnext : ∀ b rest, Program.Leads (f b) rest (.done result) →
      Withdrawn site id next rest result) : Withdrawn site id next record result := by
  rcases leads_bind h with ⟨e, rfl, herror⟩ | ⟨b, past, rest, rfl, hpast, hrest⟩
  · exact .inl ⟨e, [], record, rfl, rfl, hstranded e herror, Program.Asks.leads hasks herror⟩
  · exact (hnext b rest hrest).behind (Program.Asks.leads hasks hpast)

theorem leads_of_mapError {β ε ε' : Type} {x : Control ε β} {f : ε → ε'} {e' : ε'}
    (h : Program.Leads (x.mapError f) record (.done (.error e'))) :
    ∃ e, e' = f e ∧ Program.Leads x record (.done (.error e)) := by
  obtain ⟨r, hr, hleads⟩ := leads_mapError h
  cases r with
  | error e => exact ⟨e, Except.error.inj hr, hleads⟩
  | ok b => cases hr

theorem leads_withdraw (h : Program.Leads (withdraw site id next) record (.done result)) :
    Withdrawn site id next record result := by
  have hunqueued {β ε : Type} {x : Control ε β} (hx : x.Asks Call.IsWork) :
      x.Asks IsUnqueued := hx.mono fun _ hc => hc.ne_queue
  refine withdrawn_bind h (hunqueued (Asks.mapError (Program.asks_perform trivial))) ?_ ?_
  · intro e he
    obtain ⟨_, rfl, hfails⟩ := leads_of_mapError he
    exact .inspection hfails
  intro me rest h
  refine withdrawn_bind h (hunqueued (ownMachine_asks _ id me).quiet.work)
    (fun e he => .machine me he) fun machine rest h => ?_
  refine withdrawn_bind h (hunqueued (Replica.drain_asks site me.hostname).quiet.work.mapError)
    ?_ ?_
  · intro e he
    obtain ⟨_, rfl, hfails⟩ := leads_of_mapError he
    exact .drain me hfails
  intro replica rest h
  refine withdrawn_bind h
    (hunqueued (Replica.forget_asks site replica).aside.quiet.work.mapError) ?_ ?_
  · intro e he
    obtain ⟨_, rfl, hfails⟩ := leads_of_mapError he
    exact .record replica hfails
  intro _ rest h
  refine withdrawn_bind h (hunqueued (successor_asks site.config me id))
    (fun e he => .succession me he) fun engine rest h => ?_
  refine withdrawn_bind h
    (Asks.mapError (Program.asks_perform fun _ hcall => by cases hcall)) ?_ ?_
  · intro e he
    obtain ⟨_, rfl, hfails⟩ := leads_of_mapError he
    exact .leave hfails
  intro _ rest h
  exact withdrawn_bind h (hunqueued (removeThrough_asks id engine))
    (fun e he => .removal engine he) fun _ rest h => .inr ⟨me, machine, [], rest, rfl, h⟩

/-- A departure that fails keeps the lock if one of its first parts fails, and just then: no queue
has been asked for anything then. Otherwise the deletion of the queue has been asked for. -/
theorem depart_error {e : RejoinError}
    (h : Program.Leads (depart site id) record (.done (.error e))) :
    (∃ past last, record = past ++ last ∧ Stranded site id last e ∧ LeavesQueues record) ∨
      ∃ said ∈ record, said.call = .queue (.delete site.config.swarm.upgradeQueue) := by
  have hdepart : depart site id = withdraw site id (renew site) := rfl
  rw [hdepart] at h
  rcases leads_withdraw h with ⟨e', past, last, he, rfl, hstranded, hquiet⟩ |
    ⟨me, machine, past, rest, rfl, hrest⟩
  · cases he
    exact .inl ⟨past, last, rfl, hstranded, hquiet⟩
  · cases hrest with
    | ask _ => exact .inr ⟨_, List.mem_append_right _ List.mem_cons_self, rfl⟩

end

variable {σ : Type} {rules : Rules Surroundings σ} {party : Lock.Standing σ} {s : σ}
variable {isHead : Message → Prop}
variable (site : Site) (h : Lock.Takeover rules site.config.swarm.upgradeQueue party isHead)
include h

/-- The last steps, once the host has left the swarm. -/
theorem depart_upholds (id : String) (hs : party.inside s) :
    (depart site id).Upholds rules (fun _ => party.released)
      (fun _ s' => party.inside s' ∨ party.released s') s := by
  have hinspect := Asks.keeps (x := inspect .here id) (Program.asks_perform trivial) h.inside hs
  refine Upholds.bind (hinspect.monoError fun _ _ => .inl).renamed fun me s hs => ?_
  have hmachine := (ownMachine_asks (site.config.setOf me.role) id me).quiet.work.keeps h.inside hs
  refine Upholds.bind (hmachine.monoError fun _ _ => .inl) fun machine s hs => ?_
  have hdrain := (Replica.drain_asks site me.hostname).quiet.work.keeps h.inside hs
  refine Upholds.bind (hdrain.monoError fun _ _ => .inl).renamed fun replica s hs => ?_
  have hforget := (Replica.forget_asks site replica).aside.quiet.work.keeps h.inside hs
  refine Upholds.bind (hforget.monoError fun _ _ => .inl).renamed fun _ s hs => ?_
  have hsuccessor := (successor_asks site.config me id).keeps h.inside hs
  refine Upholds.bind (hsuccessor.monoError fun _ _ => .inl) fun engine s hs => ?_
  have hleave : leave.Upholds rules (fun _ => party.inside) (fun _ => party.inside) s :=
    Program.perform_upholds_of_keeps h.leave hs fun answer s' _ hs' => by cases answer <;> exact hs'
  refine Upholds.bind (hleave.monoError fun _ _ => .inl).renamed fun _ s hs => ?_
  have hremove := (removeThrough_asks id engine).keeps h.inside hs
  refine Upholds.bind (hremove.monoError fun _ _ => .inl) fun _ s hs => ?_
  have hrelease := (h.release s hs).monoError fun _ => h.inside_of_stuck
  refine Upholds.bind (hrelease.monoError fun _ _ => .inl).renamed fun _ s hs => ?_
  -- From here on the lock is given up, whatever the provider answers.
  have hupdate := Asks.keeps (x := updateModel (site.config.setOf me.role) machine.machineId)
    (Program.asks_perform trivial) h.released hs
  refine Upholds.bind (hupdate.monoError fun _ _ => .inr).renamed ?_
  intro operation s hs
  have hawait : (operation.await site.config.timings.providerPolicy
      ("update model of " ++ me.hostname)).Asks Call.IsWork :=
    Operation.await_asks trivial (fun _ => trivial) _ _
  have hkept := hawait.keeps h.released hs
  refine Upholds.bind (hkept.monoError fun _ _ => .inr).renamed fun _ s hs => ?_
  have hreimage := Asks.keeps (x := reimage (site.config.setOf me.role) machine.machineId)
    (Program.asks_perform trivial) h.released hs
  exact upholds_discard.mpr (hreimage.monoError fun _ _ => .inr).renamed

/-- A handoff that starts outside of the lock ends outside, inside or with the lock given up; it
ends outside or with the lock given up if it succeeds. -/
theorem complete_upholds (hs : party.outside s) :
    (complete site).Upholds rules (fun _ s' => party.outside s' ∨ party.released s')
      (fun _ s' => party.outside s' ∨ party.inside s' ∨ party.released s') s := by
  have hlocal := Asks.keeps (x := localId) (Program.asks_perform trivial) h.outside hs
  refine Upholds.bind (hlocal.monoError fun _ _ => .inl).renamed fun found s hs => ?_
  cases found with
  | none => exact .inl hs
  | some id =>
      refine Upholds.bind ((h.peek_upholds hs).monoError fun _ _ => .inl).renamed ?_
      intro head s hs
      cases head with
      | none => exact .inl hs
      | some signal =>
          dsimp only
          split
          · refine Upholds.bind ((h.count_upholds hs).monoError fun _ _ => .inl).renamed ?_
            exact fun _ s hs => .inl hs
          · refine Upholds.bind ((h.consume_upholds id hs).monoError fun _ _ => .inl).renamed ?_
            intro taken s hs
            cases taken with
            | none => exact .inl hs
            | some _ =>
                refine Upholds.bind ((depart_upholds site h id hs).monoError fun _ _ => .inr) ?_
                exact fun _ s hs => .inr hs

end SwarmUpkeep.Handoff
