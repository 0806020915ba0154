import SwarmUpkeep.Proofs.Upkeep.Abort
import SwarmUpkeep.Proofs.World.Runs

/-!
# What becomes of the parameters of a deployment

Under a new template a deployment forgets what is not supplied again. So a run reads the parameters
and supplies every one that has a value, and the secret of the application where the provider keeps
its value to itself. If there is another one that it keeps to itself, the deployment stays as it is
and the run fails.
-/

namespace SwarmUpkeep

open Attempt Control

/-- A question by which the deployment is looked at or changed. -/
def Call.deploys : Call → Bool
  | .provider (.deployment _) => true
  | .provider (.updateDeployment _ _ _) => true
  | _ => false

/-- A question that leaves the deployment alone. -/
def Call.SparesDeployment (c : Call) : Prop :=
  c.deploys = false

theorem Call.IsNodeWork.sparesDeployment {c : Call} (h : c.IsNodeWork) : c.SparesDeployment := by
  unfold IsNodeWork at h
  unfold SparesDeployment Call.deploys
  split <;> simp_all [IsRenewal]

/-- A question by which the deployment is changed. -/
def Call.redeploys : Call → Bool
  | .provider (.updateDeployment _ _ _) => true
  | _ => false

theorem Call.deploys_of_redeploys {c : Call} (h : c.redeploys = true) : c.deploys = true := by
  unfold redeploys at h
  unfold deploys
  split at h <;> simp_all

namespace Redeployment

/-- What has been said to or of the deployment. -/
def log (record : List (Exchange Surroundings)) : List (Exchange Surroundings) :=
  record.filter (·.call.deploys)

/-- The parameters of the deployment are read, and supplied unless one is missing. -/
inductive Redeploys {α : Type} (config : Config) (template : Url) :
    List (Exchange Surroundings) → Except UpgradeError α → Prop
  | unread (e : ServiceError) (result : Except UpgradeError α) :
      Redeploys config template
        [⟨.provider (.deployment config.swarm.deploymentName), .error e⟩] result
  | missing {d : Deployment} {entry : String × Parameter}
      (h : (d.parameters.find? fun entry => Template.IsMissing config entry) = some entry) :
      Redeploys config template
        [⟨.provider (.deployment config.swarm.deploymentName), .ok d⟩]
        (.error (.missingParameter entry.1))
  | supplied {d : Deployment} (answer : Except ServiceError Operation)
      (result : Except UpgradeError α)
      (h : (d.parameters.find? fun entry => Template.IsMissing config entry) = none) :
      Redeploys config template
        [⟨.provider (.deployment config.swarm.deploymentName), .ok d⟩,
          ⟨.provider (.updateDeployment config.swarm.deploymentName template
            (Template.supplied config d.parameters)), answer⟩] result

variable {ε ε' α β : Type} {record : List (Exchange Surroundings)}

/-- What has been said of the deployment is the same for a run that ends with the errors of a
part. -/
theorem Redeploys.of_part {config : Config} {template : Url} {result : Except UpgradeError α}
    {result' : Except UpgradeError β} (h : Redeploys config template record result)
    (hresult : ∀ e, result = .error e → result' = .error e) :
    Redeploys config template record result' := by
  cases h with
  | unread e => exact .unread e _
  | missing hfind =>
      rw [hresult _ rfl]
      exact .missing hfind
  | supplied answer _ hfind => exact .supplied answer _ hfind

theorem log_append (record rest : List (Exchange Surroundings)) :
    log (record ++ rest) = log record ++ log rest :=
  List.filter_append ..

theorem filter_log (record : List (Exchange Surroundings)) :
    (log record).filter (·.call.redeploys) = record.filter (·.call.redeploys) := by
  rw [log, List.filter_filter]
  refine List.filter_congr fun e _ => ?_
  cases hredeploys : e.call.redeploys with
  | false => rfl
  | true => rw [Call.deploys_of_redeploys hredeploys]; rfl

theorem log_eq_nil {x : Control ε α} {r : Except ε α} (h : x.Asks Call.SparesDeployment)
    (hleads : Program.Leads x record (.done r)) : log record = [] := by
  refine List.filter_eq_nil_iff.mpr fun e he => ?_
  have hspares : e.call.deploys = false := Program.Asks.leads (I := Surroundings) h hleads e he
  simp [hspares]

/-- A part that leaves the deployment alone leaves the log to what follows it. -/
theorem log_bind {x : Control ε α} {f : α → Control ε β} {r : Except ε β}
    (hx : x.Asks Call.SparesDeployment)
    (h : Program.Leads (Attempt.bind x f) record (.done r)) :
    log record = [] ∨ ∃ a rest, log record = log rest ∧ Program.Leads (f a) rest (.done r) := by
  rcases leads_bind h with ⟨e, -, hx'⟩ | ⟨a, past, rest, rfl, hpast, hrest⟩
  · exact .inl (log_eq_nil hx hx')
  · refine .inr ⟨a, rest, ?_, hrest⟩
    rw [log_append, log_eq_nil hx hpast, List.nil_append]

theorem updateDeployment_redeploys {config : Config} {template : Url}
    {result : Except UpgradeError Unit}
    (h : Program.Leads (Upgrade.updateDeployment config template) record (.done result)) :
    Redeploys config template (log record) result := by
  rcases leads_bind h with ⟨e, rfl, hread⟩ | ⟨d, past, rest, rfl, hread, h⟩
  · obtain ⟨answer, hanswer, hread⟩ := leads_mapError hread
    rw [Program.leads_perform hread]
    cases answer with
    | ok d => cases hanswer
    | error e' => exact .unread e' _
  obtain ⟨answer, hanswer, hread⟩ := leads_mapError hread
  rw [Program.leads_perform hread, log_append]
  cases answer with
  | error e' => cases hanswer
  | ok _ =>
      cases hanswer
      rw [Template.carriedForward_eq] at h
      cases hfind : d.parameters.find? fun entry => Template.IsMissing config entry with
      | some entry =>
          rw [hfind] at h
          obtain ⟨rfl, hdone⟩ := Program.Leads.of_done h
          cases hdone
          exact .missing hfind
      | none =>
          rw [hfind] at h
          change Program.Leads (Attempt.bind ((Control.updateDeployment _ template
            (Template.supplied config d.parameters)).mapError UpgradeError.service) _) _ _ at h
          rcases leads_bind h with ⟨e, rfl, hupdate⟩ | ⟨operation, past, rest, rfl, hupdate, hrest⟩
          · obtain ⟨answer, _, hupdate⟩ := leads_mapError hupdate
            rw [Program.leads_perform hupdate]
            exact .supplied answer _ hfind
          · obtain ⟨answer, _, hupdate⟩ := leads_mapError hupdate
            have hasks : ((operation.await config.timings.providerPolicy
                ("update deployment " ++ config.swarm.deploymentName)).mapError
                  UpgradeError.operation).Asks Call.SparesDeployment := by
              refine Asks.mapError (Operation.await_asks ?_ (fun _ => ?_) _ _) <;> rfl
            rw [Program.leads_perform hupdate, log_append, log_eq_nil hasks hrest]
            exact .supplied answer _ hfind

/-- A run goes on after the deployment with its nodes only. -/
theorem afterwards_silent (site : Site) (selfId : Option String) (template : Url) :
    (do
      let progress ← Upgrade.upgradeSet site selfId .manager .start
      let progress ← Upgrade.upgradeSet site selfId .worker progress
      Upgrade.conclude site selfId template progress).Asks Call.SparesDeployment := by
  have hset : ∀ role progress, (Upgrade.upgradeSet site selfId role progress).Asks
      Call.SparesDeployment :=
    fun role progress => (Upgrade.upgradeSet_asks site selfId role progress).mono
      fun _ hc => hc.sparesDeployment
  refine (hset _ _).bind fun _ => (hset _ _).bind fun progress => ?_
  unfold Upgrade.conclude
  split
  · exact Asks.bind (Upgrade.handOff_asks (fun c hc => hc.isNodeWork.sparesDeployment) rfl
      (fun _ => rfl) _) fun _ => asks_pure _
  · exact Asks.bind (Asks.mapError (Lock.release_asks rfl)) fun _ => asks_pure _

theorem runLocked_redeploys {site : Site} {template : Url}
    {result : Except UpgradeError Upgrade.Report}
    (h : Program.Leads (Upgrade.runLocked site template) record (.done result)) :
    log record = [] ∨ Redeploys site.config template (log record) result := by
  have hself : (localId.mapError UpgradeError.service).Asks Call.SparesDeployment :=
    Asks.mapError (Program.asks_perform rfl)
  have hmanagers : ((members .here (some .manager)).mapError UpgradeError.service).Asks
      Call.SparesDeployment := Asks.mapError (Program.asks_perform rfl)
  rcases log_bind hself h with hnone | ⟨selfId, rest, hlog, h⟩
  · exact .inl hnone
  rw [hlog]
  rcases log_bind hmanagers h with hnone | ⟨managers, rest, hlog, h⟩
  · exact .inl hnone
  rw [hlog]
  rcases log_bind (asks_ofExcept _) h with hnone | ⟨_, rest, hlog, h⟩
  · exact .inl hnone
  rw [hlog]
  refine .inr ?_
  rcases leads_bind h with ⟨e, rfl, hupdate⟩ | ⟨_, past, rest, rfl, hupdate, h⟩
  · exact (updateDeployment_redeploys hupdate).of_part fun _ he => by rw [Except.error.inj he]
  · rw [log_append, log_eq_nil (afterwards_silent site selfId template) h, List.append_nil]
    exact (updateDeployment_redeploys hupdate).of_part fun _ he => by cases he

theorem validate_parses {raw : String} {allowInsecure : Bool} {template : Url}
    (h : Program.Leads (Template.validate raw allowInsecure) record (.done (.ok template))) :
    Url.parse raw = .ok template := by
  rcases leads_bind h with ⟨e, he, _⟩ | ⟨url, past, rest, rfl, hurl, hchecked⟩
  · cases he
  obtain ⟨placed, hplaced, hread⟩ := leads_mapError hurl
  obtain ⟨-, hdone⟩ := Program.Leads.of_done hread
  rcases leads_bind hchecked with ⟨e, he, _⟩ | ⟨body, past, rest, rfl, hbody, hended⟩
  · cases he
  have hurl : Template.place raw allowInsecure = .ok url := by
    cases placed with
    | error e => cases hplaced
    | ok a =>
      cases hplaced
      exact (Program.done.inj hdone).symm
  split at hended
  · obtain ⟨-, hdone⟩ := Program.Leads.of_done hended
    cases hdone
    exact Template.parse_of_place hurl
  · obtain ⟨-, hdone⟩ := Program.Leads.of_done hended
    cases hdone

theorem run_redeploys {site : Site} {raw : String} {result : Except UpgradeError Upgrade.Report}
    (h : Program.Leads (Upgrade.run site raw) record (.done result)) :
    log record = [] ∨
      ∃ template, Url.parse raw = .ok template ∧
        Redeploys site.config template (log record) result := by
  have hvalidate : (Template.validate raw site.config.swarm.allowInsecureTemplate).Asks
      Call.SparesDeployment := Template.validate_asks (fun _ => rfl) _ _
  have hacquire : ((Lock.acquire site.config.swarm.upgradeQueue).mapError UpgradeError.lock).Asks
      Call.SparesDeployment := Asks.mapError (Lock.acquire_asks rfl rfl)
  rcases leads_bind h with ⟨e, rfl, hvalid⟩ | ⟨template, past, rest, rfl, hvalid, h⟩
  · exact .inl (log_eq_nil hvalidate hvalid)
  rw [log_append, log_eq_nil hvalidate hvalid, List.nil_append]
  rcases log_bind hacquire h with hnone | ⟨got, rest, hlog, h⟩
  · exact .inl hnone
  rw [hlog]
  cases got with
  | alreadyLocked => exact .inl (log_eq_nil (asks_fail _) h)
  | acquired =>
      obtain ⟨ended, past, rest, rfl, houtcome, h⟩ := Program.Leads.through h
      obtain ⟨locked, past, none, rfl, hlocked, hnone⟩ := Program.Leads.through houtcome
      obtain ⟨rfl, hdone⟩ := hnone.of_done
      cases hdone
      cases locked with
      | ok report =>
          obtain ⟨rfl, hdone⟩ := h.of_done
          cases hdone
          rw [List.append_nil, List.append_nil]
          exact (runLocked_redeploys hlocked).imp_right fun hlocked =>
            ⟨template, validate_parses hvalid, hlocked⟩
      | error e =>
          -- What is said to give the lock up is not said of the deployment.
          obtain ⟨rfl, hgivenUp⟩ := Abort.abandon_leads h
          have hsilent : log rest = [] := by
            refine List.filter_eq_nil_iff.mpr fun e he => ?_
            simp [hgivenUp e he, Call.deploys]
          rw [log_append, hsilent, List.append_nil, List.append_nil]
          exact (runLocked_redeploys hlocked).imp_right fun hlocked =>
            ⟨template, validate_parses hvalid, hlocked⟩

end Redeployment

/-- A run that has read the deployment fails for the least parameter that is missing, if there is
one, and leaves the deployment as it is; otherwise it changes the deployment once, to the template
that it was given, and supplies the parameters again. -/
theorem Upgrade.run_supplies_parameters {σ : Type} (respond : σ → (c : Call) → c.Answer × σ) (s : σ)
    (site : Site) (raw : String) (d : Deployment) (hascending : d.parameters.Pairwise (·.1 < ·.1))
    (hread : ⟨.provider (.deployment site.config.swarm.deploymentName), .ok d⟩ ∈
      Program.transcript respond (Upgrade.run site raw) s) :
    ((∃ entry ∈ d.parameters, Template.IsMissing site.config entry) →
      (∃ entry ∈ d.parameters, Template.IsMissing site.config entry ∧
        (∀ other ∈ d.parameters, Template.IsMissing site.config other → entry.1 ≤ other.1) ∧
        (Program.run respond (Upgrade.run site raw) s).1 = .error (.missingParameter entry.1)) ∧
      (Program.transcript respond (Upgrade.run site raw) s).filter (·.call.redeploys) = []) ∧
    ((¬∃ entry ∈ d.parameters, Template.IsMissing site.config entry) →
      ∃ template parameters answer, Url.parse raw = .ok template ∧
        Template.Supplies site.config d.parameters parameters ∧
        (Program.transcript respond (Upgrade.run site raw) s).filter (·.call.redeploys) =
          [⟨.provider (.updateDeployment site.config.swarm.deploymentName template parameters),
            answer⟩]) := by
  have hleads := Program.transcript_leads respond (Upgrade.run site raw) s
  generalize Program.transcript respond (Upgrade.run site raw) s = record at hleads hread ⊢
  generalize (Program.run respond (Upgrade.run site raw) s).1 = result at hleads ⊢
  have hlogged : ⟨.provider (.deployment site.config.swarm.deploymentName), .ok d⟩ ∈
      Redeployment.log record := List.mem_filter.mpr ⟨hread, rfl⟩
  rw [← Redeployment.filter_log]
  rcases Redeployment.run_redeploys hleads with hnone | ⟨template, hparse, hredeploys⟩
  · rw [hnone] at hlogged
    cases hlogged
  generalize Redeployment.log record = said at hlogged hredeploys ⊢
  -- The deployment is read only once, so what has been read is what the run went by.
  cases hredeploys with
  | unread e => simp at hlogged
  | missing hfind =>
      obtain rfl : d = _ := by simpa using hlogged
      obtain ⟨hmem, hmissing, hleast⟩ := Template.least_of_find hascending hfind
      exact ⟨fun _ => ⟨⟨_, hmem, hmissing, hleast, rfl⟩, rfl⟩,
        fun hnot => absurd ⟨_, hmem, hmissing⟩ hnot⟩
  | supplied answer _ hfind =>
      obtain rfl : d = _ := by simpa using hlogged
      have hnone : ¬∃ entry ∈ d.parameters, Template.IsMissing site.config entry := by
        simpa using hfind
      have hsupplied := Template.supplied_supplies site.config hascending
      exact ⟨fun hsome => absurd hsome hnone,
        fun _ => ⟨template, _, answer, hparse, hsupplied, rfl⟩⟩

/-- The deployment of a name has been read. -/
def Exchange.reads (name : String) (d : Deployment) : Exchange Surroundings → Bool
  | ⟨.provider (.deployment asked), .ok found⟩ => asked == name && found == d
  | _ => false

theorem Exchange.mem_of_any_reads {name : String} {d : Deployment}
    {record : List (Exchange Surroundings)} (h : record.any (Exchange.reads name d) = true) :
    ⟨.provider (.deployment name), .ok d⟩ ∈ record := by
  obtain ⟨e, he, hreads⟩ := List.any_eq_true.mp h
  unfold Exchange.reads at hreads
  split at hreads
  · obtain ⟨rfl, rfl⟩ : _ ∧ _ := by simpa using hreads
    exact he
  · cases hreads

namespace World

/-- A deployment whose parameters can be supplied again. -/
def furnished : World :=
  { trial with
    deployment := ⟨"swarm", none,
      [("note", ⟨some .null, true⟩), ("secret", ⟨none, true⟩), ("size", ⟨none, false⟩)]⟩ }

theorem run_supplies_parameters_furnished :
    let upgrade := Upgrade.run trialSite "https://host/a.json"
    let d := furnished.deployment
    d.parameters.Pairwise (·.1 < ·.1) ∧
      ⟨.provider (.deployment "swarm"), .ok d⟩ ∈ upgrade.transcript respond furnished ∧
      (¬∃ entry ∈ d.parameters, Template.IsMissing trialSite.config entry) ∧
      ∃ template parameters answer, Url.parse "https://host/a.json" = .ok template ∧
        Template.Supplies trialSite.config d.parameters parameters ∧
        (upgrade.transcript respond furnished).filter (·.call.redeploys) =
          [⟨.provider (.updateDeployment "swarm" template parameters), answer⟩] := by
  intro upgrade d
  have hascending : d.parameters.Pairwise (·.1 < ·.1) := by decide +kernel
  have hread : (upgrade.transcript respond furnished).any (Exchange.reads "swarm" d) = true := by
    decide +kernel
  have hnone : ¬∃ entry ∈ d.parameters, Template.IsMissing trialSite.config entry := by
    decide +kernel
  exact ⟨hascending, Exchange.mem_of_any_reads hread, hnone,
    (Upgrade.run_supplies_parameters respond furnished trialSite "https://host/a.json" d hascending
      (Exchange.mem_of_any_reads hread)).2 hnone⟩

example : (({ trial with
    deployment := ⟨"swarm", none, [("key", ⟨none, true⟩), ("secret", ⟨none, true⟩)]⟩ } : World).run
      (Upgrade.run trialSite "https://host/a.json")).1 = .error (.missingParameter "key") := by
  decide +kernel

end World

end SwarmUpkeep
