import Mathlib.Data.List.ModifyLast
import SwarmUpkeep.Proofs.Program.Transcript
import SwarmUpkeep.Proofs.Upkeep.Checkup
import SwarmUpkeep.Proofs.Upkeep.Questions
import SwarmUpkeep.Proofs.World.Runs

/-!
# Who is declared dead

A check looks at the machines of a scale set one after the other. It asks for the view of a machine,
then perhaps for the time and for answers to probes; what it has been told by then is the evidence on
that machine. The evidence alone decides who counts as checked, as skipped and as dead, and who is
evicted and deleted.
-/

namespace SwarmUpkeep

open Attempt Control

/-! ## Evidence -/

/-- What has been told about a machine: the answer for its view, the time after that, and the answers
to its probes. -/
structure Evidence where
  view : Except ServiceError MachineView
  time : Option Instant
  probes : List Bool

namespace Evidence

/-- The machine was found running, and provisioned longer ago than the grace period. -/
def isSettled (timings : Timings) (e : Evidence) : Bool :=
  match e.view, e.time with
  | .ok view, some time =>
      view.power == .running && view.provisionedAt.any fun provisionedAt =>
        (timings.gracePeriod : Int) * 1000000000 < provisionedAt.nanosUntil time
  | _, _ => false

/-- The machine is settled, no member at its address is ready, and it has been probed as often as the
budget allows and has never answered. -/
def isDead (timings : Timings) (members : List Member) (row : MachineAddress) (e : Evidence) : Bool :=
  e.isSettled timings && !(members.any fun m => m.addr = row.privateIp && m.status.isReady) &&
    e.probes == List.replicate timings.probeAttempts false

/-- The verdict that the evidence calls for. -/
def verdict (timings : Timings) (members : List Member) (row : MachineAddress) (e : Evidence) :
    Health.Verdict :=
  if e.isSettled timings then (if e.isDead timings members row then .dead else .sound) else .skipped

variable {timings : Timings} {members : List Member} {row : MachineAddress} {e : Evidence}

theorem verdict_eq_skipped_iff :
    e.verdict timings members row = .skipped ↔ e.isSettled timings = false := by
  unfold verdict
  cases e.isSettled timings with
  | false => simp
  | true =>
      cases e.isDead timings members row with
      | false => simp
      | true => simp

theorem isSettled_of_isDead (h : e.isDead timings members row = true) :
    e.isSettled timings = true := by
  simp only [isDead, Bool.and_eq_true] at h
  exact h.1.1

theorem isDead_of_ready
    (h : (members.any fun m => m.addr = row.privateIp && m.status.isReady) = true) :
    e.isDead timings members row = false := by
  simp only [isDead, h, Bool.not_true, Bool.and_false, Bool.false_and]

theorem isDead_of_answer (h : true ∈ e.probes) : e.isDead timings members row = false := by
  have hne : e.probes ≠ List.replicate timings.probeAttempts false := by
    intro hsilent
    simp [hsilent] at h
  simp [isDead, hne]

theorem isDead_of_silence (hsettled : e.isSettled timings = true)
    (hready : (members.any fun m => m.addr = row.privateIp && m.status.isReady) = false)
    (hsilent : e.probes = List.replicate timings.probeAttempts false) :
    e.isDead timings members row = true := by
  simp [isDead, hsettled, hready, hsilent]

theorem verdict_eq_dead_iff :
    e.verdict timings members row = .dead ↔ e.isDead timings members row = true := by
  unfold verdict
  constructor
  · intro h
    split at h
    next =>
      split at h
      next hdead => exact hdead
      next => cases h
    next => cases h
  · intro h
    rw [if_pos (isSettled_of_isDead h), if_pos h]

theorem verdict_eq_sound (hsettled : e.isSettled timings = true)
    (halive : e.isDead timings members row = false) : e.verdict timings members row = .sound := by
  simp [verdict, hsettled, halive]

end Evidence

/-! ## The account of a check -/

/-- What is known from the answers so far: the machines of a scale set, their interfaces and the
members of a role, and the evidence on the machines that have been looked at. -/
structure Diagnosis where
  machines : List Machine
  interfaces : List NetworkInterface
  members : List Member
  evidence : List Evidence

namespace Diagnosis

/-- The account of nothing. -/
def start : Diagnosis :=
  ⟨[], [], [], []⟩

/-- The account after one more answer. -/
def next (d : Diagnosis) : Exchange Surroundings → Diagnosis
  | ⟨.provider (.machines _), .ok machines⟩ => { d with machines }
  | ⟨.provider (.interfaces _), .ok interfaces⟩ => { d with interfaces }
  | ⟨.swarm _ (.members _), .ok members⟩ => { d with members }
  | ⟨.provider (.view _ _), view⟩ => { d with evidence := d.evidence ++ [⟨view, none, []⟩] }
  | ⟨.now, time⟩ =>
      { d with evidence := d.evidence.modifyLast fun e => { e with time := some time } }
  | ⟨.probe _, alive⟩ =>
      { d with evidence := d.evidence.modifyLast fun e => { e with probes := e.probes ++ [alive] } }
  | _ => d

/-- The machines with their addresses. -/
def table (d : Diagnosis) : List MachineAddress :=
  Resolution.addressed d.machines d.interfaces

/-- The machines that have been looked at, with the evidence on them. -/
def findings (d : Diagnosis) : List (MachineAddress × Evidence) :=
  d.table.zip d.evidence

/-- The dead machines, in the order of the table. -/
def dead (timings : Timings) (d : Diagnosis) : List MachineAddress :=
  (d.findings.filter fun (row, e) => e.isDead timings d.members row).map (·.1)

/-- The member of this identifier is listed at the address of a dead machine. -/
def Condemns (timings : Timings) (d : Diagnosis) (id : String) : Prop :=
  ∃ row ∈ d.dead timings, ∃ m ∈ d.members, m.addr = row.privateIp ∧ m.id = id

/-- What may be asked by the account of what has been answered. -/
def Permits (config : Config) (set : String) (role : Role) (d : Diagnosis) : Call → Prop
  | .queue call => call = .exists config.swarm.upgradeQueue
  | .provider (.machines asked) => asked = set ∧ d.evidence = []
  | .provider (.interfaces asked) => asked = set ∧ d.evidence = []
  | .swarm engine (.members asked) => engine = .here ∧ asked = some role ∧ d.evidence = []
  | .provider (.view asked machine) =>
      asked = set ∧ d.table[d.evidence.length]?.map (·.machineId) = some machine
  | .now => d.evidence.getLast?.map (·.time) = some none
  | .probe addr => d.findings.getLast?.map (·.1.privateIp) = some addr
  | .swarm engine (.demote id) => engine = .here ∧ role = .manager ∧ d.Condemns config.timings id
  | .swarm engine (.remove id) => engine = .here ∧ d.Condemns config.timings id
  | .provider (.delete asked machine) =>
      asked = set ∧ ∃ row ∈ d.dead config.timings, row.machineId = machine
  | .provider (.capacity asked) => asked = set
  | .provider (.setCapacity asked _) => asked = set
  | .provider (.status _) => True
  | .pause _ => True
  | _ => False

/-- All machines have been looked at, and the report tells what has been found out about them, each
time in the order of the table. -/
structure Tells (timings : Timings) (d : Diagnosis) (report : Health.Report) : Prop where
  complete : d.findings.map (·.1) = d.table
  checked : report.checked =
    (d.findings.filter fun f => f.2.isSettled timings).map (·.1.computerName)
  skipped : report.skipped =
    (d.findings.filter fun f => !f.2.isSettled timings).map (·.1.computerName)
  dead : report.dead = (d.dead timings).map (·.computerName)

/-- The account with the evidence on one more machine. -/
def sees (d : Diagnosis) (e : Evidence) : Diagnosis :=
  { d with evidence := d.evidence ++ [e] }

/-- The verdicts on the machines that have been looked at. -/
def verdicts (timings : Timings) (d : Diagnosis) : List (MachineAddress × Health.Verdict) :=
  d.findings.map fun f => (f.1, f.2.verdict timings d.members f.1)

/-- The rules by which the account decides what may be asked. -/
abbrev rules (config : Config) (set : String) (role : Role) : Rules Surroundings Diagnosis :=
  .accounted next (Permits config set role)

variable {config : Config} {timings : Timings} {set : String} {role : Role} {d : Diagnosis}
variable {row : MachineAddress} {e : Evidence} {c : Call} {ε α : Type}

/-! ## One machine more -/

theorem zip_concat_of_getElem? {β : Type} {as : List α} {bs : List β} {a : α}
    (h : as[bs.length]? = some a) (b : β) : as.zip (bs ++ [b]) = as.zip bs ++ [(a, b)] := by
  induction bs generalizing as with
  | nil =>
      cases as with
      | nil => simp at h
      | cons first rest =>
          simp only [List.length_nil, List.getElem?_cons_zero, Option.some.injEq] at h
          simp [h]
  | cons other bs ih =>
      cases as with
      | nil => simp at h
      | cons first rest =>
          simp only [List.length_cons, List.getElem?_cons_succ] at h
          simp [ih h]

theorem findings_sees (hrow : d.table[d.evidence.length]? = some row) (e : Evidence) :
    (d.sees e).findings = d.findings ++ [(row, e)] :=
  zip_concat_of_getElem? hrow e

theorem verdicts_sees (hrow : d.table[d.evidence.length]? = some row) (e : Evidence) :
    (d.sees e).verdicts timings = d.verdicts timings ++ [(row, e.verdict timings d.members row)] := by
  unfold verdicts
  rw [findings_sees hrow, List.map_append]
  rfl

theorem next_now (time : Instant) :
    (d.sees e).next ⟨.now, time⟩ = d.sees { e with time := some time } := by
  simp only [next, sees, List.modifyLast_concat]

theorem next_probe (addr : Address) (alive : Bool) :
    (d.sees e).next ⟨.probe addr, alive⟩ = d.sees { e with probes := e.probes ++ [alive] } := by
  simp only [next, sees, List.modifyLast_concat]

/-- The evidence on a machine begins with the answer for its view. -/
theorem view_upholds (hrow : d.table[d.evidence.length]? = some row) :
    ((view set row.machineId).outcome : Control ε _).Upholds (rules config set role)
      (fun found d' => d' = d.sees ⟨found, none, []⟩) (fun _ _ => False) d := by
  apply upholds_outcome.mpr
  constructor
  · refine ⟨rfl, ?_⟩
    rw [hrow]
    rfl
  · rintro answer d' rfl
    cases answer with
    | error e => rfl
    | ok view => rfl

/-- Whether a machine is settled shows in the evidence. -/
theorem eligible_upholds (hrow : d.table[d.evidence.length]? = some row) :
    (Health.eligible config set row).Upholds (rules config set role)
      (fun settled d' => ∃ e, d' = d.sees e ∧ e.probes = [] ∧ settled = e.isSettled config.timings)
      (fun _ _ => True) d := by
  refine Upholds.bind ((view_upholds hrow).monoError fun _ _ h => h.elim) ?_
  rintro found d' rfl
  split
  next => exact ⟨_, rfl, rfl, rfl⟩
  next => trivial
  next view =>
    split
    next provisionedAt hpower hprovisioned =>
      refine Upholds.bind (m := fun time d' => d' = d.sees ⟨.ok view, some time, []⟩) ?_ ?_
      · have hpermits : (d.sees ⟨.ok view, none, []⟩).Permits config set role .now := by
          simp [Permits, sees]
        apply upholds_lift.mpr
        refine ⟨hpermits, ?_⟩
        rintro time d' rfl
        exact next_now time
      · rintro time d' rfl
        refine ⟨_, rfl, rfl, ?_⟩
        simp [Evidence.isSettled, Health.isSettled, hpower, hprovisioned]
    next => exact ⟨_, rfl, rfl, rfl⟩

/-- So many probes of a machine have been made in vain. -/
def Unanswered (d : Diagnosis) (e : Evidence) (made : Nat) (d' : Diagnosis) : Prop :=
  d' = d.sees { e with probes := List.replicate made false }

/-- A machine has answered a probe. -/
def Answered (d : Diagnosis) (e : Evidence) (d' : Diagnosis) : Prop :=
  ∃ probes, d' = d.sees { e with probes } ∧ true ∈ probes

theorem probe_counts (hrow : d.table[d.evidence.length]? = some row) (e : Evidence) :
    CountedChecks (rules config set role) (Unanswered d e) (fun _ => Answered d e) (do
      if ← probe row.privateIp then return some () else return none :
        Attempt Surroundings Empty (Option Unit)) := by
  rintro made d' rfl
  refine Upholds.bind (m := fun alive d' =>
    d' = d.sees { e with probes := List.replicate made false ++ [alive] }) ?_ ?_
  · have hpermits : (d.sees { e with probes := List.replicate made false }).Permits config set role
        (.probe row.privateIp) := by
      simp [Permits, findings_sees hrow]
    apply upholds_lift.mpr
    refine ⟨hpermits, ?_⟩
    rintro alive d' rfl
    exact next_probe row.privateIp alive
  · rintro alive d' rfl
    cases alive with
    | true =>
        constructor
        · intro h
          cases h
        · intro _ _
          exact ⟨_, rfl, by simp⟩
    | false =>
        constructor
        · intro _
          rw [← List.replicate_succ']
          rfl
        · intro _ h
          cases h

/-- A machine that answers none of its probes has been probed as often as the budget allows. -/
theorem answers_upholds (hrow : d.table[d.evidence.length]? = some row) (hprobes : e.probes = [])
    (policy : RetryPolicy) :
    (Liveness.answers row.privateIp policy).Upholds (rules config set role)
      (fun alive d' => if alive then Answered d e d' else Unanswered d e policy.attempts d')
      (d.sees e) := by
  have hpause : ∀ made, Pauses (rules config set role) (Unanswered d e made) := by
    rintro made d' ms rfl
    refine ⟨trivial, ?_⟩
    rintro answer d' rfl
    rfl
  have hstart : Unanswered d e 0 (d.sees e) := by
    simp only [Unanswered, List.replicate_zero, ← hprobes]
  refine Program.Upholds.bind (pollUntil_counts (probe_counts hrow e) hpause hstart) ?_
  intro result d' hresult
  cases result with
  | ok value => exact hresult
  | error error =>
      cases error with
      | exhausted what attempts lastError => exact hresult
      | failed never => exact never.elim

/-- A ready member at an address counts before all others there. -/
theorem any_isReady_statusAt (members : List Member) (addr : Address) :
    (Health.statusAt members addr).any Status.isReady =
      members.any fun m => m.addr = addr && m.status.isReady := by
  unfold Health.statusAt
  rw [← List.any_filter]
  generalize members.filter (fun m => m.addr = addr) = there
  cases hfound : there.find? (·.status.isReady) with
  | some m =>
      have hready := List.find?_some hfound
      have hany : there.any (·.status.isReady) = true :=
        List.any_eq_true.mpr ⟨m, List.mem_of_find?_eq_some hfound, hready⟩
      simp only [hfound, Option.some_or, Option.map_some, Option.any_some, hany]
      exact hready
  | none =>
      have hnone := List.find?_eq_none.mp hfound
      have hany : there.any (·.status.isReady) = false := List.any_eq_false.mpr hnone
      simp only [hfound, Option.none_or, hany]
      cases there with
      | nil => rfl
      | cons first rest => simpa using hnone first List.mem_cons_self

theorem examine_upholds (hrow : d.table[d.evidence.length]? = some row) :
    (Health.examine config set d.members row).Upholds (rules config set role)
      (fun verdict d' => ∃ e, d' = d.sees e ∧ verdict = e.verdict config.timings d.members row)
      (fun _ _ => True) d := by
  refine (eligible_upholds hrow).bind ?_
  rintro settled d' ⟨e, rfl, hprobes, rfl⟩
  cases hsettled : e.isSettled config.timings with
  | false => exact ⟨e, rfl, (Evidence.verdict_eq_skipped_iff.mpr hsettled).symm⟩
  | true =>
      simp only [Bool.not_true, Bool.false_eq_true, if_false]
      have hprobed : ∀ probes, ({ e with probes } : Evidence).isSettled config.timings = true :=
        fun _ => hsettled
      rw [any_isReady_statusAt]
      cases hready : d.members.any fun m => m.addr = row.privateIp && m.status.isReady with
      | true =>
          exact ⟨e, rfl, (Evidence.verdict_eq_sound hsettled (Evidence.isDead_of_ready hready)).symm⟩
      | false =>
          refine Upholds.bind (upholds_lift.mpr (answers_upholds hrow hprobes _)) ?_
          intro alive d' halive
          cases alive with
          | true =>
              obtain ⟨probes, rfl, htrue⟩ := halive
              refine ⟨_, rfl, (Evidence.verdict_eq_sound (hprobed probes) ?_).symm⟩
              exact Evidence.isDead_of_answer htrue
          | false =>
              obtain rfl := halive
              refine ⟨_, rfl, (Evidence.verdict_eq_dead_iff.mpr ?_).symm⟩
              exact Evidence.isDead_of_silence (hprobed _) hready rfl

/-! ## All machines -/

/-- The machines and the members are known, and so many machines have been looked at. -/
structure Knows (table : List MachineAddress) (members : List Member) (seen : Nat)
    (d : Diagnosis) : Prop where
  table : d.table = table
  members : d.members = members
  seen : d.evidence.length = seen

/-- The machines up to one have been looked at, and these are the verdicts on them. -/
def Judges (timings : Timings) (table : List MachineAddress) (members : List Member)
    (past : List MachineAddress) (verdicts : List (MachineAddress × Health.Verdict))
    (d : Diagnosis) : Prop :=
  d.Knows table members past.length ∧ verdicts = d.verdicts timings

variable {table past rest : List MachineAddress} {members : List Member}
variable {verdicts : List (MachineAddress × Health.Verdict)}

theorem Judges.examine_upholds (hd : d.Judges config.timings table members past verdicts)
    (htable : table = past ++ row :: rest) :
    (Health.examine config set members row).Upholds (rules config set role)
      (fun verdict => Judges config.timings table members (past ++ [row])
        (verdicts ++ [(row, verdict)]))
      (fun _ _ => True) d := by
  obtain ⟨hknows, rfl⟩ := hd
  obtain rfl := hknows.members
  have hrow : d.table[d.evidence.length]? = some row := by
    rw [hknows.table, hknows.seen, htable]
    simp
  refine (Diagnosis.examine_upholds hrow).mono ?_ fun _ _ h => h
  rintro verdict d' ⟨e, rfl, rfl⟩
  have hknown : (d.sees e).Knows table d.members (past ++ [row]).length := by
    refine ⟨hknows.table, rfl, ?_⟩
    simp [sees, hknows.seen]
  exact ⟨hknown, (verdicts_sees hrow e).symm⟩

theorem namesWhere_verdicts (holds : Health.Verdict → Bool) :
    Health.namesWhere holds (d.verdicts timings) =
      (d.findings.filter fun f => holds (f.2.verdict timings d.members f.1)).map
        (·.1.computerName) := by
  simp only [Health.namesWhere, verdicts, List.filter_map, List.map_map]
  rfl

theorem deadRows_verdicts : Health.deadRows (d.verdicts timings) = d.dead timings := by
  simp only [Health.deadRows, verdicts, List.filter_map, List.map_map, dead]
  congr 1
  apply List.filter_congr
  intro f _
  rw [Bool.eq_iff_iff]
  exact decide_eq_true_iff.trans Evidence.verdict_eq_dead_iff

theorem tells_reportOf (hall : d.evidence.length = d.table.length) (set : String)
    (newCapacity : Option Nat) :
    d.Tells timings (Health.reportOf set (d.verdicts timings) newCapacity) := by
  have hskipped : ∀ f : MachineAddress × Evidence,
      (f.2.verdict timings d.members f.1 = .skipped) ↔ f.2.isSettled timings = false :=
    fun _ => Evidence.verdict_eq_skipped_iff
  constructor
  · exact List.map_fst_zip (Nat.le_of_eq hall.symm)
  · simp only [Health.reportOf, namesWhere_verdicts, hskipped, decide_not]
    congr 1
    apply List.filter_congr
    intro f _
    cases f.2.isSettled timings <;> rfl
  · simp only [Health.reportOf, namesWhere_verdicts, hskipped]
    congr 1
    apply List.filter_congr
    intro f _
    cases f.2.isSettled timings <;> rfl
  · rw [Health.reportOf, deadRows_verdicts]

/-! ## Questions that find out nothing -/

/-- A question for the lock, for a replacement or for what has become of one, or letting time pass. -/
def IsSilent : Call → Prop
  | .queue _ => True
  | .swarm _ (.demote _) => True
  | .swarm _ (.remove _) => True
  | .provider (.delete _ _) => True
  | .provider (.capacity _) => True
  | .provider (.setCapacity _ _) => True
  | .provider (.status _) => True
  | .pause _ => True
  | _ => False

theorem next_of_isSilent (hc : IsSilent c) (answer : c.Answer) : d.next ⟨c, answer⟩ = d := by
  unfold IsSilent at hc
  split at hc <;> first | rfl | exact hc.elim

theorem silent_upholds {x : Control ε α}
    (hx : x.Asks fun c => IsSilent c ∧ d.Permits config set role c) :
    x.Upholds (rules config set role) (fun _ d' => d' = d) (fun _ _ => True) d := by
  have hkeeps : ∀ c, IsSilent c ∧ d.Permits config set role c →
      (rules config set role).Keeps (· = d) c := by
    rintro c ⟨hsilent, hpermits⟩ d' rfl
    refine ⟨hpermits, ?_⟩
    rintro answer d'' rfl
    exact next_of_isSilent hsilent answer
  exact Upholds.monoError (hx.keeps hkeeps rfl) fun _ _ _ => trivial

/-- The members at the address of a dead machine may be evicted, and the machine deleted. -/
theorem replace_upholds (hrow : row ∈ d.dead config.timings) :
    (Health.replace config set role d.members row).Upholds (rules config set role)
      (fun _ d' => d' = d) (fun _ _ => True) d := by
  apply silent_upholds
  apply Health.replace_asks
  · intro m hm haddr hrole
    exact ⟨trivial, rfl, hrole, row, hrow, m, hm, haddr, rfl⟩
  · intro m hm haddr
    exact ⟨trivial, rfl, row, hrow, m, hm, haddr, rfl⟩
  · exact ⟨trivial, rfl, row, hrow, rfl⟩
  · exact fun _ => ⟨trivial, trivial⟩
  · exact fun _ => ⟨trivial, trivial⟩

theorem scaleUp_upholds (deleted : Nat) :
    (Health.scaleUp config set deleted).Upholds (rules config set role) (fun _ d' => d' = d)
      (fun _ _ => True) d := by
  apply silent_upholds
  apply Health.scaleUp_asks
  · exact ⟨trivial, rfl⟩
  · exact fun _ => ⟨trivial, rfl⟩
  · exact fun _ => ⟨trivial, trivial⟩
  · exact fun _ => ⟨trivial, trivial⟩

/-! ## A check -/

theorem isHeld_upholds :
    (Lock.isHeld config.swarm.upgradeQueue).Upholds (rules config set role) (fun _ d => d = start)
      (fun _ _ => True) start :=
  silent_upholds (Lock.isHeld_asks ⟨trivial, rfl⟩)

theorem machineTable_upholds :
    (Resolution.machineTable set).Upholds (rules config set role)
      (fun table d => d.Knows table [] 0) (fun _ _ => True) start := by
  have hmachines : (Control.machines set).Upholds (rules config set role)
      (fun machines d => d = { start with machines }) (fun _ _ => True) start := by
    refine ⟨⟨rfl, rfl⟩, ?_⟩
    rintro answer d rfl
    cases answer with
    | error e => trivial
    | ok machines => rfl
  have hinterfaces : ∀ machines, (Control.interfaces set).Upholds (rules config set role)
      (fun interfaces d => d = ⟨machines, interfaces, [], []⟩) (fun _ _ => True)
      { start with machines } := by
    intro machines
    refine ⟨⟨rfl, rfl⟩, ?_⟩
    rintro answer d rfl
    cases answer with
    | error e => trivial
    | ok interfaces => rfl
  refine hmachines.bind ?_
  rintro machines d rfl
  refine (hinterfaces machines).bind ?_
  rintro interfaces d rfl
  exact ⟨rfl, rfl, rfl⟩

theorem members_upholds (hd : d.Knows table [] 0) :
    (Control.members .here (some role)).Upholds (rules config set role)
      (fun members => Judges timings table members [] []) (fun _ _ => True) d := by
  have hnone : d.evidence = [] := List.length_eq_zero_iff.mp hd.seen
  refine ⟨⟨rfl, rfl, hnone⟩, ?_⟩
  rintro answer d' rfl
  cases answer with
  | error e => trivial
  | ok members =>
      refine ⟨⟨hd.table, rfl, hd.seen⟩, ?_⟩
      simp [next, verdicts, findings, hnone]

/-- Once all machines have been looked at, the verdicts make up a report. -/
theorem Judges.tells (hd : d.Judges timings table members table verdicts) (set : String)
    (newCapacity : Option Nat) : d.Tells timings (Health.reportOf set verdicts newCapacity) := by
  obtain ⟨⟨rfl, rfl, hall⟩, rfl⟩ := hd
  exact tells_reportOf hall set newCapacity

theorem check_course (config : Config) (set : String) (role : Role) :
    Health.Course (rules config set role) config set role
      { free := fun d => d = start
        tabled := fun table d => d.Knows table [] 0
        examined := Judges config.timings }
      (fun outcome d => ∀ report, outcome = .checked report → d.Tells config.timings report)
      (fun _ => True) where
  table := by
    rintro d rfl
    exact machineTable_upholds
  members _ _ hd := members_upholds hd
  examine _ _ _ _ _ _ _ htable hd := hd.examine_upholds htable
  replace := by
    intro table members verdicts row d hrow hd
    obtain ⟨⟨rfl, rfl, hall⟩, rfl⟩ := hd
    rw [deadRows_verdicts] at hrow
    refine (replace_upholds hrow).mono ?_ fun _ _ h => h
    rintro _ d' rfl
    exact ⟨⟨rfl, rfl, hall⟩, rfl⟩
  scaleUp := by
    intro table members verdicts d hd
    refine (scaleUp_upholds _).mono ?_ fun _ _ h => h
    rintro capacity d' rfl report ⟨⟩
    exact hd.tells set (some capacity)
  noneDead := by
    rintro table members verdicts d hd _ report ⟨⟩
    exact hd.tells set none

theorem check_upholds (config : Config) (set : String) (role : Role) :
    (Health.check config set role).Upholds (rules config set role)
      (fun outcome d => ∀ report, outcome = .checked report → d.Tells config.timings report)
      (fun _ _ => True) start := by
  apply (check_course config set role).check_upholds
  refine isHeld_upholds.mono ?_ fun _ _ h => h
  rintro held d rfl
  cases held with
  | true =>
      intro report h
      cases h
  | false => rfl

end Diagnosis

theorem Config.one_le_probeAttempts {config : Config} (h : config.validate = .ok ()) :
    1 ≤ config.timings.probeAttempts := by
  unfold validate at h
  split at h
  next => cases h
  next =>
    split at h
    next => cases h
    next =>
      split at h
      next => cases h
      next hprobes => exact Nat.one_le_iff_ne_zero.mpr hprobes

/-- Whatever is answered, a check of a valid configuration evicts only members at the address of a
dead machine and deletes only such a machine, and its report tells of all machines which were settled
and which are dead. -/
theorem check_declares_dead {σ : Type} (respond : σ → (c : Call) → c.Answer × σ) (s : σ)
    (config : Config) (set : String) (role : Role) (hvalid : config.validate = .ok ()) :
    let record := Program.transcript respond (Health.check config set role) s
    let account := List.foldl Diagnosis.next Diagnosis.start
    1 ≤ config.timings.probeAttempts ∧
      InOrder (fun past => (account past).Permits config set role) record ∧
      ∀ report, (Program.run respond (Health.check config set role) s).1 = .ok (.checked report) →
        (account record).Tells config.timings report := by
  intro record account
  have hcheck := Diagnosis.check_upholds config set role
  refine ⟨Config.one_le_probeAttempts hvalid, ?_, ?_⟩
  · exact Program.Upholds.inOrder_accounted hcheck respond s
  · intro report hreport
    have hpost := Program.Upholds.transcript hcheck respond s
    rw [hreport] at hpost
    exact hpost report rfl

namespace World

/-- Settings with which a run may start. -/
def soundConfig : Config :=
  { trialSite.config with
    cloud := ⟨"subscription", "group", "tenant", "app", ⟨"secret"⟩, "account"⟩ }

/-- A worker that is down and answers no probe beside one that has just been provisioned. -/
def afflicted : World :=
  { trial with
    members := [⟨"w1", "host-1", .v4 10 0 1 4, .worker, .down, false⟩]
    sets :=
      [("workers",
        ⟨.worker, 2,
          [⟨"1", "host-1", [⟨.v4 10 0 1 4, true⟩], .running, .succeeded, some ⟨0, 0⟩⟩,
            ⟨"2", "host-2", [⟨.v4 10 0 1 5, true⟩], .running, .succeeded, some ⟨3600, 0⟩⟩], []⟩)]
    probes := [(.v4 10 0 1 4, [false])]
    clock := ⟨3600, 0⟩ }

theorem check_declares_dead_afflicted :
    let check := Health.check soundConfig "workers" .worker
    let account := List.foldl Diagnosis.next .start (check.transcript respond afflicted)
    soundConfig.validate = .ok () ∧
      account.dead soundConfig.timings = [⟨"1", .v4 10 0 1 4, "host-1"⟩] ∧
      ∃ report, (check.run respond afflicted).1 = .ok (.checked report) ∧
        report.checked = ["host-1"] ∧ report.skipped = ["host-2"] ∧
        account.Tells soundConfig.timings report := by
  intro check account
  have hvalid : soundConfig.validate = .ok () := by rfl
  have hdead : account.dead soundConfig.timings = [⟨"1", .v4 10 0 1 4, "host-1"⟩] := by
    decide +kernel
  have hrun : (check.run respond afflicted).1 =
      .ok (.checked ⟨"workers", ["host-1"], ["host-2"], ["host-1"], some 2⟩) := by rfl
  have hdeclares := check_declares_dead respond afflicted soundConfig "workers" .worker hvalid
  exact ⟨hvalid, hdead, _, hrun, rfl, rfl, hdeclares.2.2 _ hrun⟩

end World

end SwarmUpkeep
