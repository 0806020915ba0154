import SwarmUpkeep.Proofs.Upkeep.Leadership
import SwarmUpkeep.Proofs.World.Runs

/-!
# How a host steps down

A manager that completes its own upgrade lists the managers once. One other manager that is ready is
enough for it to demote itself, and where no other manager is ready it clears the leader record and
leaves as it is, if the swarm may be reset. Managers that are down count neither way: the host steps
down beside them, and it resets the swarm as if they were not there. An upgrade is stricter with the
managers that it demotes.
-/

namespace SwarmUpkeep

open Attempt Control

/-! ## The account of a departure -/

/-- Another manager is ready. -/
def HasReadyPeer (id : String) (managers : List Member) : Prop :=
  ∃ m ∈ managers, m.id ≠ id ∧ m.status.isReady = true

/-- Whether a question deletes the leader record. -/
def Call.clearsLeader (tables : RecordTables) : Call → Bool
  | .table (.delete name partition key) => Records.isLeaderRow tables name partition key
  | _ => false

/-- What a host knows on its way out of the swarm: who it is and in which role, the managers if the
latest answer lists them, the managers that were listed last, and whether it has been demoted and the
leader record is gone. -/
structure Departure where
  own : Option String
  role : Option Role
  heard : Option (List Member)
  listing : Option (List Member)
  demoted : Bool
  cleared : Bool

namespace Departure

/-- The account of nothing. -/
def start : Departure :=
  ⟨none, none, none, none, false, false⟩

/-- The account after one more answer. -/
def next (tables : RecordTables) (d : Departure) (e : Exchange Surroundings) : Departure :=
  let d := { d with heard := none }
  match e with
  | ⟨.swarm _ .localId, .ok own⟩ => { d with own }
  | ⟨.swarm _ (.inspect _), .ok m⟩ => { d with role := some m.role }
  | ⟨.swarm .here (.members (some .manager)), .ok managers⟩ =>
      { d with heard := some managers, listing := some managers }
  | ⟨.swarm _ (.demote id), .ok _⟩ => { d with demoted := d.demoted || d.own == some id }
  | ⟨.table (.delete table partition key), answer⟩ =>
      if Records.isLeaderRow tables table partition key ∧ (ignoreNotFound answer).isOk then
        { d with cleared := true }
      else d
  | _ => d

/-- A host demotes itself just where the managers have been listed and another one is ready. -/
def Defers (d : Departure) (c : Call) : Prop :=
  ∀ engine id, c = .swarm engine (.demote id) ↔
    engine = .here ∧ d.own = some id ∧ ∃ managers, d.heard = some managers ∧ HasReadyPeer id managers

/-- No other manager of a listing is ready. -/
def IsUnrelieved (d : Departure) (managers : List Member) : Prop :=
  ∃ id, d.own = some id ∧ ¬HasReadyPeer id managers

/-- A manager has been demoted, or the swarm may be reset and it has cleared the leader record, after
a listing in which no other manager is ready. -/
def MayLeave (settings : SwarmSettings) (d : Departure) : Prop :=
  d.role = some .manager → d.demoted = true ∨
    settings.resetSingleManager = true ∧ d.cleared = true ∧
      ∃ managers, d.listing = some managers ∧ d.IsUnrelieved managers

/-- A host clears the leader record just where the managers have been listed, no other one is ready
and the swarm may be reset, and it leaves only when it may. -/
structure Resets (settings : SwarmSettings) (d : Departure) (c : Call) : Prop where
  clears : c.clearsLeader settings.recordTables = true ↔
    settings.resetSingleManager = true ∧ ∃ managers, d.heard = some managers ∧ d.IsUnrelieved managers
  leaves : ∀ engine, c = .swarm engine .leave → d.MayLeave settings

/-- Where a departure ends with a listing, there was nothing to be done after it. -/
def IsSettled (settings : SwarmSettings) (d : Departure) : Prop :=
  ∀ id managers, d.own = some id → d.heard = some managers →
    ¬HasReadyPeer id managers ∧ settings.resetSingleManager = false

theorem isSettled_of_heard {settings : SwarmSettings} {d : Departure} (h : d.heard = none) :
    d.IsSettled settings := by
  intro id managers _ hheard
  rw [h] at hheard
  cases hheard

end Departure

/-! ## Questions that are no part of stepping down -/

/-- A question that tells nothing of the managers or of this host, demotes nobody, leaves the leader
record and does not leave the swarm. -/
def Call.IsPlain (tables : RecordTables) : Call → Prop
  | .swarm engine (.members _) => engine ≠ .here
  | .swarm _ .localId => False
  | .swarm _ (.inspect _) => False
  | .swarm _ (.demote _) => False
  | .swarm _ .leave => False
  | .table (.delete name partition key) => Records.isLeaderRow tables name partition key = false
  | _ => True

namespace Call

variable {tables : RecordTables} {c : Call}

theorem IsSurvey.isPlain (h : c.IsSurvey) : c.IsPlain tables := by
  unfold IsSurvey at h
  unfold IsPlain
  split at h <;> simp_all

theorem isPlain_table {call : TableCall} (h : SparesLeader tables (.table call)) :
    IsPlain tables (.table call) := by
  cases call with
  | get table partition key => trivial
  | query table partition => trivial
  | upsert table row => trivial
  | delete table partition key => exact h

theorem Drains.isPlain {hostname : String} (h : c.Drains hostname) : c.IsPlain tables := by
  have hspares : c.SparesLeader tables := h.sparesLeader
  unfold Drains at h
  split at h
  · trivial
  · exact isPlain_table hspares
  · trivial
  · exact h.elim

theorem IsFiling.isPlain (h : c.IsFiling) : c.IsPlain tables :=
  have hdrains : c.Drains "" := h.drains
  hdrains.isPlain

theorem IsPlain.ne_demote (h : c.IsPlain tables) (engine : Engine) (id : String) :
    c ≠ .swarm engine (.demote id) := by
  rintro rfl
  exact h

theorem IsPlain.ne_leave (h : c.IsPlain tables) (engine : Engine) : c ≠ .swarm engine .leave := by
  rintro rfl
  exact h

theorem IsPlain.clearsLeader_eq (h : c.IsPlain tables) : c.clearsLeader tables = false := by
  unfold clearsLeader
  split
  · exact h
  · rfl

end Call

namespace Departure

variable {settings : SwarmSettings} {tables : RecordTables} {d : Departure} {c : Call}
variable {id : String} {managers : List Member}

/-- What may be asked by the account of what has been answered. -/
def Permits (settings : SwarmSettings) (d : Departure) (c : Call) : Prop :=
  d.Defers c ∧ d.Resets settings c

/-- The rules by which the account decides what may be asked. -/
abbrev rules (settings : SwarmSettings) : Rules Surroundings Departure :=
  .accounted (next settings.recordTables) (Permits settings)

/-- Plain questions leave an account that has just heard nothing as it is. -/
theorem next_of_isPlain (hc : c.IsPlain tables) (hheard : d.heard = none) (answer : c.Answer) :
    d.next tables ⟨c, answer⟩ = d := by
  have hsame : { d with heard := none } = d := by rw [← hheard]
  unfold next
  rw [hsame]
  dsimp only
  split
  next heq => cases heq; exact hc.elim
  next heq => cases heq; exact hc.elim
  next heq => cases heq; exact absurd rfl hc
  next heq => cases heq; exact hc.elim
  next table partition key answer heq =>
    cases heq
    have hother : Records.isLeaderRow tables table partition key = false := hc
    rw [hother, if_neg fun h => Bool.false_ne_true h.1]
  next => rfl

/-- Where no listing has just been heard, nothing has to be done. -/
theorem permits_of_unheard (hheard : d.heard = none)
    (hdemote : ∀ engine id, c ≠ .swarm engine (.demote id))
    (hclears : c.clearsLeader settings.recordTables = false)
    (hleave : ∀ engine, c = .swarm engine .leave → d.MayLeave settings) : d.Permits settings c := by
  have hnone : ∀ managers, d.heard ≠ some managers := by
    intro managers hmanagers
    rw [hheard] at hmanagers
    cases hmanagers
  constructor
  · intro engine id
    constructor
    · exact fun h => absurd h (hdemote engine id)
    · rintro ⟨_, _, managers, hmanagers, _⟩
      exact absurd hmanagers (hnone managers)
  · refine ⟨⟨fun h => ?_, ?_⟩, hleave⟩
    · rw [hclears] at h
      cases h
    rintro ⟨_, managers, hmanagers, _⟩
    exact absurd hmanagers (hnone managers)

theorem permits_of_isPlain (hc : c.IsPlain settings.recordTables) (hheard : d.heard = none) :
    d.Permits settings c :=
  permits_of_unheard hheard hc.ne_demote hc.clearsLeader_eq fun engine h =>
    absurd h (hc.ne_leave engine)

theorem plain_keeps (hc : c.IsPlain settings.recordTables) (hheard : d.heard = none) :
    (rules settings).Keeps (· = d) c := by
  rintro _ rfl
  refine ⟨permits_of_isPlain hc hheard, ?_⟩
  rintro answer d' rfl
  exact next_of_isPlain hc hheard answer

section Plain

variable {ε α : Type} {x : Control ε α}

/-- Plain parts lead nowhere, and they may fail. -/
theorem plain_upholds (hx : x.Asks (Call.IsPlain settings.recordTables)) (hheard : d.heard = none) :
    x.Upholds (rules settings) (fun _ d' => d' = d) (fun _ => IsSettled settings) d :=
  Upholds.monoError (hx.keeps (fun _ hc => plain_keeps hc hheard) rfl) fun _ d' hd' =>
    isSettled_of_heard (by rw [hd']; exact hheard)

/-- What holds of the account before a plain part holds after it. -/
theorem plain_leaves {inv : Departure → Prop} (hx : x.Asks (Call.IsPlain settings.recordTables))
    (hheard : d.heard = none) (hd : inv d) :
    x.Upholds (rules settings) (fun _ => inv) (fun _ => IsSettled settings) d :=
  (plain_upholds hx hheard).mono (fun _ _ hd' => hd' ▸ hd) fun _ _ h => h

end Plain

/-! ## Stepping down -/

/-- The account of a host of this identifier that has been inspected in a role. -/
def known (id : String) (role : Role) : Departure :=
  { start with own := some id, role := some role }

theorem hasReadyPeer_of_readyPeer {peer : Member} (h : Handoff.readyPeer id managers = some peer) :
    HasReadyPeer id managers := by
  have hpeer := List.find?_some h
  simp only [Bool.and_eq_true, bne_iff_ne] at hpeer
  exact ⟨peer, List.mem_of_find?_eq_some h, hpeer.1, hpeer.2⟩

theorem not_hasReadyPeer (h : Handoff.readyPeer id managers = none) :
    ¬HasReadyPeer id managers := by
  rintro ⟨m, hm, hne, hready⟩
  have hnot := List.find?_eq_none.mp h m hm
  simp [hne, hready] at hnot

/-- The account of a manager that has just listed the managers. -/
def informed (id : String) (managers : List Member) : Departure :=
  { known id .manager with heard := some managers, listing := some managers }

theorem members_upholds :
    (members .here (some .manager)).Upholds (rules settings)
      (fun managers d' => d' = informed id managers) (fun _ => IsSettled settings)
      (known id .manager) := by
  refine ⟨permits_of_unheard rfl (fun _ _ h => by cases h) rfl (fun _ h => by cases h), ?_⟩
  rintro answer d' rfl
  cases answer with
  | error e => exact isSettled_of_heard rfl
  | ok managers => rfl

theorem demote_upholds (hpeer : HasReadyPeer id managers) :
    (demote .here id).Upholds (rules settings)
      (fun _ d' => d' = { informed id managers with heard := none, demoted := true })
      (fun _ => IsSettled settings) (informed id managers) := by
  have hdefers : (informed id managers).Defers (.swarm .here (.demote id)) := by
    intro engine other
    constructor
    · intro h
      cases h
      exact ⟨rfl, rfl, managers, rfl, hpeer⟩
    · rintro ⟨rfl, hown, _⟩
      cases hown
      rfl
  have hresets : (informed id managers).Resets settings (.swarm .here (.demote id)) := by
    refine ⟨⟨fun h => (by cases h), ?_⟩, fun engine h => by cases h⟩
    rintro ⟨_, listed, hlisted, own, hown, hnone⟩
    cases hlisted
    cases hown
    exact absurd hpeer hnone
  refine ⟨⟨hdefers, hresets⟩, ?_⟩
  rintro answer d' rfl
  cases answer with
  | error e => exact isSettled_of_heard rfl
  | ok done =>
      have hnext : (informed id managers).next settings.recordTables
          ⟨.swarm .here (.demote id), .ok done⟩ =
            { informed id managers with heard := none, demoted := true } := by
        simp [next, informed, known, start]
      exact hnext

theorem clearLeader_upholds (hreset : settings.resetSingleManager = true)
    (hnone : ¬HasReadyPeer id managers) :
    (Records.clearLeader settings.recordTables).Upholds (rules settings)
      (fun _ d' => d' = { informed id managers with heard := none, cleared := true })
      (fun _ => IsSettled settings) (informed id managers) := by
  have hrow : Records.isLeaderRow settings.recordTables settings.recordTables.leader
      Records.leaderPartition Records.leaderKey = true := by simp [Records.isLeaderRow]
  have hdefers : (informed id managers).Defers (.table (.delete settings.recordTables.leader
      Records.leaderPartition Records.leaderKey)) := by
    intro engine other
    refine ⟨fun h => (by cases h), ?_⟩
    rintro ⟨_, hown, listed, hlisted, hpeer⟩
    cases hown
    cases hlisted
    exact absurd hpeer hnone
  have hresets : (informed id managers).Resets settings (.table (.delete
      settings.recordTables.leader Records.leaderPartition Records.leaderKey)) :=
    ⟨⟨fun _ => ⟨hreset, managers, rfl, id, rfl, hnone⟩, fun _ => hrow⟩, fun engine h => by cases h⟩
  refine upholds_bind.mpr (upholds_outcome.mpr ⟨⟨hdefers, hresets⟩, ?_⟩)
  rintro answer d' rfl
  have hcleared : (ignoreNotFound answer).isOk = true →
      (informed id managers).next settings.recordTables ⟨.table (.delete
        settings.recordTables.leader Records.leaderPartition Records.leaderKey), answer⟩ =
          { informed id managers with heard := none, cleared := true } := by
    intro hgone
    simp only [next, hrow, hgone, and_self, if_true]
  have hsettled : ((informed id managers).next settings.recordTables ⟨.table (.delete
      settings.recordTables.leader Records.leaderPartition Records.leaderKey), answer⟩).IsSettled
        settings := by
    refine isSettled_of_heard ?_
    dsimp only [next]
    split <;> rfl
  cases answer with
  | ok done => exact hcleared rfl
  | error e =>
      cases e with
      | notFound what => exact hcleared rfl
      | conflict what => exact hsettled
      | transient what => exact hsettled
      | fatal what => exact hsettled
      | undecodable what => exact hsettled

/-- A manager that has stepped down may leave. -/
theorem stepDown_upholds (config : Config) (wasLeader : Bool) :
    (Handoff.stepDown config id wasLeader).Upholds (rules config.swarm)
      (fun _ d' => d'.heard = none ∧ d'.MayLeave config.swarm) (fun _ => IsSettled config.swarm)
      (known id .manager) := by
  refine Upholds.bind members_upholds.renamed ?_
  rintro managers d rfl
  cases hpeer : Handoff.readyPeer id managers with
  | none =>
      have hnone : ¬HasReadyPeer id managers := not_hasReadyPeer hpeer
      by_cases hreset : config.swarm.resetSingleManager = true
      · simp only [hreset, if_true]
        refine Upholds.bind (clearLeader_upholds hreset hnone).renamed ?_
        rintro _ d rfl
        exact ⟨rfl, fun _ => .inr ⟨hreset, rfl, managers, rfl, id, rfl, hnone⟩⟩
      · simp only [hreset]
        intro own listed hown hlisted
        cases hown
        cases hlisted
        exact ⟨hnone, by simpa using hreset⟩
  | some peer =>
      refine Upholds.bind (demote_upholds (hasReadyPeer_of_readyPeer hpeer)).renamed ?_
      rintro _ d rfl
      -- What the engine of another manager tells is not heard as a listing of this host's own.
      have hplain : Call.IsPlain config.swarm.recordTables
          (.swarm (.at peer.addr) (.members (some .manager))) := fun h => by cases h
      refine plain_leaves ⟨trivial, fun _ _ _ => ?_⟩ rfl ⟨rfl, fun _ => .inl rfl⟩
      refine Asks.bind (Asks.mapError (Succession.awaitNewLeader_asks hplain (fun _ => trivial) id
        config.timings.leaderPolicy)) fun leader => ?_
      split
      · refine Asks.bind (Asks.discard (Asks.mapError (Records.setLeader_asks (fun _ => trivial)
          trivial leader.addr))) fun _ => ?_
        exact ⟨trivial, fun _ _ _ => trivial⟩
      · exact ⟨trivial, fun _ _ _ => trivial⟩

/-! ## The whole handoff -/

theorem successor_upholds (config : Config) (me : Member) :
    (Handoff.successor config me id).Upholds (rules config.swarm)
      (fun _ d' => d'.heard = none ∧ d'.MayLeave config.swarm) (fun _ => IsSettled config.swarm)
      (known id me.role) := by
  unfold Handoff.successor
  cases hrole : me.role with
  | manager => exact stepDown_upholds config me.isLeader
  | worker =>
      have hasks : (do
          let leader ← Handoff.requireLeader config
          return some (← reach leader.leaderIp) : Control RejoinError (Option Engine)).Asks
            (Call.IsPlain config.swarm.recordTables) :=
        (Handoff.requireLeader_asks trivial trivial).bind fun _ => ⟨trivial, fun _ _ _ => trivial⟩
      exact plain_leaves hasks rfl ⟨rfl, fun h => by cases h⟩

theorem localId_upholds :
    localId.Upholds (rules settings) (fun own d' => d' = { start with own })
      (fun _ => IsSettled settings) start := by
  refine ⟨permits_of_unheard rfl (fun _ _ h => by cases h) rfl (fun _ h => by cases h), ?_⟩
  rintro answer d' rfl
  cases answer with
  | ok own => rfl
  | error e => exact isSettled_of_heard rfl

theorem inspect_upholds :
    (inspect .here id).Upholds (rules settings) (fun me d' => d' = known id me.role)
      (fun _ => IsSettled settings) { start with own := some id } := by
  refine ⟨permits_of_unheard rfl (fun _ _ h => by cases h) rfl (fun _ h => by cases h), ?_⟩
  rintro answer d' rfl
  cases answer with
  | ok me => rfl
  | error e => exact isSettled_of_heard rfl

theorem leave_upholds (hheard : d.heard = none) (hmay : d.MayLeave settings) :
    leave.Upholds (rules settings) (fun _ d' => d'.heard = none) (fun _ => IsSettled settings) d := by
  refine ⟨permits_of_unheard hheard (fun _ _ h => by cases h) rfl fun _ _ => hmay, ?_⟩
  rintro answer d' rfl
  cases answer with
  | ok done => rfl
  | error e => exact isSettled_of_heard rfl

theorem depart_upholds (site : Site) :
    (Handoff.depart site id).Upholds (rules site.config.swarm) (fun _ => IsSettled site.config.swarm)
      (fun _ => IsSettled site.config.swarm) { start with own := some id } := by
  refine Upholds.bind inspect_upholds.renamed ?_
  rintro me d rfl
  refine Upholds.bind (plain_upholds ((Handoff.ownMachine_surveys _ id me).mono
    fun _ hc => hc.isPlain) rfl) ?_
  rintro machine d rfl
  refine Upholds.bind (plain_upholds ((Replica.drain_drains site me.hostname).mono
    fun _ hc => hc.isPlain) rfl).renamed ?_
  rintro replica d rfl
  refine Upholds.bind (plain_upholds ((Replica.forget_asks site replica).mono
    fun _ hc => hc.isPlain) rfl).renamed ?_
  rintro _ d rfl
  refine (successor_upholds site.config me).bind fun engine d hd => ?_
  refine Upholds.bind (leave_upholds hd.1 hd.2).renamed fun _ d hd => ?_
  -- Whoever has left asks nothing of note any more.
  refine plain_leaves ?_ hd (isSettled_of_heard hd)
  refine Asks.bind ?_ fun _ => ?_
  · cases engine with
    | none => exact asks_pure ()
    | some engine => exact Asks.mapError (Membership.unlessGone_asks (Program.asks_perform trivial))
  refine (Lock.release_asks trivial).mapError.bind fun _ => ?_
  refine Asks.bind (Asks.mapError (Program.asks_perform trivial)) fun operation => ?_
  refine (Operation.await_asks trivial (fun _ => trivial) _ _).mapError.bind fun _ => ?_
  exact Asks.discard (Asks.mapError (Program.asks_perform trivial))

theorem complete_upholds (site : Site) :
    (Handoff.complete site).Upholds (rules site.config.swarm)
      (fun _ => IsSettled site.config.swarm) (fun _ => IsSettled site.config.swarm) start := by
  refine Upholds.bind localId_upholds.renamed ?_
  rintro found d rfl
  cases found with
  | none => exact isSettled_of_heard rfl
  | some id =>
      refine Upholds.bind (plain_upholds (Lock.peek_asks trivial) rfl).renamed ?_
      rintro head d rfl
      cases head with
      | none => exact isSettled_of_heard rfl
      | some signal =>
          dsimp only
          split
          · refine Upholds.bind (plain_upholds (Lock.pendingSignals_asks trivial) rfl).renamed ?_
            rintro _ d rfl
            exact isSettled_of_heard rfl
          · refine Upholds.bind (plain_upholds (Lock.consumeFor_asks trivial trivial
              (fun _ => trivial) id) rfl).renamed ?_
            rintro taken d rfl
            cases taken with
            | none => exact isSettled_of_heard rfl
            | some _ => exact (depart_upholds site).bind fun _ _ hd => hd

/-- Whether it succeeds or fails, a handoff leaves no listing behind that calls for more. -/
theorem isSettled_transcript {σ : Type} (respond : σ → (c : Call) → c.Answer × σ) (s : σ)
    (site : Site) :
    (List.foldl (next site.config.swarm.recordTables) start
      (Program.transcript respond (Handoff.complete site) s)).IsSettled site.config.swarm := by
  have hpost := Program.Upholds.transcript (complete_upholds site) respond s
  cases hresult : (Program.run respond (Handoff.complete site) s).1 with
  | ok outcome =>
      rw [hresult] at hpost
      exact hpost
  | error e =>
      rw [hresult] at hpost
      exact hpost

end Departure

/-- Whatever is answered, a host that completes its own upgrade demotes itself just after a listing of
the managers in which another one is ready, whether or not the rest of them are. -/
theorem handoff_defers {σ : Type} (respond : σ → (c : Call) → c.Answer × σ) (s : σ) (site : Site) :
    let account := List.foldl (Departure.next site.config.swarm.recordTables) Departure.start
    let record := Program.transcript respond (Handoff.complete site) s
    InOrder (fun past => (account past).Defers) record ∧
      ∀ id managers, (account record).own = some id → (account record).heard = some managers →
        ¬HasReadyPeer id managers := by
  intro account record
  have hcomplete := Departure.complete_upholds site
  constructor
  · intro past e rest hrecord
    exact (Program.Upholds.inOrder_accounted hcomplete respond s past e rest hrecord).1
  · intro id managers hown hheard
    exact (Departure.isSettled_transcript respond s site id managers hown hheard).1

namespace World

/-- The swarm is asked for something at one of its control planes. -/
def Puts (engine : Engine) (call : SwarmCall) (v : World × Call) : Prop :=
  v.2 = .swarm engine call

instance (engine : Engine) (call : SwarmCall) : DecidablePred (Puts engine call)
  | (_, .swarm asked put) =>
      decidable_of_iff (asked = engine ∧ put = call) (by simp [Puts])
  | (_, .reach _) | (_, .provider _) | (_, .queue _) | (_, .table _) | (_, .addon _)
  | (_, .probe _) | (_, .template _) | (_, .pause _) | (_, .now) => isFalse fun h => by cases h

/-- This host, which is to complete its upgrade, beside managers that are down. -/
def beset (others : List Member) : World :=
  { trial with
    members := ⟨"m0", "host-0", .v4 10 0 0 4, .manager, .ready, true⟩ :: others
    queues := [("upgrades", [⟨"msg-1", RejoinSignal.text ⟨"m0", default⟩⟩])]
    tables := [("leaders", [Records.leaderRow ⟨.v4 10 0 0 4, default⟩])] }

/-- Two other managers, of which one is down. -/
def halved : World :=
  beset
    [⟨"m1", "host-1", .v4 10 0 0 5, .manager, .ready, false⟩,
      ⟨"m2", "host-2", .v4 10 0 0 6, .manager, .down, false⟩]

/-- A host demotes itself although one of the other managers is not ready. -/
theorem halved_demoted :
    ∃ v ∈ (Handoff.complete trialSite).visits respond halved, Puts .here (.demote "m0") v ∧
      ∃ m ∈ v.1.members, m.role = .manager ∧ m.id ≠ "m0" ∧ m.status.isReady = false := by
  decide +kernel

end World

/-- Whatever is answered, a host that completes its own upgrade clears the leader record just after a
listing of the managers in which no other one is ready, whether or not there are others, if the swarm
may be reset; and a manager that leaves the swarm without having been demoted has done so. -/
theorem handoff_resets {σ : Type} (respond : σ → (c : Call) → c.Answer × σ) (s : σ) (site : Site) :
    let account := List.foldl (Departure.next site.config.swarm.recordTables) Departure.start
    let record := Program.transcript respond (Handoff.complete site) s
    InOrder (fun past => (account past).Resets site.config.swarm) record ∧
      ∀ id managers, (account record).own = some id → (account record).heard = some managers →
        ¬HasReadyPeer id managers → site.config.swarm.resetSingleManager = false := by
  intro account record
  have hcomplete := Departure.complete_upholds site
  constructor
  · intro past e rest hrecord
    exact (Program.Upholds.inOrder_accounted hcomplete respond s past e rest hrecord).2
  · intro id managers hown hheard _
    exact (Departure.isSettled_transcript respond s site id managers hown hheard).2

namespace World

/-- One other manager, which is down. -/
def stranded : World :=
  beset [⟨"m1", "host-1", .v4 10 0 0 5, .manager, .down, false⟩]

/-- A host clears the leader record and leaves without having been demoted although it is not the only
manager. -/
theorem stranded_reset :
    let visits := (Handoff.complete trialSite).visits respond stranded
    (∃ v ∈ visits, v.2.clearsLeader trialSite.config.swarm.recordTables = true) ∧
      (∃ v ∈ visits, Puts .here .leave v ∧
        ∃ m ∈ v.1.members, m.role = .manager ∧ m.id ≠ "m0") ∧
      ∀ v ∈ visits, ¬Puts .here (.demote "m0") v := by
  decide +kernel

end World

end SwarmUpkeep
