import SwarmUpkeep.Proofs.Lock.Discipline
import SwarmUpkeep.Proofs.Remote.TableWeb
import SwarmUpkeep.Proofs.Upkeep.Ledger
import SwarmUpkeep.Proofs.Upkeep.Questions

/-!
# The lock and the records in one account

The queue of the lock and the records lie side by side as tables of one account. What is done to
the records stays away from the lock, and what is done to the lock from the records, as long as the
service takes their names for different tables. Settings that give one table to both are accepted
all the same; the first record that is written then takes the lock, and giving the lock up takes
the record away.
-/

namespace SwarmUpkeep

open TableServer

/-! ## What is done to the lock -/

namespace Lock

/-- One use of the lock. -/
inductive Use where
  | isHeld
  | acquire
  | release
  | enqueue (nodeId : String)
  | pendingSignals
  | peek
  | consumeFor (nodeId : String)

abbrev Use.Result : Use → Type
  | isHeld => Bool
  | acquire => LockAcquire
  | release => Unit
  | enqueue _ => RejoinSignal
  | pendingSignals => Nat
  | peek => Option RejoinSignal
  | consumeFor _ => Option RejoinSignal

def Use.program (queue : String) :
    (use : Use) → Program Surroundings (Except LockError use.Result)
  | .isHeld => Lock.isHeld queue
  | .acquire => Lock.acquire queue
  | .release => Lock.release queue
  | .enqueue nodeId => Lock.enqueue queue nodeId
  | .pendingSignals => Lock.pendingSignals queue
  | .peek => Lock.peek queue
  | .consumeFor nodeId => Lock.consumeFor queue nodeId

theorem Use.program_asks {allowed : Call → Prop} (queue : String) (use : Use)
    (hqueue : ∀ call : QueueCall, call.name = queue → allowed (.queue call))
    (hnow : allowed .now) : (use.program queue).Asks allowed := by
  cases use with
  | isHeld => exact isHeld_asks (hqueue _ rfl)
  | acquire => exact acquire_asks (hqueue _ rfl) (hqueue _ rfl)
  | release => exact release_asks (hqueue _ rfl)
  | enqueue nodeId => exact enqueue_asks hnow (fun _ => hqueue _ rfl) nodeId
  | pendingSignals => exact pendingSignals_asks (hqueue _ rfl)
  | peek => exact peek_asks (hqueue _ rfl)
  | consumeFor nodeId =>
      exact consumeFor_asks (hqueue _ rfl) (hqueue _ rfl) (fun _ => hqueue _ rfl) nodeId

end Lock

/-! ## What is asked of the tables -/

/-- The table that a request is about. -/
def TableRequest.table : TableRequest → String
  | createTable table | deleteTable table | findTable table | insert table _ | upsert table _
  | get table _ _ | delete table _ _ | query table _ _ _ => table

/-- Requests about one of these tables, and what names a message. -/
def TableServiceCall.IsAbout (names : String → Prop) : TableServiceCall → Prop
  | .ask request => names request.table
  | .now | .nonce => True

/-- Calls to one of these tables or queues, or to the clock. -/
def Call.IsAbout (names : String → Prop) : Call → Prop
  | .table call => names call.table
  | .queue call => names call.name
  | .now => True
  | _ => False

theorem QueueCall.Needs.isAbout {names : String → Prop} {call : QueueCall}
    (hname : names call.name) {asked : TableServiceCall} (h : call.Needs asked) :
    asked.IsAbout names := by
  cases call with
  | create queue | delete queue | «exists» queue | deleteMessage queue message =>
      cases h
      exact hname
  | put queue text =>
      obtain rfl | rfl | ⟨key, rfl⟩ := h
      · trivial
      · trivial
      · exact hname
  | peek queue | get queue =>
      obtain rfl | ⟨start, rfl⟩ := h
      · exact hname
      · exact hname
  | count queue =>
      obtain ⟨start, rfl⟩ := h
      exact hname

theorem TableCall.Needs.isAbout {names : String → Prop} {call : TableCall}
    (htable : names call.table) {asked : TableServiceCall} (h : call.Needs asked) :
    asked.IsAbout names := by
  cases call with
  | get table partition key | delete table partition key =>
      cases h
      exact htable
  | upsert table row =>
      obtain rfl | rfl := h
      · exact htable
      · exact htable
  | query table partition =>
      obtain ⟨start, rfl⟩ := h
      exact htable

namespace Services

/-- Answers the calls for the tables, the queues and the clock by the table service. The other
calls are answered in any way. -/
def stored (pages : Nat) (others : (c : Call) → Program TableService c.Answer) :
    (c : Call) → Program TableService c.Answer
  | .table call => table pages call
  | .queue call => TableQueue.respond pages call
  | .now => Program.perform (I := TableService) .now
  | c => others c

variable {names : String → Prop} {others : (c : Call) → Program TableService c.Answer}

theorem stored_asks (pages : Nat) {c : Call} (h : c.IsAbout names) :
    (stored pages others c).Asks (TableServiceCall.IsAbout names) := by
  cases c with
  | table call => exact (table_asks pages call).mono fun _ => TableCall.Needs.isAbout h
  | queue call => exact (TableQueue.respond_asks pages call).mono fun _ => QueueCall.Needs.isAbout h
  | now => exact Program.asks_perform trivial
  | _ => exact h.elim

/-- The services of a run answer so, behind the client for the tables of its account. -/
theorem respond_eq_stored (services : Services) {c : Call} (h : c.IsAbout names) :
    services.respond c = (stored services.pageLimit others c).via services.tables.respond := by
  cases c with
  | table call => rfl
  | queue call => rfl
  | now => exact (Program.bind_done _).symm
  | _ => exact h.elim

theorem via_respond_eq_stored (services : Services)
    (others : (c : Call) → Program TableService c.Answer) {α : Type} {p : Program Surroundings α}
    (h : p.Asks (Call.IsAbout names)) :
    p.via services.respond =
      (p.via (stored services.pageLimit others)).via services.tables.respond :=
  h.via_via fun _ hc => services.respond_eq_stored hc

end Services

theorem Records.isStorable_leaderRow (record : LeaderRecord) :
    TableService.IsStorable (leaderRow record) :=
  (TableService.isStorable_empty.withText ⟨by decide, by decide⟩ _).withText
    ⟨by decide, by decide⟩ _

/-! ## One account -/

namespace TableServer

variable {σ κ : Type}

/-- Whatever a service replies, a request changes nothing but the table that it is about, by the
way in which the service reads names. -/
def framed (key : String → κ) (held : σ → κ → Option Shelf) : Rules TableService σ where
  allows _ _ := True
  moves s c _ s' :=
    match c with
    | .ask request => ∀ k, k ≠ key request.table → held s' k = held s k
    | .now | .nonce => held s' = held s

variable {key : String → κ} {held : σ → κ → Option Shelf} {names : String → Prop} {k : κ}

theorem framed_keeps (hk : ∀ name, names name → k ≠ key name) (shelf : Option Shelf)
    (c : TableServiceCall) (hc : c.IsAbout names) :
    (framed key held).Keeps (fun s => held s k = shelf) c := by
  intro s hs
  refine ⟨trivial, fun answer s' hmove => ?_⟩
  cases c with
  | ask request => exact (hmove k (hk _ hc)).trans hs
  | now => exact (congrFun hmove k).trans hs
  | nonce => exact (congrFun hmove k).trans hs

variable {serve : σ → (c : TableServiceCall) → c.Answer × σ}
variable {others : (c : Call) → Program TableService c.Answer} {pages : Nat}

/-- What is only about some tables and queues leaves the other tables as they are. -/
theorem held_after {α : Type} {p : Program Surroundings α} {s : σ}
    (hp : p.Asks (Call.IsAbout names)) (hk : ∀ name, names name → k ≠ key name)
    (hserved : Program.Obeys (framed key held) serve
      ((p.via (Services.stored pages others)).visits serve s)) :
    held ((p.via (Services.stored pages others)).run serve s).2 k = held s k :=
  ((hp.via fun _ => Services.stored_asks pages).keeps (framed_keeps hk _) rfl).run hserved

/-! ## Over the web -/

section

variable {base : Url} {web : σ → (c : WebCall) → c.Answer × σ} {services : Services}

/-- The same of a service at a place of the web: it takes from a request which table that is
about. -/
def webFramed (base : Url) (key : String → κ) (held : σ → κ → Option Shelf) : Rules Web σ where
  allows _ _ := True
  moves s c _ s' :=
    match c with
    | .outside (.send request) =>
        ∀ asked, TableService.read? base request = some asked →
          ∀ k, k ≠ key asked.table → held s' k = held s k
    | .token _ | .outside .now | .outside .nonce => held s' = held s
    | .outside (.execute _ _) | .outside (.pause _) => True

/-- What can be read again changes no more over the web than when it is asked outright. -/
theorem respond_framed {api : TableApi} (hbase : api.base.IsSecureWeb)
    (hquery : api.base.query = none) (s : σ) (c : TableServiceCall) (h : c.IsReadable) :
    (api.respond c).Upholds (webFramed api.base key held) ((framed key held).moves s c) s := by
  cases c with
  | ask asked =>
      refine TableService.ask_upholds hbase hquery h (fun _ _ => trivial) ?_ ?_
      · exact fun e s₁ htoken k _ => congrFun htoken k
      · intro token s₁ now s₂ sent answer s₃ htoken hnow hread hanswer k hk
        rw [hanswer asked hread k hk, hnow, htoken]
  | now | nonce => exact ⟨trivial, fun _ _ hheld => hheld⟩

/-- What a program asks of the tables of the services can be read again from their requests. -/
def IsTold (services : Services) (others : (c : Call) → Program TableService c.Answer)
    (web : σ → (c : WebCall) → c.Answer × σ) {α : Type} (p : Program Surroundings α) (s : σ) :
    Prop :=
  ∀ v ∈ (p.via (Services.stored services.pageLimit others)).visits
      (Program.behind (I := TableService) services.tables.respond web) s,
    TableServiceCall.IsReadable v.2

/-- What is only about some tables and queues leaves the other tables as they are, over the web,
too. -/
theorem held_after_web {account : String} {α : Type} {p : Program Surroundings α} {s : σ}
    (hp : p.Asks (Call.IsAbout names)) (hk : ∀ name, names name → k ≠ key name)
    (hmake : TableApi.make account = .ok services.tables)
    (hquery : services.tables.base.query = none) (htold : IsTold services others web p s)
    (hserved : Program.Obeys (webFramed services.tables.base key held) web
      (Program.visits (I := Web) web (p.via services.respond) s)) :
    held (Program.run web (p.via services.respond) s).2 k = held s k := by
  unfold IsTold at htold
  rw [services.via_respond_eq_stored others hp] at hserved ⊢
  rw [Program.run_via]
  exact held_after hp hk (Program.Obeys.via hserved htold
    fun s c hc => respond_framed (TableApi.make_base hmake) hquery s c hc)

end

/-! ## The lock and the records -/

theorem records_isAbout (settings : SwarmSettings) (use : Records.Use) :
    (use.program settings.recordTables).Asks (Call.IsAbout fun name =>
      name = settings.leaderTable ∨ name = settings.replicaTable) :=
  use.program_asks _ (fun _ hcall => hcall) trivial

theorem lock_isAbout (settings : SwarmSettings) (use : Lock.Use) :
    (use.program settings.upgradeQueue).Asks
      (Call.IsAbout fun name => name = settings.upgradeQueue) :=
  use.program_asks _ (fun _ hcall => hcall) trivial

/-- Where the service takes the name of the queue for another table than those of the records, no
use of the records changes whether the lock is there or what is in it, and no use of the lock
changes a record. This is so of tables that are asked outright, and over the web as far as what is
asked can be read again from the requests. -/
theorem lock_and_records_apart (settings : SwarmSettings)
    (hleader : key settings.upgradeQueue ≠ key settings.leaderTable)
    (hreplica : key settings.upgradeQueue ≠ key settings.replicaTable) (s : σ) :
    (∀ use : Records.Use,
      let p := (use.program settings.recordTables).via (Services.stored pages others)
      Program.Obeys (framed key held) serve (p.visits serve s) →
        held (p.run serve s).2 (key settings.upgradeQueue) = held s (key settings.upgradeQueue)) ∧
    (∀ use : Lock.Use,
      let p := (use.program settings.upgradeQueue).via (Services.stored pages others)
      Program.Obeys (framed key held) serve (p.visits serve s) →
        held (p.run serve s).2 (key settings.leaderTable) = held s (key settings.leaderTable) ∧
        held (p.run serve s).2 (key settings.replicaTable) =
          held s (key settings.replicaTable)) ∧
    ∀ (account : String) (services : Services) (web : σ → (c : WebCall) → c.Answer × σ),
      TableApi.make account = .ok services.tables → services.tables.base.query = none →
      (∀ use : Records.Use,
        let p := use.program settings.recordTables
        IsTold services others web p s →
        Program.Obeys (webFramed services.tables.base key held) web
            (Program.visits (I := Web) web (p.via services.respond) s) →
          held (Program.run web (p.via services.respond) s).2 (key settings.upgradeQueue) =
            held s (key settings.upgradeQueue)) ∧
      ∀ use : Lock.Use,
        let p := use.program settings.upgradeQueue
        IsTold services others web p s →
        Program.Obeys (webFramed services.tables.base key held) web
            (Program.visits (I := Web) web (p.via services.respond) s) →
          held (Program.run web (p.via services.respond) s).2 (key settings.leaderTable) =
            held s (key settings.leaderTable) ∧
          held (Program.run web (p.via services.respond) s).2 (key settings.replicaTable) =
            held s (key settings.replicaTable) := by
  have hlock : ∀ name, name = settings.leaderTable ∨ name = settings.replicaTable →
      key settings.upgradeQueue ≠ key name := by
    rintro name (rfl | rfl)
    · exact hleader
    · exact hreplica
  have hrecord : ∀ name, name = settings.upgradeQueue → key settings.leaderTable ≠ key name := by
    rintro name rfl
    exact hleader.symm
  have hrecord' : ∀ name, name = settings.upgradeQueue → key settings.replicaTable ≠ key name := by
    rintro name rfl
    exact hreplica.symm
  refine ⟨?_, ?_, fun account services web hmake hquery => ⟨?_, ?_⟩⟩
  · intro use p hserved
    exact held_after (records_isAbout settings use) hlock hserved
  · intro use p hserved
    have hasks := lock_isAbout settings use
    exact ⟨held_after hasks hrecord hserved, held_after hasks hrecord' hserved⟩
  · intro use p htold hserved
    exact held_after_web (records_isAbout settings use) hlock hmake hquery htold hserved
  · intro use p htold hserved
    have hasks := lock_isAbout settings use
    exact ⟨held_after_web hasks hrecord hmake hquery htold hserved,
      held_after_web hasks hrecord' hmake hquery htold hserved⟩

/-! ## One table for both -/

theorem tablesAfter_of_ne {server : TableServer} {request : TableRequest} {name : String}
    (h : name ≠ request.table) : server.tablesAfter request name = server.table name := by
  cases request with
  | createTable _ | deleteTable _ | insert _ _ | upsert _ _ | delete _ _ _ =>
      exact Function.update_of_ne h _ _
  | findTable _ | get _ _ _ | query _ _ _ _ => rfl

/-- The status of a reply to a request, and what is held then. -/
def comply (server : TableServer) (request : TableRequest) : Nat × TableServer :=
  match server.verdict request with
  | .done => (204, { server with table := server.tablesAfter request })
  | .missing => (404, server)
  | .taken => (409, server)

/-- A service that replies with a status and no more. -/
def obey (server : TableServer) (c : TableServiceCall) : c.Answer × TableServer :=
  match c with
  | .ask request =>
      let (code, server') := server.comply request
      (.ok (Response.checked (TableApi.what request) Response.cloudMessage ⟨code, [], ""⟩), server')
  | .now => (⟨1800000000, 0⟩, server)
  | .nonce => ("n", server)

/-- The same service behind the web. It knows nothing of what it cannot read. -/
def obeyWeb (base : Url) (server : TableServer) (c : WebCall) : c.Answer × TableServer :=
  match c with
  | .token _ => (.ok "token", server)
  | .outside (.send request) =>
      match TableService.read? base request with
      | some asked =>
          let (code, server') := server.comply asked
          (.ok ⟨code, [], ""⟩, server')
      | none => (.ok ⟨404, [], ""⟩, server)
  | .outside .now => (⟨1800000000, 0⟩, server)
  | .outside .nonce => ("n", server)
  | .outside (.execute _ _) => (.error "", server)
  | .outside (.pause _) => ((), server)

theorem comply_of_ne {server : TableServer} {request : TableRequest} {name : String}
    (h : name ≠ request.table) : (server.comply request).2.table name = server.table name := by
  unfold comply
  cases server.verdict request with
  | done => exact tablesAfter_of_ne h
  | missing | taken => rfl

theorem obey_framed (visits : List (TableServer × TableServiceCall)) :
    Program.Obeys (framed id TableServer.table) obey visits := by
  rintro ⟨server, c⟩ _
  cases c with
  | ask request => exact fun name hname => comply_of_ne hname
  | now | nonce => rfl

theorem obeyWeb_framed (base : Url) (visits : List (TableServer × WebCall)) :
    Program.Obeys (webFramed base id TableServer.table) (obeyWeb base) visits := by
  rintro ⟨server, c⟩ _
  match c with
  | .token _ | .outside .now | .outside .nonce => rfl
  | .outside (.execute _ _) | .outside (.pause _) => trivial
  | .outside (.send request) =>
      intro asked hasked name hname
      simp only [obeyWeb, hasked]
      exact comply_of_ne hname

/-- The answers to all other calls. -/
def elsewhere (c : Call) : Program TableService c.Answer :=
  .done (World.trial.respond c).1

/-- What a use of the records or of the lock results in, with such a service. -/
def used {α : Type} (p : Program Surroundings α) (server : TableServer) : α × TableServer :=
  (p.via (Services.stored 1 elsewhere)).run obey server

def bare : TableServer :=
  ⟨fun _ => none, fun _ => [], 0⟩

/-- Settings that give the table of the leader record to the lock. -/
def shared : Config :=
  { World.trialSite.config with
    cloud := ⟨"sub-1", "rg-1", "tenant-1", "app-1", ⟨"secret"⟩, "account"⟩
    swarm := { World.trialSite.config.swarm with leaderTable := "upgrades" } }

/-- Such settings are accepted. Writing the record makes the lock exist, and giving the lock up
takes the record away. -/
theorem shared_table_mingles :
    let written := (used (Records.setLeader shared.swarm.recordTables (.v4 10 0 0 4)) bare).2
    let released := (used (Lock.release shared.swarm.upgradeQueue) written).2
    let recorded (server : TableServer) :=
      (server.table shared.swarm.leaderTable).bind
        (fun shelf => shelf Records.leaderPartition Records.leaderKey)
    shared.validate = .ok () ∧
      (used (Lock.isHeld shared.swarm.upgradeQueue) bare).1 = .ok false ∧
      (used (Lock.isHeld shared.swarm.upgradeQueue) written).1 = .ok true ∧
      (recorded written).isSome = true ∧ (recorded released).isSome = false := by
  decide +kernel

/-- Settings that keep them apart. -/
def trialSettings : SwarmSettings :=
  World.trialSite.config.swarm

/-- What is done to the records in the trial. -/
def trialUse : Records.Use :=
  .setLeader (.v4 10 0 0 4)

/-- The record of the leader that is written by it. -/
def trialRow : Row :=
  Records.leaderRow ⟨.v4 10 0 0 4, ⟨1800000000, 0⟩⟩

/-- The record is refused, and it is written once its table has been made. All of this is told by
the requests. -/
theorem trialUse_isTold :
    IsTold Services.trial elsewhere (obeyWeb Services.trial.tables.base)
      (trialUse.program trialSettings.recordTables) bare := by
  intro v hv
  have hasked : v.2 ∈ [TableServiceCall.now, .ask (.upsert trialSettings.leaderTable trialRow),
      .ask (.createTable trialSettings.leaderTable),
      .ask (.upsert trialSettings.leaderTable trialRow)] := by
    have heq : (((trialUse.program trialSettings.recordTables).via
        (Services.stored Services.trial.pageLimit elsewhere)).visits
          (Program.behind (I := TableService) Services.trial.tables.respond
            (obeyWeb Services.trial.tables.base)) bare).map Prod.snd =
        [TableServiceCall.now, .ask (.upsert trialSettings.leaderTable trialRow),
          .ask (.createTable trialSettings.leaderTable),
          .ask (.upsert trialSettings.leaderTable trialRow)] := by
      decide +kernel
    rw [← heq]
    exact List.mem_map_of_mem hv
  have hname : TableService.IsName trialSettings.leaderTable := by decide
  have hupsert : TableService.IsReadable (.upsert trialSettings.leaderTable trialRow) :=
    ⟨hname, ⟨by decide, by decide⟩, ⟨by decide, by decide⟩, Records.isStorable_leaderRow _⟩
  simp only [List.mem_cons, List.not_mem_nil, or_false] at hasked
  rcases hasked with heq | heq | heq | heq <;> rw [heq]
  · trivial
  · exact hupsert
  · trivial
  · exact hupsert

/-- With such settings the record is written and kept, and no lock is there. Over the web it is the
same. -/
theorem lock_and_records_apart_trial :
    let written := (used (trialUse.program trialSettings.recordTables) bare).2
    let released := (used (Lock.Use.release.program trialSettings.upgradeQueue) written).2
    let writtenOver := (Program.run (obeyWeb Services.trial.tables.base)
      ((trialUse.program trialSettings.recordTables).via Services.trial.respond) bare).2
    (written.table trialSettings.leaderTable).isSome = true ∧
      written.table trialSettings.upgradeQueue = none ∧
      released.table trialSettings.leaderTable = written.table trialSettings.leaderTable ∧
      (writtenOver.table trialSettings.leaderTable).isSome = true ∧
      writtenOver.table trialSettings.upgradeQueue = bare.table trialSettings.upgradeQueue := by
  intro written released writtenOver
  have hleader : trialSettings.upgradeQueue ≠ trialSettings.leaderTable := by decide
  have hreplica : trialSettings.upgradeQueue ≠ trialSettings.replicaTable := by decide
  obtain ⟨hrecords, -, hweb⟩ :=
    @lock_and_records_apart _ _ id table obey elsewhere 1 trialSettings hleader hreplica bare
  obtain ⟨-, hlock, -⟩ :=
    @lock_and_records_apart _ _ id table obey elsewhere 1 trialSettings hleader hreplica written
  obtain ⟨hover, -⟩ := hweb "swarmsa" Services.trial (obeyWeb Services.trial.tables.base)
    Services.make_trial Services.query_trial
  refine ⟨by decide +kernel, ?_, ?_, by decide +kernel, ?_⟩
  · exact hrecords trialUse (obey_framed _)
  · exact (hlock .release (obey_framed _)).1
  · have hkept := hover trialUse trialUse_isTold (obeyWeb_framed _ _)
    -- The two sides have to agree as texts; otherwise the run is evaluated for their comparison.
    simp only [id_eq] at hkept
    unfold writtenOver
    exact hkept

end TableServer

end SwarmUpkeep
