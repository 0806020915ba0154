import SwarmUpkeep.Proofs.Remote.TableRequests
import SwarmUpkeep.Remote.TableQueue
import SwarmUpkeep.Remote.Wiring

/-!
# A service of tables behind the web

The service of an account sees requests of the web and no more. It takes from each of them what is
asked of it, and replies to that by what it holds. Asked over the web, what can be read again is
answered as it is when it is asked outright, so that what is proved of tables that are asked
outright holds of those behind the web.
-/

namespace SwarmUpkeep

open TableService (IsName IsKey IsStorable IsReadable read? read?_request)

/-! ## What is asked of the tables -/

def TableServiceCall.IsReadable : TableServiceCall → Prop
  | .ask request => TableService.IsReadable request
  | .now | .nonce => True

namespace TableService

variable {allowed : TableServiceCall → Prop} {table partition key : String}

theorem reply_asks {request : TableRequest} (h : allowed (.ask request)) :
    (reply request).Asks allowed :=
  Program.asks_perform h

theorem ask_asks {request : TableRequest} (h : allowed (.ask request)) :
    (ask request).Asks allowed :=
  (reply_asks h).bind fun _ => Attempt.asks_ofExcept _

theorem createTable_asks (h : allowed (.ask (.createTable table))) :
    (createTable table).Asks allowed := by
  refine (reply_asks h).bind fun outcome => ?_
  split
  · exact Attempt.asks_pure _
  · exact Attempt.asks_pure _
  · exact Attempt.asks_fail _

theorem tableExists_asks (h : allowed (.ask (.findTable table))) :
    (tableExists table).Asks allowed := by
  refine (reply_asks h).bind fun outcome => ?_
  split
  · exact Attempt.asks_pure _
  · exact Attempt.asks_pure _
  · exact Attempt.asks_fail _

theorem upsert_asks {row : Row} (h : allowed (.ask (.upsert table row)))
    (hcreate : allowed (.ask (.createTable table))) : (upsert table row).Asks allowed := by
  have hwrite : (upsertOnly table row).Asks allowed := (ask_asks h).discard
  refine hwrite.outcome.bind fun outcome => ?_
  split
  · exact Attempt.asks_pure _
  · exact (createTable_asks hcreate).discard.bind fun _ => hwrite
  · exact Attempt.asks_fail _

theorem get_asks (h : allowed (.ask (.get table partition key))) :
    (get table partition key).Asks allowed := by
  refine (reply_asks h).bind fun outcome => ?_
  split
  · exact (Attempt.asks_ofExcept _).bind fun _ => Attempt.asks_pure _
  · exact Attempt.asks_pure _
  · exact Attempt.asks_fail _

theorem collectPages_asks {most : Option Nat}
    (h : ∀ start, allowed (.ask (.query table partition most start))) (pages : Nat)
    (start : Option Continuation) (read : List Row) :
    (collectPages table partition most pages start read).Asks allowed := by
  induction pages generalizing start read with
  | zero => exact Attempt.asks_fail _
  | succ pages ih =>
      refine (reply_asks (h start)).bind fun outcome => ?_
      split
      · exact Attempt.asks_pure _
      · exact Attempt.asks_fail _
      · refine (Attempt.asks_ofExcept _).bind fun items => ?_
        dsimp only
        split
        · exact Attempt.asks_pure _
        · split
          · exact Attempt.asks_pure _
          · exact ih _ _

theorem queryPartition_asks {most : Option Nat}
    (h : ∀ start, allowed (.ask (.query table partition most start))) (pages : Nat) :
    (queryPartition table partition most pages).Asks allowed :=
  (collectPages_asks h pages none []).bind fun _ => Attempt.asks_pure _

end TableService

/-- What a call to a queue may ask of the tables. -/
def QueueCall.Needs : QueueCall → TableServiceCall → Prop
  | .create queue, asked => asked = .ask (.createTable queue)
  | .delete queue, asked => asked = .ask (.deleteTable queue)
  | .exists queue, asked => asked = .ask (.findTable queue)
  | .put queue text, asked =>
      asked = .now ∨ asked = .nonce ∨
        ∃ key, asked = .ask (.insert queue (TableQueue.messageRow key text))
  | .peek queue, asked | .get queue, asked =>
      asked = .ask (.findTable queue) ∨
        ∃ start, asked = .ask (.query queue TableQueue.partition (some 1) start)
  | .deleteMessage queue message, asked =>
      asked = .ask (.delete queue TableQueue.partition message.id)
  | .count queue, asked => ∃ start, asked = .ask (.query queue TableQueue.partition none start)

theorem TableQueue.respond_asks (pages : Nat) (call : QueueCall) :
    (respond pages call).Asks call.Needs := by
  have hpeek (queue : String) : (peek pages queue).Asks (QueueCall.Needs (.peek queue)) := by
    refine (TableService.tableExists_asks (.inl rfl)).bind fun there => ?_
    split
    · refine (TableService.queryPartition_asks ?_ pages).bind fun _ => Attempt.asks_pure _
      exact fun start => .inr ⟨start, rfl⟩
    · exact Attempt.asks_fail _
  cases call with
  | create queue => exact TableService.createTable_asks rfl
  | delete queue =>
      have hask : (TableService.ask (.deleteTable queue)).Asks (QueueCall.Needs (.delete queue)) :=
        TableService.ask_asks rfl
      exact hask.discard
  | «exists» queue => exact TableService.tableExists_asks rfl
  | put queue text =>
      refine Attempt.Asks.bind (Attempt.Asks.lift (Program.asks_perform (.inl rfl))) fun t => ?_
      refine Attempt.Asks.bind (Attempt.Asks.lift (Program.asks_perform (.inr (.inl rfl))))
        fun nonce => ?_
      exact (TableService.ask_asks (.inr (.inr ⟨_, rfl⟩))).discard
  | peek queue | get queue => exact hpeek queue
  | deleteMessage queue message =>
      have hask : (TableService.ask (.delete queue partition message.id)).Asks
          (QueueCall.Needs (.deleteMessage queue message)) :=
        TableService.ask_asks rfl
      exact hask.discard
  | count queue =>
      exact (TableService.queryPartition_asks (fun start => ⟨start, rfl⟩) pages).bind
        fun _ => Attempt.asks_pure _

/-- What a call to a table may ask of the tables. -/
def TableCall.Needs : TableCall → TableServiceCall → Prop
  | .get table partition key, asked => asked = .ask (.get table partition key)
  | .upsert table row, asked => asked = .ask (.upsert table row) ∨ asked = .ask (.createTable table)
  | .delete table partition key, asked => asked = .ask (.delete table partition key)
  | .query table partition, asked => ∃ start, asked = .ask (.query table partition none start)

theorem Services.table_asks (pages : Nat) (call : TableCall) :
    (table pages call).Asks call.Needs := by
  cases call with
  | get table partition key => exact TableService.get_asks rfl
  | upsert table row => exact TableService.upsert_asks (.inl rfl) (.inr rfl)
  | delete table partition key =>
      have hask : (TableService.ask (.delete table partition key)).Asks
          (TableCall.Needs (.delete table partition key)) :=
        TableService.ask_asks rfl
      exact hask.discard
  | query table partition =>
      exact TableService.queryPartition_asks (fun start => ⟨start, rfl⟩) pages

/-! ## What can be asked over the web -/

/-- Calls about queues with such names, and about messages with such identifiers. -/
def QueueCall.IsReadable : QueueCall → Prop
  | .deleteMessage queue message => IsName queue ∧ IsKey message.id
  | .create queue | .delete queue | .exists queue | .put queue _ | .peek queue | .get queue
  | .count queue => IsName queue

/-- Calls about tables with such names, and about rows that can be sent. -/
def TableCall.IsReadable : TableCall → Prop
  | .get table partition key | .delete table partition key =>
      IsName table ∧ IsKey partition ∧ IsKey key
  | .upsert table row => IsName table ∧ IsKey row.partition ∧ IsKey row.key ∧ IsStorable row
  | .query table _ => IsName table

namespace TableService

theorem isStorable_empty {partition key : String} : IsStorable (Row.empty partition key) where
  own _ hentry := absurd hentry List.not_mem_nil
  fits := .obj .nil fun _ hentry => absurd hentry List.not_mem_nil

theorem IsStorable.withText {row : Row} (h : IsStorable row) {name : String}
    (hown : name ≠ "PartitionKey" ∧ name ≠ "RowKey") (value : String) :
    IsStorable (row.withText name value) where
  own entry hentry := by
    rcases Json.Members.eq_or_mem_of_mem_insert hentry with rfl | hentry
    · exact hown
    · exact h.own entry hentry
  fits := h.fits.insert .str

end TableService

theorem TableQueue.isStorable_messageRow (key text : String) : IsStorable (messageRow key text) :=
  TableService.isStorable_empty.withText ⟨by decide, by decide⟩ text

theorem TableQueue.isKey_partition : IsKey partition :=
  ⟨by decide, by decide⟩

theorem QueueCall.IsReadable.needs {call : QueueCall} (h : call.IsReadable)
    {asked : TableServiceCall} (hasked : call.Needs asked) : asked.IsReadable := by
  cases call with
  | create queue =>
      cases hasked
      trivial
  | delete queue | «exists» queue =>
      cases hasked
      exact h
  | put queue text =>
      obtain rfl | rfl | ⟨key, rfl⟩ := hasked
      · trivial
      · trivial
      · exact ⟨h, TableQueue.isStorable_messageRow key text⟩
  | peek queue | get queue =>
      obtain rfl | ⟨start, rfl⟩ := hasked
      · exact h
      · exact h
  | deleteMessage queue message =>
      cases hasked
      exact ⟨h.1, TableQueue.isKey_partition, h.2⟩
  | count queue =>
      obtain ⟨start, rfl⟩ := hasked
      exact h

theorem TableCall.IsReadable.needs {call : TableCall} (h : call.IsReadable)
    {asked : TableServiceCall} (hasked : call.Needs asked) : asked.IsReadable := by
  cases call with
  | get table partition key | delete table partition key =>
      cases hasked
      exact h
  | upsert table row =>
      obtain rfl | rfl := hasked
      · exact h
      · trivial
  | query table partition =>
      obtain ⟨start, rfl⟩ := hasked
      exact h

namespace TableService

/-- What can be read again is asked in three steps: a token is had, the clock is read, and a request
is sent from which the same is read. -/
theorem ask_upholds {σ : Type} {rules : Rules Web σ} {api : TableApi} {asked : TableRequest} {s : σ}
    {post : Except ServiceError (Except ServiceError Response) → σ → Prop}
    (hbase : api.base.IsSecureWeb) (hquery : api.base.query = none) (h : IsReadable asked)
    (hallows : ∀ s c, rules.allows s c)
    (hrefused : ∀ e s₁, rules.moves s (.token TokenSource.storageResource) (.error e) s₁ →
      post (.error e) s₁)
    (hsent : ∀ token s₁ now s₂ sent answer s₃,
      rules.moves s (.token TokenSource.storageResource) (.ok token) s₁ →
      rules.moves s₁ (.outside .now) now s₂ → read? api.base sent = some asked →
      rules.moves s₂ (.outside (.send sent)) answer s₃ →
      post (.ok (judged (TableApi.what asked) Response.cloudMessage sent answer)) s₃) :
    Program.Upholds (I := Web) rules post (api.ask asked) s := by
  rw [TableApi.ask_eq]
  refine ⟨hallows _ _, fun given s₁ htoken => ?_⟩
  cases given with
  | error e => exact hrefused e s₁ htoken
  | ok token =>
      refine ⟨hallows _ _, fun now s₂ hnow => ?_⟩
      obtain ⟨sent, hbuilt, hread⟩ := read?_request hbase hquery h token now
      beta_reduce
      rw [hbuilt]
      exact ⟨hallows _ _, fun answer s₃ hanswer =>
        hsent token s₁ now s₂ sent answer s₃ htoken hnow hread hanswer⟩

end TableService

/-! ## The service -/

namespace TableServer

/-- Nothing has changed but the time. -/
structure Rests (server server' : TableServer) : Prop where
  table : server'.table = server.table
  pages : server'.pages = server.pages
  clock : server.clock ≤ server'.clock

/-- Surroundings with such a service at a place of the web. It replies to what it takes from a
request; a request from which nothing can be taken may have any effect. Tokens for it are given, and
the clock moves on between any two readings. -/
def webRules {σ : Type} (limit : Nat) (base : Url) (server : σ → TableServer) : Rules Web σ where
  allows _ _ := True
  moves s c answer s' :=
    match c, answer with
    | .token resource, answer =>
        resource = TokenSource.storageResource →
          (∃ token, answer = .ok token) ∧ Rests (server s) (server s')
    | .outside (.send request), answer =>
        ∀ asked, read? base request = some asked →
          ∃ reply, answer = .ok reply ∧ (server s).Replies limit asked reply (server s')
    | .outside .now, t =>
        (server s').table = (server s).table ∧ (server s').pages = (server s).pages ∧
          (server s').clock = t.sinceEpoch ∧ (server s).clock < t.sinceEpoch ∧
          0 ≤ t.sinceEpoch ∧ t.sinceEpoch ≤ TokenSource.greatest64
    | .outside .nonce, _ => Rests (server s) (server s')
    | .outside (.execute _ _), _ | .outside (.pause _), _ => True

variable {server server' server'' : TableServer} {limit : Nat} {asked : TableRequest}
variable {reply : Response}

theorem Rests.trans (h : Rests server server') (h' : Rests server' server'') :
    Rests server server'' :=
  ⟨h'.table.trans h.table, h'.pages.trans h.pages, h.clock.trans h'.clock⟩

/-- A service that has rested meanwhile replies as it would have done before. -/
theorem Replies.of_rests (h : Rests server server')
    (hreplies : server'.Replies limit asked reply server'') :
    server.Replies limit asked reply server'' := by
  obtain ⟨table, pages, clock⟩ := server
  obtain ⟨table', pages', clock'⟩ := server'
  obtain ⟨rfl, rfl, hclock⟩ := h
  obtain ⟨hlater, hreplies⟩ := hreplies
  exact ⟨Int.le_trans hclock hlater, hreplies⟩

variable {σ : Type} {server : σ → TableServer} {api : TableApi}

/-- Whatever can be read again is answered over the web as it is when it is asked outright. -/
theorem respond_upholds (hbase : api.base.IsSecureWeb) (hquery : api.base.query = none) (s : σ)
    (c : TableServiceCall) (h : c.IsReadable) :
    (api.respond c).Upholds (webRules limit api.base server)
      ((rules limit server).moves s c) s := by
  cases c with
  | ask asked =>
      refine TableService.ask_upholds hbase hquery h (fun _ _ => trivial) ?_ ?_
      · intro e s₁ htoken
        obtain ⟨⟨token, hgiven⟩, -⟩ := htoken rfl
        cases hgiven
      · intro token s₁ now s₂ sent answer s₃ htoken hnow hread hanswer
        obtain ⟨htable, hpages, hclock, hlater, -⟩ := hnow
        have hrested : Rests (server s) (server s₂) :=
          (htoken rfl).2.trans ⟨htable, hpages, by rw [hclock]; exact hlater.le⟩
        obtain ⟨reply, rfl, hreplies⟩ := hanswer asked hread
        exact ⟨reply, rfl, hreplies.of_rests hrested⟩
  | now =>
      refine ⟨trivial, fun t s' hnow => ?_⟩
      obtain ⟨htable, -, hclock, hlater, hleast, hgreatest⟩ := hnow
      exact ⟨htable, hclock, hlater, hleast, hgreatest⟩
  | nonce => exact ⟨trivial, fun _ s' hrests => ⟨hrests.table, hrests.clock⟩⟩

end TableServer

deriving instance DecidableEq for Row, TableRequest, TableServiceCall

namespace Services

/-- The services of an account whose listings have two pages at most. -/
def trial : Services :=
  { (default : Services) with
    tables := match TableApi.make "swarmsa" with
      | .ok api => api
      | .error _ => default
    pageLimit := 2 }

theorem make_trial : TableApi.make "swarmsa" = .ok trial.tables :=
  rfl

theorem query_trial : trial.tables.base.query = none := by
  decide +kernel

end Services

end SwarmUpkeep
