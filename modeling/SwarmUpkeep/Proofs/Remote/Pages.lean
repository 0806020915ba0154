import Mathlib.Data.Nat.Find
import SwarmUpkeep.Proofs.Remote.TableRequests

/-!
# Partitions page by page

A table service shows the rows of a partition in pages of its own making. A page may be empty, may
hold objects that are no rows, and names the start of the next page by a partition and perhaps by a
key. A query reads page after page, puts the rows in order and cuts off what is not wanted.

The pages are told here by the replies of the service, one constructor for each way in which a
request for a page can be answered. That a query sees all of them is proved by following these
replies.
-/

namespace SwarmUpkeep

open Attempt TableService
open TableApi (rowOf?_eq_some_iff)

namespace Paging

/-- A page that is shown: the request for it, the response, and the objects in its body. -/
structure Page where
  request : Request
  response : Response
  items : List Json.Members

/-- The rows of a page: those of its objects that have keys. -/
def Page.rows (page : Page) : List Row :=
  page.items.filterMap TableApi.rowOf?

/-- How a sequence of pages ends: with a last page, with a request that finds nothing, or with one
that fails, if it can be sent at all. -/
inductive Ending where
  | complete
  | missing (request : Request)
  | failed (request : Option Request)

/-- The request that is not answered by a page. -/
def Ending.request? : Ending → Option Request
  | complete => none
  | missing request => some request
  | failed request => request

section

variable {σ : Type} (respond : σ → (c : WebCall) → c.Answer × σ) (api : TableApi)
variable (table partition : String) (most : Option Nat)

/-- A token is had and the clock is read, and the request for a page is answered behind that. -/
def Fetches (start : Option Continuation) (s : σ) (request : Request)
    (answer : Except TransportError Response) (s' : σ) : Prop :=
  ∃ token now between later,
    respond s (.token TokenSource.storageResource) = (.ok token, between) ∧
      respond between (.outside .now) = (now, later) ∧
      api.request token now (.query table partition most start) = .ok request ∧
      respond later (.outside (.send request)) = (answer, s')

/-- No token is had, or the request cannot be built. -/
def Balks (start : Option Continuation) (s : σ) : Prop :=
  (∃ e, (respond s (.token TokenSource.storageResource)).1 = .error e) ∨
    ∃ token now between later e,
      respond s (.token TokenSource.storageResource) = (.ok token, between) ∧
        respond between (.outside .now) = (now, later) ∧
        api.request token now (.query table partition most start) = .error e

/-- A request for a page that is not answered by one. -/
inductive Ends (start : Option Continuation) (s : σ) : Ending → Prop
  | missing {s' : σ} {request : Request} {response : Response}
      (hfetches : Fetches respond api table partition most start s request (.ok response) s')
      (hstatus : response.status = 404) : Ends start s (.missing request)
  | refused {s' : σ} {request : Request} {response : Response}
      (hfetches : Fetches respond api table partition most start s request (.ok response) s')
      (hsuccess : response.isSuccess = false) (hstatus : response.status ≠ 404) :
      Ends start s (.failed (some request))
  | garbled {s' : σ} {request : Request} {response : Response}
      (hfetches : Fetches respond api table partition most start s request (.ok response) s')
      (hsuccess : response.isSuccess = true) (hitems : ∀ items, ¬ IsPage response.body items) :
      Ends start s (.failed (some request))
  | lost {s' : σ} {request : Request} {e : TransportError}
      (hfetches : Fetches respond api table partition most start s request (.error e) s') :
      Ends start s (.failed (some request))
  | balked (hbalks : Balks respond api table partition most start s) : Ends start s (.failed none)

/-- What the service shows from a start on, if each page is asked for with the tokens in the headers
of the one before it. -/
inductive Shows : Option Continuation → σ → List Page → Ending → Prop
  | none {start : Option Continuation} {s : σ} {ending : Ending}
      (hends : Ends respond api table partition most start s ending) : Shows start s [] ending
  | last {start : Option Continuation} {s s' : σ} {request : Request} {response : Response}
      {items : List Json.Members}
      (hfetches : Fetches respond api table partition most start s request (.ok response) s')
      (hsuccess : response.isSuccess = true) (hitems : IsPage response.body items)
      (hnext : response.header? "x-ms-continuation-NextPartitionKey" = none) :
      Shows start s [⟨request, response, items⟩] .complete
  | more {start : Option Continuation} {s s' : σ} {request : Request} {response : Response}
      {items : List Json.Members} {next : String} {pages : List Page} {ending : Ending}
      (hfetches : Fetches respond api table partition most start s request (.ok response) s')
      (hsuccess : response.isSuccess = true) (hitems : IsPage response.body items)
      (hnext : response.header? "x-ms-continuation-NextPartitionKey" = some next)
      (hrest : Shows (some ⟨next, response.header? "x-ms-continuation-NextRowKey"⟩) s' pages
        ending) :
      Shows start s (⟨request, response, items⟩ :: pages) ending

/-- The request for a page: it goes to the rows of the table and looks for the partition, for as
many rows as are wanted, and from where the tokens say. It says behind which token it is made, and
when. -/
structure Asks (tokens : List (String × String)) (request : Request) : Prop where
  method : request.method = .get
  body : request.body = none
  stamped : ∃ token now,
    [("authorization", "Bearer " ++ token), ("x-ms-version", "2019-02-02"),
      ("x-ms-date", Timestamp.http now)] ⊆ request.headers
  site : request.url.scheme = api.base.scheme ∧ request.url.host = api.base.host ∧
    request.url.port = api.base.port
  path : api.base.IsSecureWeb → IsName table → request.url.path = .rooted [table ++ "()"]
  pairs : ∃ filter, filtered? filter = some partition ∧
    request.url.pairs? = api.base.pairs?.map (· ++ (("$filter", filter) ::
      (most.map fun n => ("$top", toString n)).toList ++ tokens))

/-- What an ending makes of the rows that have been read. -/
def Ending.Gives (rows : List Row) : Ending → Except ServiceError (List Row) → Prop
  | complete, result => result = .ok rows
  | missing _, result => result = .ok []
  | failed _, result => ∃ e, result = .error e

end

/-- The tokens in the headers of a response, each under the name that it has in a request. -/
def tokens (response : Response) : List (String × String) :=
  match response.header? "x-ms-continuation-NextPartitionKey" with
  | none => []
  | some partition =>
      ("NextPartitionKey", partition) ::
        ((response.header? "x-ms-continuation-NextRowKey").map fun key =>
          ("NextRowKey", key)).toList

/-- The requests that have been sent. -/
def sent (record : List (Exchange Web)) : List Request :=
  record.filterMap fun e => match e.call with
    | .outside (.send request) => some request
    | _ => none

theorem sent_append (record rest : List (Exchange Web)) :
    sent (record ++ rest) = sent record ++ sent rest :=
  List.filterMap_append

variable {σ : Type} {respond : σ → (c : WebCall) → c.Answer × σ} {api : TableApi}
variable {table partition : String} {most : Option Nat} {start : Option Continuation} {s s' : σ}
variable {request : Request} {answer : Except TransportError Response}

/-- The pages from a start on are read over the web. -/
def reading (api : TableApi) (table partition : String) (most : Option Nat) (limit : Nat)
    (start : Option Continuation) (read : List Row) : Attempt Web ServiceError (List Row) :=
  Program.via api.respond (collectPages table partition most limit start read)

/-- What follows a reply to the request for a page. -/
def afterwards (api : TableApi) (table partition : String) (most : Option Nat) (limit : Nat)
    (read : List Row) : Except ServiceError (Except ServiceError Response) →
    Attempt Web ServiceError (List Row)
  | .error e => Attempt.fail e
  | .ok (.error (.notFound _)) => pure []
  | .ok (.error e) => Attempt.fail e
  | .ok (.ok response) =>
      match response.decode page? with
      | .error e => Attempt.fail e
      | .ok items =>
          match continuation? response with
          | none => pure (read ++ items.filterMap TableApi.rowOf?)
          | some next =>
              if isEnough most (read ++ items.filterMap TableApi.rowOf?).length then
                pure (read ++ items.filterMap TableApi.rowOf?)
              else reading api table partition most limit (some next)
                (read ++ items.filterMap TableApi.rowOf?)

theorem reading_succ (limit : Nat) (read : List Row) :
    reading api table partition most (limit + 1) start read =
      Program.bind (api.ask (.query table partition most start))
        (afterwards api table partition most limit read) := by
  refine (Program.via_bind (I := TableService) api.respond
    (reply (.query table partition most start)) _).trans ?_
  have hreply : Program.via api.respond (reply (.query table partition most start)) =
      api.ask (.query table partition most start) := Program.bind_done _
  refine (congrArg (Program.bind · _) hreply).trans ?_
  refine congrArg (Program.bind _) ?_
  funext asked
  rcases asked with e | e | response
  · rfl
  · cases e <;> rfl
  · dsimp only [afterwards]
    cases response.decode page? with
    | error e => rfl
    | ok items =>
        cases continuation? response with
        | none => rfl
        | some next => exact apply_ite (Program.via (I := TableService) api.respond) _ _ _

/-- What is made of the answer to the request for a page. -/
def judgedPage (table partition : String) (most : Option Nat) (start : Option Continuation)
    (request : Request) (answer : Except TransportError Response) : Except ServiceError Response :=
  judged (TableApi.what (.query table partition most start)) Response.cloudMessage request answer

theorem judgedPage_of_success {response : Response} (h : response.isSuccess = true) :
    judgedPage table partition most start request (.ok response) = .ok response :=
  judged_of_success h

/-- A page that is fetched is passed on as it is answered. -/
theorem ask_fetches
    (h : Fetches respond api table partition most start s request answer s') :
    Program.run respond (api.ask (.query table partition most start)) s =
      (.ok (judgedPage table partition most start request answer), s') ∧
      sent (Program.transcript respond (api.ask (.query table partition most start)) s) =
        [request] := by
  obtain ⟨token, now, between, later, htoken, hnow, hrequest, hanswer⟩ := h
  rw [TableApi.ask_eq]
  simp only [Program.run, Program.transcript, htoken, hnow, hrequest, hanswer]
  exact ⟨rfl, rfl⟩

/-- A request that cannot be built is beyond repair. -/
theorem build_error {method : Method} {url : Url} {query headers : List (String × String)}
    {body : Option String} {e : ServiceError}
    (h : Request.build method url query headers body = .error e) : ∃ text, e = .fatal text := by
  rw [Request.build_eq] at h
  split at h
  · exact ⟨_, (Except.error.inj h).symm⟩
  · split at h
    · cases h
    · exact ⟨_, (Except.error.inj h).symm⟩

/-- Where nothing is sent, the request fails, and nobody has been found missing. -/
theorem ask_balks (h : Balks respond api table partition most start s) :
    ((∃ e, (Program.run respond (api.ask (.query table partition most start)) s).1 = .error e) ∨
      ∃ text, (Program.run respond (api.ask (.query table partition most start)) s).1 =
        .ok (.error (.fatal text))) ∧
      sent (Program.transcript respond (api.ask (.query table partition most start)) s) = [] := by
  rw [TableApi.ask_eq]
  rcases h with ⟨e, htoken⟩ | ⟨token, now, between, later, e, htoken, hnow, hrequest⟩
  · simp only [Program.run, Program.transcript, htoken]
    exact ⟨.inl ⟨e, rfl⟩, rfl⟩
  · obtain ⟨text, rfl⟩ := build_error hrequest
    simp only [Program.run, Program.transcript, htoken, hnow, hrequest]
    exact ⟨.inr ⟨text, rfl⟩, rfl⟩

theorem run_reading (limit : Nat) (read : List Row)
    (h : Fetches respond api table partition most start s request answer s') :
    Program.run respond (reading api table partition most (limit + 1) start read) s =
      Program.run respond (afterwards api table partition most limit read
        (.ok (judgedPage table partition most start request answer))) s' := by
  refine (congrArg (Program.run respond · s) (reading_succ limit read)).trans ?_
  refine (Program.run_bind (I := Web) respond _ _ s).trans ?_
  rw [(ask_fetches h).1]

theorem sent_reading (limit : Nat) (read : List Row)
    (h : Fetches respond api table partition most start s request answer s') :
    sent (Program.transcript respond (reading api table partition most (limit + 1) start read) s) =
      request :: sent (Program.transcript respond (afterwards api table partition most limit read
        (.ok (judgedPage table partition most start request answer))) s') := by
  refine (congrArg (fun p => sent (Program.transcript respond p s))
    (reading_succ limit read)).trans ?_
  refine (congrArg sent (Program.transcript_bind (I := Web) respond _ _ s)).trans ?_
  rw [sent_append, (ask_fetches h).2, (ask_fetches h).1]
  rfl

/-- A failure by which nothing has been found missing is passed on. -/
theorem afterwards_error {e : ServiceError} (limit : Nat) (read : List Row)
    (h : ∀ text, e ≠ .notFound text) :
    afterwards api table partition most limit read (.ok (.error e)) = Attempt.fail e := by
  cases e with
  | notFound text => exact absurd rfl (h text)
  | conflict text => rfl
  | transient text => rfl
  | fatal text => rfl
  | undecodable text => rfl

theorem ofStatus_ne_notFound {status : Nat} {context : String} (h : status ≠ 404) (text : String) :
    ServiceError.ofStatus status context ≠ .notFound text := by
  unfold ServiceError.ofStatus
  rw [if_neg h]
  split
  · simp
  · split <;> simp

/-- A request that is refused, and not because something is missing, fails. -/
theorem reading_refused {e : ServiceError} (limit : Nat) (read : List Row)
    (hfetches : Fetches respond api table partition most start s request answer s')
    (hrefused : judgedPage table partition most start request answer = .error e)
    (hthere : ∀ text, e ≠ .notFound text) :
    (∃ e, (Program.run respond (reading api table partition most (limit + 1) start read) s).1 =
        .error e) ∧
      sent (Program.transcript respond
        (reading api table partition most (limit + 1) start read) s) = [request] := by
  rw [run_reading limit read hfetches, sent_reading limit read hfetches, hrefused,
    afterwards_error limit read hthere]
  exact ⟨⟨e, rfl⟩, rfl⟩

theorem reading_balks (h : Balks respond api table partition most start s) (limit : Nat)
    (read : List Row) :
    (∃ e, (Program.run respond (reading api table partition most (limit + 1) start read) s).1 =
        .error e) ∧
      sent (Program.transcript respond
        (reading api table partition most (limit + 1) start read) s) = [] := by
  obtain ⟨hfails, hnone⟩ := ask_balks h
  rw [reading_succ]
  have hrun := Program.run_bind (I := Web) respond (api.ask (.query table partition most start))
    (afterwards api table partition most limit read) s
  have hsaid := Program.transcript_bind (I := Web) respond
    (api.ask (.query table partition most start)) (afterwards api table partition most limit read) s
  rw [hrun, hsaid, sent_append, hnone]
  rcases hfails with ⟨e, hfails⟩ | ⟨text, hfails⟩
  · rw [hfails]
    exact ⟨⟨e, rfl⟩, rfl⟩
  · rw [hfails]
    exact ⟨⟨_, rfl⟩, rfl⟩

/-- A request that is not answered by a page ends the reading. -/
theorem reading_ending {ending : Ending}
    (h : Ends respond api table partition most start s ending) (limit : Nat) (read : List Row) :
    ending.Gives read
        (Program.run respond (reading api table partition most (limit + 1) start read) s).1 ∧
      sent (Program.transcript respond
        (reading api table partition most (limit + 1) start read) s) = ending.request?.toList := by
  cases h with
  | @missing s' request response hfetches hstatus =>
      have hfailure : response.isSuccess = false := by simp [Response.isSuccess, hstatus]
      obtain ⟨context, hmissing⟩ : ∃ context,
          judgedPage table partition most start request (.ok response) =
            .error (.ofStatus response.status context) := judged_of_failure hfailure
      rw [run_reading limit read hfetches, sent_reading limit read hfetches, hmissing, hstatus]
      exact ⟨rfl, rfl⟩
  | refused hfetches hsuccess hstatus =>
      obtain ⟨context, hrefused⟩ := judged_of_failure hsuccess
      exact reading_refused limit read hfetches hrefused (ofStatus_ne_notFound hstatus)
  | garbled hfetches hsuccess hitems =>
      rw [run_reading limit read hfetches, sent_reading limit read hfetches,
        judgedPage_of_success hsuccess, afterwards]
      cases hread : Response.decode page? _ with
      | error e => exact ⟨⟨e, rfl⟩, rfl⟩
      | ok items => exact absurd (isPage_iff.mpr hread) (hitems items)
  | @lost s' request e hfetches =>
      refine reading_refused limit read hfetches rfl ?_
      cases e <;> simp [TransportError.asService]
  | balked hbalks => exact reading_balks hbalks limit read

/-- What follows a page: no more if nothing is behind it or there are enough rows, or else the next
page. -/
theorem afterwards_page {response : Response} {items : List Json.Members} (limit : Nat)
    (read : List Row) (hitems : IsPage response.body items) :
    afterwards api table partition most limit read (.ok (.ok response)) =
      match response.header? "x-ms-continuation-NextPartitionKey" with
      | none => pure (read ++ Page.rows ⟨request, response, items⟩)
      | some next =>
          if isEnough most (read ++ Page.rows ⟨request, response, items⟩).length then
            pure (read ++ Page.rows ⟨request, response, items⟩)
          else reading api table partition most limit
            (some ⟨next, response.header? "x-ms-continuation-NextRowKey"⟩)
            (read ++ Page.rows ⟨request, response, items⟩) := by
  rw [afterwards, isPage_iff.mp hitems, continuation?_eq]
  dsimp only
  cases response.header? "x-ms-continuation-NextPartitionKey" <;> rfl

/-- A page after which nothing is asked ends the reading. -/
theorem reading_stops {response : Response} {items : List Json.Members} (limit : Nat)
    (read : List Row)
    (hfetches : Fetches respond api table partition most start s request (.ok response) s')
    (hsuccess : response.isSuccess = true) (hitems : IsPage response.body items)
    (hstops : response.header? "x-ms-continuation-NextPartitionKey" = none ∨
      isEnough most (read ++ Page.rows ⟨request, response, items⟩).length = true) :
    (Program.run respond (reading api table partition most (limit + 1) start read) s).1 =
        .ok (read ++ Page.rows ⟨request, response, items⟩) ∧
      sent (Program.transcript respond
        (reading api table partition most (limit + 1) start read) s) = [request] := by
  have hlast : afterwards api table partition most limit read (.ok (.ok response)) =
      pure (read ++ Page.rows ⟨request, response, items⟩) := by
    rw [afterwards_page limit read hitems]
    split
    next => rfl
    next next hnext => exact if_pos (hstops.resolve_left (by simp [hnext]))
  rw [run_reading limit read hfetches, sent_reading limit read hfetches,
    judgedPage_of_success hsuccess, hlast]
  exact ⟨rfl, rfl⟩

/-- A page after which more is asked is followed by the next one. -/
theorem reading_goesOn {response : Response} {items : List Json.Members} {next : String}
    (limit : Nat) (read : List Row)
    (hfetches : Fetches respond api table partition most start s request (.ok response) s')
    (hsuccess : response.isSuccess = true) (hitems : IsPage response.body items)
    (hnext : response.header? "x-ms-continuation-NextPartitionKey" = some next)
    (hfew : isEnough most (read ++ Page.rows ⟨request, response, items⟩).length = false) :
    let rest := reading api table partition most limit
      (some ⟨next, response.header? "x-ms-continuation-NextRowKey"⟩)
      (read ++ Page.rows ⟨request, response, items⟩)
    Program.run respond (reading api table partition most (limit + 1) start read) s =
        Program.run respond rest s' ∧
      sent (Program.transcript respond
        (reading api table partition most (limit + 1) start read) s) =
        request :: sent (Program.transcript respond rest s') := by
  intro rest
  have hmore : afterwards api table partition most limit read (.ok (.ok response)) = rest := by
    rw [afterwards_page limit read hitems, hnext]
    exact if_neg (by rw [Bool.not_eq_true]; exact hfew)
  rw [run_reading limit read hfetches, sent_reading limit read hfetches,
    judgedPage_of_success hsuccess, hmore]
  exact ⟨rfl, rfl⟩

theorem isEnough_shift (read : List Row) (page : Page) (pages : List Page) (n : Nat) :
    isEnough most (read ++ ((page :: pages).take (n + 1 + 1)).flatMap Page.rows).length =
      isEnough most (read ++ page.rows ++ (pages.take (n + 1)).flatMap Page.rows).length := by
  rw [List.take_succ_cons, List.flatMap_cons, List.append_assoc]

/-- How a sequence of pages is read from a start on, behind rows that have been read, with enough
room for all of its pages. -/
theorem reading_shown {pages : List Page} {ending : Ending}
    (h : Shows respond api table partition most start s pages ending) (read : List Row)
    {limit : Nat} (hlimit : pages.length < limit) :
    (∀ n < pages.length,
      isEnough most (read ++ (pages.take (n + 1)).flatMap Page.rows).length = true →
      (∀ k < n, isEnough most (read ++ (pages.take (k + 1)).flatMap Page.rows).length = false) →
      (Program.run respond (reading api table partition most limit start read) s).1 =
          .ok (read ++ (pages.take (n + 1)).flatMap Page.rows) ∧
        sent (Program.transcript respond (reading api table partition most limit start read) s) =
          (pages.take (n + 1)).map Page.request) ∧
    ((∀ n < pages.length,
      isEnough most (read ++ (pages.take (n + 1)).flatMap Page.rows).length = false) →
      ending.Gives (read ++ pages.flatMap Page.rows)
        (Program.run respond (reading api table partition most limit start read) s).1 ∧
      sent (Program.transcript respond (reading api table partition most limit start read) s) =
        pages.map Page.request ++ ending.request?.toList) := by
  induction h generalizing read limit with
  | none hends =>
      obtain ⟨limit, rfl⟩ := Nat.exists_eq_add_one_of_ne_zero (Nat.ne_of_gt hlimit)
      have hended := reading_ending hends limit read
      exact ⟨fun n hn => absurd hn (Nat.not_lt_zero n), fun _ => by simpa using hended⟩
  | last hfetches hsuccess hitems hnext =>
      obtain ⟨limit, rfl⟩ :=
        Nat.exists_eq_add_one_of_ne_zero (Nat.ne_of_gt (Nat.zero_lt_of_lt hlimit))
      obtain ⟨hresult, hsent⟩ := reading_stops limit read hfetches hsuccess hitems (.inl hnext)
      refine ⟨fun n hn _ _ => ?_, fun _ => ?_⟩
      · obtain rfl : n = 0 := by simpa using hn
        simpa using And.intro hresult hsent
      · simpa [Ending.Gives, Ending.request?] using And.intro hresult hsent
  | @more _ s s' request response items next pages ending hfetches hsuccess hitems hnext hrest ih =>
      obtain ⟨limit, rfl⟩ :=
        Nat.exists_eq_add_one_of_ne_zero (Nat.ne_of_gt (Nat.zero_lt_of_lt hlimit))
      have hroom : pages.length < limit := Nat.lt_of_succ_lt_succ hlimit
      have hfirst :
          read ++ ((⟨request, response, items⟩ :: pages : List Page).take
              (0 + 1)).flatMap Page.rows =
            read ++ Page.rows ⟨request, response, items⟩ := by simp
      -- If the first page is enough, it is the first at which there are; if not, that page is
      -- among the rest, one place earlier.
      cases hfew : isEnough most (read ++ Page.rows ⟨request, response, items⟩).length with
      | true =>
          obtain ⟨hresult, hsent⟩ :=
            reading_stops limit read hfetches hsuccess hitems (.inr hfew)
          refine ⟨fun n hn henough hbefore => ?_, fun hnever => ?_⟩
          · cases n with
            | zero => simpa using And.intro hresult hsent
            | succ n =>
                have hnot := hbefore 0 (Nat.succ_pos n)
                rw [hfirst, hfew] at hnot
                cases hnot
          · have hnot := hnever 0 (Nat.succ_pos _)
            rw [hfirst, hfew] at hnot
            cases hnot
      | false =>
          obtain ⟨hrun, hsent⟩ :=
            reading_goesOn limit read hfetches hsuccess hitems hnext hfew
          obtain ⟨henough', hnever'⟩ := ih (read ++ Page.rows ⟨request, response, items⟩) hroom
          rw [hrun, hsent]
          refine ⟨fun n hn henough hbefore => ?_, fun hnever => ?_⟩
          · cases n with
            | zero =>
                rw [hfirst, hfew] at henough
                cases henough
            | succ n =>
                rw [isEnough_shift] at henough
                obtain ⟨hresult, hrest⟩ := henough' n (Nat.lt_of_succ_lt_succ hn) henough
                  fun k hk => by
                    have hnot := hbefore (k + 1) (Nat.succ_lt_succ hk)
                    rwa [isEnough_shift] at hnot
                rw [hresult, hrest, List.take_succ_cons, List.flatMap_cons, List.append_assoc]
                exact ⟨rfl, rfl⟩
          · obtain ⟨hresult, hrest⟩ := hnever' fun n hn => by
              have hnot := hnever (n + 1) (Nat.succ_lt_succ hn)
              rwa [isEnough_shift] at hnot
            rw [hrest, List.flatMap_cons, ← List.append_assoc]
            exact ⟨hresult, rfl⟩

/-! ## Tokens -/

/-- The tokens by which a request asks for the page behind a start. -/
def startTokens : Option Continuation → List (String × String)
  | none => []
  | some next =>
      ("NextPartitionKey", next.partition) ::
        (next.key.map fun key => ("NextRowKey", key)).toList

theorem Fetches.asks (h : Fetches respond api table partition most start s request answer s') :
    Asks api table partition most (startTokens start) request := by
  obtain ⟨token, now, -, -, -, -, hrequest, -⟩ := h
  obtain ⟨hmethod, hbody, hurl⟩ := Request.build_ok hrequest
  have hstamped : [("authorization", "Bearer " ++ token), ("x-ms-version", "2019-02-02"),
      ("x-ms-date", Timestamp.http now)] ⊆ request.headers := by
    rw [Request.build_headers hrequest]
    exact fun header hheader => List.mem_append_right _ (List.mem_append_left _ hheader)
  obtain ⟨hscheme, hhost, hport, hpath⟩ := Request.destination_eq (api.url (table ++ "()"))
    (TableApi.pageQuery partition most start)
  obtain ⟨path, hbase⟩ : ∃ path, api.url (table ++ "()") = { api.base with path } :=
    Url.withPath_eq _ _
  rw [← hurl, hbase] at hscheme hhost hport
  rw [← hurl] at hpath
  refine ⟨hmethod, hbody, ⟨token, now, hstamped⟩, ⟨hscheme, hhost, hport⟩,
    fun hsecure hname => ?_, ?_⟩
  · rw [hpath, hname.isPath_rows.url_eq hsecure]
    exact congrArg (fun segment => Url.Path.rooted [segment]) hname.encode_rows
  · refine ⟨_, filtered?_filter partition, ?_⟩
    rw [hurl, Request.pairs?_destination, hbase]
    cases start <;> rfl

/-- Each request carries the tokens of the page before it. -/
theorem Shows.asks {pages : List Page} {ending : Ending}
    (h : Shows respond api table partition most start s pages ending) (n : Nat)
    (hrequest : (pages.map Page.request ++ ending.request?.toList)[n]? = some request) :
    Asks api table partition most
      ((pages.take n).getLast?.elim (startTokens start) fun page => tokens page.response)
      request := by
  induction h generalizing n with
  | none hends =>
      have hthere : ∀ {ending : Ending}, ending.request?.toList[n]? = some request →
          ending.request? = some request := by
        intro ending h
        cases hasked : ending.request? <;> simp_all [List.getElem?_singleton]
      have hending := hthere hrequest
      cases hends with
      | missing hfetches | refused hfetches | garbled hfetches | lost hfetches =>
          cases hending
          simpa using hfetches.asks
      | balked => cases hending
  | last hfetches =>
      cases n with
      | zero =>
          cases hrequest
          exact hfetches.asks
      | succ n => simp [Ending.request?] at hrequest
  | @more _ _ _ first response items next pages ending hfetches _ _ hnext _ ih =>
      cases n with
      | zero =>
          cases hrequest
          exact hfetches.asks
      | succ n =>
          have htokens : tokens response =
              startTokens (some ⟨next, response.header? "x-ms-continuation-NextRowKey"⟩) := by
            rw [tokens, hnext]
            rfl
          have hrest := ih n hrequest
          rw [List.take_succ_cons, List.getLast?_cons]
          rw [← htokens] at hrest
          cases hlast : (pages.take n).getLast? <;> simpa [hlast] using hrest

/-! ## Queries -/

/-- The rows of a query, in the order of their keys and as many as are wanted. -/
def wanted (most : Option Nat) (rows : List Row) : List Row :=
  let rows := rows.mergeSort fun a b => a.key ≤ b.key
  match most with
  | some n => rows.take n
  | none => rows

/-- A query over the web. -/
def query (api : TableApi) (table partition : String) (most : Option Nat) (limit : Nat) :
    Attempt Web ServiceError (List Row) :=
  Program.via api.respond (queryPartition table partition most limit)

theorem query_eq (limit : Nat) :
    query api table partition most limit =
      Attempt.bind (reading api table partition most limit none []) fun rows =>
        pure (wanted most rows) := by
  refine (Program.via_bind (I := TableService) api.respond
    (collectPages table partition most limit none []) _).trans ?_
  refine congrArg (Program.bind _) ?_
  funext read
  cases read <;> rfl

theorem run_query (limit : Nat) :
    (Program.run respond (query api table partition most limit) s).1 =
        (Program.run respond (reading api table partition most limit none []) s).1.map
          (wanted most) ∧
      Program.transcript respond (query api table partition most limit) s =
        Program.transcript respond (reading api table partition most limit none []) s := by
  rw [query_eq]
  constructor
  · refine (congrArg Prod.fst (Attempt.run_bind (I := Web) respond _ _ s)).trans ?_
    cases (Program.run respond (reading api table partition most limit none []) s).1 <;> rfl
  · refine (Program.transcript_bind (I := Web) respond _ _ s).trans ?_
    cases (Program.run respond (reading api table partition most limit none []) s).1 <;>
      exact List.append_nil _

/-- Rows in the order of their keys are given as they are, up to as many as are wanted. -/
theorem wanted_of_few {rows : List Row} (hascending : rows.Pairwise fun r r' => r.key < r'.key)
    (hfew : ∀ l, most = some l → rows.length ≤ l) : wanted most rows = rows := by
  unfold wanted
  rw [TableServer.mergeSort_of_ascending hascending]
  cases most with
  | none => rfl
  | some l => exact List.take_of_length_le (hfew l rfl)

theorem Ending.Gives.map_wanted {rows : List Row} {ending : Ending}
    {result : Except ServiceError (List Row)} (h : ending.Gives rows result)
    (hwanted : wanted most rows = rows) : ending.Gives rows (result.map (wanted most)) := by
  cases ending with
  | complete =>
      obtain rfl : result = .ok rows := h
      exact congrArg Except.ok hwanted
  | missing request =>
      obtain rfl : result = .ok [] := h
      exact congrArg Except.ok (wanted_of_few List.Pairwise.nil fun _ _ => Nat.zero_le _)
  | failed request =>
      obtain ⟨e, rfl⟩ := h
      exact ⟨e, rfl⟩

theorem isEnough_eq_false {count : Nat} (h : ∀ n, most = some n → count < n) :
    isEnough most count = false := by
  cases most with
  | none => rfl
  | some n => simpa [isEnough] using h n rfl

/-- Pages that hold enough rows altogether have held enough from one of them on. -/
theorem exists_full {pages : List Page} {l : Nat} (hpages : pages ≠ [])
    (hfull : l ≤ (pages.flatMap Page.rows).length) :
    ∃ n < pages.length, l ≤ ((pages.take (n + 1)).flatMap Page.rows).length ∧
      ∀ k < n, ((pages.take (k + 1)).flatMap Page.rows).length < l := by
  have hsome : ∃ n, l ≤ ((pages.take (n + 1)).flatMap Page.rows).length :=
    ⟨pages.length, by rwa [List.take_of_length_le (Nat.le_succ _)]⟩
  refine ⟨Nat.find hsome, ?_, Nat.find_spec hsome, fun k hk =>
    Nat.lt_of_not_le (Nat.find_min hsome hk)⟩
  have hpositive := List.length_pos_iff.mpr hpages
  refine Nat.lt_of_le_of_lt (Nat.find_min' hsome (m := pages.length - 1) ?_) (by omega)
  rwa [List.take_of_length_le (by omega)]

/-- Whatever pages a partition is cut into, a query sends one request for each of them, which looks
for the partition and carries just the tokens of the page before, and gives all rows in the order of
their keys. A query that wants only so many stops at the first page at which it has as many, and
gives the first of the same rows. A request that finds nothing makes the result empty, and any other
failure is an error. -/
theorem queries_lose_nothing {pages : List Page} {ending : Ending} {limit : Nat}
    (hshows : Shows respond api table partition most none s pages ending)
    (hascending : (pages.flatMap Page.rows).Pairwise fun r r' => r.key < r'.key)
    (hlimit : pages.length < limit) :
    (∀ l, most = some l → pages ≠ [] → l ≤ (pages.flatMap Page.rows).length →
      ∃ n < pages.length, l ≤ ((pages.take (n + 1)).flatMap Page.rows).length ∧
        (∀ k < n, ((pages.take (k + 1)).flatMap Page.rows).length < l) ∧
        (Program.run respond (query api table partition most limit) s).1 =
          .ok ((pages.flatMap Page.rows).take l) ∧
        sent (Program.transcript respond (query api table partition most limit) s) =
          (pages.take (n + 1)).map Page.request) ∧
    ((∀ l, most = some l → pages = [] ∨ (pages.flatMap Page.rows).length < l) →
      ending.Gives (pages.flatMap Page.rows)
          (Program.run respond (query api table partition most limit) s).1 ∧
        sent (Program.transcript respond (query api table partition most limit) s) =
          pages.map Page.request ++ ending.request?.toList) ∧
    (∀ n request, (pages.map Page.request ++ ending.request?.toList)[n]? = some request →
      Asks api table partition most
        ((pages.take n).getLast?.elim [] fun page => tokens page.response) request) ∧
    ∀ members row, TableApi.rowOf? members = some row ↔
      members.find? TableApi.partitionName = some (.str row.partition) ∧
        members.find? TableApi.keyName = some (.str row.key) ∧
        row.properties = members.filter fun (name, _) =>
          name != TableApi.partitionName && name != TableApi.keyName &&
            name != TableApi.timestampName && !TableApi.isServiceMember name := by
  obtain ⟨henough, hnever⟩ := reading_shown hshows [] hlimit
  simp only [List.nil_append] at henough hnever
  obtain ⟨hrun, hsaid⟩ : _ ∧ Program.transcript respond
      (query api table partition most limit) s = _ := run_query limit
  rw [hrun, hsaid]
  have hsplit : ∀ n, pages.flatMap Page.rows =
      (pages.take n).flatMap Page.rows ++ (pages.drop n).flatMap Page.rows := fun n => by
    rw [← List.flatMap_append, List.take_append_drop]
  refine ⟨?_, ?_, fun n _ => hshows.asks n, fun _ _ => rowOf?_eq_some_iff⟩
  · rintro l rfl hpages hfull
    obtain ⟨n, hn, hfirst, hbefore⟩ := exists_full hpages hfull
    obtain ⟨hresult, hsent⟩ := henough n hn (by simpa [isEnough] using hfirst)
      fun k hk => isEnough_eq_false fun l' hl => by cases hl; exact hbefore k hk
    refine ⟨n, hn, hfirst, hbefore, ?_, hsent⟩
    rw [hsplit (n + 1)] at hascending ⊢
    rw [hresult, List.take_append_of_le_length hfirst]
    refine congrArg Except.ok ?_
    rw [wanted, TableServer.mergeSort_of_ascending (List.pairwise_append.mp hascending).1]
  · intro hfew
    have hshort : ∀ l, most = some l → (pages.flatMap Page.rows).length ≤ l := by
      intro l hl
      rcases hfew l hl with rfl | hless
      · exact Nat.zero_le _
      · exact Nat.le_of_lt hless
    obtain ⟨hgives, hsent⟩ := hnever fun n hn => isEnough_eq_false fun l hl => by
      rcases hfew l hl with rfl | hless
      · cases hn
      · rw [hsplit (n + 1), List.length_append] at hless
        omega
    exact ⟨hgives.map_wanted (wanted_of_few hascending hshort), hsent⟩

/-- The tables of an account. -/
def trialApi : TableApi :=
  match TableApi.make "trial" with
  | .ok api => api
  | .error _ => default

theorem trialApi_isSecureWeb : trialApi.base.IsSecureWeb :=
  TableApi.make_base (show TableApi.make "trial" = .ok trialApi from rfl)

/-- A row with no more than its keys. -/
def trialItem (key : String) : Json.Members :=
  [(TableApi.partitionName, .str "p"), (TableApi.keyName, .str key)]

def trialText (items : List Json.Members) : String :=
  (Json.obj [("value", .arr (items.map .obj))]).text

/-- An empty page, one with a row and an object without keys, and one with another row. -/
def trialResponse : Nat → Response
  | 0 => ⟨200, [("x-ms-continuation-NextPartitionKey", "p")], trialText []⟩
  | 1 => ⟨200, [("x-ms-continuation-NextPartitionKey", "p"),
      ("x-ms-continuation-NextRowKey", "b")], trialText [trialItem "a", []]⟩
  | _ => ⟨200, [], trialText [trialItem "b"]⟩

theorem queries_lose_nothing_trial :
    ∃ pages, Shows (Web.replies trialResponse) trialApi "t" "p" (some 1) none 0 pages .complete ∧
      (pages.flatMap Page.rows).Pairwise (fun r r' => r.key < r'.key) ∧ pages.length < 4 ∧
      pages.flatMap Page.rows = [⟨"p", "a", []⟩, ⟨"p", "b", []⟩] ∧
      (Program.run (Web.replies trialResponse) (query trialApi "t" "p" (some 1) 4) 0).1 =
        .ok [⟨"p", "a", []⟩] ∧
      sent (Program.transcript (Web.replies trialResponse) (query trialApi "t" "p" (some 1) 4) 0) =
        (pages.take 2).map Page.request ∧
      ∀ page ∈ pages[2]?, Asks trialApi "t" "p" (some 1)
        [("NextPartitionKey", "p"), ("NextRowKey", "b")] page.request := by
  have hfetches (asked : Nat) (start : Option Continuation) :
      ∃ request, Fetches (Web.replies trialResponse) trialApi "t" "p" (some 1) start asked request
        (.ok (trialResponse asked)) (asked + 1) := by
    have hname : IsName "t" := by decide
    have hreadable : IsReadable (.query "t" "p" (some 1) start) := hname
    obtain ⟨request, hrequest, -⟩ :=
      read?_request trialApi_isSecureWeb rfl hreadable "token" default
    exact ⟨request, "token", default, asked, asked, rfl, rfl, hrequest, rfl⟩
  have hpage (asked : Nat) (items : List Json.Members)
      (h : (trialResponse asked).decode page? = .ok items) :
      IsPage (trialResponse asked).body items := isPage_iff.mpr h
  obtain ⟨first, hfirst⟩ := hfetches 0 none
  obtain ⟨second, hsecond⟩ := hfetches 1 (some ⟨"p", none⟩)
  obtain ⟨third, hthird⟩ := hfetches 2 (some ⟨"p", some "b"⟩)
  let pages : List Page :=
    [⟨first, trialResponse 0, []⟩, ⟨second, trialResponse 1, [trialItem "a", []]⟩,
      ⟨third, trialResponse 2, [trialItem "b"]⟩]
  have hshows : Shows (Web.replies trialResponse) trialApi "t" "p" (some 1) none 0 pages
      .complete :=
    .more hfirst rfl (hpage 0 _ (by decide +kernel)) (by decide +kernel) <|
      .more hsecond rfl (hpage 1 _ (by decide +kernel)) (by decide +kernel) <|
        .last hthird rfl (hpage 2 _ (by decide +kernel)) (by decide +kernel)
  have hrows : pages.flatMap Page.rows = [⟨"p", "a", []⟩, ⟨"p", "b", []⟩] := rfl
  have hascending : (pages.flatMap Page.rows).Pairwise fun r r' => r.key < r'.key := by
    rw [hrows]
    decide +kernel
  have hlimit : pages.length < 4 := by simp [pages]
  have hfull : 1 ≤ (pages.flatMap Page.rows).length := by simp [hrows]
  obtain ⟨hlimited, -, hasks, -⟩ := queries_lose_nothing hshows hascending hlimit
  obtain ⟨n, hn, henough, hbefore, hresult, hsent⟩ :=
    hlimited 1 rfl (List.cons_ne_nil _ _) hfull
  -- The first page is empty, and the second one has a row.
  obtain rfl : n = 1 := by
    rcases n with _ | _ | n
    · cases henough
    · rfl
    · exact absurd (hbefore 1 (by omega)) (Nat.lt_irrefl 1)
  have htokens : tokens (trialResponse 1) =
      [("NextPartitionKey", "p"), ("NextRowKey", "b")] := by decide +kernel
  refine ⟨pages, hshows, hascending, hlimit, hrows, hresult, hsent, ?_⟩
  rintro _ ⟨rfl⟩
  rw [← htokens]
  exact hasks 2 third rfl

end Paging

end SwarmUpkeep
