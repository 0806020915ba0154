import SwarmUpkeep.Proofs.Json.Text
import SwarmUpkeep.Proofs.Remote.Inventory
import SwarmUpkeep.Proofs.Remote.Pages
import SwarmUpkeep.Proofs.Remote.Requests

/-!
# Listings page by page

The provider tells the machines and the interfaces of a scale set in pages, each of which may name
the place of the next one. Whoever takes a listing that has broken off for a whole one takes
machines that are there for machines that are gone. So a listing is all pages or an error: a chain
of pages up to one without a link is read from end to end, and nothing that comes short of that is a
result. What a page holds is what its document tells, item by item.
-/

namespace SwarmUpkeep

open Paging (sent sent_append)
open Json.Document (IsRecord HasDefault IsArray IsOptional IsText)
open ScaleSetApi (page? listFrom machine? interface? InterfaceDocument)
open TableApi (sentTo)
open Inventory (TellsMachine TellsInterfaces)

namespace Listing

/-- A page that is shown: its place, the request for it, what its items tell, and its link to the
next page. -/
structure Page (α : Type) where
  place : Url
  request : Request
  items : List α
  link : Option String

/-- How a chain of pages ends: with a page that has no link, or with one that is not had. -/
inductive Ending where
  | complete
  | broken

section

variable {σ α : Type} (respond : σ → (c : WebCall) → c.Answer × σ)
variable (tells : Json.Document → List α → Prop)

/-- A body is a page, whose items tell these things one after the other, and which may link to
another page. -/
def IsPage (body : String) (items : List α) (link : Option String) : Prop :=
  ∃ d value next told, Json.Document.parse? body = some d ∧
    IsRecord ["value", "nextLink"] d [value, next] ∧ HasDefault [] (IsArray tells) value told ∧
    items = told.flatten ∧ IsOptional IsText next link

/-- The request for a page behind a token. -/
def request (place : Url) (token : String) : Except ServiceError Request :=
  Request.build .get place [] [("authorization", "Bearer " ++ token)] none

/-- A token is had, and the request for the page at a place is answered behind it. -/
def Fetches (place : Url) (s : σ) (asked : Request) (answer : Except TransportError Response)
    (s' : σ) : Prop :=
  ∃ token between, respond s (.token TokenSource.managementResource) = (.ok token, between) ∧
    request place token = .ok asked ∧ respond between (.outside (.send asked)) = (answer, s')

/-- The page at its place is fetched, and its body is that page. -/
def Shows (s : σ) (page : Page α) (s' : σ) : Prop :=
  ∃ response, Fetches respond page.place s page.request (.ok response) s' ∧
    response.isSuccess = true ∧ IsPage tells response.body page.items page.link

/-- The page at a place is not had: nothing can be sent, no response comes, it is no success, its
body is no page, or its link leads to no place. -/
inductive Breaks (place : Url) (s : σ) : Prop where
  | tokenless {e : ServiceError}
      (htoken : (respond s (.token TokenSource.managementResource)).1 = .error e)
  | unsendable {token : String} {e : ServiceError}
      (htoken : (respond s (.token TokenSource.managementResource)).1 = .ok token)
      (hrequest : request place token = .error e)
  | lost {asked : Request} {e : TransportError} {s' : σ}
      (hfetches : Fetches respond place s asked (.error e) s')
  | refused {asked : Request} {response : Response} {s' : σ}
      (hfetches : Fetches respond place s asked (.ok response) s')
      (hsuccess : response.isSuccess = false)
  | garbled {asked : Request} {response : Response} {s' : σ}
      (hfetches : Fetches respond place s asked (.ok response) s')
      (hsuccess : response.isSuccess = true)
      (hpage : ∀ items link, ¬ IsPage tells response.body items link)
  | astray {page : Page α} {link : String} {e : Url.ParseError} {s' : σ}
      (hshows : Shows respond tells s page s') (hplace : page.place = place)
      (hlink : page.link = some link) (hnext : Url.parse link = .error e)

/-- The pages from a place on, each at the place to which the one before it links. -/
inductive Chain : Url → σ → List (Page α) → Ending → Prop where
  | broken {place : Url} {s : σ} (hbreaks : Breaks respond tells place s) :
      Chain place s [] .broken
  | last {s s' : σ} {page : Page α} (hshows : Shows respond tells s page s')
      (hlink : page.link = none) : Chain page.place s [page] .complete
  | more {s s' : σ} {page : Page α} {link : String} {next : Url} {pages : List (Page α)}
      {ending : Ending} (hshows : Shows respond tells s page s') (hlink : page.link = some link)
      (hnext : Url.parse link = .ok next) (hrest : Chain next s' pages ending) :
      Chain page.place s (page :: pages) ending

end

variable {σ α β : Type} {respond : σ → (c : WebCall) → c.Answer × σ}
variable {tells : Json.Document → List β → Prop} {item? : Json.Document → Option α}
variable {parsed : α → List β} {what : String} {limit : Nat}
variable {place : Url} {s s' : σ} {asked : Request} {answer : Except TransportError Response}
variable {page : Page β} {pages : List (Page β)}

/-! ## Chains -/

/-- From a place on, each page is asked for at the place to which the page before it links. -/
structure IsTrail (first : Url) (pages : List (Page β)) : Prop where
  starts : ∀ page ∈ pages.head?, page.place = first
  asks : ∀ page ∈ pages, page.request.method = .get ∧ page.request.url = sentTo page.place
  leads : pages.IsChain fun page next =>
    ∃ link, page.link = some link ∧ Url.parse link = .ok next.place

theorem Shows.asks (h : Shows respond tells s page s') :
    page.request.method = .get ∧ page.request.url = sentTo page.place := by
  obtain ⟨response, ⟨token, between, -, hrequest, -⟩, -⟩ := h
  obtain ⟨hmethod, -, hurl⟩ := Request.build_ok hrequest
  exact ⟨hmethod, hurl⟩

theorem Chain.isTrail {ending : Ending} (h : Chain respond tells place s pages ending) :
    IsTrail place pages := by
  induction h with
  | broken hbreaks => exact ⟨by simp, by simp, .nil⟩
  | last hshows hlink => exact ⟨by simp, by simpa using hshows.asks, .singleton _⟩
  | more hshows hlink hnext hrest ih =>
      constructor
      · simp
      · simpa using ⟨hshows.asks, ih.asks⟩
      · cases hrest with
        | broken => exact .singleton _
        | last | more => exact .cons_cons ⟨_, hlink, hnext⟩ ih.leads

/-- The page at a place is not had, or it is shown, and then it is the last or leads on. -/
theorem breaks_or_shows (respond : σ → (c : WebCall) → c.Answer × σ)
    (tells : Json.Document → List β → Prop) (place : Url) (s : σ) :
    Breaks respond tells place s ∨
      ∃ page s', page.place = place ∧ Shows respond tells s page s' ∧
        (page.link = none ∨ ∃ link next, page.link = some link ∧ Url.parse link = .ok next) := by
  rcases htoken : respond s (.token TokenSource.managementResource) with ⟨had, between⟩
  cases had with
  | error e => exact .inl (.tokenless (by rw [htoken]))
  | ok token =>
      cases hrequest : request place token with
      | error e => exact .inl (.unsendable (by rw [htoken]) hrequest)
      | ok asked =>
          rcases hanswer : respond between (.outside (.send asked)) with ⟨answer, s'⟩
          have hfetches : Fetches respond place s asked answer s' :=
            ⟨token, between, htoken, hrequest, hanswer⟩
          cases answer with
          | error e => exact .inl (.lost hfetches)
          | ok response =>
              cases hsuccess : response.isSuccess with
              | false => exact .inl (.refused hfetches hsuccess)
              | true =>
                  by_cases hpage : ∃ items link, IsPage tells response.body items link
                  · obtain ⟨items, link, hpage⟩ := hpage
                    have hshows : Shows respond tells s ⟨place, asked, items, link⟩ s' :=
                      ⟨response, hfetches, hsuccess, hpage⟩
                    cases link with
                    | none => exact .inr ⟨_, s', rfl, hshows, .inl rfl⟩
                    | some link =>
                        cases hnext : Url.parse link with
                        | error e => exact .inl (.astray hshows rfl rfl hnext)
                        | ok next => exact .inr ⟨_, s', rfl, hshows, .inr ⟨link, next, rfl, hnext⟩⟩
                  · refine .inl (.garbled hfetches hsuccess fun items link hbody => hpage ?_)
                    exact ⟨items, link, hbody⟩

/-! ## Documents -/

/-- What is read from an item, in the form that is listed, is what the item tells. -/
def IsTold (item? : Json.Document → Option α) (parsed : α → List β)
    (tells : Json.Document → List β → Prop) : Prop :=
  ∀ d items, tells d items ↔ ∃ a, item? d = some a ∧ items = parsed a

theorem IsTold.forall₂_iff (h : IsTold item? parsed tells) {items : List Json.Document}
    {told : List (List β)} :
    List.Forall₂ tells items told ↔
      ∃ read, List.Forall₂ (fun d a => item? d = some a) items read ∧ told = read.map parsed := by
  constructor
  · intro htold
    induction htold with
    | nil => exact ⟨[], .nil, rfl⟩
    | @cons d first items told hfirst _ ih =>
        obtain ⟨a, ha, rfl⟩ := (h d first).mp hfirst
        obtain ⟨read, hread, rfl⟩ := ih
        exact ⟨a :: read, .cons ha hread, rfl⟩
  · rintro ⟨read, hread, rfl⟩
    induction hread with
    | nil => exact .nil
    | @cons d a items read ha _ ih => exact .cons ((h d _).mpr ⟨a, ha, rfl⟩) ih

theorem page?_eq_some_iff {d : Json.Document} {read : List α} {link : Option String} :
    page? item? d = some (read, link) ↔
      ∃ value next, IsRecord ["value", "nextLink"] d [value, next] ∧
        HasDefault [] (IsArray fun d a => item? d = some a) value read ∧
        IsOptional IsText next link := by
  have hitems : Json.Document.IsReadBy (fun d a => item? d = some a) item? := fun _ _ => Iff.rfl
  refine (Json.Document.read_fields_iff fun value next => do
    return (← Json.Document.withDefault [] (Json.Document.list? item?) value,
      ← Json.Document.optional Json.Document.text? next)).trans ?_
  simp [Option.bind_eq_some_iff,
    Json.Document.withDefault_eq_some_iff (Json.Document.list?_eq_some_iff hitems),
    Json.Document.optional_eq_some_iff Json.Document.text?_eq_some_iff]

/-- A page is read as what it is, in the form that is listed. -/
theorem IsTold.isPage_iff (h : IsTold item? parsed tells) {response : Response} {items : List β}
    {link : Option String} :
    IsPage tells response.body items link ↔
      ∃ read, response.decode (page? item?) = .ok (read, link) ∧
        items = read.flatMap parsed := by
  simp only [Response.decode_eq_ok_iff, page?_eq_some_iff]
  constructor
  · rintro ⟨d, value, next, told, hparse, hrecord, hvalue, rfl, hlink⟩
    rcases hvalue with _ | ⟨documents, rfl, htold⟩
    · exact ⟨[], ⟨d, hparse, none, next, hrecord, .missing, hlink⟩, rfl⟩
    · obtain ⟨read, hread, rfl⟩ := h.forall₂_iff.mp htold
      exact ⟨read, ⟨d, hparse, _, next, hrecord, .there ⟨documents, rfl, hread⟩, hlink⟩,
        (List.flatMap_def ..).symm⟩
  · rintro ⟨read, ⟨d, hparse, value, next, hrecord, hvalue, hlink⟩, rfl⟩
    rcases hvalue with _ | ⟨documents, rfl, hread⟩
    · exact ⟨d, none, next, [], hparse, hrecord, .missing, rfl, hlink⟩
    · exact ⟨d, _, next, read.map parsed, hparse, hrecord,
        .there ⟨documents, rfl, h.forall₂_iff.mpr ⟨read, hread, rfl⟩⟩, List.flatMap_def .., hlink⟩

/-! ## One page -/

/-- What the answer to the request for a page says. -/
def reading (item? : Json.Document → Option α) (what : String) (asked : Request)
    (answer : Except TransportError Response) : Except ServiceError (List α × Option String) :=
  judged what Response.cloudMessage asked answer >>= Response.decode (page? item?)

/-- What follows a page that has been read, or not. -/
def afterwards (item? : Json.Document → Option α) (what : String) (limit : Nat) :
    Except ServiceError (List α × Option String) → Attempt Web ServiceError (List α)
  | .error e => Attempt.fail e
  | .ok (items, link) =>
      match link.map Url.parse with
      | none => pure items
      | some (.error e) => Attempt.fail (.undecodable ("bad nextLink: " ++ e.message))
      | some (.ok next) => do return items ++ (← listFrom item? what limit next)

/-- A page is asked for behind a token, and without one it is not. -/
theorem send_eq (place : Url) (what : String) :
    ScaleSetApi.send .get place none what =
      Program.ask (I := Web) (.token TokenSource.managementResource) fun
        | .error e => .done (.error e)
        | .ok token =>
            match request place token with
            | .error e => .done (.error e)
            | .ok asked => Program.ask (I := Web) (.outside (.send asked)) fun answer =>
                .done (judged what Response.cloudMessage asked answer) := by
  refine congrArg (Program.ask (I := Web) _) ?_
  funext had
  cases had with
  | error e => rfl
  | ok token =>
      change Attempt.bind (Web.submit (request place token)) _ = _
      dsimp only
      cases request place token with
      | error e => rfl
      | ok asked =>
          refine congrArg (Program.ask (I := Web) _) ?_
          funext answer
          cases answer <;> rfl

theorem listFrom_succ (limit : Nat) :
    listFrom item? what (limit + 1) place =
      Program.bind (ScaleSetApi.send .get place none what) fun passed =>
        afterwards item? what limit (passed >>= Response.decode (page? item?)) := by
  refine congrArg (Program.bind _) ?_
  funext passed
  cases passed with
  | error e => rfl
  | ok response =>
      change _ = afterwards item? what limit (response.decode (page? item?))
      dsimp only
      cases response.decode (page? item?) with
      | error e => rfl
      | ok shown =>
          obtain ⟨items, link⟩ := shown
          dsimp only [afterwards]
          cases link with
          | none => rfl
          | some link => cases hnext : Url.parse link <;> rfl

theorem run_send (what : String) (h : Fetches respond place s asked answer s') :
    Program.run respond (ScaleSetApi.send .get place none what) s =
        (judged what Response.cloudMessage asked answer, s') ∧
      sent (Program.transcript respond (ScaleSetApi.send .get place none what) s) = [asked] := by
  obtain ⟨token, between, htoken, hrequest, hanswer⟩ := h
  rw [send_eq]
  simp only [Program.run, Program.transcript, htoken, hrequest, hanswer]
  exact ⟨trivial, rfl⟩

/-- A page that is fetched is read, and what follows goes on from there. -/
theorem run_listFrom (what : String) (limit : Nat)
    (h : Fetches respond place s asked answer s') :
    Program.run respond (listFrom item? what (limit + 1) place) s =
        Program.run respond (afterwards item? what limit (reading item? what asked answer)) s' ∧
      sent (Program.transcript respond (listFrom item? what (limit + 1) place) s) =
        asked :: sent (Program.transcript respond
          (afterwards item? what limit (reading item? what asked answer)) s') := by
  obtain ⟨hrun, hsent⟩ := run_send what h
  rw [listFrom_succ]
  constructor
  · apply (Program.run_bind (I := Web) respond _ _ s).trans
    rw [hrun]
    rfl
  · apply (congrArg sent (Program.transcript_bind (I := Web) respond _ _ s)).trans
    rw [sent_append, hsent, hrun]
    rfl

/-- A page that is shown is read, and its link says what follows. -/
theorem run_shows (htold : IsTold item? parsed tells) (what : String) (limit : Nat)
    (h : Shows respond tells s page s') :
    ∃ read, page.items = read.flatMap parsed ∧
      Program.run respond (listFrom item? what (limit + 1) page.place) s =
        Program.run respond (afterwards item? what limit (.ok (read, page.link))) s' ∧
      sent (Program.transcript respond (listFrom item? what (limit + 1) page.place) s) =
        page.request :: sent (Program.transcript respond
          (afterwards item? what limit (.ok (read, page.link))) s') := by
  obtain ⟨response, hfetches, hsuccess, hpage⟩ := h
  obtain ⟨read, hread, hitems⟩ := htold.isPage_iff.mp hpage
  have hreading : reading item? what page.request (.ok response) = .ok (read, page.link) := by
    rw [reading, judged_of_success hsuccess]
    exact hread
  refine ⟨read, hitems, ?_⟩
  rw [← hreading]
  exact run_listFrom what limit hfetches

theorem run_last (htold : IsTold item? parsed tells) (what : String) (limit : Nat)
    (h : Shows respond tells s page s') (hlink : page.link = none) :
    ∃ read, page.items = read.flatMap parsed ∧
      (Program.run respond (listFrom item? what (limit + 1) page.place) s).1 = .ok read ∧
      sent (Program.transcript respond (listFrom item? what (limit + 1) page.place) s) =
        [page.request] := by
  obtain ⟨read, hitems, hrun, hsent⟩ := run_shows htold what limit h
  refine ⟨read, hitems, ?_⟩
  rw [hrun, hsent, hlink]
  exact ⟨rfl, rfl⟩

theorem run_more (htold : IsTold item? parsed tells) {link : String} {next : Url} (what : String)
    (limit : Nat) (h : Shows respond tells s page s') (hlink : page.link = some link)
    (hnext : Url.parse link = .ok next) :
    ∃ read, page.items = read.flatMap parsed ∧
      (Program.run respond (listFrom item? what (limit + 1) page.place) s).1 =
        (Program.run respond (listFrom item? what limit next) s').1.map (read ++ ·) ∧
      sent (Program.transcript respond (listFrom item? what (limit + 1) page.place) s) =
        page.request :: sent (Program.transcript respond (listFrom item? what limit next) s') := by
  obtain ⟨read, hitems, hrun, hsent⟩ := run_shows htold what limit h
  have hafterwards : afterwards item? what limit (.ok (read, page.link)) =
      (do return read ++ (← listFrom item? what limit next)) := by
    rw [afterwards, hlink, Option.map_some, hnext]
  refine ⟨read, hitems, ?_⟩
  rw [hrun, hsent, hafterwards]
  constructor
  · exact Attempt.run_bind_pure (I := Web) respond _ _ s'
  · apply congrArg fun record => page.request :: sent record
    exact Attempt.transcript_bind_pure (I := Web) respond _ _ s'

/-- A page that is not had ends a listing with an error. -/
theorem listFrom_breaks (htold : IsTold item? parsed tells) (what : String) (limit : Nat)
    (h : Breaks respond tells place s) :
    ∃ e, (Program.run respond (listFrom item? what (limit + 1) place) s).1 = .error e := by
  have hfails : ∀ {e : ServiceError},
      (Program.run respond (ScaleSetApi.send .get place none what) s).1 = .error e →
      (Program.run respond (listFrom item? what (limit + 1) place) s).1 = .error e := by
    intro e hsend
    rw [listFrom_succ]
    apply (congrArg Prod.fst (Program.run_bind (I := Web) respond _ _ s)).trans
    rw [hsend]
    rfl
  cases h with
  | @tokenless e htoken =>
      refine ⟨e, hfails ?_⟩
      rw [send_eq]
      simp only [Program.run, htoken]
  | @unsendable token e htoken hrequest =>
      refine ⟨e, hfails ?_⟩
      rw [send_eq]
      simp only [Program.run, htoken, hrequest]
  | lost hfetches =>
      rw [(run_listFrom what limit hfetches).1]
      exact ⟨_, rfl⟩
  | @refused asked response s' hfetches hsuccess =>
      obtain ⟨context, hjudged⟩ : ∃ context, judged what Response.cloudMessage asked
          (.ok response) = .error (.ofStatus response.status context) := judged_of_failure hsuccess
      rw [(run_listFrom what limit hfetches).1, reading, hjudged]
      exact ⟨_, rfl⟩
  | @garbled asked response s' hfetches hsuccess hpage =>
      rw [(run_listFrom what limit hfetches).1, reading, judged_of_success hsuccess]
      change ∃ e, (Program.run respond (afterwards item? what limit
        (response.decode (page? item?))) s').1 = .error e
      cases hread : response.decode (page? item?) with
      | error e => exact ⟨e, rfl⟩
      | ok shown => exact absurd (htold.isPage_iff.mpr ⟨shown.1, hread, rfl⟩) (hpage _ _)
  | @astray page link e s' hshows hplace hlink hnext =>
      subst hplace
      obtain ⟨read, -, hrun, -⟩ := run_shows htold what limit hshows
      rw [hrun, afterwards, hlink, Option.map_some, hnext]
      exact ⟨_, rfl⟩

/-! ## All pages -/

/-- A complete chain is read from end to end, where there is room for its pages. -/
theorem listFrom_complete (htold : IsTold item? parsed tells) (what : String)
    (h : Chain respond tells place s pages .complete) (hlimit : pages.length ≤ limit) :
    ∃ read, pages.flatMap Page.items = read.flatMap parsed ∧
      (Program.run respond (listFrom item? what limit place) s).1 = .ok read ∧
      sent (Program.transcript respond (listFrom item? what limit place) s) =
        pages.map Page.request := by
  generalize hending : Ending.complete = ending at h
  induction h generalizing limit with
  | broken hbreaks => cases hending
  | last hshows hlink =>
      obtain ⟨limit, rfl⟩ := Nat.exists_eq_add_of_le' hlimit
      simpa using run_last htold what limit hshows hlink
  | more hshows hlink hnext hrest ih =>
      obtain ⟨limit, rfl⟩ := Nat.exists_eq_add_of_le' (Nat.one_le_of_lt hlimit)
      obtain ⟨others, hothers, hresult, hsent⟩ := ih (Nat.le_of_succ_le_succ hlimit) hending
      obtain ⟨read, hitems, hrun, hsaid⟩ := run_more htold what limit hshows hlink hnext
      refine ⟨read ++ others, ?_, ?_, ?_⟩
      · rw [List.flatMap_cons, hitems, hothers, List.flatMap_append]
      · rw [hrun, hresult]
        rfl
      · rw [hsaid, hsent, List.map_cons]

/-- A chain that breaks off is an error, whatever has been read by then. -/
theorem listFrom_broken (htold : IsTold item? parsed tells) (what : String)
    (h : Chain respond tells place s pages .broken) (limit : Nat) :
    ∃ e, (Program.run respond (listFrom item? what limit place) s).1 = .error e := by
  generalize hending : Ending.broken = ending at h
  induction h generalizing limit with
  | broken hbreaks =>
      cases limit with
      | zero => exact ⟨_, rfl⟩
      | succ limit => exact listFrom_breaks htold what limit hbreaks
  | last hshows hlink => cases hending
  | more hshows hlink hnext hrest ih =>
      cases limit with
      | zero => exact ⟨_, rfl⟩
      | succ limit =>
          obtain ⟨e, herror⟩ := ih limit hending
          obtain ⟨read, -, hrun, -⟩ := run_more htold what limit hshows hlink hnext
          rw [hrun, herror]
          exact ⟨e, rfl⟩

/-- Whatever is read is all there is: what the items of a complete chain tell. -/
theorem chain_of_listFrom (htold : IsTold item? parsed tells) {read : List α}
    (h : (Program.run respond (listFrom item? what limit place) s).1 = .ok read) :
    ∃ pages, Chain respond tells place s pages .complete ∧
      read.flatMap parsed = pages.flatMap Page.items := by
  induction limit generalizing place s read with
  | zero => cases h
  | succ limit ih =>
      rcases breaks_or_shows respond tells place s with hbreaks | ⟨page, s', rfl, hshows, hlink⟩
      · obtain ⟨e, herror⟩ := listFrom_breaks htold what limit hbreaks
        rw [herror] at h
        cases h
      · rcases hlink with hlink | ⟨link, next, hlink, hnext⟩
        · obtain ⟨first, hitems, hrun, -⟩ := run_last htold what limit hshows hlink
          rw [hrun] at h
          cases h
          exact ⟨[page], .last hshows hlink, by simp [hitems]⟩
        · obtain ⟨first, hitems, hrun, -⟩ := run_more htold what limit hshows hlink hnext
          rw [hrun] at h
          cases hrest : (Program.run respond (listFrom item? what limit next) s').1 with
          | error e =>
              rw [hrest] at h
              cases h
          | ok rest =>
              rw [hrest] at h
              cases h
              obtain ⟨pages, hchain, hothers⟩ := ih hrest
              exact ⟨page :: pages, .more hshows hlink hnext hchain, by simp [hitems, hothers]⟩

/-! ## The two listings -/

/-- A listing gives what the items of all pages of a chain tell, in the order of the pages, or an
error. Each page of a complete chain is asked for once, at the place to which the one before it
links. -/
structure ReadsAll (respond : σ → (c : WebCall) → c.Answer × σ) (s : σ)
    (tells : Json.Document → List β → Prop) (first : Except ServiceError Url) (limit : Nat)
    (listing : Attempt Web ServiceError (List β)) : Prop where
  complete : ∀ place pages, first = .ok place → Chain respond tells place s pages .complete →
    pages.length ≤ limit →
      (Program.run respond listing s).1 = .ok (pages.flatMap Page.items) ∧
        sent (Program.transcript respond listing s) = pages.map Page.request ∧ IsTrail place pages
  broken : ∀ place pages, first = .ok place → Chain respond tells place s pages .broken →
    ∃ e, (Program.run respond listing s).1 = .error e
  whole : ∀ items, (Program.run respond listing s).1 = .ok items →
    ∃ place pages, first = .ok place ∧ Chain respond tells place s pages .complete ∧
      items = pages.flatMap Page.items

variable {first : Except ServiceError Url}

/-- Reads all pages from a first place on and puts what they hold into the form that is listed. -/
def readPages (first : Except ServiceError Url) (item? : Json.Document → Option α) (what : String)
    (limit : Nat) (parsed : α → List β) : Attempt Web ServiceError (List β) :=
  Attempt.bind (Attempt.ofExcept first) fun place =>
    Attempt.bind (listFrom item? what limit place) fun read => pure (read.flatMap parsed)

theorem machines_eq (api : ScaleSetApi) (set : String) :
    api.machines set = readPages (api.setUrl set "/virtualMachines") machine?
      ("list instances of " ++ set) api.pageLimit fun machine => [machine] := by
  unfold readPages
  simp only [List.flatMap_singleton', Attempt.bind_pure]
  rfl

theorem interfaces_eq (api : ScaleSetApi) (set : String) :
    api.interfaces set = readPages (api.interfacesUrl set) interface?
      ("list network interfaces of " ++ set) api.pageLimit InterfaceDocument.addresses :=
  rfl

theorem run_readPages :
    (Program.run respond (readPages (.ok place) item? what limit parsed) s).1 =
        (Program.run respond (listFrom item? what limit place) s).1.map (·.flatMap parsed) ∧
      Program.transcript respond (readPages (.ok place) item? what limit parsed) s =
        Program.transcript respond (listFrom item? what limit place) s :=
  ⟨Attempt.run_bind_pure (I := Web) respond (listFrom item? what limit place) _ s,
    Attempt.transcript_bind_pure (I := Web) respond (listFrom item? what limit place) _ s⟩

theorem readPages_readsAll (htold : IsTold item? parsed tells)
    (respond : σ → (c : WebCall) → c.Answer × σ) (s : σ) (what : String) (limit : Nat) :
    ReadsAll respond s tells first limit (readPages first item? what limit parsed) := by
  cases first with
  | error e =>
      constructor
      · intro place pages hfirst
        cases hfirst
      · intro place pages hfirst
        cases hfirst
      · intro items hitems
        cases hitems
  | ok place =>
      constructor
      · intro _ pages hfirst hchain hlimit
        cases hfirst
        obtain ⟨read, hitems, hresult, hsent⟩ := listFrom_complete htold what hchain hlimit
        rw [run_readPages.1, run_readPages.2, hresult, hsent, hitems]
        exact ⟨rfl, rfl, hchain.isTrail⟩
      · intro _ pages hfirst hchain
        cases hfirst
        obtain ⟨e, herror⟩ := listFrom_broken htold what hchain limit
        rw [run_readPages.1, herror]
        exact ⟨e, rfl⟩
      · intro items hitems
        rw [run_readPages.1] at hitems
        cases hread : (Program.run respond (listFrom item? what limit place) s).1 with
        | error e =>
            rw [hread] at hitems
            cases hitems
        | ok read =>
            rw [hread] at hitems
            cases hitems
            obtain ⟨pages, hchain, hall⟩ := chain_of_listFrom htold hread
            exact ⟨place, pages, rfl, hchain, hall⟩

/-- An item of a listing of machines tells one of them. -/
def TellsOne (d : Json.Document) (machines : List Machine) : Prop :=
  ∃ machine, TellsMachine d machine ∧ machines = [machine]

theorem isTold_machine? : IsTold machine? (fun machine => [machine]) TellsOne :=
  fun d _ => exists_congr fun machine =>
    and_congr_left fun _ => (Inventory.machine?_reads d machine).symm

theorem isTold_interface? : IsTold interface? InterfaceDocument.addresses TellsInterfaces :=
  fun d _ => exists_congr fun told =>
    and_congr (Inventory.interface?_reads d told).symm Inventory.attached_iff

/-- However many pages there are, the machines and the interfaces of a scale set are listed from the
first page to the last, with one request for each page, and each item gives just what its document
tells. A page that is not had, be it the first or any later one, makes the whole listing an error,
and no listing is ever short. -/
theorem listings_read_every_page (respond : σ → (c : WebCall) → c.Answer × σ) (s : σ)
    (api : ScaleSetApi) (set : String) :
    ReadsAll respond s TellsOne (api.setUrl set "/virtualMachines") api.pageLimit
        (api.machines set) ∧
      ReadsAll respond s TellsInterfaces (api.interfacesUrl set) api.pageLimit
        (api.interfaces set) := by
  rw [machines_eq, interfaces_eq]
  exact ⟨readPages_readsAll isTold_machine? respond s _ _,
    readPages_readsAll isTold_interface? respond s _ _⟩

/-- A place at the provider. -/
def trialPlace (segments : List String) (query : Option String) : Url where
  scheme := "https"
  username := ""
  password := none
  host := some (.domain "a.b")
  port := none
  path := .rooted segments
  query := query
  fragment := none

/-- The scale sets of an account. -/
def trialApi : ScaleSetApi :=
  ⟨trialPlace [""] none, "s", "g", 3⟩

/-- Where the listings of a scale set start. -/
def trialStart (listing version : String) : Url :=
  trialPlace ["subscriptions", "s", "resourceGroups", "g", "providers", "Microsoft.Compute",
    "virtualMachineScaleSets", "mgr", listing] (some ("api-version=" ++ version))

def trialPage (place : Url) (items : List β) (link : Option String) : Page β :=
  ⟨place, ⟨.get, place, [("authorization", "Bearer token")], none⟩, items, link⟩

/-- A body with these items and a link. -/
def trialBody (items : List Json) (link : Option String) : Json :=
  .obj ((link.map fun link => ("nextLink", .str link)).toList ++ [("value", .arr items)])

/-- Answers one request after the other with these bodies. -/
def trialRespond (bodies : Nat → Json) : Nat → (c : WebCall) → c.Answer × Nat :=
  Web.replies fun asked => ⟨200, [], (bodies asked).text⟩

/-! ### Machines -/

def trialMachine (id name : String) : Json :=
  .obj [("instanceId", .str id),
    ("properties", .obj [("osProfile", .obj [("computerName", .str name)])])]

/-- A page with a machine, one that is empty and has not even a list, and a last one with another
machine. -/
def machineBodies : Nat → Json
  | 0 => trialBody [trialMachine "0" "m0"] (some "https://a.b/2")
  | 1 => .obj [("nextLink", .str "https://a.b/3")]
  | _ => trialBody [trialMachine "1" "m1"] none

def machinesPages : List (Page Machine) :=
  [trialPage (trialStart "virtualMachines" "2018-06-01") [⟨"0", "m0", false⟩]
      (some "https://a.b/2"),
    trialPage (trialPlace ["2"] none) [] (some "https://a.b/3"),
    trialPage (trialPlace ["3"] none) [⟨"1", "m1", false⟩] none]

/-! ### Interfaces -/

def trialConfiguration (members : Json.Members) : Json :=
  .obj [("properties", .obj members)]

def trialInterface (machine : Option String) (configurations : List Json) : Json :=
  .obj [("properties", .obj (("ipConfigurations", .arr configurations) ::
    (machine.map fun path => ("virtualMachine", .obj [("id", .str path)])).toList))]

/-- A page with an interface of no machine, and with one of whose configurations one has an address
and is marked, one has none, and one has an address only; and a page with an interface that has a
single configuration. -/
def interfaceBodies : Nat → Json
  | 0 => trialBody
      [trialInterface none [trialConfiguration [("privateIPAddress", .str "10.0.0.9")]],
        trialInterface (some "/x/virtualMachines/0")
          [trialConfiguration [("primary", .bool true), ("privateIPAddress", .str "10.0.0.4")],
            trialConfiguration [("primary", .bool true)],
            trialConfiguration [("privateIPAddress", .str "10.0.0.5")]]]
      (some "https://a.b/2")
  | _ => trialBody
      [trialInterface (some "1") [trialConfiguration [("privateIPAddress", .str "10.0.0.6")]]] none

def interfacesPages : List (Page NetworkInterface) :=
  [trialPage (trialStart "networkInterfaces" "2017-03-30")
      [⟨"0", .v4 10 0 0 4, true⟩, ⟨"0", .v4 10 0 0 5, false⟩] (some "https://a.b/2"),
    trialPage (trialPlace ["2"] none) [⟨"1", .v4 10 0 0 6, true⟩] none]

/-- A page whose link leads to no place by itself. -/
def strayBody (_ : Nat) : Json :=
  trialBody [] (some "2")

def strayPage : Page NetworkInterface :=
  trialPage (trialStart "networkInterfaces" "2017-03-30") [] (some "2")

theorem Shows.trial {bodies : Nat → Json} (htold : IsTold item? parsed tells) (asked : Nat)
    (read : List α) (hrequest : request page.place "token" = .ok page.request)
    (hread : page? item? (bodies asked).document = some (read, page.link))
    (hitems : page.items = read.flatMap parsed) :
    Shows (trialRespond bodies) tells asked page (asked + 1) := by
  let response : Response := ⟨200, [], (bodies asked).text⟩
  have hfetches : Fetches (trialRespond bodies) page.place asked page.request (.ok response)
      (asked + 1) := ⟨"token", asked, rfl, hrequest, rfl⟩
  have hdecode : response.decode (page? item?) = .ok (read, page.link) :=
    Response.decode_eq_ok_iff.mpr ⟨_, Json.Document.parse?_text (bodies asked), hread⟩
  exact ⟨response, hfetches, rfl, htold.isPage_iff.mpr ⟨read, hdecode, hitems⟩⟩

theorem machinesChain :
    Chain (trialRespond machineBodies) TellsOne (trialStart "virtualMachines" "2018-06-01") 0
      machinesPages .complete := by
  have hfirst : Shows (trialRespond machineBodies) TellsOne 0 machinesPages[0] 1 :=
    .trial isTold_machine? 0 [⟨"0", "m0", false⟩] (by decide +kernel) (by decide +kernel) rfl
  have hsecond : Shows (trialRespond machineBodies) TellsOne 1 machinesPages[1] 2 :=
    .trial isTold_machine? 1 [] (by decide +kernel) (by decide +kernel) rfl
  have hthird : Shows (trialRespond machineBodies) TellsOne 2 machinesPages[2] 3 :=
    .trial isTold_machine? 2 [⟨"1", "m1", false⟩] (by decide +kernel) (by decide +kernel) rfl
  have hleads : Url.parse "https://a.b/2" = .ok machinesPages[1].place := by decide +kernel
  have hleads' : Url.parse "https://a.b/3" = .ok machinesPages[2].place := by decide +kernel
  exact .more hfirst rfl hleads (.more hsecond rfl hleads' (.last hthird rfl))

theorem interfacesChain :
    Chain (trialRespond interfaceBodies) TellsInterfaces
      (trialStart "networkInterfaces" "2017-03-30") 0 interfacesPages .complete := by
  have hfirst : Shows (trialRespond interfaceBodies) TellsInterfaces 0 interfacesPages[0] 1 :=
    .trial isTold_interface? 0
      [⟨none, [(some "10.0.0.9", none)]⟩,
        ⟨some "/x/virtualMachines/0",
          [(some "10.0.0.4", some true), (none, some true), (some "10.0.0.5", none)]⟩]
      (by decide +kernel) (by decide +kernel) (by decide +kernel)
  have hsecond : Shows (trialRespond interfaceBodies) TellsInterfaces 1 interfacesPages[1] 2 :=
    .trial isTold_interface? 1 [⟨some "1", [(some "10.0.0.6", none)]⟩] (by decide +kernel)
      (by decide +kernel) (by decide +kernel)
  have hleads : Url.parse "https://a.b/2" = .ok interfacesPages[1].place := by decide +kernel
  exact .more hfirst rfl hleads (.last hsecond rfl)

theorem strayChain :
    Chain (trialRespond strayBody) TellsInterfaces strayPage.place 0 [] .broken := by
  have hastray : Shows (trialRespond strayBody) TellsInterfaces 0 strayPage 1 :=
    .trial isTold_interface? 0 [] (by decide +kernel) (by decide +kernel) rfl
  have hnowhere : Url.parse "2" = .error .noBase := by decide +kernel
  exact .broken (.astray hastray rfl rfl hnowhere)

/-- All machines and all interfaces of a scale set are listed, and with a link that leads nowhere no
interface is. -/
theorem listings_read_every_page_trial :
    ((Program.run (trialRespond machineBodies) (trialApi.machines "mgr") 0).1 =
        .ok [⟨"0", "m0", false⟩, ⟨"1", "m1", false⟩] ∧
      sent (Program.transcript (trialRespond machineBodies) (trialApi.machines "mgr") 0) =
        machinesPages.map Page.request) ∧
    ((Program.run (trialRespond interfaceBodies) (trialApi.interfaces "mgr") 0).1 =
        .ok [⟨"0", .v4 10 0 0 4, true⟩, ⟨"0", .v4 10 0 0 5, false⟩, ⟨"1", .v4 10 0 0 6, true⟩] ∧
      sent (Program.transcript (trialRespond interfaceBodies) (trialApi.interfaces "mgr") 0) =
        interfacesPages.map Page.request) ∧
    ∃ e, (Program.run (trialRespond strayBody) (trialApi.interfaces "mgr") 0).1 = .error e := by
  have hplace : trialApi.setUrl "mgr" "/virtualMachines" =
      .ok (trialStart "virtualMachines" "2018-06-01") := by decide +kernel
  have hplace' : trialApi.interfacesUrl "mgr" =
      .ok (trialStart "networkInterfaces" "2017-03-30") := by decide +kernel
  obtain ⟨hmachines, -⟩ := listings_read_every_page (trialRespond machineBodies) 0 trialApi "mgr"
  obtain ⟨-, hinterfaces⟩ :=
    listings_read_every_page (trialRespond interfaceBodies) 0 trialApi "mgr"
  obtain ⟨-, hstray⟩ := listings_read_every_page (trialRespond strayBody) 0 trialApi "mgr"
  obtain ⟨hlisted, hsent, -⟩ := hmachines.complete _ _ hplace machinesChain (Nat.le_refl 3)
  obtain ⟨hlisted', hsent', -⟩ :=
    hinterfaces.complete _ _ hplace' interfacesChain (Nat.le_succ 2)
  exact ⟨⟨hlisted, hsent⟩, ⟨hlisted', hsent'⟩, hstray.broken _ _ hplace' strayChain⟩

end Listing

end SwarmUpkeep
