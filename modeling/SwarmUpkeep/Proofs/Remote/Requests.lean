import SwarmUpkeep.Proofs.Net.Form
import SwarmUpkeep.Proofs.Program.Attempts
import SwarmUpkeep.Proofs.Program.Transcript
import SwarmUpkeep.Proofs.Remote.RowAddress
import SwarmUpkeep.Remote.EngineApi

/-!
# Requests and their answers

What a request that has been built says, and what is made of its answer: it is sent to its place
with the pairs of its query, and only a successful response is passed on.
-/

namespace SwarmUpkeep

open TableApi (sentTo)

/-- Where a request is sent: to a place without what is said there of a user, with the pairs of the
query behind it. -/
def Request.destination (url : Url) (query : List (String × String)) : Url :=
  if query.isEmpty then sentTo url else (sentTo url).addQuery query

/-- The choice of the destination is kept together, so that no proof has to follow it. -/
theorem Request.build_eq (method : Method) (url : Url) (query headers : List (String × String))
    (body : Option String) :
    Request.build method url query headers body =
      if !url.hasHost then .error (cannotBuild url)
      else if (destination url query).scheme = "http" ∨
          (destination url query).scheme = "https" then
        .ok ⟨method, destination url query,
          ((credentials? url).map authorization).toList ++ headers, body⟩
      else .error (cannotBuild (destination url query)) :=
  rfl

theorem Request.build_ok {method : Method} {url : Url} {query headers : List (String × String)}
    {body : Option String} {request : Request}
    (h : Request.build method url query headers body = .ok request) :
    request.method = method ∧ request.body = body ∧ request.url = destination url query := by
  rw [build_eq] at h
  split at h
  · cases h
  · split at h
    · cases h
      exact ⟨rfl, rfl, rfl⟩
    · cases h

theorem Request.build_headers {method : Method} {url : Url} {query headers : List (String × String)}
    {body : Option String} {request : Request}
    (h : Request.build method url query headers body = .ok request) :
    request.headers = ((credentials? url).map authorization).toList ++ headers := by
  rw [build_eq] at h
  split at h
  · cases h
  · split at h
    · cases h
      rfl
    · cases h

/-- Pairs change nothing but the query of a place, and what is said of a user stands elsewhere. -/
theorem Request.destination_eq (url : Url) (query : List (String × String)) :
    (destination url query).scheme = url.scheme ∧ (destination url query).host = url.host ∧
      (destination url query).port = url.port ∧ (destination url query).path = url.path := by
  unfold destination sentTo
  split <;> split <;> exact ⟨rfl, rfl, rfl, rfl⟩

/-- The pairs of the query are sent behind those that the place has of its own. -/
theorem Request.pairs?_destination (url : Url) (query : List (String × String)) :
    (destination url query).pairs? = url.pairs?.map (· ++ query) := by
  have hsent : (sentTo url).pairs? = url.pairs? := by
    unfold sentTo
    split <;> rfl
  unfold destination
  split
  next hquery => simp [List.isEmpty_iff.mp hquery, hsent]
  next => rw [Url.pairs?_addQuery, hsent]

/-- At places of the secure web every request can be sent. -/
theorem Request.exists_build {url : Url} (h : url.IsSecureWeb) (method : Method)
    (query headers : List (String × String)) (body : Option String) :
    ∃ request, Request.build method url query headers body = .ok request := by
  have hscheme : (destination url query).scheme = "https" :=
    (destination_eq url query).1.trans h.scheme
  rw [build_eq, h.host, if_neg (by simp), if_pos (.inr hscheme)]
  exact ⟨_, rfl⟩

/-- What succeeds after something else has both succeed. -/
theorem bind_eq_ok_iff {ε α β : Type} {x : Except ε α} {f : α → Except ε β} {b : β} :
    (x >>= f) = .ok b ↔ ∃ a, x = .ok a ∧ f a = .ok b := by
  cases x <;> simp [bind, Except.bind]

/-- What is made of the answer to a request. -/
def judged (what : String) (explain : String → String) (request : Request)
    (answer : Except TransportError Response) : Except ServiceError Response :=
  received request answer >>= Response.checked what explain

variable {what : String} {explain : String → String} {request : Request}

theorem judged_of_success {response : Response} (h : response.isSuccess = true) :
    judged what explain request (.ok response) = .ok response := by
  change Response.checked _ _ response = _
  rw [Response.checked, if_pos h]

/-- Any other response is the error that its status stands for. -/
theorem judged_of_failure {response : Response} (h : response.isSuccess = false) :
    ∃ context, judged what explain request (.ok response) =
      .error (.ofStatus response.status context) := by
  refine ⟨what ++ ": " ++ explain response.body, ?_⟩
  change Response.checked _ _ response = _
  rw [Response.checked, if_neg (by simp [h])]

/-- Only a successful response is passed on, and as it has come. -/
theorem Response.checked_eq_ok_iff {response passed : Response} :
    response.checked what explain = .ok passed ↔
      response.isSuccess = true ∧ response = passed := by
  unfold Response.checked
  split
  next hsuccess => simp [hsuccess]
  next hfailure => simp [hfailure]

/-- What a response is decoded to is read from the document of its body. -/
theorem Response.decode_eq_ok_iff {α : Type} {response : Response}
    {read : Json.Document → Option α} {a : α} :
    response.decode read = .ok a ↔
      ∃ d, Json.Document.parse? response.body = some d ∧ read d = some a := by
  rw [← Option.bind_eq_some_iff]
  unfold Response.decode
  rw [Option.bind_eq_bind]
  cases (Json.Document.parse? response.body).bind read <;> simp

/-! ## Results that are put into another form -/

namespace Attempt

variable {I : Interface} {ε σ α β : Type}

theorem bind_pure (x : Attempt I ε α) : (x.bind fun a => pure a) = x := by
  apply Eq.trans _ (Program.bind_done x)
  apply congrArg (Program.bind x)
  funext result
  cases result <;> rfl

/-- Two results that are known already, one after the other. -/
theorem ofExcept_bind_ofExcept (r : Except ε α) (f : α → Except ε β) :
    ((ofExcept r : Attempt I ε α).bind fun a => ofExcept (f a)) = ofExcept (r.bind f) := by
  cases r <;> rfl

theorem run_bind_pure (respond : σ → (c : I.Call) → I.Answer c × σ) (x : Attempt I ε α)
    (f : α → β) (s : σ) :
    (Program.run respond (x.bind fun a => pure (f a)) s).1 = (Program.run respond x s).1.map f := by
  apply (congrArg Prod.fst (run_bind respond x _ s)).trans
  cases (Program.run respond x s).1 <;> rfl

/-- To put a result into another form, nothing is asked. -/
theorem transcript_bind_pure (respond : σ → (c : I.Call) → I.Answer c × σ) (x : Attempt I ε α)
    (f : α → β) (s : σ) :
    Program.transcript respond (x.bind fun a => pure (f a)) s = Program.transcript respond x s := by
  apply (Program.transcript_bind respond x _ s).trans
  cases (Program.run respond x s).1 <;> exact List.append_nil _

end Attempt

/-! ## Requests to an engine -/

/-- A request with the response that has come for it. -/
def Web.exchange (request : Request) (response : Response) : Exchange Web :=
  ⟨.outside (.send request), .ok response⟩

/-- Answers one request after the other with these responses, and gives every token that is asked
for. -/
def Web.replies (responses : Nat → Response) (asked : Nat) : (c : WebCall) → c.Answer × Nat
  | .token _ => (.ok "token", asked)
  | .outside (.send _) => (.ok (responses asked), asked + 1)
  | .outside (.execute _ _) => (.error "", asked)
  | .outside .now => (default, asked)
  | .outside .nonce => ("", asked)
  | .outside (.pause _) => ((), asked)

namespace EngineApi

variable {api : EngineApi} {path : String} {method : Method} {query : List (String × String)}
variable {body : Option Json} {record : List (Exchange Web)}

theorem request_ok {request : Request} (h : api.request method path query body = .ok request) :
    ∃ place, api.url path = .ok place ∧ request.method = method ∧
      request.url = Request.destination place query ∧ request.body = body.map Json.text := by
  unfold EngineApi.request at h
  cases hplace : api.url path with
  | error e =>
      rw [hplace] at h
      cases h
  | ok place =>
      rw [hplace] at h
      obtain ⟨hmethod, hbody, hurl⟩ := Request.build_ok h
      exact ⟨place, rfl, hmethod, hurl, hbody⟩

theorem send_ok (request : Request) (what : String) :
    send (.ok request) what = Program.ask (I := Web) (.outside (.send request)) fun answer =>
      .done (judged what errorMessage request answer) := by
  apply congrArg (Program.ask (I := Web) (.outside (.send request)))
  funext answer
  cases answer <;> rfl

/-- Where a response is passed on, one request was sent, and the response is a success. -/
theorem leads_send {asked : Except ServiceError Request} {what : String} {response : Response}
    (h : Program.Leads (send asked what) record (.done (.ok response))) :
    ∃ request, asked = .ok request ∧ record = [Web.exchange request response] ∧
      response.isSuccess = true := by
  cases asked with
  | error e => cases h
  | ok request =>
      rcases Attempt.leads_bind h with ⟨e, herror, -⟩ | ⟨passed, past, rest, rfl, hsent, hrest⟩
      · cases herror
      · obtain ⟨rfl, hdone⟩ := hrest.of_done
        obtain ⟨hsuccess, rfl⟩ := Response.checked_eq_ok_iff.mp (Program.done.inj hdone).symm
        cases hsent with
        | @ask _ _ answer record _ hanswer =>
            cases answer with
            | error e => cases hanswer
            | ok response =>
                cases hanswer
                exact ⟨request, rfl, rfl, hsuccess⟩

theorem leads_discard_send {asked : Except ServiceError Request} {what : String}
    (h : Program.Leads (discard (send asked what) : Attempt Web ServiceError Unit) record
      (.done (.ok ()))) :
    ∃ request response, asked = .ok request ∧ record = [Web.exchange request response] ∧
      response.isSuccess = true := by
  rcases Attempt.leads_bind h with ⟨e, herror, -⟩ | ⟨response, past, rest, rfl, hsent, hend⟩
  · cases herror
  · obtain ⟨rfl, -⟩ := hend.of_done
    obtain ⟨request, hasked, rfl, hsuccess⟩ := leads_send hsent
    exact ⟨request, response, hasked, rfl, hsuccess⟩

/-- A request whose response is read. -/
def asking {α : Type} (asked : Except ServiceError Request) (what : String)
    (read : Response → Except ServiceError α) : Attempt Web ServiceError α :=
  Attempt.bind (send asked what) fun response => Attempt.ofExcept (read response)

/-- Where there is a result, one request was sent, and the result is what its response says. -/
theorem leads_asking {α : Type} {asked : Except ServiceError Request} {what : String}
    {read : Response → Except ServiceError α} {a : α}
    (h : Program.Leads (asking asked what read) record (.done (.ok a))) :
    ∃ request response, asked = .ok request ∧ record = [Web.exchange request response] ∧
      response.isSuccess = true ∧ read response = .ok a := by
  rcases Attempt.leads_bind h with ⟨e, herror, -⟩ | ⟨response, past, rest, rfl, hsent, hrest⟩
  · cases herror
  · obtain ⟨rfl, hdone⟩ := hrest.of_done
    obtain ⟨request, hasked, rfl, hsuccess⟩ := leads_send hsent
    exact ⟨request, response, hasked, rfl, hsuccess, (Program.done.inj hdone).symm⟩

theorem readNode_eq (api : EngineApi) (id : String) :
    api.readNode id = asking (api.request .get (nodePath id) [] none) ("inspect node " ++ id)
      (Response.decode (node? Json.Document.depthLimit)) :=
  rfl

/-- A place at an engine. -/
def trialPlace (segments : List String) (query : Option String) : Url where
  scheme := "http"
  username := ""
  password := none
  host := some (.domain "engine")
  port := some 2375
  path := .rooted segments
  query := query
  fragment := none

def trialEngine : EngineApi :=
  ⟨trialPlace [""] none, 2377⟩

end EngineApi

end SwarmUpkeep
