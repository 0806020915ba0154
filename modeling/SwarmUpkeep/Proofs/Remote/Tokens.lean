import SwarmUpkeep.Proofs.Json.Number
import SwarmUpkeep.Proofs.Json.Record
import SwarmUpkeep.Proofs.Remote.Requests
import SwarmUpkeep.Remote.Token

/-!
# Tokens that are kept

Calls for tokens come one after another, each with what its request would be answered. What is
kept always mirrors what has been had: for each resource its last token, until shortly before that
expires. So a call is answered without a request just as long as the last token of its own resource
is good, and what fails leaves no trace.
-/

namespace SwarmUpkeep

theorem Instant.before_eq_false_iff {s t : Instant} :
    t.before s = false ↔
      s.seconds ≤ t.seconds ∧ (t.seconds = s.seconds → s.nanos ≤ t.nanos) := by
  simp [before]

/-- From a time that has come, a span that is not positive ends before any later time. -/
theorem Instant.before_addSeconds_max {s t : Instant} (h : t.before s = false) (seconds : Int) :
    t.before (s.addSeconds (max seconds 0)) = t.before (s.addSeconds seconds) := by
  rcases Int.le_total 0 seconds with hle | hle
  · rw [Int.max_eq_left hle]
  · have hnow : t.before (s.addSeconds 0) = false := by
      simpa [addSeconds] using h
    have hpast : t.before (s.addSeconds seconds) = false := by
      rw [before_eq_false_iff] at h ⊢
      simp only [addSeconds]
      omega
    rw [Int.max_eq_right hle, hnow, hpast]

/-- A call for a token: when it is made, and what its request is answered and when, should it send
one. -/
structure TokenCall where
  resource : String
  made : Instant
  answer : Except TransportError Response
  answered : Instant
deriving DecidableEq

/-- The outside of one call, with the requests that have been sent so far. The clock shows the time
of the answer after a request. -/
def TokenCall.respond (call : TokenCall) (sent : List Request) :
    (asked : OutsideCall) → asked.Answer × List Request
  | .send request => (call.answer, sent ++ [request])
  | .now => (if sent.isEmpty then call.made else call.answered, sent)
  | .execute _ _ => (.error "", sent)
  | .nonce => ("", sent)
  | .pause _ => ((), sent)

/-- A call with what came of it: its result and the requests that were sent for it. -/
structure TokenStep where
  call : TokenCall
  result : Except ServiceError String
  requests : List Request
deriving DecidableEq

/-- What came of a call, whatever it was. -/
def TokenStep.outcome (step : TokenStep) : Except ServiceError String × List Request :=
  (step.result, step.requests)

/-- A token that was had for so many seconds, and when. -/
structure Acquisition where
  token : String
  seconds : Int
  time : Instant
deriving DecidableEq

/-- Whether a token is good at a time: until some time before it expires. -/
def Acquisition.isGood (had : Acquisition) (time : Instant) : Bool :=
  time.before (had.time.addSeconds (had.seconds - TokenSource.margin))

namespace TokenSource

variable {source : TokenSource} {cache : TokenCache} {call : TokenCall} {calls : List TokenCall}
variable {past : List TokenStep} {step : TokenStep}

/-! ## Calls one after another -/

/-- Makes a call with what has been kept so far, and tells what is kept then. -/
def perform (source : TokenSource) (cache : TokenCache) (call : TokenCall) :
    TokenStep × TokenCache :=
  let outcome := (source.token cache call.resource).run call.respond []
  (⟨call, outcome.1.1, outcome.2⟩, outcome.1.2)

def steps (source : TokenSource) : TokenCache → List TokenCall → List TokenStep
  | _, [] => []
  | cache, call :: calls =>
      (source.perform cache call).1 :: source.steps (source.perform cache call).2 calls

/-- What is kept after calls. -/
def kept (source : TokenSource) (cache : TokenCache) (calls : List TokenCall) : TokenCache :=
  calls.foldl (fun cache call => (source.perform cache call).2) cache

/-- What a response brings: a token and for how many seconds it is had. -/
def brought (response : Response) : Except ServiceError (String × Int) := do
  let response ← response.checked "acquire access token" Response.cloudMessage
  let (token, lifetime) ← response.decode answer?
  let seconds ← lifetime.value
  return (token, seconds)

/-- What the request of a call brings. -/
def fetched (source : TokenSource) (call : TokenCall) : Except ServiceError (String × Int) := do
  let request ← source.request call.resource
  let response ← received request call.answer
  brought response

/-- What is kept after a request. -/
def renewed (source : TokenSource) (cache : TokenCache) (call : TokenCall) : TokenCache :=
  match source.fetched call with
  | .error _ => cache
  | .ok (token, seconds) =>
      match expiry call.answered seconds with
      | .error _ => cache
      | .ok expiresAt => Keyed.set cache call.resource ⟨token, expiresAt⟩

/-! ## One call -/

section

variable {α β : Type} {sent : List Request}

/-- What is read part by part may be read at once. -/
theorem ofExcept_bind (r : Except ServiceError α) (f : α → Except ServiceError β) {γ : Type}
    (g : β → Attempt Outside ServiceError γ) :
    (Attempt.ofExcept (r >>= f) >>= g : Attempt Outside ServiceError γ) =
      Attempt.ofExcept r >>= fun a => Attempt.ofExcept (f a) >>= g := by
  cases r with
  | ok a => rfl
  | error e => rfl

/-- An attempt goes on from a value that is known, or ends with the error. -/
theorem run_ofExcept_bind (r : Except ServiceError α) (f : α → Attempt Outside ServiceError β) :
    Program.run call.respond (Attempt.ofExcept r >>= f : Attempt Outside ServiceError β) sent =
      match r with
      | .ok a => Program.run call.respond (f a) sent
      | .error e => (.error e, sent) := by
  cases r with
  | ok a => rfl
  | error e => rfl

theorem run_send_bind (request : Request) (f : Response → Attempt Outside ServiceError β) :
    Program.run call.respond (Outside.send request >>= f : Attempt Outside ServiceError β) sent =
      Program.run call.respond (Attempt.ofExcept (received request call.answer) >>= f :
        Attempt Outside ServiceError β) (sent ++ [request]) :=
  rfl

theorem run_now_bind (f : Instant → Attempt Outside ServiceError β) :
    Program.run call.respond (liftM Outside.now >>= f : Attempt Outside ServiceError β) sent =
      Program.run call.respond (f (if sent.isEmpty then call.made else call.answered)) sent :=
  rfl

end

theorem acquire_eq (cache : TokenCache) (resource : String) :
    source.acquire cache resource = (do
      let request ← Attempt.ofExcept (source.request resource)
      let response ← Outside.send request
      let had ← Attempt.ofExcept (brought response)
      let now ← Outside.now
      let expiresAt ← Attempt.ofExcept (expiry now had.2)
      return (had.1, Keyed.set cache resource ⟨had.1, expiresAt⟩)) := by
  unfold acquire brought
  simp only [ofExcept_bind]
  rfl

/-- A request brings a token, which is kept, or an error. -/
theorem run_acquire (cache : TokenCache) (call : TokenCall) :
    Program.run call.respond (source.acquire cache call.resource) [] =
      (source.fetched call >>= fun had =>
        (expiry call.answered had.2).map fun _ => (had.1, source.renewed cache call),
        (source.request call.resource).toOption.toList) := by
  rw [acquire_eq, run_ofExcept_bind]
  cases hrequest : source.request call.resource with
  | error e =>
      have hfetched : source.fetched call = .error e := by
        rw [fetched, hrequest]
        rfl
      rw [hfetched]
      rfl
  | ok request =>
      have hfetched : source.fetched call = received request call.answer >>= brought := by
        rw [fetched, hrequest]
        rfl
      dsimp only
      rw [run_send_bind, ← ofExcept_bind, ← hfetched, run_ofExcept_bind]
      unfold renewed
      cases source.fetched call with
      | error e => rfl
      | ok had =>
          dsimp only
          rw [run_now_bind, run_ofExcept_bind]
          cases hexpiry : expiry call.answered had.2 with
          | error e => simp [hexpiry, Except.map, bind, Except.bind, Except.toOption]
          | ok expiresAt => simp [hexpiry, Except.map, bind, Except.bind, Except.toOption]; rfl

/-- What a request brings is given, and kept; an error keeps what is kept. -/
theorem run_fetch {next : Except ServiceError (String × TokenCache) →
      Program Outside (Except ServiceError String × TokenCache)}
    (hok : ∀ token kept, next (.ok (token, kept)) = .done (.ok token, kept))
    (herror : ∀ e, next (.error e) = .done (.error e, cache)) :
    Program.run call.respond (Program.bind (source.acquire cache call.resource) next) [] =
      ((source.fetched call >>= fun had => (expiry call.answered had.2).map fun _ => had.1,
        source.renewed cache call), (source.request call.resource).toOption.toList) := by
  apply (Program.run_bind _ _ _ _).trans
  rw [run_acquire]
  unfold renewed
  cases source.fetched call with
  | error e => simp [herror, bind, Except.bind]
  | ok had =>
      dsimp only
      cases hexpiry : expiry call.answered had.2 with
      | error e => simp [herror, hexpiry, Except.map, bind, Except.bind]
      | ok expiresAt => simp [hok, hexpiry, Except.map, bind, Except.bind]

theorem run_now {α : Type} (next : Instant → Program Outside α) :
    Program.run call.respond (Outside.now.bind next) [] =
      Program.run call.respond (next call.made) [] :=
  rfl

theorem perform_call (cache : TokenCache) (call : TokenCall) :
    (source.perform cache call).1.call = call :=
  rfl

/-- A token that is still good is given again. -/
theorem perform_of_cached {token : String}
    (h : cached? cache call.resource call.made = some token) :
    source.perform cache call = (⟨call, .ok token, []⟩, cache) := by
  obtain ⟨found, hfound, -⟩ := Option.bind_eq_some_iff.mp h
  unfold perform TokenSource.token
  simp only [hfound, run_now, h]
  rfl

/-- Else a request is sent, unless none can be made. -/
theorem perform_of_not_cached (h : cached? cache call.resource call.made = none) :
    source.perform cache call =
      (⟨call, source.fetched call >>= fun had =>
          (expiry call.answered had.2).map fun _ => had.1,
        (source.request call.resource).toOption.toList⟩, source.renewed cache call) := by
  have hrun : Program.run call.respond (source.token cache call.resource) [] =
      ((source.fetched call >>= fun had => (expiry call.answered had.2).map fun _ => had.1,
        source.renewed cache call), (source.request call.resource).toOption.toList) := by
    unfold TokenSource.token
    cases Keyed.find? cache call.resource with
    | none => exact run_fetch (fun _ _ => rfl) fun _ => rfl
    | some found =>
        simp only [run_now, h]
        exact run_fetch (fun _ _ => rfl) fun _ => rfl
  rw [perform, hrun]

/-- What fails leaves what is kept as it was. -/
theorem perform_error {e : ServiceError} (h : (source.perform cache call).1.result = .error e) :
    (source.perform cache call).2 = cache := by
  cases hcached : cached? cache call.resource call.made with
  | some token => rw [perform_of_cached hcached]
  | none =>
      rw [perform_of_not_cached hcached] at h ⊢
      unfold renewed
      cases hfetched : source.fetched call with
      | error e => rfl
      | ok had =>
          dsimp only
          cases hexpiry : expiry call.answered had.2 with
          | error e => rfl
          | ok expiresAt => simp [hfetched, hexpiry, Except.map, bind, Except.bind] at h

theorem perform_requests (cache : TokenCache) (call : TokenCall) :
    (source.perform cache call).1.requests = [] ∨
      (source.perform cache call).1.requests =
        (source.request call.resource).toOption.toList := by
  cases hcached : cached? cache call.resource call.made with
  | some token =>
      rw [perform_of_cached hcached]
      exact .inl rfl
  | none =>
      rw [perform_of_not_cached hcached]
      exact .inr rfl

/-! ## Requests and responses -/

/-- A request asks the endpoint for a token of a resource: it posts a form that says who asks and
for which resource. -/
structure AsksFor (source : TokenSource) (resource : String) (request : Request) : Prop where
  method : request.method = .post
  place : request.url = Request.destination source.endpoint []
  headers : request.headers.lookup "content-type" = some "application/x-www-form-urlencoded"
  form : ∃ body, request.body = some body ∧ Form.pairs? body.toList =
    some [("grant_type", "client_credentials"), ("client_id", source.appId),
      ("client_secret", source.appSecret.value), ("resource", resource)]

theorem asksFor_request {resource : String} {request : Request}
    (h : source.request resource = .ok request) : source.AsksFor resource request := by
  obtain ⟨hmethod, hbody, hurl⟩ := Request.build_ok h
  refine ⟨hmethod, hurl, ?_, _, hbody, ?_⟩
  · rw [Request.build_headers h]
    cases Request.credentials? source.endpoint <;> rfl
  · rw [String.toList_ofList]
    exact Form.pairs?_formPairs _

/-- A document says for how many seconds a token is had: as a whole number of 64 bits or as the text
of one. -/
inductive IsLifetime : Json.Document → Int → Prop
  | number {digits : List Char} {n : Int} (h : Json.Number.ofDigits? digits = some (.whole n))
      (hleast : least64 ≤ n) (hgreatest : n ≤ greatest64) : IsLifetime (.number digits) n
  | text {s : String} {n : Int} (h : Ascii.integer? least64 greatest64 s = some n) :
      IsLifetime (.string (some s)) n

/-- A response brings a token that is had for so many seconds. -/
def Brings (response : Response) (token : String) (seconds : Int) : Prop :=
  response.isSuccess = true ∧
    ∃ d first second, Json.Document.parse? response.body = some d ∧
      d.IsRecord ["access_token", "expires_in"] [first, second] ∧
      Json.Document.IsRequired Json.Document.IsText first token ∧
      Json.Document.IsRequired IsLifetime second seconds

/-- A lifetime is read as what it says. -/
theorem isLifetime_iff {d : Json.Document} {seconds : Int} :
    IsLifetime d seconds ↔
      ∃ lifetime, Lifetime.ofDocument? d = some lifetime ∧ lifetime.value = .ok seconds := by
  constructor
  · rintro (⟨hdigits, hleast, hgreatest⟩ | htext)
    · exact ⟨.seconds seconds,
        by simp [Lifetime.ofDocument?, Json.Document.whole?, hdigits, hleast, hgreatest], rfl⟩
    · refine ⟨.text _, rfl, ?_⟩
      simp only [Lifetime.value, htext]
  · rintro ⟨lifetime, hlifetime, hvalue⟩
    cases d with
    | number digits =>
        have hor : (Json.Document.whole? least64 greatest64 (.number digits)).map .seconds =
            some lifetime := by
          simpa [Lifetime.ofDocument?, Json.Document.text?] using hlifetime
        obtain ⟨n, hn, rfl⟩ := Option.map_eq_some_iff.mp hor
        cases hvalue
        simp only [Json.Document.whole?] at hn
        split at hn
        next m hdigits =>
          split at hn
          next hbounds =>
            cases hn
            exact .number hdigits hbounds.1 hbounds.2
          next => cases hn
        next => cases hn
    | string content =>
        obtain ⟨s, rfl, rfl⟩ := Option.map_eq_some_iff.mp hlifetime
        unfold Lifetime.value at hvalue
        dsimp only at hvalue
        split at hvalue
        next n hn =>
          cases hvalue
          exact .text hn
        next => cases hvalue
    | null | bool | array | object => cases hlifetime

theorem answer?_eq_some_iff {d : Json.Document} {token : String} {lifetime : Lifetime} :
    answer? d = some (token, lifetime) ↔
      ∃ first second, d.IsRecord ["access_token", "expires_in"] [first, second] ∧
        Json.Document.IsRequired Json.Document.IsText first token ∧
        Json.Document.required Lifetime.ofDocument? second = some lifetime := by
  refine (Json.Document.read_fields_iff fun first second => do
    return (← Json.Document.required Json.Document.text? first,
      ← Json.Document.required Lifetime.ofDocument? second)).trans ?_
  refine exists_congr fun first => exists_congr fun second => and_congr_right fun _ => ?_
  rw [← Json.Document.required_eq_some_iff Json.Document.text?_eq_some_iff]
  cases Json.Document.required Json.Document.text? first <;>
    cases Json.Document.required Lifetime.ofDocument? second <;> simp

theorem brought_eq_ok_iff {response : Response} {token : String} {seconds : Int} :
    brought response = .ok (token, seconds) ↔
      response.isSuccess = true ∧ ∃ lifetime, response.decode answer? = .ok (token, lifetime) ∧
        lifetime.value = .ok seconds := by
  unfold brought
  simp only [bind_eq_ok_iff, Response.checked_eq_ok_iff, Prod.exists]
  constructor
  · rintro ⟨_, ⟨hsuccess, rfl⟩, _, lifetime, hdecode, _, hvalue, hpair⟩
    cases hpair
    exact ⟨hsuccess, lifetime, hdecode, hvalue⟩
  · rintro ⟨hsuccess, lifetime, hdecode, hvalue⟩
    exact ⟨response, ⟨hsuccess, rfl⟩, token, lifetime, hdecode, seconds, hvalue, rfl⟩

/-- What a response brings is what is read from it. -/
theorem brings_iff {response : Response} {token : String} {seconds : Int} :
    Brings response token seconds ↔ brought response = .ok (token, seconds) := by
  rw [brought_eq_ok_iff]
  refine and_congr_right fun _ => ?_
  constructor
  · rintro ⟨d, first, _, hparse, hrecord, hfirst, ⟨hlifetime⟩⟩
    obtain ⟨lifetime, hread, hvalue⟩ := isLifetime_iff.mp hlifetime
    have hanswer := answer?_eq_some_iff.mpr ⟨first, _, hrecord, hfirst, hread⟩
    exact ⟨lifetime, Response.decode_eq_ok_iff.mpr ⟨d, hparse, hanswer⟩, hvalue⟩
  · rintro ⟨lifetime, hdecode, hvalue⟩
    obtain ⟨d, hparse, hanswer⟩ := Response.decode_eq_ok_iff.mp hdecode
    obtain ⟨first, second, hrecord, hfirst, hsecond⟩ := answer?_eq_some_iff.mp hanswer
    obtain ⟨field, rfl, hread⟩ := Option.bind_eq_some_iff.mp hsecond
    exact ⟨d, first, _, hparse, hrecord, hfirst,
      .there (isLifetime_iff.mpr ⟨lifetime, hread, hvalue⟩)⟩

/-- The request of a call brings what its response brings. -/
theorem fetched_eq_ok_iff {token : String} {seconds : Int} :
    source.fetched call = .ok (token, seconds) ↔
      ∃ request response, source.request call.resource = .ok request ∧
        call.answer = .ok response ∧ Brings response token seconds := by
  have hreceived {request : Request} {response : Response} :
      received request call.answer = .ok response ↔ call.answer = .ok response := by
    cases call.answer <;> simp [received]
  unfold fetched
  simp only [bind_eq_ok_iff, hreceived, brings_iff, exists_and_left]

/-! ## Histories -/

theorem map_call_steps (cache : TokenCache) (calls : List TokenCall) :
    (source.steps cache calls).map TokenStep.call = calls := by
  induction calls generalizing cache with
  | nil => rfl
  | cons call calls ih => rw [steps, List.map_cons, perform_call, ih]

theorem steps_append (cache : TokenCache) (calls calls' : List TokenCall) :
    source.steps cache (calls ++ calls') =
      source.steps cache calls ++ source.steps (source.kept cache calls) calls' := by
  induction calls generalizing cache with
  | nil => rfl
  | cons call calls ih =>
      rw [List.cons_append, steps, ih]
      rfl

/-- A step is what its call does after those before, and the others follow from there. -/
theorem steps_split {rest : List TokenStep} (h : source.steps cache calls = past ++ step :: rest) :
    calls = past.map TokenStep.call ++ step.call :: rest.map TokenStep.call ∧
      past = source.steps cache (past.map TokenStep.call) ∧
      step = (source.perform (source.kept cache (past.map TokenStep.call)) step.call).1 ∧
      rest = source.steps (source.perform (source.kept cache (past.map TokenStep.call)) step.call).2
        (rest.map TokenStep.call) := by
  have hcalls : calls = past.map TokenStep.call ++ step.call :: rest.map TokenStep.call := by
    rw [← map_call_steps cache calls, h, List.map_append, List.map_cons]
  have hsteps := h
  rw [hcalls, steps_append, steps] at hsteps
  have hlength : (source.steps cache (past.map TokenStep.call)).length = past.length := by
    rw [← List.length_map (f := TokenStep.call), map_call_steps, List.length_map]
  obtain ⟨hpast, hrest⟩ := List.append_inj hsteps hlength
  obtain ⟨hstep, hrest⟩ := List.cons.inj hrest
  exact ⟨hcalls, hpast.symm, hstep.symm, hrest.symm⟩

theorem requests_of_mem {cache : TokenCache} (h : step ∈ source.steps cache calls) :
    step.requests = [] ∨
      step.requests = (source.request step.call.resource).toOption.toList := by
  obtain ⟨past, rest, hsteps⟩ := List.append_of_mem h
  obtain ⟨-, -, hstep, -⟩ := steps_split hsteps
  rw [hstep]
  exact perform_requests _ _

/-! ## What has been had -/

/-- What a step has had, if it has sent a request. -/
def acquired? (source : TokenSource) (step : TokenStep) : Option Acquisition :=
  match step.requests, source.fetched step.call with
  | _ :: _, .ok (token, seconds) => some ⟨token, seconds, step.call.answered⟩
  | _, _ => none

/-- The last token that was had for a resource. -/
def last? (source : TokenSource) (past : List TokenStep) (resource : String) :
    Option Acquisition :=
  past.reverse.findSome? fun step =>
    if step.call.resource = resource then source.acquired? step else none

theorem last?_append (resource : String) :
    source.last? (past ++ [step]) resource =
      (if step.call.resource = resource then source.acquired? step else none).or
        (source.last? past resource) := by
  unfold last?
  rw [List.reverse_append, List.reverse_singleton, List.singleton_append, List.findSome?_cons]
  split
  next h => rw [h, Option.some_or]
  next h => rw [h, Option.none_or]

theorem exists_of_last? {resource : String} {had : Acquisition}
    (h : source.last? past resource = some had) :
    ∃ issuing ∈ past, issuing.call.resource = resource ∧ issuing.requests ≠ [] ∧
      source.fetched issuing.call = .ok (had.token, had.seconds) ∧
      had.time = issuing.call.answered := by
  obtain ⟨issuing, hmem, hissuing⟩ := List.exists_of_findSome?_eq_some h
  split at hissuing
  next hresource =>
    unfold acquired? at hissuing
    split at hissuing
    next hrequests hfetched =>
      cases hissuing
      exact ⟨issuing, List.mem_reverse.mp hmem, hresource, by simp [hrequests], hfetched, rfl⟩
    next => cases hissuing
  next => cases hissuing

/-- What the request of a call brings can be kept: neither the seconds nor the date run out of the
numbers that there are for them. -/
def IsInRange (source : TokenSource) (call : TokenCall) : Prop :=
  ∀ had ∈ (source.fetched call).toOption,
    least64 ≤ had.2 - margin ∧ (call.answered.addSeconds (max (had.2 - margin) 0)).isKept = true

instance (source : TokenSource) (call : TokenCall) : Decidable (source.IsInRange call) :=
  inferInstanceAs (Decidable (∀ had ∈ (source.fetched call).toOption,
    least64 ≤ had.2 - margin ∧ (call.answered.addSeconds (max (had.2 - margin) 0)).isKept = true))

/-- The clock is never put back. -/
def IsInOrder (calls : List TokenCall) : Prop :=
  (calls.flatMap fun call => [call.made, call.answered]).Pairwise fun earlier later =>
    later.before earlier = false

/-- What is kept is what was had last, for each resource. -/
def Mirrors (source : TokenSource) (past : List TokenStep) (cache : TokenCache) : Prop :=
  ∀ resource, Keyed.find? cache resource =
    (source.last? past resource).map fun had =>
      ⟨had.token, had.time.addSeconds (max (had.seconds - margin) 0)⟩

theorem expiry_of_isInRange (h : source.IsInRange call) {had : String × Int}
    (hfetched : source.fetched call = .ok had) :
    expiry call.answered had.2 = .ok (call.answered.addSeconds (max (had.2 - margin) 0)) := by
  have hrange := h had (by rw [hfetched]; rfl)
  unfold expiry
  exact if_pos hrange.2

theorem exists_request {had : String × Int} (h : source.fetched call = .ok had) :
    ∃ request, source.request call.resource = .ok request := by
  obtain ⟨request, -, hrequest, -⟩ := fetched_eq_ok_iff.mp h
  exact ⟨request, hrequest⟩

/-- A call keeps the mirror. -/
theorem Mirrors.perform (h : source.Mirrors past cache) (hrange : source.IsInRange call) :
    source.Mirrors (past ++ [(source.perform cache call).1]) (source.perform cache call).2 := by
  intro resource
  rw [last?_append, perform_call]
  cases hcached : cached? cache call.resource call.made with
  | some token =>
      rw [perform_of_cached hcached]
      simp [acquired?, h resource]
  | none =>
      rw [perform_of_not_cached hcached]
      unfold renewed acquired?
      cases hfetched : source.fetched call with
      | error e => simp [h resource]
      | ok had =>
          obtain ⟨request, hrequest⟩ := exists_request hfetched
          have hexpiry := expiry_of_isInRange hrange hfetched
          by_cases hresource : call.resource = resource
          · subst hresource
            simp [hrequest, hexpiry, Except.toOption, Keyed.find?_set_self]
          · simp [hexpiry, hresource, Keyed.find?_set_of_ne _ _ (Ne.symm hresource), h resource]

theorem Mirrors.steps (h : source.Mirrors past cache)
    (hrange : ∀ call ∈ calls, source.IsInRange call) :
    source.Mirrors (past ++ source.steps cache calls) (source.kept cache calls) := by
  induction calls generalizing past cache with
  | nil => simpa [TokenSource.steps, kept] using h
  | cons call calls ih =>
      obtain ⟨hcall, hcalls⟩ := List.forall_mem_cons.mp hrange
      have hrest := ih (h.perform hcall) hcalls
      rw [List.append_assoc] at hrest
      exact hrest

/-! ## The clock -/

/-- A token that was had for no longer than the margin is never good again. -/
theorem isGood_of_short {had : Acquisition} {time : Instant} (htime : time.before had.time = false)
    (hshort : had.seconds ≤ margin) : had.isGood time = false := by
  unfold Acquisition.isGood
  rw [← Instant.before_addSeconds_max htime, Int.max_eq_right (by omega)]
  simpa [Instant.addSeconds] using htime

/-- What was had was had before the call. -/
theorem time_le_made {rest : List TokenCall} {had : Acquisition} {resource : String}
    (h : IsInOrder (past.map TokenStep.call ++ call :: rest))
    (hlast : source.last? past resource = some had) : call.made.before had.time = false := by
  obtain ⟨issuing, hmem, -, -, -, htime⟩ := exists_of_last? hlast
  unfold IsInOrder at h
  rw [List.flatMap_append, List.pairwise_append] at h
  rw [htime]
  apply h.2.2
  · exact List.mem_flatMap.mpr ⟨issuing.call, List.mem_map_of_mem hmem, by simp⟩
  · simp

theorem Mirrors.cached?_eq (h : source.Mirrors past cache) {resource : String} {time : Instant}
    (htime : ∀ had, source.last? past resource = some had → time.before had.time = false) :
    cached? cache resource time =
      (source.last? past resource).bind fun had =>
        if had.isGood time then some had.token else none := by
  unfold cached?
  rw [h resource]
  cases hlast : source.last? past resource with
  | none => rfl
  | some had =>
      show (if time.before (had.time.addSeconds (max (had.seconds - margin) 0)) = true
        then some had.token else none) = _
      rw [Instant.before_addSeconds_max (htime had hlast)]
      rfl

/-! ## What is promised -/

/-- What a call is promised after those that are past. -/
structure Serves (source : TokenSource) (past : List TokenStep) (step : TokenStep) : Prop where
  /-- Every request that is sent asks for a token of the resource. -/
  sent : ∀ request ∈ step.requests, source.AsksFor step.call.resource request
  /-- A token was issued in the response to a request for the same resource. -/
  issued : ∀ token, step.result = .ok token →
    ∃ issuing ∈ past ++ [step], ∃ request response seconds,
      issuing.call.resource = step.call.resource ∧
        source.request step.call.resource = .ok request ∧
        source.AsksFor step.call.resource request ∧ issuing.requests = [request] ∧
        issuing.call.answer = .ok response ∧ Brings response token seconds ∧
        source.fetched issuing.call = .ok (token, seconds)
  /-- No request is sent as long as the last token of the resource is good, and it is given. -/
  good : ∀ had, source.last? past step.call.resource = some had →
    had.isGood step.call.made = true → step.requests = [] ∧ step.result = .ok had.token
  /-- Else one is sent, and the result is what it brings. -/
  asks : (∀ had, source.last? past step.call.resource = some had →
      had.isGood step.call.made = false) →
    step.requests = (source.request step.call.resource).toOption.toList ∧
      step.result = (source.fetched step.call).map Prod.fst
  /-- So none is sent just if the token is good, wherever one can be made at all. -/
  quiet_iff : ∀ request, source.request step.call.resource = .ok request →
    (step.requests = [] ↔
      ∃ had, source.last? past step.call.resource = some had ∧ had.isGood step.call.made = true)
  /-- A token that is had for no longer than the margin is not given again. -/
  short : ∀ had, source.last? past step.call.resource = some had → had.seconds ≤ margin →
    had.isGood step.call.made = false

/-- What a request brings is given, as it can be kept. -/
theorem result_of_isInRange (hrange : source.IsInRange call) :
    (source.fetched call >>= fun had => (expiry call.answered had.2).map fun _ => had.1) =
      (source.fetched call).map Prod.fst := by
  cases hfetched : source.fetched call with
  | error e => rfl
  | ok had =>
      show (expiry call.answered had.2).map _ = _
      rw [expiry_of_isInRange hrange hfetched]
      rfl

/-- A call that finds the last token good takes it. -/
theorem Mirrors.serves_good (h : source.Mirrors past cache) {had : Acquisition}
    (hlast : source.last? past call.resource = some had) (hgood : had.isGood call.made = true)
    (htime : ∀ had, source.last? past call.resource = some had →
      call.made.before had.time = false)
    (hpast : ∀ step ∈ past, step.requests = [] ∨
      step.requests = (source.request step.call.resource).toOption.toList) :
    source.Serves past (source.perform cache call).1 := by
  have hcached : cached? cache call.resource call.made = some had.token := by
    rw [h.cached?_eq htime, hlast, Option.bind_some, if_pos hgood]
  rw [perform_of_cached hcached]
  constructor
  case sent => exact fun _ hmem => absurd hmem List.not_mem_nil
  case issued =>
    intro token htoken
    cases htoken
    obtain ⟨issuing, hmem, hresource, hrequests, hfetched, -⟩ := exists_of_last? hlast
    obtain ⟨request, response, hrequest, hanswer, hbrings⟩ := fetched_eq_ok_iff.mp hfetched
    have hsent := (hpast issuing hmem).resolve_left hrequests
    rw [hrequest] at hsent
    rw [hresource] at hrequest
    exact ⟨issuing, List.mem_append_left _ hmem, request, response, had.seconds, hresource,
      hrequest, asksFor_request hrequest, hsent, hanswer, hbrings, hfetched⟩
  case good =>
    intro had' hlast' _
    rw [hlast] at hlast'
    cases hlast'
    exact ⟨rfl, rfl⟩
  case asks =>
    intro hnone
    rw [hnone had hlast] at hgood
    cases hgood
  case quiet_iff =>
    intro request _
    exact ⟨fun _ => ⟨had, hlast, hgood⟩, fun _ => rfl⟩
  case short =>
    intro had' hlast' hshort
    exact isGood_of_short (htime had' hlast') hshort

/-- A call that finds no good token sends its request. -/
theorem Mirrors.serves_asks (h : source.Mirrors past cache) (hrange : source.IsInRange call)
    (hnone : ∀ had, source.last? past call.resource = some had → had.isGood call.made = false)
    (htime : ∀ had, source.last? past call.resource = some had →
      call.made.before had.time = false) :
    source.Serves past (source.perform cache call).1 := by
  have hcached : cached? cache call.resource call.made = none := by
    rw [h.cached?_eq htime]
    cases hlast : source.last? past call.resource with
    | none => rfl
    | some had => rw [Option.bind_some, hnone had hlast, if_neg Bool.false_ne_true]
  rw [perform_of_not_cached hcached, result_of_isInRange hrange]
  constructor
  case sent =>
    intro request hmem
    cases hrequest : source.request call.resource with
    | error e =>
        rw [hrequest] at hmem
        exact absurd hmem List.not_mem_nil
    | ok sent =>
        rw [hrequest] at hmem
        rw [List.mem_singleton.mp hmem]
        exact asksFor_request hrequest
  case issued =>
    intro token htoken
    cases hfetched : source.fetched call with
    | error e => simp [hfetched, Except.map] at htoken
    | ok had =>
        obtain ⟨request, response, hrequest, hanswer, hbrings⟩ := fetched_eq_ok_iff.mp hfetched
        simp only [hfetched, Except.map, Except.ok.injEq] at htoken
        subst htoken
        refine ⟨_, List.mem_append_right _ (List.mem_singleton_self _), request, response, had.2,
          rfl, hrequest, asksFor_request hrequest, ?_, hanswer, hbrings, hfetched⟩
        rw [hrequest]
        rfl
  case good =>
    intro had hlast hgood
    rw [hnone had hlast] at hgood
    cases hgood
  case asks => exact fun _ => ⟨rfl, rfl⟩
  case quiet_iff =>
    intro request hrequest
    constructor
    · intro hnil
      rw [hrequest] at hnil
      cases hnil
    · rintro ⟨had, hlast, hgood⟩
      rw [hnone had hlast] at hgood
      cases hgood
  case short =>
    intro had hlast hshort
    exact isGood_of_short (htime had hlast) hshort

/-! ## Lifetimes that are written in two ways -/

/-- A lifetime may be written as a number, and it may as well be written as a text. -/
theorem isLifetime_decimal {n : Nat} (h : n ≤ greatest64) :
    IsLifetime (.number (Ascii.decimal n)) n ∧
      IsLifetime (.string (some (String.ofList (Ascii.decimal n)))) n := by
  have hleast : least64 ≤ n := Int.le_trans (by decide) (Int.natCast_nonneg n)
  have hdigits : Json.Number.ofDigits? (Json.Number.chars (.whole n)) = some (.whole n) := by
    refine Json.Number.ofDigits?_chars ⟨hleast, Int.le_trans h ?_⟩
    decide
  exact ⟨.number hdigits hleast h, .text (Ascii.integer?_decimal hleast h)⟩

/-- The same call, but for how the lifetime of the token is written. -/
structure IsAlike (a b : TokenCall) : Prop where
  resource : a.resource = b.resource
  made : a.made = b.made
  answered : a.answered = b.answered
  answer : a.answer = b.answer ∨
    ∃ response response' token seconds, a.answer = .ok response ∧ b.answer = .ok response' ∧
      Brings response token seconds ∧ Brings response' token seconds

theorem IsAlike.fetched_eq {a b : TokenCall} (h : IsAlike a b) :
    source.fetched a = source.fetched b := by
  unfold fetched
  rw [h.resource]
  rcases h.answer with hsame | ⟨response, response', token, seconds, ha, hb, hbrings, hbrings'⟩
  · rw [hsame]
  · rw [ha, hb]
    show (_ >>= fun _ => brought response) = (_ >>= fun _ => brought response')
    rw [brings_iff.mp hbrings, brings_iff.mp hbrings']

theorem IsAlike.perform_eq {a b : TokenCall} (h : IsAlike a b) (source : TokenSource)
    (cache : TokenCache) :
    (source.perform cache a).1.outcome = (source.perform cache b).1.outcome ∧
      (source.perform cache a).2 = (source.perform cache b).2 := by
  have hfetched : source.fetched a = source.fetched b := h.fetched_eq
  cases hcached : cached? cache a.resource a.made with
  | some token =>
      have hcached' := hcached
      rw [h.resource, h.made] at hcached'
      rw [perform_of_cached hcached, perform_of_cached hcached']
      exact ⟨rfl, rfl⟩
  | none =>
      have hcached' := hcached
      rw [h.resource, h.made] at hcached'
      rw [perform_of_not_cached hcached, perform_of_not_cached hcached']
      unfold renewed TokenStep.outcome
      rw [hfetched, h.resource, h.answered]
      exact ⟨rfl, rfl⟩

theorem steps_alike {calls' : List TokenCall} (h : List.Forall₂ IsAlike calls calls')
    (cache : TokenCache) :
    (source.steps cache calls).map TokenStep.outcome =
      (source.steps cache calls').map TokenStep.outcome := by
  induction h generalizing cache with
  | nil => rfl
  | cons hcall _ ih =>
      obtain ⟨houtcome, hcache⟩ := hcall.perform_eq source cache
      rw [steps, steps, List.map_cons, List.map_cons, houtcome, hcache, ih]

/-! ## All calls -/

/-- Every request asks for a token of the resource of its call. Whatever is answered, no token is
given that was had for another resource or that is no longer good, and none is asked for while
there is a good one. A call that fails may as well not have been made. How the lifetimes are written
is of no matter. -/
theorem tokens_good_and_apart (hrange : ∀ call ∈ calls, source.IsInRange call)
    (htime : IsInOrder calls) :
    (∀ past step rest, source.steps [] calls = past ++ step :: rest →
      source.Serves past step ∧
        ∀ e, step.result = .error e →
          source.steps [] ((past ++ rest).map TokenStep.call) = past ++ rest) ∧
    ∀ calls', List.Forall₂ IsAlike calls calls' →
      (source.steps [] calls).map TokenStep.outcome =
        (source.steps [] calls').map TokenStep.outcome := by
  refine ⟨fun past step rest hsteps => ?_, fun calls' halike => steps_alike halike []⟩
  obtain ⟨hcalls, hpast, hstep, hrest⟩ := steps_split hsteps
  rw [hcalls] at hrange htime
  have hcall : source.IsInRange step.call := hrange step.call (by simp)
  have hmirrors : source.Mirrors past (source.kept [] (past.map TokenStep.call)) := by
    have hempty : source.Mirrors [] [] := fun _ => rfl
    have hall := hempty.steps fun call hmem => hrange call (List.mem_append_left _ hmem)
    rw [List.nil_append, ← hpast] at hall
    exact hall
  have hmade : ∀ had, source.last? past step.call.resource = some had →
      step.call.made.before had.time = false := fun had => time_le_made htime
  constructor
  · rw [hstep]
    by_cases hgood : ∃ had, source.last? past step.call.resource = some had ∧
        had.isGood step.call.made = true
    · obtain ⟨had, hlast, hgood⟩ := hgood
      apply hmirrors.serves_good hlast hgood hmade
      intro issuing hissuing
      rw [hpast] at hissuing
      exact requests_of_mem hissuing
    · apply hmirrors.serves_asks hcall _ hmade
      intro had hlast
      rw [← Bool.not_eq_true]
      exact fun hgood' => hgood ⟨had, hlast, hgood'⟩
  · intro e herror
    rw [hstep] at herror
    rw [perform_error herror] at hrest
    rw [List.map_append, steps_append, ← hpast, ← hrest]

def trialSource : TokenSource where
  endpoint :=
    { scheme := "https", username := "", password := none
      host := some (.domain "login.microsoftonline.com"), port := none
      path := .rooted ["tenant-1", "oauth2", "token"], query := none, fragment := none }
  appId := "app-1"
  appSecret := ⟨"s3cret"⟩

/-- A response with a token and the text of a lifetime. -/
def trialResponse (token lifetime : String) : Response :=
  ⟨200, [], "\x7b\"access_token\":\"" ++ token ++ "\",\"expires_in\":" ++ lifetime ++ "\x7d"⟩

/-- Calls for two resources. The third comes just before the token of the first is given up, the
fourth fails, and the fifth comes just then. -/
def trialCalls (lifetime : String) : List TokenCall :=
  [⟨"a", ⟨1000, 0⟩, .ok (trialResponse "A1" lifetime), ⟨1001, 0⟩⟩,
    ⟨"b", ⟨1001, 0⟩, .ok (trialResponse "B1" "300"), ⟨1002, 0⟩⟩,
    ⟨"a", ⟨4299, 999999999⟩, .error .dropped, ⟨4299, 999999999⟩⟩,
    ⟨"b", ⟨4300, 0⟩, .ok (trialResponse "B2" "\"soon\""), ⟨4300, 0⟩⟩,
    ⟨"a", ⟨4300, 0⟩, .ok (trialResponse "A2" "3599"), ⟨4301, 0⟩⟩]

/-- The members of such a response. -/
def trialAnswer (token : String) (lifetime : Json.Document) : Json.Document :=
  .object [(some "access_token", .string (some token)), (some "expires_in", lifetime)]

theorem brings_trialAnswer {response : Response} {token : String} {lifetime : Json.Document}
    {seconds : Int} (hsuccess : response.isSuccess = true)
    (hparse : Json.Document.parse? response.body = some (trialAnswer token lifetime))
    (h : IsLifetime lifetime seconds) : Brings response token seconds :=
  ⟨hsuccess, _, _, _, hparse, Json.Document.fields?_eq_some_iff.mp rfl, .there rfl, .there h⟩

theorem tokens_good_and_apart_trial :
    ((∀ call ∈ trialCalls "\"3599\"", trialSource.IsInRange call) ∧
      IsInOrder (trialCalls "\"3599\"")) ∧
    (∃ first second third fourth fifth,
      trialSource.steps [] (trialCalls "\"3599\"") = [first, second, third, fourth, fifth] ∧
        (third.requests = [] ∧ third.result = .ok "A1") ∧
        fourth.result = .error (.undecodable "bad expires_in 'soon'") ∧
        trialSource.steps [] [first.call, second.call, third.call, fifth.call] =
          [first, second, third, fifth] ∧
        (∀ request ∈ fifth.requests, trialSource.AsksFor "a" request) ∧
        fifth.requests.map Request.body =
          [some "grant_type=client_credentials&client_id=app-1&client_secret=s3cret&resource=a"]) ∧
    (trialSource.steps [] (trialCalls "\"3599\"")).map TokenStep.outcome =
      (trialSource.steps [] (trialCalls "3599")).map TokenStep.outcome := by
  have hrange : ∀ call ∈ trialCalls "\"3599\"", trialSource.IsInRange call := by decide +kernel
  have htime : IsInOrder (trialCalls "\"3599\"") := by
    unfold IsInOrder
    decide +kernel
  obtain ⟨hserves, halike⟩ := tokens_good_and_apart hrange htime
  refine ⟨⟨hrange, htime⟩, ⟨_, _, _, _, _, rfl, ?_, ?_, ?_, ?_, ?_⟩, halike _ ?_⟩
  · exact (hserves [_, _] _ [_, _] rfl).1.good ⟨"A1", 3599, ⟨1001, 0⟩⟩ (by decide +kernel)
      (by decide +kernel)
  · decide +kernel
  · exact (hserves [_, _, _] _ [_] rfl).2 (.undecodable "bad expires_in 'soon'") (by decide +kernel)
  · exact (hserves [_, _, _, _] _ [] rfl).1.sent
  · have hasks := ((hserves [_, _, _, _] _ [] rfl).1.asks fun had hlast => ?_).1
    · rw [hasks]
      decide +kernel
    · have hold : had = ⟨"A1", 3599, ⟨1001, 0⟩⟩ := by
        apply Option.some.inj
        rw [← hlast]
        decide +kernel
      rw [hold]
      decide +kernel
  · obtain ⟨hnumber, htext⟩ := isLifetime_decimal (n := 3599) (by decide)
    have hfirst : IsAlike
        ⟨"a", ⟨1000, 0⟩, .ok (trialResponse "A1" "\"3599\""), ⟨1001, 0⟩⟩
        ⟨"a", ⟨1000, 0⟩, .ok (trialResponse "A1" "3599"), ⟨1001, 0⟩⟩ :=
      ⟨rfl, rfl, rfl, .inr ⟨_, _, "A1", 3599, rfl, rfl, brings_trialAnswer rfl rfl htext,
        brings_trialAnswer rfl rfl hnumber⟩⟩
    have hsame (call : TokenCall) : IsAlike call call := ⟨rfl, rfl, rfl, .inl rfl⟩
    exact .cons hfirst (.cons (hsame _) (.cons (hsame _) (.cons (hsame _) (.cons (hsame _) .nil))))

end TokenSource

end SwarmUpkeep
