import SwarmUpkeep.Proofs.Json.Record
import SwarmUpkeep.Proofs.Json.Text
import SwarmUpkeep.Proofs.Remote.Pages
import SwarmUpkeep.Proofs.Remote.Requests

/-!
# Demotions

A demotion reads the specification of a node, changes the role in it and writes it back under the
version that was read. That is the specification as it was read but for the role, whatever else it
holds and however deep, as long as it is an object. What is written is a text, from which an engine
reads the same again as far as the numbers in it are whole numbers of 64 bits. A specification that
is no object has no role to change: it is written back as it is, and the demotion succeeds all the
same.
-/

namespace SwarmUpkeep.EngineApi

open Json.Document (IsRecord IsRequired depthLimit)

/-! ## Specifications -/

/-- The specification of a node that is a worker now, and otherwise what it was. -/
structure Demotes (spec written : Json) : Prop where
  role : written.get? "Role" = some (.str "worker")
  others : ∀ name, name ≠ "Role" → written.get? name = spec.get? name

/-- Exactly an object is demoted. -/
theorem demotes_demoted_iff (spec : Json) :
    Demotes spec (demoted spec) ↔ ∃ members, spec = .obj members := by
  constructor
  · intro h
    cases spec with
    | obj members => exact ⟨members, rfl⟩
    | null | bool | num | str | arr => cases h.role
  · rintro ⟨members, rfl⟩
    have hfind (name : String) : (demoted (.obj members)).get? name =
        if "Role" = name then some (.str "worker") else Json.Members.find? members name :=
      Json.Members.find?_insert members "Role" (.str "worker") name
    constructor
    · rw [hfind, if_pos rfl]
    · intro name hname
      rw [hfind, if_neg (Ne.symm hname)]
      rfl

theorem demoted_of_not_object {spec : Json} (h : ¬ ∃ members, spec = .obj members) :
    demoted spec = spec := by
  cases spec with
  | obj members => exact absurd ⟨members, rfl⟩ h
  | null | bool | num | str | arr => rfl

/-- Nothing gets deeper by a demotion. -/
theorem fits_demoted {depth : Nat} {spec : Json} (h : spec.Fits depth) :
    (demoted spec).Fits depth := by
  cases spec with
  | obj members =>
      cases depth with
      | zero => cases h
      | succ depth => exact h.insert .str
  | null | bool | num | str | arr => exact h

/-! ## What a response says -/

/-- A version has a whole number of 64 bits as its index. -/
def IsVersion (d : Json.Document) (version : Nat) : Prop :=
  ∃ digits, d.IsRecord ["Index"] [some (.number digits)] ∧
    Json.Number.ofDigits? digits = some (.whole version) ∧ version ≤ greatestVersion

/-- A document says of a node which version it has and what is specified for it. In the
specification so many arrays and objects may be nested. -/
def Tells (depth : Nat) (d : Json.Document) (version : Nat) (spec : Json) : Prop :=
  ∃ id index specified description status manager,
    d.IsRecord ["ID", "Version", "Spec", "Description", "Status", "ManagerStatus"]
      [id, some index, some specified, description, status, manager] ∧
    IsVersion index version ∧ specified.value? depth = some spec

theorem isVersion_of_version? {d : Json.Document} {version : Nat} (h : version? d = some version) :
    IsVersion d version := by
  obtain ⟨fields, hfields, h⟩ := Option.bind_eq_some_iff.mp h
  split at h
  next index =>
    obtain ⟨n, hn, h⟩ := Option.bind_eq_some_iff.mp h
    cases h
    obtain ⟨d', rfl, hwhole⟩ := Option.bind_eq_some_iff.mp hn
    have hrecord := Json.Document.fields?_eq_some_iff.mp hfields
    cases d' with
    | number digits =>
        simp only [Json.Document.whole?] at hwhole
        split at hwhole
        next m hdigits =>
          split at hwhole
          next hbounds =>
            cases hwhole
            rw [← Int.toNat_of_nonneg hbounds.1] at hdigits
            exact ⟨digits, hrecord, hdigits, by omega⟩
          next => cases hwhole
        next => cases hwhole
    | null | bool | string | array | object => cases hwhole
  next => cases h

/-- What is read of a node is what the document says of it. -/
theorem tells_of_node? {depth : Nat} {d : Json.Document} {node : NodeDocument}
    (h : node? depth d = some node) : Tells (depth - 1) d node.version node.spec := by
  unfold node? at h
  obtain ⟨fields, hfields, h⟩ := Option.bind_eq_some_iff.mp h
  split at h
  next id version spec description status manager =>
    obtain ⟨id', -, h⟩ := Option.bind_eq_some_iff.mp h
    obtain ⟨version', hversion, h⟩ := Option.bind_eq_some_iff.mp h
    obtain ⟨spec', hspec, h⟩ := Option.bind_eq_some_iff.mp h
    obtain ⟨hostname', -, h⟩ := Option.bind_eq_some_iff.mp h
    obtain ⟨status', -, h⟩ := Option.bind_eq_some_iff.mp h
    obtain ⟨manager', -, h⟩ := Option.bind_eq_some_iff.mp h
    cases h
    obtain ⟨index, rfl, hindex⟩ := Option.bind_eq_some_iff.mp hversion
    obtain ⟨specified, rfl, hvalue⟩ := Option.bind_eq_some_iff.mp hspec
    exact ⟨id, index, specified, description, status, manager,
      Json.Document.fields?_eq_some_iff.mp hfields, isVersion_of_version? hindex, hvalue⟩
  next => cases h

/-! ## Requests of a demotion -/

/-- A node was asked for, and this is the version and the specification that the response says. -/
structure IsReading (api : EngineApi) (id : String) (request : Request) (response : Response)
    (node : NodeDocument) : Prop where
  method : request.method = .get
  place : ∃ place, api.url (nodePath id) = .ok place ∧
    request.url = Request.destination place []
  success : response.isSuccess = true
  decoded : response.decode (node? depthLimit) = .ok node
  told : ∃ d, Json.Document.parse? response.body = some d ∧
    Tells (depthLimit - 1) d node.version node.spec

/-- An update of a node under a version, with this specification as its body. -/
structure IsUpdate (api : EngineApi) (id : String) (version : Nat) (request : Request)
    (written : Json) : Prop where
  method : request.method = .post
  place : ∃ place, api.url (nodePath id ++ "/update") = .ok place ∧
    request.url = Request.destination place [("version", toString version)]
  body : request.body = some written.text

variable {api : EngineApi} {id : String} {record : List (Exchange Web)}

/-- A demotion that succeeds has read the node and posted one update, and nothing else. -/
theorem leads_demote (h : Program.Leads (api.demote id) record (.done (.ok ()))) :
    ∃ read response node update answer,
      record = [Web.exchange read response, Web.exchange update answer] ∧
      IsReading api id read response node ∧
      IsUpdate api id node.version update (demoted node.spec) ∧ answer.isSuccess = true := by
  rcases Attempt.leads_bind h with ⟨e, herror, -⟩ | ⟨node, past, rest, rfl, hread, hwritten⟩
  · cases herror
  · rw [readNode_eq] at hread
    obtain ⟨read, response, hreading, rfl, hsuccess, hdecoded⟩ := leads_asking hread
    obtain ⟨place, hplace, hmethod, hurl, -⟩ := request_ok hreading
    obtain ⟨update, answer, hupdate, rfl, hanswer⟩ := leads_discard_send hwritten
    obtain ⟨place', hplace', hmethod', hurl', hbody⟩ := request_ok hupdate
    obtain ⟨d, hparse, hnode⟩ := Response.decode_eq_ok_iff.mp hdecoded
    exact ⟨read, response, node, update, answer, rfl,
      ⟨hmethod, ⟨place, hplace, hurl⟩, hsuccess, hdecoded, d, hparse, tells_of_node? hnode⟩,
      ⟨hmethod', ⟨place', hplace', hurl'⟩, hbody⟩, hanswer⟩

/-- From the text of what was read, with the role changed, the same is read again if its numbers are
whole. -/
theorem parse?_text_demoted {d : Json.Document} {depth : Nat} {spec : Json} {version : Nat}
    (h : Tells depth d version spec) (hdepth : depth + 1 = depthLimit) (hwhole : spec.AllWhole) :
    Json.parse? (demoted spec).text = some (demoted spec) := by
  obtain ⟨-, -, specified, -, -, -, -, -, hvalue⟩ := h
  apply Json.parse?_text
  rw [← hdepth]
  exact (fits_demoted (Json.Document.fits_of_value? specified hvalue hwhole)).succ

/-- Whatever the engine says of the node: a demotion that succeeds has posted exactly one update,
under the version it has just read. Its body is the specification that was read with the role of a
worker and all else as it was, if that specification is an object. Any other one is posted as it was
read. An engine reads the same from the body if all numbers in the specification are whole numbers
of 64 bits. -/
theorem demotion_writes_back {σ : Type} (respond : σ → (c : WebCall) → c.Answer × σ) (s : σ)
    (api : EngineApi) (id : String) (h : (Program.run respond (api.demote id) s).1 = .ok ()) :
    ∃ read response node update answer written,
      Program.transcript respond (api.demote id) s =
          [Web.exchange read response, Web.exchange update answer] ∧
        IsReading api id read response node ∧ IsUpdate api id node.version update written ∧
        answer.isSuccess = true ∧
        (Demotes node.spec written ↔ ∃ members, node.spec = .obj members) ∧
        ((¬ ∃ members, node.spec = .obj members) → written = node.spec) ∧
        (node.spec.AllWhole → Json.parse? written.text = some written) := by
  have hleads := Program.transcript_leads (I := Web) respond (api.demote id) s
  rw [h] at hleads
  obtain ⟨read, response, node, update, answer, hsaid, hread, hupdate, hanswer⟩ :=
    leads_demote hleads
  obtain ⟨d, -, htells⟩ := hread.told
  exact ⟨read, response, node, update, answer, demoted node.spec, hsaid, hread, hupdate, hanswer,
    demotes_demoted_iff node.spec, demoted_of_not_object, parse?_text_demoted htells rfl⟩

-- A number of more than 64 bits has been rounded when it was read, and is posted so.
example : ((Json.parse? "\x7b\"Big\":12345678901234567890123\x7d").map fun spec =>
    (demoted spec).text) = some "\x7b\"Big\":1.2345678901234568e22,\"Role\":\"worker\"\x7d" := by
  decide +kernel

/-- A node with this specification, and then that an update is done. -/
def trialReplies (spec : Json) : Nat → Response
  | 0 => ⟨200, [], (Json.obj [("ID", .str "n1"), ("Version", .obj [("Index", .ofNat 7)]),
      ("Spec", spec), ("Status", .obj [("State", .str "ready")])]).text⟩
  | _ => ⟨200, [], ""⟩

def labelled : Json :=
  .obj [("Availability", .str "active"), ("Labels", .obj [("zone", .str "a\"b")]),
    ("Limit", .num (.whole 18446744073709551615)), ("Role", .str "manager")]

/-- What the engine has replied to each request. -/
def replied (record : List (Exchange Web)) : List Response :=
  record.filterMap fun
    | ⟨.outside (.send _), .ok response⟩ => some response
    | _ => none

theorem allWhole_labelled : labelled.AllWhole := by
  have hlabels : (Json.obj [("zone", .str "a\"b")]).AllWhole :=
    .obj (List.forall_mem_singleton.mpr .str)
  refine .obj ?_
  simp only [List.forall_mem_cons]
  exact ⟨.str, hlabels, .num, .str, fun _ hentry => absurd hentry List.not_mem_nil⟩

/-- The labels are written back, and the same is read from the body. -/
theorem demotion_writes_back_labels :
    (Program.run (Web.replies (trialReplies labelled)) (trialEngine.demote "n1") 0).1 = .ok () ∧
      ∃ read response node update answer written,
        Program.transcript (Web.replies (trialReplies labelled)) (trialEngine.demote "n1") 0 =
            [Web.exchange read response, Web.exchange update answer] ∧
          IsReading trialEngine "n1" read response node ∧ node.spec = labelled ∧
          IsUpdate trialEngine "n1" node.version update written ∧ answer.isSuccess = true ∧
          Demotes labelled written ∧ Json.parse? written.text = some written := by
  have hdone : (Program.run (Web.replies (trialReplies labelled)) (trialEngine.demote "n1") 0).1 =
      .ok () := by
    decide +kernel
  obtain ⟨read, response, node, update, answer, written, hsaid, hread, hupdate, hanswer, hdemotes,
    -, hparse⟩ := demotion_writes_back _ 0 trialEngine "n1" hdone
  have hreplied : [response, answer] = [trialReplies labelled 0, trialReplies labelled 1] := by
    have hsame : replied [Web.exchange read response, Web.exchange update answer] =
        [response, answer] := rfl
    rw [← hsame, ← hsaid]
    decide +kernel
  have hspec : node.spec = labelled := by
    have hdecoded : ((trialReplies labelled 0).decode (node? depthLimit)).map (·.spec) =
        .ok labelled := by
      decide +kernel
    rw [← (List.cons.inj hreplied).1, hread.decoded] at hdecoded
    exact Except.ok.inj hdecoded
  rw [hspec] at hdemotes hparse
  exact ⟨hdone, read, response, node, update, answer, written, hsaid, hread, hspec, hupdate,
    hanswer, hdemotes.mpr ⟨_, rfl⟩, hparse allWhole_labelled⟩

/-- A specification that is `null` is posted as it is, and that is a success. -/
theorem demotion_leaves_null :
    (Program.run (Web.replies (trialReplies .null)) (trialEngine.demote "n1") 0).1 = .ok () ∧
      Paging.sent
          (Program.transcript (Web.replies (trialReplies .null)) (trialEngine.demote "n1") 0) =
        [⟨.get, trialPlace ["nodes", "n1"] none, [], none⟩,
          ⟨.post, trialPlace ["nodes", "n1", "update"] (some "version=7"), [Request.jsonType],
            some "null"⟩] ∧
      ((trialReplies .null 0).decode (node? depthLimit)).map (fun node => node.spec) = .ok .null ∧
      Json.parse? "null" = some .null ∧ ¬ Demotes .null .null := by
  have hnot : ¬ Demotes .null .null := by
    intro h
    cases h.role
  exact ⟨by decide +kernel, by decide +kernel, by decide +kernel, by decide +kernel, hnot⟩

end SwarmUpkeep.EngineApi
