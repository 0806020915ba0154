import SwarmUpkeep.Proofs.Remote.Requests

/-!
# Addresses of members

A member has the address of its status, or else the one under which managers reach each other; a
node with neither makes the whole call fail. An address of the status that stands for no host is
passed over. The other address is not looked at in the same way: a member stands for no host exactly
if its node has no address of the status and one of that kind among managers.
-/

namespace SwarmUpkeep.EngineApi

open Json.Document (depthLimit)

/-! ## Nodes -/

namespace NodeDocument

variable {node : NodeDocument} {m : Member}

/-- The address that a member has by its node. -/
def address? (node : NodeDocument) : Option Address :=
  node.statusAddress.or node.managerAddress

/-- The status names no host, and managers are told one that is none, either. -/
def IsMislaid (node : NodeDocument) : Prop :=
  node.statusAddress = none ∧ ∃ addr, node.managerAddress = some addr ∧ addr.isUnspecified = true

/-- A member with the address of its node. -/
structure IsPlaced (node : NodeDocument) (m : Member) : Prop where
  id : m.id = node.id
  addr : node.address? = some m.addr
  unspecified : m.addr.isUnspecified = true ↔ node.IsMislaid

/-- The address of the status is never one that stands for no host. -/
theorem isUnspecified_statusAddress {addr : Address} (h : node.statusAddress = some addr) :
    addr.isUnspecified = false := by
  obtain ⟨-, hnamed⟩ := Option.filter_eq_some_iff.mp h
  simpa using hnamed

theorem isUnspecified_iff {addr : Address} (h : node.address? = some addr) :
    addr.isUnspecified = true ↔ node.IsMislaid := by
  unfold address? at h
  cases hstatus : node.statusAddress with
  | some own =>
      rw [hstatus, Option.some_or] at h
      cases h
      rw [isUnspecified_statusAddress hstatus]
      simp [IsMislaid, hstatus]
  | none =>
      rw [hstatus, Option.none_or] at h
      simp [IsMislaid, hstatus, h]

theorem member_of_address {role : Role} {addr : Address} (hrole : node.role = .ok role)
    (haddr : node.address? = some addr) :
    node.member = .ok ⟨node.id, node.hostname, addr, role, Status.parse node.state,
      node.manager.any fun manager => manager.leader⟩ := by
  unfold address? at haddr
  unfold member
  simp only [hrole, haddr, bind, Except.bind]
  rfl

theorem member_of_nowhere {role : Role} (hrole : node.role = .ok role)
    (haddr : node.address? = none) :
    node.member = .error (.undecodable ("node " ++ node.id ++ " has no address")) := by
  unfold address? at haddr
  unfold member
  simp only [hrole, haddr, bind, Except.bind]
  rfl

/-- A role that cannot be read is told as it stands. -/
theorem role_error {e : ServiceError} (h : node.role = .error e) :
    ∃ reason, e = .undecodable reason := by
  unfold role at h
  split at h
  · cases h
  · cases h
    exact ⟨_, rfl⟩

/-- A node is a member with its address, or it is none for a reason that is told. -/
theorem member_cases (node : NodeDocument) :
    (∃ m, node.member = .ok m ∧ node.IsPlaced m) ∨
      ∃ reason, node.member = .error (.undecodable reason) := by
  cases hrole : node.role with
  | error e =>
      obtain ⟨reason, rfl⟩ := role_error hrole
      have hmember : node.member = .error (.undecodable reason) := by
        unfold member
        rw [hrole]
        rfl
      exact .inr ⟨reason, hmember⟩
  | ok role =>
      cases haddr : node.address? with
      | none => exact .inr ⟨_, member_of_nowhere hrole haddr⟩
      | some addr =>
          exact .inl ⟨_, member_of_address hrole haddr, rfl, haddr, isUnspecified_iff haddr⟩

/-- Nodes are all members with their addresses, or the first that is none tells why. -/
theorem mapM_member_cases (nodes : List NodeDocument) :
    (∃ members, nodes.mapM member = .ok members ∧ List.Forall₂ IsPlaced nodes members) ∨
      ∃ reason, nodes.mapM member = .error (.undecodable reason) := by
  induction nodes with
  | nil => exact .inl ⟨[], rfl, .nil⟩
  | cons node nodes ih =>
      rw [List.mapM_cons]
      rcases member_cases node with ⟨m, hmember, hplaced⟩ | ⟨reason, hmember⟩
      · rw [hmember]
        rcases ih with ⟨members, hmembers, hall⟩ | ⟨reason, hmembers⟩
        · rw [hmembers]
          exact .inl ⟨m :: members, rfl, .cons hplaced hall⟩
        · rw [hmembers]
          exact .inr ⟨reason, rfl⟩
      · rw [hmember]
        exact .inr ⟨reason, rfl⟩

/-- What comes of nodes: a member for each of them, at the place of its node, or nothing but the
reason why one of them is no member. A node without any address is such a one. -/
structure Places (nodes : List NodeDocument) (result : Except ServiceError (List Member)) :
    Prop where
  placed : ∀ members, result = .ok members → List.Forall₂ IsPlaced nodes members
  undecodable : ∀ e, result = .error e → ∃ reason, e = .undecodable reason
  nowhere : (∃ node ∈ nodes, node.address? = none) → ∃ e, result = .error e

theorem forall₂_isPlaced_address {nodes : List NodeDocument} {members : List Member}
    (h : List.Forall₂ IsPlaced nodes members) (hnode : node ∈ nodes) : node.address? ≠ none := by
  induction h with
  | nil => cases hnode
  | cons hplaced _ ih =>
      rcases List.mem_cons.mp hnode with rfl | hnode
      · rw [hplaced.addr]
        exact Option.some_ne_none _
      · exact ih hnode

theorem exists_isPlaced {nodes : List NodeDocument} {members : List Member}
    (h : List.Forall₂ IsPlaced nodes members) (hm : m ∈ members) :
    ∃ node ∈ nodes, node.IsPlaced m := by
  induction h with
  | nil => cases hm
  | cons hplaced _ ih =>
      rcases List.mem_cons.mp hm with rfl | hm
      · exact ⟨_, .head _, hplaced⟩
      · obtain ⟨node, hnode, hplaced⟩ := ih hm
        exact ⟨node, .tail _ hnode, hplaced⟩

theorem places_mapM (nodes : List NodeDocument) : Places nodes (nodes.mapM member) := by
  rcases mapM_member_cases nodes with ⟨members, hmembers, hplaced⟩ | ⟨reason, hmembers⟩
  · rw [hmembers]
    constructor
    · rintro _ ⟨⟩
      exact hplaced
    · rintro e ⟨⟩
    · rintro ⟨node, hnode, hnone⟩
      exact absurd hnone (forall₂_isPlaced_address hplaced hnode)
  · rw [hmembers]
    constructor
    · rintro members ⟨⟩
    · rintro _ ⟨⟩
      exact ⟨reason, rfl⟩
    · exact fun _ => ⟨_, rfl⟩

theorem places_member (node : NodeDocument) :
    Places [node] (node.member.map fun m => [m]) := by
  have hmap : [node].mapM member = node.member.map fun m => [m] := by
    rw [List.mapM_cons, List.mapM_nil]
    cases node.member <;> rfl
  rw [← hmap]
  exact places_mapM [node]

end NodeDocument

/-! ## Calls -/

variable {σ α β : Type} {respond : σ → (c : WebCall) → c.Answer × σ} {s : σ}
variable {asked : Except ServiceError Request} {what : String}

variable {read : Response → Except ServiceError α}

theorem members_eq (api : EngineApi) (role : Option Role) :
    api.members role = asking (api.request .get "nodes" (roleFilter role) none) "list nodes"
      fun response =>
        (response.decode nodes?).bind fun nodes => nodes.mapM NodeDocument.member := by
  unfold members asking
  apply congrArg (Attempt.bind _)
  funext response
  exact Attempt.ofExcept_bind_ofExcept _ _

theorem inspect_eq (api : EngineApi) (id : String) :
    api.inspect id = asking (api.request .get (nodePath id) [] none) ("inspect node " ++ id)
      fun response => (response.decode (node? depthLimit)).bind NodeDocument.member := by
  unfold inspect
  rw [readNode_eq]
  unfold asking
  apply (Attempt.bind_assoc _ _ _).trans
  apply congrArg (Attempt.bind _)
  funext response
  exact Attempt.ofExcept_bind_ofExcept _ _

/-- One request has been sent, and its successful response has been decoded to this. -/
def Hears (respond : σ → (c : WebCall) → c.Answer × σ) (s : σ) (call : Attempt Web ServiceError α)
    (decode : Json.Document → Option β) (heard : β) : Prop :=
  ∃ request response, Program.transcript respond call s = [Web.exchange request response] ∧
    response.isSuccess = true ∧ response.decode decode = .ok heard

theorem run_asking {request : Request} {response : Response}
    (hsaid : Program.transcript respond (asking asked what read) s =
      [Web.exchange request response]) (hsuccess : response.isSuccess = true) :
    (Program.run respond (asking asked what read) s).1 = read response := by
  have hleads := Program.transcript_leads (I := Web) respond (asking asked what read) s
  generalize (Program.run respond (asking asked what read) s).1 = result at hleads
  rw [hsaid] at hleads
  cases asked with
  | error e => cases hleads
  | ok sent =>
      unfold asking at hleads
      rw [send_ok] at hleads
      cases hleads with
      | ask hend =>
          change Program.Leads (Attempt.bind
            (.done (judged what errorMessage request (.ok response)))
            fun response => Attempt.ofExcept (read response)) [] (.done result) at hend
          rw [judged_of_success hsuccess] at hend
          obtain ⟨-, hdone⟩ := hend.of_done
          exact Program.done.inj hdone

section

variable {decode : Json.Document → Option β} {f : β → Except ServiceError α}

/-- What has been heard is all that the result depends on. -/
theorem run_of_hears {heard : β}
    (h : Hears respond s (asking asked what fun response => (response.decode decode).bind f) decode
      heard) :
    (Program.run respond (asking asked what fun response => (response.decode decode).bind f) s).1 =
      f heard := by
  obtain ⟨request, response, hsaid, hsuccess, hdecoded⟩ := h
  rw [run_asking hsaid hsuccess, hdecoded]
  rfl

/-- There is no result without anything heard. -/
theorem hears_of_ok {a : α}
    (h : (Program.run respond
      (asking asked what fun response => (response.decode decode).bind f) s).1 = .ok a) :
    ∃ heard, Hears respond s (asking asked what fun response => (response.decode decode).bind f)
      decode heard := by
  have hleads := Program.transcript_leads (I := Web) respond
    (asking asked what fun response => (response.decode decode).bind f) s
  rw [h] at hleads
  obtain ⟨request, response, -, hsaid, hsuccess, hread⟩ := leads_asking hleads
  cases hdecoded : response.decode decode with
  | error e =>
      rw [hdecoded] at hread
      cases hread
  | ok heard => exact ⟨heard, request, response, hsaid, hsuccess, hdecoded⟩

end

/-- Nodes that were told become members with their addresses, and no members come from elsewhere. -/
structure PlacesMembers (respond : σ → (c : WebCall) → c.Answer × σ) (api : EngineApi) : Prop where
  members : ∀ s role nodes, Hears respond s (api.members role) nodes? nodes →
    NodeDocument.Places nodes (Program.run respond (api.members role) s).1
  listed : ∀ s role members, (Program.run respond (api.members role) s).1 = .ok members →
    ∃ nodes, Hears respond s (api.members role) nodes? nodes
  inspect : ∀ s id node, Hears respond s (api.inspect id) (node? depthLimit) node →
    NodeDocument.Places [node] ((Program.run respond (api.inspect id) s).1.map fun m => [m])
  inspected : ∀ s id m, (Program.run respond (api.inspect id) s).1 = .ok m →
    ∃ node, Hears respond s (api.inspect id) (node? depthLimit) node

theorem placesMembers (respond : σ → (c : WebCall) → c.Answer × σ) (api : EngineApi) :
    PlacesMembers respond api := by
  constructor
  · intro s role nodes h
    rw [members_eq] at h ⊢
    rw [run_of_hears h]
    exact NodeDocument.places_mapM nodes
  · intro s role members h
    rw [members_eq] at h ⊢
    exact hears_of_ok h
  · intro s id node h
    rw [inspect_eq] at h ⊢
    rw [run_of_hears h]
    exact NodeDocument.places_member node
  · intro s id m h
    rw [inspect_eq] at h ⊢
    exact hears_of_ok h

end SwarmUpkeep.EngineApi
