import Mathlib.Data.List.Induction
import SwarmUpkeep.Proofs.Remote.NodeAddress
import SwarmUpkeep.Proofs.Upkeep.Leadership
import SwarmUpkeep.Remote.Wiring

/-!
# Where leader records come from

An upgrade and a handoff record a leader with the address of a member that a control plane has
listed before. What an engine tells of its nodes thus reaches the record as it is: a record has the
address of no host exactly if an engine has told such an address of a node among managers, and no
other one in its status.
-/

namespace SwarmUpkeep

open Attempt Control

/-! ## Records of listed members -/

/-- The members that a control plane lists. -/
def Exchange.listed? : Exchange Surroundings → Option (List Member)
  | ⟨.swarm _ (.members _), .ok members⟩ => some members
  | _ => none

/-- The member has been listed. -/
def IsKnown (m : Member) (past : List (Exchange Surroundings)) : Prop :=
  ∃ e ∈ past, ∃ members, e.listed? = some members ∧ m ∈ members

/-- A leader record is written only of a member that has been listed before. -/
def Call.RecordsKnown (tables : RecordTables) (past : List (Exchange Surroundings)) : Call → Prop
  | .table (.upsert name row) =>
      Records.isLeaderRow tables name row.partition row.key = true →
        ∃ m time, IsKnown m past ∧ row = Records.leaderRow ⟨m.addr, time⟩
  | _ => True

/-- A question that writes no leader record. -/
def Call.SparesRecord (tables : RecordTables) : Call → Prop
  | .table (.upsert name row) => Records.isLeaderRow tables name row.partition row.key = false
  | _ => True

variable {tables : RecordTables} {c : Call} {past : List (Exchange Surroundings)} {m : Member}

theorem IsKnown.concat (h : IsKnown m past) (e : Exchange Surroundings) :
    IsKnown m (past ++ [e]) := by
  obtain ⟨told, htold, hlisted⟩ := h
  exact ⟨told, List.mem_append_left _ htold, hlisted⟩

namespace Call

theorem SparesLeader.sparesRecord (h : c.SparesLeader tables) : c.SparesRecord tables := by
  unfold SparesRecord
  split
  · exact h
  · trivial

theorem SparesRecord.recordsKnown (h : c.SparesRecord tables) : c.RecordsKnown tables past := by
  unfold RecordsKnown
  split
  next name row =>
    have hother : Records.isLeaderRow tables name row.partition row.key = false := h
    intro hrow
    rw [hother] at hrow
    cases hrow
  next => trivial

theorem sparesRecord_keeps {inv : List (Exchange Surroundings) → Prop}
    (hc : c.SparesRecord tables) (hinv : ∀ past e, inv past → inv (past ++ [e])) :
    (Rules.recorded (RecordsKnown tables)).Keeps inv c := by
  intro past hpast
  refine ⟨hc.recordsKnown, ?_⟩
  rintro answer past' rfl
  exact hinv past _ hpast

end Call

/-! ## A handoff -/

namespace Handoff

theorem spares_upholds {ε α : Type} {x : Control ε α} (hx : x.Asks (Call.SparesRecord tables))
    (past : List (Exchange Surroundings)) :
    x.Upholds (.recorded (Call.RecordsKnown tables)) (fun _ _ => True) (fun _ _ => True) past :=
  hx.keeps (fun _ hc => Call.sparesRecord_keeps hc fun _ _ _ => trivial) trivial

/-- Whoever is taken for the new leader has been listed. -/
theorem awaitNewLeader_knows (engine : Engine) (id : String) (policy : RetryPolicy)
    (past : List (Exchange Surroundings)) :
    (Succession.awaitNewLeader engine id policy).Upholds (.recorded (Call.RecordsKnown tables))
      IsKnown (fun _ _ => True) past := by
  have hcheck : Checks (.recorded (Call.RecordsKnown tables)) (fun _ => True) IsKnown (do
      let leader ← Membership.currentLeader engine
      return leader.filter fun m => m.id != id) := by
    intro past _
    have hlisting : (members engine (some .manager)).Upholds (.recorded (Call.RecordsKnown tables))
        (fun managers past' => ∀ m ∈ managers, IsKnown m past') (fun _ _ => True) past := by
      refine ⟨trivial, ?_⟩
      rintro answer past' rfl
      cases answer with
      | error e => trivial
      | ok managers => exact fun m hm => ⟨_, List.mem_append_right _ (.head _), managers, rfl, hm⟩
    refine Upholds.bind (m := fun leader past' => ∀ m, leader = some m → IsKnown m past') ?_ ?_
    · refine hlisting.bind fun managers past hknown => ?_
      exact fun m hfound => hknown m (List.mem_of_find?_eq_some hfound)
    · intro leader past hknown
      refine ⟨fun _ => trivial, fun m hfiltered => ?_⟩
      exact hknown m (Option.filter_eq_some_iff.mp hfiltered).1
  have hpauses : Pauses (.recorded (Call.RecordsKnown tables)) fun _ => True := by
    intro past ms _
    exact ⟨trivial, fun _ _ _ => trivial⟩
  exact Upholds.mapError (pollUntil_upholds hcheck hpauses trivial)

/-- The record of a member that has been listed. -/
theorem setLeader_knows (hknown : IsKnown m past) :
    (Records.setLeader tables m.addr).Upholds (.recorded (Call.RecordsKnown tables))
      (fun _ _ => True) (fun _ _ => True) past := by
  have hnow : (liftM Control.now : Control RecordError Instant).Upholds
      (.recorded (Call.RecordsKnown tables)) (fun _ => IsKnown m) (fun _ _ => True) past := by
    refine upholds_lift.mpr ⟨trivial, ?_⟩
    rintro answer past' rfl
    exact hknown.concat _
  refine Upholds.bind hnow fun time past hknown => ?_
  refine Upholds.bind (m := fun _ _ => True) (Upholds.mapError ⟨?_, ?_⟩) fun _ _ _ => trivial
  · exact fun _ => ⟨m, time, hknown, rfl⟩
  · rintro answer past' rfl
    cases answer <;> trivial

theorem stepDown_knows (config : Config) (id : String) (wasLeader : Bool)
    (past : List (Exchange Surroundings)) :
    (stepDown config id wasLeader).Upholds
      (.recorded (Call.RecordsKnown config.swarm.recordTables)) (fun _ _ => True) (fun _ _ => True)
      past := by
  have hlisting : (members .here (some .manager)).Asks
      (Call.SparesRecord config.swarm.recordTables) := Program.asks_perform trivial
  refine Upholds.bind (spares_upholds hlisting past).renamed fun managers past _ => ?_
  split
  · split
    · refine spares_upholds ?_ past
      exact (Records.clearLeader_asks trivial).mapError.bind fun _ => asks_pure _
    · trivial
  next peer _ =>
    have hreach (addr : Address) : (reach addr : Control RejoinError Engine).Asks
        (Call.SparesRecord config.swarm.recordTables) := ⟨trivial, fun _ _ _ => trivial⟩
    have hend (leader : Member) : (do
        return some (← reach leader.addr) : Control RejoinError (Option Engine)).Asks
          (Call.SparesRecord config.swarm.recordTables) :=
      (hreach leader.addr).bind fun _ => asks_pure _
    have hdemote : (demote .here id).Asks (Call.SparesRecord config.swarm.recordTables) :=
      Program.asks_perform trivial
    refine Upholds.bind (spares_upholds hdemote past).renamed fun _ past _ => ?_
    refine (spares_upholds (hreach peer.addr) past).bind fun engine past _ => ?_
    refine Upholds.bind (awaitNewLeader_knows engine id _ past).renamed fun leader past hknown => ?_
    split
    · refine Upholds.bind (m := fun _ _ => True) ?_ fun _ past _ =>
        spares_upholds (hend leader) past
      exact upholds_discard.mpr (setLeader_knows hknown).renamed
    · exact spares_upholds (hend leader) past

theorem depart_knows (site : Site) (id : String) (past : List (Exchange Surroundings)) :
    (depart site id).Upholds (.recorded (Call.RecordsKnown site.config.swarm.recordTables))
      (fun _ _ => True) (fun _ _ => True) past := by
  have hinspect : (inspect .here id).Asks (Call.SparesRecord site.config.swarm.recordTables) :=
    Program.asks_perform trivial
  refine Upholds.bind (spares_upholds hinspect past).renamed fun me past _ => ?_
  refine (spares_upholds ((ownMachine_surveys _ id me).mono
    fun _ hc => hc.sparesLeader.sparesRecord) past).bind fun machine past _ => ?_
  refine Upholds.bind (spares_upholds ((Replica.drain_drains site me.hostname).mono
    fun _ hc => hc.sparesLeader.sparesRecord) past).renamed fun replica past _ => ?_
  refine Upholds.bind (spares_upholds ((Replica.forget_asks site replica).mono
    fun _ hc => hc.sparesLeader.sparesRecord) past).renamed fun _ past _ => ?_
  refine Upholds.bind (m := fun _ _ => True) ?_ fun engine past _ => ?_
  · unfold successor
    split
    · exact stepDown_knows site.config id me.isLeader past
    · refine spares_upholds ?_ past
      exact (requireLeader_asks trivial trivial).bind fun _ => ⟨trivial, fun _ _ _ => trivial⟩
  -- Nothing is recorded any more once there is a successor.
  refine spares_upholds ?_ past
  refine Asks.bind (Asks.mapError (Program.asks_perform trivial)) fun _ => ?_
  refine Asks.bind ?_ fun _ => ?_
  · cases engine with
    | none => exact asks_pure ()
    | some engine => exact Asks.mapError (Membership.unlessGone_asks (Program.asks_perform trivial))
  refine (Lock.release_asks trivial).mapError.bind fun _ => ?_
  refine Asks.bind (Asks.mapError (Program.asks_perform trivial)) fun operation => ?_
  refine (Operation.await_asks trivial (fun _ => trivial) _ _).mapError.bind fun _ => ?_
  exact Asks.discard (Asks.mapError (Program.asks_perform trivial))

theorem complete_knows (site : Site) (past : List (Exchange Surroundings)) :
    (complete site).Upholds (.recorded (Call.RecordsKnown site.config.swarm.recordTables))
      (fun _ _ => True) (fun _ _ => True) past := by
  have hlocal : localId.Asks (Call.SparesRecord site.config.swarm.recordTables) :=
    Program.asks_perform trivial
  refine Upholds.bind (spares_upholds hlocal past).renamed fun found past _ => ?_
  cases found with
  | none => trivial
  | some id =>
      refine Upholds.bind (spares_upholds (Lock.peek_asks trivial) past).renamed ?_
      intro head past _
      cases head with
      | none => trivial
      | some signal =>
          dsimp only
          split
          · refine spares_upholds ?_ past
            exact (Lock.pendingSignals_asks trivial).mapError.bind fun _ => asks_pure _
          · refine Upholds.bind (spares_upholds (Lock.consumeFor_asks trivial trivial
              (fun _ => trivial) id) past).renamed fun taken past _ => ?_
            cases taken with
            | none => trivial
            | some _ => exact (depart_knows site id past).bind fun _ _ _ => trivial

end Handoff

/-! ## An upgrade -/

namespace Leadership

/-- All that the account knows to have been said since a demotion has been said. -/
theorem mem_of_mem_since {d : Demise} (hd : (past.foldl next start).demise = some d) :
    d.since ⊆ past := by
  induction past using List.reverseRecOn generalizing d with
  | nil => cases hd
  | append_singleton past e ih =>
      rw [List.foldl_append] at hd
      have hears : ∀ {d : Demise},
          (past.foldl next start).demise.map (·.hears e) = some d → d.since ⊆ past ++ [e] := by
        intro d hd
        obtain ⟨before, hbefore, rfl⟩ := Option.map_eq_some_iff.mp hd
        exact List.append_subset.mpr ⟨List.Subset.trans (ih hbefore) (List.subset_append_left _ _),
          List.subset_append_right _ _⟩
      change (past.foldl next start).demiseAfter e = some d at hd
      unfold demiseAfter at hd
      split at hd
      · split at hd
        · exact hears hd
        · cases hd
          exact List.nil_subset _
      · exact hears hd

/-- A manager that has been listed as the leader has been listed. -/
theorem isKnown_of_reports {d : Demise} (hsince : d.since ⊆ past) (h : d.Reports m) :
    IsKnown m past := by
  obtain ⟨e, he, managers, hmanagers, hm, -⟩ := h
  refine ⟨e, hsince he, managers, ?_, hm⟩
  unfold Exchange.managers? at hmanagers
  split at hmanagers
  · exact hmanagers
  · cases hmanagers

theorem recordsKnown_of_permits (h : (past.foldl next start).Permits tables c) :
    c.RecordsKnown tables past := by
  unfold Call.RecordsKnown
  split
  next name row =>
    intro hrow
    obtain ⟨d, heir, time, hd, -, -, hreports, -, heq⟩ := h hrow
    exact ⟨heir, time, isKnown_of_reports (mem_of_mem_since hd) hreports, heq⟩
  next => trivial

end Leadership

/-- In an upgrade and in a handoff, leader records are written only of members that have been listed
before. -/
theorem inOrder_recordsKnown {σ : Type} (respond : σ → (c : Call) → c.Answer × σ) (s : σ)
    (site : Site) (templateUrl : String) :
    InOrder (Call.RecordsKnown site.config.swarm.recordTables)
        (Program.transcript respond (Upgrade.run site templateUrl) s) ∧
      InOrder (Call.RecordsKnown site.config.swarm.recordTables)
        (Program.transcript respond (Handoff.complete site) s) := by
  constructor
  · have hstart : (Leadership.runMarks site.config.swarm.recordTables).idle .start :=
      ⟨rfl, fun d hd => by cases hd⟩
    have hrun := (Leadership.run_course site).run_upholds templateUrl hstart
    intro past e rest hrecord
    exact Leadership.recordsKnown_of_permits
      (Program.Upholds.inOrder_accounted hrun respond s past e rest hrecord)
  · exact Program.Upholds.inOrder (Handoff.complete_knows site []) respond s

/-! ## What an engine tells reaches the record -/

open EngineApi (Hears PlacesMembers nodes? placesMembers)

namespace Services

variable {σ α : Type} (services : Services) (respond : σ → (c : WebCall) → c.Answer × σ)

/-- What the services answer where requests are answered so. -/
def answers (s : σ) (c : Call) : c.Answer × σ :=
  Program.run respond (services.respond c) s

/-- The row is the leader record of a member whose node an engine has told before. -/
def Nominates (before : List (σ × Call)) (row : Row) : Prop :=
  ∃ s engine role nodes node m time, (s, Call.swarm engine (.members role)) ∈ before ∧
    Hears respond s ((services.engineOf engine).members role) nodes? nodes ∧ node ∈ nodes ∧
    node.IsPlaced m ∧ row = Records.leaderRow ⟨m.addr, time⟩

/-- Wherever a run writes a leader record, it is of a member whose node was told before. -/
def RecordsNominees (tables : RecordTables) (p : Program Surroundings α) : Prop :=
  ∀ s before s' name row after,
    p.visits (services.answers respond) s = before ++ (s', .table (.upsert name row)) :: after →
      Records.isLeaderRow tables name row.partition row.key = true →
        services.Nominates respond before row

variable {services respond}

theorem nominates_of_isKnown {before : List (σ × Call)}
    (h : IsKnown m (Program.exchanges (services.answers respond) before)) (time : Instant) :
    services.Nominates respond before (Records.leaderRow ⟨m.addr, time⟩) := by
  obtain ⟨e, he, members, hlisted, hm⟩ := h
  obtain ⟨⟨s, c⟩, hvisit, rfl⟩ := List.mem_map.mp he
  unfold Exchange.listed? at hlisted
  split at hlisted
  next engine role told heq =>
    have hc : c = .swarm engine (.members role) := congrArg Exchange.call heq
    subst hc
    have hrun : (Program.run respond ((services.engineOf engine).members role) s).1 = .ok told :=
      eq_of_heq (Exchange.mk.inj heq).2
    cases hlisted
    have hplaces := placesMembers respond (services.engineOf engine)
    obtain ⟨nodes, hhears⟩ := hplaces.listed s role members hrun
    have hall := (hplaces.members s role nodes hhears).placed members hrun
    obtain ⟨node, hnode, hplaced⟩ := EngineApi.NodeDocument.exists_isPlaced hall hm
    exact ⟨s, engine, role, nodes, node, m, time, hvisit, hhears, hnode, hplaced, rfl⟩
  next => cases hlisted

theorem recordsNominees {tables : RecordTables} {p : Program Surroundings α}
    (h : ∀ s, InOrder (Call.RecordsKnown tables)
      (Program.transcript (services.answers respond) p s)) :
    services.RecordsNominees respond tables p := by
  intro s before s' name row after hvisits hrow
  have hpermitted := Program.permitted_of_inOrder (h s) hvisits
  obtain ⟨m, time, hknown, rfl⟩ := hpermitted hrow
  exact nominates_of_isKnown hknown time

end Services

/-- Whatever the outside answers: the nodes that an engine tells become members, each at the address
of its status or else at the one that managers are told, or the call fails as undecodable, and it
does fail where a node has neither. A member's address stands for no host exactly if its node is
mislaid.
Each leader record that an upgrade or a handoff writes is of a member whose node an engine has told
before, and so it holds such an address only where a mislaid node has been told. -/
theorem node_addresses {σ : Type} (services : Services)
    (respond : σ → (c : WebCall) → c.Answer × σ) (site : Site) (templateUrl : String) :
    (∀ api, PlacesMembers respond api) ∧
      (∀ s, Program.run respond ((Upgrade.run site templateUrl).via services.respond) s =
          Program.run (services.answers respond) (Upgrade.run site templateUrl) s ∧
        Program.run respond ((Handoff.complete site).via services.respond) s =
          Program.run (services.answers respond) (Handoff.complete site) s) ∧
      services.RecordsNominees respond site.config.swarm.recordTables
        (Upgrade.run site templateUrl) ∧
      services.RecordsNominees respond site.config.swarm.recordTables (Handoff.complete site) := by
  refine ⟨placesMembers respond, fun s => ⟨?_, ?_⟩, ?_, ?_⟩
  · exact Program.run_via (I := Surroundings) (J := Web) _ s
  · exact Program.run_via (I := Surroundings) (J := Web) _ s
  · exact Services.recordsNominees fun s => (inOrder_recordsKnown _ s site templateUrl).1
  · exact Services.recordsNominees fun s => (inOrder_recordsKnown _ s site templateUrl).2

def mislaidReply : Response :=
  ⟨200, [], (Json.obj [("ID", .str "n1"), ("Version", .obj [("Index", .ofNat 7)]),
    ("Spec", .obj [("Role", .str "manager")]),
    ("Status", .obj [("State", .str "ready"), ("Addr", .str "0.0.0.0")]),
    ("ManagerStatus", .obj [("Leader", .bool true), ("Addr", .str "0.0.0.0:2377")])]).text⟩

/-- A leader of which the engine tells no address but that of no host. -/
theorem mislaid_leader_is_member :
    (Program.run (Web.replies fun _ => mislaidReply) (EngineApi.trialEngine.inspect "n1") 0).1 =
        .ok ⟨"n1", "", .v4 0 0 0 0, .manager, .ready, true⟩ ∧
      Address.isUnspecified (.v4 0 0 0 0) = true :=
  ⟨by decide +kernel, rfl⟩

end SwarmUpkeep
