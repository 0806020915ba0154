import SwarmUpkeep.Proofs.World.Tables
import SwarmUpkeep.Proofs.World.Roster
import SwarmUpkeep.Proofs.World.Undisturbed

/-!
# Hosts that join again

A host that joins as a manager has its replica registered, however often it has to try, unless one
of the tries has made it a member and then failed: it is a member from then on, and nothing is
registered for it any more.
-/

namespace SwarmUpkeep

open Attempt Control

/-- A question that the joining of a host asks before it changes anything. -/
def Call.IsInquiry : Call → Prop
  | .swarm _ .localId | .swarm _ .joinTokens | .swarm _ (.inspect _) | .table (.get _ _ _)
  | .addon (.joinReplica _) | .reach _ | .pause _ | .now => True
  | _ => False

namespace World

variable {w w' start : World} {site : Site} {id host : String} {c : Call}

/-- An inquiry leaves no more behind than the record of it. -/
theorem inquiry_lapses (hc : c.IsInquiry) : Lapses w (w.respond c).2 := by
  cases c with
  | swarm engine call =>
      have hnoted := noted_lapses w (engine.text ++ call.text)
      cases call with
      | localId => exact respond_swarm_leaves hnoted hnoted
      | joinTokens => exact respond_swarm_leaves hnoted hnoted
      | inspect id =>
          refine respond_swarm_leaves hnoted ?_
          simp only [swarm]
          split <;> exact hnoted
      | _ => exact hc.elim
  | table call =>
      have hnoted := noted_lapses w call.text
      cases call with
      | get table partition key => exact respond_table_leaves hnoted hnoted
      | _ => exact hc.elim
  | addon call =>
      have hnoted := noted_lapses w call.text
      cases call with
      | joinReplica nodeName => exact respond_addon_leaves hnoted hnoted
      | _ => exact hc.elim
  | reach addr => exact ⟨rfl⟩
  | pause milliseconds => exact ⟨rfl⟩
  | now => exact ⟨rfl⟩
  | _ => exact hc.elim

/-- One member more, under a new identifier and with the name of the host. -/
theorem join_eq (w : World) (remote : Address) (token : String) :
    ∃ m, m.id = nthId (w.nodeCount + 1) ∧ m.hostname = w.localHostname ∧
      w.join remote token = { w with
        members := w.members ++ [m]
        nodeCount := w.nodeCount + 1
        localId := if w.knobs.joinInvisible then w.localId else some m.id } := by
  let role : Role := if token = managerToken then .manager else .worker
  refine ⟨⟨nthId (w.nodeCount + 1), w.localHostname, w.localIp.getD remote, role, .ready, false⟩,
    rfl, rfl, ?_⟩
  by_cases hinvisible : w.knobs.joinInvisible = true
  · rw [if_pos hinvisible]
    exact if_pos hinvisible
  · rw [if_neg hinvisible]
    exact if_neg hinvisible

namespace Admission

/-- The host is no member, and the tables are as they were at the start. -/
structure Outsider (start w : World) : Prop where
  localId : w.localId = none
  tables : w.tables = start.tables
  localHostname : w.localHostname = start.localHostname
  fresh : ∀ m ∈ w.members, ¬w.IsNew m.id

/-- The host is a member under its own name, and the tables are as they were at the start. -/
structure Insider (start : World) (id : String) (w : World) : Prop where
  localId : w.localId = some id
  tables : w.tables = start.tables
  named : ∀ m, w.member? id = some m → m.hostname = start.localHostname

/-- Nothing is registered, whether the host is a member by now or not. -/
def Unregistered (start w : World) : Prop :=
  Outsider start w ∨ ∃ id, Insider start id w

theorem Outsider.refl (hone : w.localId = none) (hfresh : ∀ m ∈ w.members, ¬w.IsNew m.id) :
    Outsider w w :=
  ⟨hone, rfl, rfl, hfresh⟩

theorem Outsider.lapses (h : Outsider start w) (hlapses : Lapses w w') : Outsider start w' := by
  rw [hlapses.rest]
  exact ⟨h.localId, h.tables, h.localHostname, h.fresh⟩

theorem Insider.lapses (h : Insider start id w) (hlapses : Lapses w w') : Insider start id w' := by
  rw [hlapses.rest]
  exact ⟨h.localId, h.tables, h.named⟩

theorem Unregistered.lapses (h : Unregistered start w) (hlapses : Lapses w w') :
    Unregistered start w' := by
  rcases h with h | ⟨id, h⟩
  · exact .inl (h.lapses hlapses)
  · exact .inr ⟨id, h.lapses hlapses⟩

/-- The rules of a world with any faults. -/
abbrev openRules : Rules Surroundings World :=
  rules (fun _ _ => True) fun _ _ => True

theorem inquiry_keeps {inv : World → Prop} (hinv : ∀ w w', inv w → Lapses w w' → inv w')
    (hc : c.IsInquiry) : openRules.Keeps inv c :=
  keeps_of_respond (fun _ _ => trivial) fun _ hw => hinv _ _ hw (inquiry_lapses hc)

theorem inquiries_keep {ε α : Type} {x : Control ε α} (hx : x.Asks Call.IsInquiry)
    {inv : World → Prop} (hinv : ∀ w w', inv w → Lapses w w' → inv w') (hw : inv w) :
    x.Upholds openRules (fun _ => inv) (fun _ => inv) w :=
  hx.keeps (fun _ => inquiry_keeps hinv) hw

/-- Whoever joins is a member from then on under an identifier of its own, unless the joining does
not show. -/
theorem join_leaves (h : Outsider start w) (remote : Address) (token : String) :
    Unregistered start (w.join remote token) := by
  obtain ⟨newcomer, hid, hname, hjoin⟩ := w.join_eq remote token
  have hfresh : ∀ m ∈ w.members, m.id ≠ newcomer.id := by
    intro m hm hsame
    exact h.fresh m hm ⟨w.nodeCount + 1, by omega, hsame.trans hid⟩
  rw [hjoin]
  by_cases hinvisible : w.knobs.joinInvisible = true
  · refine .inl ⟨(if_pos hinvisible).trans h.localId, h.tables, h.localHostname, ?_⟩
    rintro m hm ⟨n, hn, hnew⟩
    change w.nodeCount + 1 < n at hn
    rcases List.mem_append.mp hm with hold | hlast
    · exact h.fresh m hold ⟨n, by omega, hnew⟩
    · rw [List.mem_singleton.mp hlast, hid] at hnew
      have hsame := nthId_injective hnew
      omega
  · refine .inr ⟨newcomer.id, if_neg hinvisible, h.tables, ?_⟩
    intro m hm
    have hfound :
        (w.members ++ [newcomer]).find? (fun m => m.id = newcomer.id) = some newcomer := by
      rw [List.find?_append, List.find?_eq_none.mpr (by simpa using hfresh)]
      simp
    cases hfound.symm.trans hm
    exact hname.trans h.localHostname

theorem joinSwarm_upholds (hw : Outsider start w) (remote : Address) (token : String) :
    (joinSwarm remote token).Upholds openRules (fun _ => Unregistered start)
      (fun _ => Unregistered start) w := by
  refine ⟨trivial, ?_⟩
  rintro answer w' ⟨_, hanswer⟩
  have hnoted := hw.lapses (noted_lapses w (Engine.here.text ++ (SwarmCall.join remote token).text))
  rcases swarm_answers hanswer with ⟨rfl, e, rfl⟩ | hserved
  · exact .inl hnoted
  · cases hserved
    exact join_leaves hnoted remote token

/-- The host is a member, and a record of a replica under its name is in the tables. -/
structure Admitted (site : Site) (host : String) (w : World) : Prop where
  localId : w.localId ≠ none
  record : ∃ replicaId, w.held site.config.swarm.recordTables.replica Records.replicaPartition
    replicaId = some (Records.replicaRow ⟨replicaId, host, .stable⟩)

theorem putReplica_upholds (hw : Insider start id w) (replicaId : String) :
    (Records.putReplica site.config.swarm.recordTables
        ⟨replicaId, start.localHostname, .stable⟩).Upholds openRules
      (fun _ => Admitted site start.localHostname) (fun _ => Unregistered start) w := by
  refine Upholds.mapError ⟨trivial, ?_⟩
  rintro answer w' ⟨_, hanswer⟩
  have hnoted : ∀ text, Insider start id (w.noted text) := fun text =>
    hw.lapses (noted_lapses w text)
  rcases table_answers hanswer with ⟨rfl, e, rfl⟩ | hserved
  · exact .inr ⟨id, hnoted _⟩
  · cases hserved
    refine ⟨?_, replicaId, ?_⟩
    · exact fun hnone => nomatch hnone.symm.trans (hnoted _).localId
    · have hplace : isAt Records.replicaPartition replicaId
          (Records.replicaRow ⟨replicaId, start.localHostname, .stable⟩) = true :=
        isAt_iff.mpr ⟨rfl, rfl⟩
      unfold held
      rw [rows_set, if_pos rfl, find?_putRow, if_pos hplace]

theorem inspect_upholds (hw : Insider start id w) :
    (inspect .here id).Upholds openRules
      (fun me w' => me.hostname = start.localHostname ∧ Insider start id w')
      (fun _ => Unregistered start) w := by
  refine ⟨trivial, ?_⟩
  rintro answer w' ⟨_, hanswer⟩
  have hnoted := hw.lapses (noted_lapses w (Engine.here.text ++ (SwarmCall.inspect id).text))
  rcases swarm_answers hanswer with ⟨rfl, e, rfl⟩ | hserved
  · exact .inr ⟨id, hnoted⟩
  · simp only [swarm] at hserved
    split at hserved
    next m hfound =>
      cases hserved
      exact ⟨hnoted.named m hfound, hnoted⟩
    next =>
      cases hserved
      exact .inr ⟨id, hnoted⟩

theorem registerReplica_upholds (hw : Insider start id w) :
    (Handoff.registerReplica site.config id).Upholds openRules
      (fun _ => Admitted site start.localHostname) (fun _ => Unregistered start) w := by
  refine Upholds.bind (inspect_upholds hw).renamed ?_
  rintro me w' ⟨hname, hw⟩
  rw [hname]
  have hjoin : (joinReplica start.localHostname).Asks Call.IsInquiry := Program.asks_perform trivial
  have hkept := (inquiries_keep hjoin (fun _ _ => Insider.lapses) hw).monoError
    fun _ _ h => (.inr ⟨id, h⟩ : Unregistered start _)
  refine Upholds.bind hkept.renamed ?_
  intro replicaId w'' hw
  refine Upholds.bind (putReplica_upholds hw replicaId).renamed ?_
  exact fun _ _ hadmitted => hadmitted

/-- The host is told whether it is a member. -/
theorem localId_upholds {inv : World → Prop} (hinv : ∀ w w', inv w → Lapses w w' → inv w')
    (hw : inv w) :
    Control.localId.Upholds openRules (fun known w' => known = w'.localId ∧ inv w')
      (fun _ => inv) w := by
  refine ⟨trivial, ?_⟩
  rintro answer w' ⟨_, hanswer⟩
  have hlapses : Lapses w w' := by
    have hleft := inquiry_lapses (w := w) (c := .swarm .here .localId) trivial
    rw [hanswer] at hleft
    exact hleft
  cases answer with
  | error e => exact hinv w w' hw hlapses
  | ok known =>
      refine ⟨(localId_answer hanswer).trans ?_, hinv w w' hw hlapses⟩
      rw [hlapses.rest]

/-- A host that is no member joins and has its replica registered, or it fails with the tables as
they were. -/
theorem join_upholds (haddon : site.hasAddon = true) (hw : Outsider start w) :
    (Handoff.join site .manager).Upholds openRules
      (fun _ => Admitted site start.localHostname) (fun _ => Unregistered start) w := by
  have houtside : ∀ {ε α : Type} {x : Control ε α} {w}, x.Asks Call.IsInquiry → Outsider start w →
      x.Upholds openRules (fun _ => Outsider start) (fun _ => Unregistered start) w := fun hx hw =>
    (inquiries_keep hx (fun _ _ => Outsider.lapses) hw).monoError fun _ _ => .inl
  have hlocal := (localId_upholds (fun _ _ => Outsider.lapses) hw).monoError
    fun _ _ h => (.inl h : Unregistered start _)
  refine Upholds.bind hlocal.renamed ?_
  rintro known w₁ ⟨hknown, hw⟩
  rw [hw.localId] at hknown
  subst hknown
  refine (houtside (Handoff.requireLeader_asks trivial trivial) hw).bind fun leader w₂ hw => ?_
  have hreach : (reach leader.leaderIp : Control RejoinError Engine).Asks Call.IsInquiry :=
    ⟨trivial, fun _ _ _ => trivial⟩
  refine (houtside hreach hw).bind fun engine w₃ hw => ?_
  have htokens : (retryTransient site.config.timings.apiPolicy "fetch join tokens"
      (joinTokens engine)).Asks Call.IsInquiry :=
    retryTransient_asks (Program.asks_perform trivial) (pause_asks fun _ => trivial)
  refine (houtside htokens.mapError hw).bind fun tokens w₄ hw => ?_
  refine Upholds.bind (joinSwarm_upholds hw leader.leaderIp (tokens.forRole .manager)).renamed
    fun _ w₅ hw => ?_
  refine Upholds.bind (localId_upholds (fun _ _ => Unregistered.lapses) hw).renamed ?_
  rintro known w₆ ⟨rfl, hw⟩
  cases hlocal : w₆.localId with
  | none => exact hw
  | some id =>
      rcases hw with hw | ⟨id', hw⟩
      · cases hw.localId.symm.trans hlocal
      · obtain rfl : id' = id := Option.some.inj (hw.localId.symm.trans hlocal)
        simp only [haddon, and_self, if_true]
        exact (registerReplica_upholds hw).bind fun _ _ hadmitted => hadmitted

/-- A host that is a member is told so, and time passes. -/
theorem join_of_member (site : Site) (hw : w.localId = some id) :
    (Handoff.join site .manager).Upholds openRules
      (fun outcome w' => outcome = .alreadyMember id ∧ Lapses w w') (fun _ => Lapses w) w := by
  have hlocal := localId_upholds (fun _ _ => Lapses.trans) (Lapses.refl w)
  refine Upholds.bind hlocal.renamed ?_
  rintro known w' ⟨rfl, hlapses⟩
  have hknown : w'.localId = some id := by rw [hlapses.rest, hw]
  rw [hknown]
  exact ⟨rfl, hlapses⟩

end Admission

/-! ## Joining again and again -/

open Admission

/-- The world after so many attempts to join as a manager. -/
def afterJoins (site : Site) : Nat → World → World
  | 0, w => w
  | k + 1, w => ((w.afterJoins site k).run (Handoff.join site .manager)).2

/-- An attempt to join makes the host a member and fails all the same. -/
structure Strands (site : Site) (w : World) : Prop where
  outside : w.localId = none
  fails : ∃ e, (w.run (Handoff.join site .manager)).1 = .error e
  member : (w.run (Handoff.join site .manager)).2.localId ≠ none

/-- An attempt of a member to join passes time, and its answer tells what the host is already. -/
theorem afterJoins_of_member {k : Nat} (hmember : (start.afterJoins site k).localId = some id) :
    Lapses (start.afterJoins site k) (start.afterJoins site (k + 1)) ∧
      ∀ outcome, ((start.afterJoins site k).run (Handoff.join site .manager)).1 = .ok outcome →
        outcome = .alreadyMember id := by
  have hend := ends_of_upholds (join_of_member site hmember) fun _ _ => trivial
  cases hresult : ((start.afterJoins site k).run (Handoff.join site .manager)).1 with
  | ok outcome =>
      rw [hresult] at hend
      refine ⟨hend.2, ?_⟩
      rintro _ ⟨⟩
      exact hend.1
  | error e =>
      rw [hresult] at hend
      exact ⟨hend, fun _ h => nomatch h⟩

/-- The host is still no member, or its replica is registered, or it has been stranded. -/
inductive Stands (site : Site) (start : World) (k : Nat) (w : World) : Prop where
  | outside (h : Outsider start w)
  | admitted (h : Admitted site start.localHostname w)
  | stranded (hstrands : ∃ j < k, Strands site (start.afterJoins site j)) (hmember : w.localId ≠ none)

theorem Stands.outsider {k : Nat} (h : Stands site start k w) (hone : w.localId = none) :
    Outsider start w := by
  cases h with
  | outside h => exact h
  | admitted h => exact absurd hone h.localId
  | stranded _ hmember => exact absurd hone hmember

theorem Stands.lapses {k : Nat} (h : Stands site start k w) (hmember : w.localId ≠ none)
    (hlapses : Lapses w w') : Stands site start (k + 1) w' := by
  have htables : w'.tables = w.tables := by rw [hlapses.rest]
  have hlocal : w'.localId = w.localId := by rw [hlapses.rest]
  cases h with
  | outside h => exact absurd h.localId hmember
  | admitted h =>
      obtain ⟨replicaId, hrecord⟩ := h.record
      refine .admitted ⟨hlocal ▸ hmember, replicaId, ?_⟩
      unfold held World.rows at hrecord ⊢
      rw [htables]
      exact hrecord
  | stranded hstrands hmember =>
      obtain ⟨j, hj, hstrands⟩ := hstrands
      exact .stranded ⟨j, by omega, hstrands⟩ (hlocal ▸ hmember)

/-- Where an attempt leaves the host, and that it is no outsider any more after a success. -/
theorem Stands.next (haddon : site.hasAddon = true) {k : Nat}
    (h : Stands site start k (start.afterJoins site k)) :
    Stands site start (k + 1) (start.afterJoins site (k + 1)) ∧
      ∀ outcome, ((start.afterJoins site k).run (Handoff.join site .manager)).1 = .ok outcome →
        (start.afterJoins site (k + 1)).localId ≠ none := by
  cases hlocal : (start.afterJoins site k).localId with
  | none =>
      have hend := ends_of_upholds (join_upholds haddon (h.outsider hlocal)) fun _ _ => trivial
      cases hresult : ((start.afterJoins site k).run (Handoff.join site .manager)).1 with
      | ok outcome =>
          rw [hresult] at hend
          exact ⟨.admitted hend, fun _ _ => hend.localId⟩
      | error e =>
          rw [hresult] at hend
          refine ⟨?_, fun _ h => nomatch h⟩
          rcases hend with hout | ⟨id, hin⟩
          · exact .outside hout
          · have hjoined : (start.afterJoins site (k + 1)).localId ≠ none :=
              fun hnone => nomatch hnone.symm.trans hin.localId
            exact .stranded ⟨k, by omega, hlocal, ⟨e, hresult⟩, hjoined⟩ hjoined
  | some id =>
      have hmember : (start.afterJoins site k).localId ≠ none := by rw [hlocal]; simp
      have hlapses := (afterJoins_of_member hlocal).1
      refine ⟨h.lapses hmember hlapses, fun _ _ => ?_⟩
      rw [hlapses.rest]
      exact hmember

/-- A host that is to join through the recorded leader, and at first is refused. -/
def refused : World :=
  { trial with
    localId := none
    localHostname := "host-3"
    tables := [("leaders", [Records.leaderRow ⟨.v4 10 0 0 4, default⟩])]
    faults := [⟨"join(*", 0, some 1, .service (.fatal "swarm is locked")⟩] }

end World

end SwarmUpkeep
