import SwarmUpkeep.Proofs.World.Eviction

/-!
# What a reconciliation leaves

In a world where nothing has been put off and no fault is to come, a reconciliation removes exactly
the members of its role that have no machine and are not ready, and leaves everything else as it
was, but that a leader is elected where nobody leads after a demotion. What the demotions have put
off is about members who are gone, or is an election; so a second reconciliation finds nobody to
remove and spares the same members as the first.
-/

namespace SwarmUpkeep.World

open Attempt Control

variable {w w' origin : World} {role : Role} {config : Config} {set : String} {s : Traced}

/-! ## Members apart from who leads -/

/-- What is told of members without their lead can be told from the others like them. -/
theorem map_filter_of_plain {α : Type} {members members' : List Member}
    (h : members'.map plain = members.map plain) {keep : Member → Bool} {tell : Member → α}
    (hkeep : ∀ m, keep (plain m) = keep m) (htell : ∀ m, tell (plain m) = tell m) :
    (members'.filter keep).map tell = (members.filter keep).map tell := by
  have hplain : ∀ members : List Member,
      (members.filter keep).map tell = ((members.map plain).filter keep).map tell := by
    intro members
    rw [List.filter_map, List.map_map]
    have hkept : keep ∘ plain = keep := funext hkeep
    have htold : tell ∘ plain = tell := funext htell
    rw [hkept, htold]
  rw [hplain members', h, ← hplain members]

/-! ## What has been put off -/

/-- The effect is an election or the demotion of somebody who is not there. -/
def Hollow (members : List Member) (effect : Effect) : Prop :=
  effect = .election ∨ ∃ id, effect = .demotion id ∧ ∀ m ∈ members, m.id ≠ id

theorem demoteIn_absent {id : String} {members : List Member} (h : ∀ m ∈ members, m.id ≠ id) :
    demoteIn id members = members := by
  unfold demoteIn
  rw [List.map_congr_left fun m hm => if_neg (h m hm), List.map_id']

theorem apply_hollow {effect : Effect} (h : Hollow w.members effect) :
    (w.apply effect).members.map plain = w.members.map plain := by
  rcases h with rfl | ⟨id, rfl, habsent⟩
  · rw [apply, elect_eq]
    exact settle_plain w.members
  · rw [apply, demoteNow, demoteIn_absent habsent]
    dsimp only
    split
    · rfl
    · split
      · rw [elect_eq]
        exact settle_plain w.members
      · rfl

/-- Who is meant by an effect does not depend on who leads. -/
theorem Hollow.of_plain {members members' : List Member} {effect : Effect}
    (h : Hollow members effect) (hplain : members'.map plain = members.map plain) :
    Hollow members' effect := by
  refine h.imp_right ?_
  rintro ⟨id, rfl, habsent⟩
  refine ⟨id, rfl, fun m' hm' => ?_⟩
  have hmem : plain m' ∈ members.map plain := hplain ▸ List.mem_map_of_mem hm'
  obtain ⟨m, hm, hsame⟩ := List.mem_map.mp hmem
  have hid : (plain m).id = (plain m').id := congrArg Member.id hsame
  intro hid'
  exact habsent m hm (hid.trans hid')

theorem foldl_apply_hollow (due : List (Nat × Effect)) (w : World)
    (h : ∀ x ∈ due, Hollow w.members x.2) :
    (due.foldl (fun w (_, effect) => w.apply effect) w).members.map plain =
      w.members.map plain := by
  induction due generalizing w with
  | nil => rfl
  | cons first rest ih =>
      obtain ⟨hfirst, hrest⟩ := List.forall_mem_cons.mp h
      have happlied := apply_hollow hfirst
      rw [List.foldl_cons, ih _ fun x hx => (hrest x hx).of_plain happlied, happlied]

/-- Where nothing else has been put off, the next listing shows the same members, maybe with
another leader. -/
theorem advance_hollow (h : ∀ x ∈ w.pending, Hollow w.members x.2) :
    w.advance.members.map plain = w.members.map plain := by
  unfold advance
  refine foldl_apply_hollow _ _ fun x hx => ?_
  obtain ⟨old, hold, rfl⟩ := List.mem_map.mp (List.mem_filter.mp hx).1
  exact h old hold

/-! ## One reconciliation -/

/-- The members of a role that have no machine in a scale set. -/
def driftedFrom (s : ScaleSet) (role : Role) (members : List Member) : List Member :=
  Drift.drifted (Resolution.addressed s.machines s.interfaces) (ofRole members (some role))

/-- Those of them that are to go. -/
def stale (s : ScaleSet) (role : Role) (members : List Member) : List Member :=
  (driftedFrom s role members).filter fun m => !m.status.isReady

/-- Those of them that are spared. -/
def orphaned (s : ScaleSet) (role : Role) (members : List Member) : List Member :=
  (driftedFrom s role members).filter fun m => m.status.isReady

variable {found : ScaleSet} {members : List Member}

theorem mem_of_stale {m : Member} (h : m ∈ stale found role members) :
    m ∈ members ∧ m.status.isReady = false := by
  obtain ⟨hdrifted, hready⟩ := List.mem_filter.mp h
  exact ⟨(List.mem_filter.mp (List.mem_filter.mp hdrifted).1).1, by simpa using hready⟩

theorem reconcile_traced (hids : ∀ w, Lapses s.1 w → (w.advance.members.map (·.id)).Nodup)
    (hlock : Keyed.find? s.1.queues config.swarm.upgradeQueue = none)
    (hset : Keyed.find? s.1.sets set = some found) :
    (Drift.reconcile config set role).Upholds undisturbedRules
      (fun outcome s' => ∃ w, Lapses s.1 w ∧
        outcome = .reconciled ⟨set, (stale found role w.advance.members).map (·.hostname),
          (orphaned found role w.advance.members).map (·.hostname)⟩ ∧
        Evicted w.advance role (stale found role w.advance.members) s'.1 ∧
        ∃ steps, s'.changes = s.changes ++ steps ∧
          steps.map (·.2) = (stale found role w.advance.members).flatMap (evictionCalls role))
      (fun _ _ => False) s := by
  refine Upholds.bind (isHeld_traced config.swarm.upgradeQueue s).mapError ?_
  rintro held s' ⟨rfl, hidles⟩
  rw [hlock, Option.isSome_none]
  simp only [Bool.false_eq_true, if_false]
  have hset' : Keyed.find? s'.1.sets set = some found := by rw [hidles.1.sets, hset]
  refine Upholds.bind (machineTable_traced hset').mapError ?_
  rintro table s' ⟨rfl, hidles'⟩
  replace hidles := hidles.trans hidles'
  -- From here on it is the world after what was due that counts: that one has been listed.
  refine Upholds.bind (members_traced role s').mapError ?_
  rintro listed s' ⟨w, hlapses, hadvanced, rfl, hchanges⟩
  replace hlapses := hidles.1.trans hlapses
  rw [List.partition_eq_filter_filter]
  have hready : ∀ m ∈ stale found role w.advance.members, ∀ m' ∈ w.advance.members,
      m'.id = m.id → m'.status.isReady = false := by
    intro m hm m' hm' hid
    obtain ⟨hmember, hready⟩ := mem_of_stale hm
    rw [eq_of_id (hids w hlapses) hm' hmember hid]
    exact hready
  have hstart : Evicted w.advance role [] s'.1 := hadvanced ▸ .start w.advance role
  refine Upholds.bind (evictions_traced hready hstart).mapError ?_
  rintro _ s'' ⟨hevicted, steps, hchanges', hcalls⟩
  refine ⟨w, hlapses, rfl, hevicted, steps, ?_, hcalls⟩
  rw [hchanges', hchanges, hidles.2]

/-! ## Two reconciliations -/

/-- The identifiers of the members do not depend on who leads. -/
theorem ids_of_plain {members' : List Member} (h : members'.map plain = members.map plain) :
    members'.map (·.id) = members.map (·.id) := by
  have hids : ∀ members : List Member, members.map (·.id) = (members.map plain).map (·.id) := by
    intro members
    rw [List.map_map]
    rfl
  rw [hids members', h, ← hids members]

/-- Who of the members has no machine, and of these whom a condition holds. -/
theorem driftedFrom_eq (found : ScaleSet) (members : List Member) (keep : Member → Bool) :
    (driftedFrom found role members).filter keep = members.filter fun m =>
      keep m && !((Resolution.addressed found.machines found.interfaces).any
        fun row => row.privateIp = m.addr) && decide (m.role = role) := by
  simp only [driftedFrom, Drift.drifted, ofRole, List.filter_filter, Bool.and_assoc]

/-- The members who are left when the stale ones are gone. -/
def spared (found : ScaleSet) (role : Role) (members : List Member) : List Member :=
  members.filter fun m => !(stale found role members).any fun g => g.id = m.id

/-- The stale members are known by their identifiers. -/
theorem any_stale (hids : (members.map (·.id)).Nodup) {m : Member} (hm : m ∈ members) :
    ((stale found role members).any fun g => g.id = m.id) =
      decide (m ∈ stale found role members) := by
  rw [Bool.eq_iff_iff, List.any_eq_true, decide_eq_true_eq]
  constructor
  · rintro ⟨g, hg, hid⟩
    have hsame : g = m := eq_of_id hids (mem_of_stale hg).1 hm (of_decide_eq_true hid)
    exact hsame ▸ hg
  · exact fun hstale => ⟨m, hstale, by simp⟩

/-- Nobody who is left is stale. -/
theorem stale_spared {members' : List Member}
    (h : members'.map plain = (spared found role members).map plain) :
    stale found role members' = [] := by
  have hids : (stale found role members').map (·.id) =
      ((spared found role members).filter fun m => !m.status.isReady &&
        !((Resolution.addressed found.machines found.interfaces).any
          fun row => row.privateIp = m.addr) && decide (m.role = role)).map (·.id) := by
    rw [stale, driftedFrom_eq]
    exact map_filter_of_plain h (fun _ => rfl) fun _ => rfl
  have hnobody : ((spared found role members).filter fun m => !m.status.isReady &&
      !((Resolution.addressed found.machines found.interfaces).any
        fun row => row.privateIp = m.addr) && decide (m.role = role)) = [] := by
    rw [List.filter_eq_nil_iff]
    intro m hm hstale
    obtain ⟨hmember, hspared⟩ := List.mem_filter.mp hm
    have hmem : m ∈ stale found role members := by
      rw [stale, driftedFrom_eq]
      exact List.mem_filter.mpr ⟨hmember, hstale⟩
    have hany : ((stale found role members).any fun g => g.id = m.id) = true :=
      List.any_eq_true.mpr ⟨m, hmem, by simp⟩
    simp [hany] at hspared
  rw [hnobody] at hids
  exact List.map_eq_nil_iff.mp hids

/-- Those who have no machine but are ready are still there. -/
theorem orphaned_spared {members' : List Member} (hids : (members.map (·.id)).Nodup)
    (h : members'.map plain = (spared found role members).map plain) :
    (orphaned found role members').map (·.hostname) =
      (orphaned found role members).map (·.hostname) := by
  rw [orphaned, driftedFrom_eq, orphaned, driftedFrom_eq,
    map_filter_of_plain h (fun _ => rfl) fun _ => rfl, spared, List.filter_filter]
  congr 1
  apply List.filter_congr
  intro m hm
  rw [any_stale hids hm]
  cases hready : m.status.isReady with
  | false => simp
  | true =>
      have hkept : m ∉ stale found role members := by
        intro hstale
        have hdown := (mem_of_stale hstale).2
        rw [hready] at hdown
        cases hdown
      simp [hkept]

/-- What has been put off by the evictions is about nobody who is left. -/
theorem Evicted.hollow (hpending : w.pending = [])
    (h : Evicted w role (stale found role w.members) w') :
    ∀ x ∈ w'.pending, Hollow (spared found role w.members) x.2 := by
  obtain ⟨pending, hputOff, hleft⟩ := h
  intro x hx
  rw [hleft.pending] at hx
  rcases hputOff x hx with hold | helection | ⟨g, hg, hdemotion⟩
  · rw [hpending] at hold
    exact absurd hold List.not_mem_nil
  · exact .inl helection
  · refine .inr ⟨g.id, hdemotion, fun m hm hid => ?_⟩
    obtain ⟨_, hspared⟩ := List.mem_filter.mp hm
    have hany : ((stale found role w.members).any fun g => g.id = m.id) = true :=
      List.any_eq_true.mpr ⟨g, hg, by simp [hid]⟩
    simp [hany] at hspared

theorem first_reconcile (role : Role) (hpending : w.pending = []) (hids : (w.members.map (·.id)).Nodup)
    (hlock : Keyed.find? w.queues config.swarm.upgradeQueue = none)
    (hset : Keyed.find? w.sets set = some found) :
    (Drift.reconcile config set role).Upholds undisturbedRules
      (fun outcome s' => outcome = .reconciled ⟨set, (stale found role w.members).map (·.hostname),
          (orphaned found role w.members).map (·.hostname)⟩ ∧
        Evicted w role (stale found role w.members) s'.1 ∧
        s'.changes.map (·.2) = (stale found role w.members).flatMap (evictionCalls role))
      (fun _ _ => False) (w, []) := by
  have hstill : ∀ w', Lapses w w' → w'.advance = w' := fun w' hlapses =>
    advance_of_none (hlapses.pending.trans hpending)
  refine (reconcile_traced (s := (w, [])) (fun w' hlapses => ?_) hlock hset).mono ?_ fun _ _ h => h
  · rw [hstill w' hlapses, hlapses.members]
    exact hids
  · rintro outcome s' ⟨w', hlapses, houtcome, hevicted, steps, hchanges, hcalls⟩
    rw [hstill w' hlapses] at houtcome hevicted hcalls
    rw [hlapses.members] at houtcome hevicted hcalls
    refine ⟨houtcome, hevicted.of_lapses hlapses, ?_⟩
    rw [hchanges]
    exact hcalls

/-- After a reconciliation another one finds nobody to remove. -/
theorem second_reconcile (hpending : w.pending = []) (hids : (w.members.map (·.id)).Nodup)
    (hlock : Keyed.find? w.queues config.swarm.upgradeQueue = none)
    (hset : Keyed.find? w.sets set = some found)
    (hevicted : Evicted w role (stale found role w.members) w') :
    (Drift.reconcile config set role).Upholds undisturbedRules
      (fun outcome s' => outcome = .reconciled ⟨set, [],
          (orphaned found role w.members).map (·.hostname)⟩ ∧ s'.changes = [])
      (fun _ _ => False) (w', []) := by
  -- What the first one has put off may come due by now, but it is about nobody who is left.
  have hlisted : ∀ w'', Lapses w' w'' →
      w''.advance.members.map plain = (spared found role w.members).map plain := by
    intro w'' hlapses
    have hsame : w''.members.map plain = (spared found role w.members).map plain := by
      rw [hlapses.members]
      exact hevicted.leaves
    rw [advance_hollow, hsame]
    intro x hx
    rw [hlapses.pending] at hx
    exact (hevicted.hollow hpending x hx).of_plain hsame
  have hframe : w'.queues = w.queues ∧ w'.sets = w.sets := by
    obtain ⟨pending, _, hleft⟩ := hevicted
    exact ⟨hleft.queues, hleft.sets⟩
  rw [← hframe.1] at hlock
  rw [← hframe.2] at hset
  refine (reconcile_traced (s := (w', [])) (fun w'' hlapses => ?_) hlock hset).mono ?_
    fun _ _ h => h
  · rw [ids_of_plain (hlisted w'' hlapses)]
    exact hids.sublist (List.filter_sublist.map _)
  · rintro outcome s' ⟨w'', hlapses, rfl, _, steps, hchanges, hcalls⟩
    have hnobody := stale_spared (hlisted w'' hlapses)
    rw [hnobody] at hcalls ⊢
    rw [orphaned_spared hids (hlisted w'' hlapses)]
    refine ⟨rfl, ?_⟩
    rw [hchanges, List.map_eq_nil_iff.mp hcalls]
    rfl

/-- In a world without faults where nothing has been put off, and where nobody holds the lock, a
reconciliation evicts just the members of its role who have no machine in the scale set and are not
ready, and reports them and those who are ready. Everything else is as it was but for a leader where
nobody leads any more. A second reconciliation changes nothing and spares the same members. -/
theorem reconcile_settles (config : Config) (set : String) (role : Role)
    (hpending : w.pending = []) (hfaults : w.faults = [])
    (hids : (w.members.map (·.id)).Nodup)
    (hlock : Keyed.find? w.queues config.swarm.upgradeQueue = none)
    (hset : Keyed.find? w.sets set = some found) :
    let reconcile := Drift.reconcile config set role
    let gone := stale found role w.members
    let spared := (orphaned found role w.members).map (·.hostname)
    let left := (w.run reconcile).2
    (w.run reconcile).1 = .ok (.reconciled ⟨set, gone.map (·.hostname), spared⟩) ∧
      ((reconcile.visits respond w).filter fun v => v.2.mutates).map (·.2) =
        gone.flatMap (evictionCalls role) ∧
      Lapses { w with
        members := without w.knobs role (fun m => decide (m ∈ gone)) w.members
        pending := left.pending } left ∧
      (∀ x ∈ left.pending, x.2 = .election ∨ ∃ m ∈ gone, x.2 = .demotion m.id) ∧
      (left.run reconcile).1 = .ok (.reconciled ⟨set, [], spared⟩) ∧
      ((reconcile.visits respond left).filter fun v => v.2.mutates) = [] := by
  intro reconcile gone spared left
  obtain ⟨hhit, hfaultless⟩ := run_faultless (p := reconcile) hfaults
  obtain ⟨outcome, s, hresult, hleft, hvisits, rfl, hevicted, hchanges⟩ :=
    succeeds_of_traced (first_reconcile role hpending hids hlock hset) hhit
  rw [Traced.changes, hvisits] at hchanges
  rw [hleft] at hevicted
  obtain ⟨hhit', _⟩ := run_faultless (p := reconcile) hfaultless
  obtain ⟨outcome', s', hresult', _, hvisits', rfl, hchanges'⟩ :=
    succeeds_of_traced (second_reconcile hpending hids hlock hset hevicted) hhit'
  rw [Traced.changes, hvisits'] at hchanges'
  obtain ⟨pending, hputOff, hlapses⟩ := hevicted
  rw [without_congr fun m hm => any_stale hids hm] at hlapses
  rw [hlapses.pending]
  refine ⟨hresult, hchanges, hlapses, fun x hx => ?_, hresult', hchanges'⟩
  refine (hputOff x hx).resolve_left ?_
  rw [hpending]
  exact List.not_mem_nil

/-- The leader is down and has no machine, and of the two managers that are ready one has none. -/
def adrift : World :=
  { trial with
    members :=
      [⟨"m1", "host-1", .v4 10 0 0 5, .manager, .down, true⟩,
        ⟨"m2", "host-2", .v4 10 0 0 6, .manager, .ready, false⟩,
        ⟨"m0", "host-0", .v4 10 0 0 4, .manager, .ready, false⟩] }

theorem adrift_settles :
    let reconcile := Drift.reconcile trialSite.config "managers" .manager
    let left := (adrift.run reconcile).2
    (adrift.run reconcile).1 = .ok (.reconciled ⟨"managers", ["host-1"], ["host-2"]⟩) ∧
      left.members =
        [⟨"m2", "host-2", .v4 10 0 0 6, .manager, .ready, true⟩,
          ⟨"m0", "host-0", .v4 10 0 0 4, .manager, .ready, false⟩] ∧
      (left.run reconcile).1 = .ok (.reconciled ⟨"managers", [], ["host-2"]⟩) := by
  intro reconcile left
  obtain ⟨hresult, _, hleft, _, hagain, _⟩ :=
    reconcile_settles (w := adrift) trialSite.config "managers" .manager (by rfl) (by rfl)
      (by decide) (by rfl) (by rfl)
  exact ⟨hresult, hleft.members, hagain⟩

/-- Nobody leads, and a manager is down and has no machine. -/
def leaderless : World :=
  { trial with
    members :=
      [⟨"m1", "host-1", .v4 10 0 0 5, .manager, .down, false⟩,
        ⟨"m0", "host-0", .v4 10 0 0 4, .manager, .ready, false⟩] }

/-- A leader is elected although nobody who led has been demoted. -/
theorem leaderless_elects :
    let reconcile := Drift.reconcile trialSite.config "managers" .manager
    (leaderless.members.map (·.isLeader)) = [false, false] ∧
      (leaderless.run reconcile).1 = .ok (.reconciled ⟨"managers", ["host-1"], []⟩) ∧
      (leaderless.run reconcile).2.members =
        [⟨"m0", "host-0", .v4 10 0 0 4, .manager, .ready, true⟩] := by
  decide +kernel

end SwarmUpkeep.World
