import SwarmUpkeep.Proofs.World.Roster

/-!
# What a question does to the members

Members come and go by what the control loops ask for, and by themselves: effects that were put off
happen when they are due. Unless a member is to be demoted, a question that neither demotes nor
removes anybody leaves it in its role. A demotion that is answered is put off for a while, and a
removal leaves nobody of its identifier.
-/

namespace SwarmUpkeep

namespace World

variable {w w' : World}

/-! ## Effects -/

/-- The listing with the first ready manager as leader. -/
theorem electFirst_eq (members : List Member) :
    electFirst members = members ∨ ∃ before m after, members = before ++ m :: after ∧
      electFirst members = before ++ { m with isLeader := true } :: after := by
  induction members with
  | nil => exact .inl rfl
  | cons m rest ih =>
      unfold electFirst
      split
      · exact .inr ⟨[], m, rest, rfl, rfl⟩
      · rcases ih with hsame | ⟨before, first, after, hrest, helected⟩
        · exact .inl (by rw [hsame])
        · exact .inr ⟨m :: before, first, after, by rw [hrest]; rfl, by rw [helected]; rfl⟩

theorem elect_drifts (w : World) : Drifts w w.elect := by
  unfold elect
  split
  · exact .refl w
  rcases electFirst_eq w.members with hsame | ⟨before, first, after, hmembers, helected⟩
  · exact .of_eq hsame rfl rfl
  · have hlead : first.Becomes { first with isLeader := true } := ⟨rfl, rfl, rfl, fun h => h⟩
    refine .of_members ?_ ?_ ?_ (.refl _) (fun _ h => h) rfl
    · simp only [helected]
      rw [hmembers, List.map_append, List.map_append, List.map_cons, List.map_cons]
    · intro m' hm'
      simp only [helected, List.mem_append, List.mem_cons] at hm'
      simp only [hmembers, List.mem_append, List.mem_cons]
      rcases hm' with hm' | rfl | hm'
      · exact ⟨m', .inl hm', .refl m'⟩
      · exact ⟨first, .inr (.inl rfl), hlead⟩
      · exact ⟨m', .inr (.inr hm'), .refl m'⟩
    · intro m hm _
      simp only [hmembers, List.mem_append, List.mem_cons] at hm
      simp only [helected, List.mem_append, List.mem_cons]
      rcases hm with hm | rfl | hm
      · exact ⟨m, .inl hm, .refl m, rfl⟩
      · exact ⟨_, .inr (.inl rfl), hlead, rfl⟩
      · exact ⟨m, .inr (.inr hm), .refl m, rfl⟩

theorem effects_postpone (w : World) (delay : Nat) (effect : Effect) :
    (w.postpone delay effect).effects = w.effects ++ [effect] := by
  unfold effects postpone
  rw [List.map_append]
  rfl

theorem postpone_election_drifts (w : World) (delay : Nat) :
    Drifts w (w.postpone delay .election) := by
  refine .of_members rfl (fun m hm => ⟨m, hm, .refl m⟩) (fun m hm _ => ⟨m, hm, .refl m, rfl⟩) ?_ ?_
    rfl
  · unfold expected
    rw [effects_postpone, List.filterMap_append]
    exact .of_eq (List.append_nil _)
  · unfold Dooms
    intro id hid
    rw [effects_postpone, List.mem_append] at hid
    exact hid.elim (fun h => h) fun h => by cases List.mem_singleton.mp h

theorem demoteIn_drifts (w : World) (delay : Nat) (id : String) :
    Drifts { w with pending := (delay, .demotion id) :: w.pending }
      { w with members := demoteIn id w.members } := by
  have hbecomes : ∀ m : Member,
      m.Becomes (if m.id = id then { m with role := .worker, isLeader := false } else m) := by
    intro m
    split
    · exact ⟨rfl, rfl, rfl, fun h => by cases h⟩
    · exact .refl m
  refine .of_members ?_ ?_ ?_ (.refl _) (fun _ h => List.mem_cons_of_mem _ h) rfl
  · unfold demoteIn
    rw [List.map_map]
    exact List.map_congr_left fun m _ => (hbecomes m).id
  · intro m' hm'
    obtain ⟨m, hm, rfl⟩ := List.mem_map.mp hm'
    exact ⟨m, hm, hbecomes m⟩
  · intro m hm hspared
    have hne : m.id ≠ id := by
      rintro rfl
      exact hspared List.mem_cons_self
    exact ⟨m, List.mem_map.mpr ⟨m, hm, if_neg hne⟩, .refl m, rfl⟩

theorem demoteNow_drifts (w : World) (delay : Nat) (id : String) :
    Drifts { w with pending := (delay, .demotion id) :: w.pending } (w.demoteNow id) := by
  refine (demoteIn_drifts w delay id).trans ?_
  unfold demoteNow
  dsimp only
  split
  · exact .refl _
  · split
    · exact elect_drifts _
    · exact postpone_election_drifts _ _

theorem arrive_drifts (w : World) (delay : Nat) (m : Member) :
    Drifts { w with pending := (delay, .arrival m) :: w.pending } (w.arrive m) where
  count := Nat.le_refl _
  members m' hm' := by
    rcases List.mem_append.mp hm' with hm' | hm'
    · exact .inl ⟨m', hm', .refl m'⟩
    · rw [List.mem_singleton.mp hm']
      exact .inr (.inl List.mem_cons_self)
  expected id hid := .inl (List.mem_cons_of_mem _ hid)
  registered hw := by
    refine hw.of_perm (.of_eq ?_) (Nat.le_refl _)
    exact congrArg (List.map (·.id)) (List.append_assoc w.members [m] _)
  dooms id hid := List.mem_cons_of_mem _ hid
  stays m' hm' _ := ⟨m', List.mem_append_left _ hm', .refl m', rfl⟩

/-- What was to happen does so now. -/
theorem apply_drifts (w : World) (delay : Nat) (effect : Effect) :
    Drifts { w with pending := (delay, effect) :: w.pending } (w.apply effect) := by
  cases effect with
  | demotion id => exact demoteNow_drifts w delay id
  | election =>
      refine Drifts.trans ?_ (elect_drifts w)
      refine .of_members rfl (fun m hm => ⟨m, hm, .refl m⟩) (fun m hm _ => ⟨m, hm, .refl m, rfl⟩)
        (.refl _) (fun _ h => List.mem_cons_of_mem _ h) rfl
  | arrival m => exact arrive_drifts w delay m

theorem apply_postponed_drifts (w : World) (delay : Nat) (effect : Effect) :
    Drifts (w.postpone delay effect) (w.apply effect) := by
  refine Drifts.trans ?_ (apply_drifts w delay effect)
  refine .of_perm rfl ?_ rfl
  rw [effects_postpone]
  exact (List.perm_append_singleton effect w.effects).symm

theorem schedule_drifts (w : World) (delay : Nat) (effect : Effect) :
    Drifts (w.postpone delay effect) (w.schedule delay effect) := by
  unfold schedule
  split
  · exact apply_postponed_drifts w delay effect
  · exact .refl _

/-- Other effects that are still to happen have no part in one that happens now. -/
theorem apply_apart (w : World) (rest : List (Nat × Effect)) (effect : Effect) :
    { w with pending := rest ++ w.pending }.apply effect =
      { w.apply effect with pending := rest ++ (w.apply effect).pending } := by
  have helect : ∀ w : World, { w with pending := rest ++ w.pending }.elect =
      { w.elect with pending := rest ++ w.elect.pending } := by
    intro w
    unfold elect hasLeader
    dsimp only
    split <;> rfl
  cases effect with
  | demotion id =>
      simp only [apply, demoteNow]
      split
      · rfl
      · split
        · exact helect { w with members := demoteIn id w.members }
        · simp only [postpone, List.append_assoc]
  | election => exact helect w
  | arrival m => rfl

theorem foldl_apply_drifts (due : List (Nat × Effect)) (w : World) :
    Drifts { w with pending := due ++ w.pending }
      (due.foldl (fun w (_, effect) => w.apply effect) w) := by
  induction due generalizing w with
  | nil => exact .refl w
  | cons first rest ih =>
      refine Drifts.trans ?_ (ih (w.apply first.2))
      -- The rest of what is due may wait among what is pending while the first effect happens.
      rw [← apply_apart]
      exact apply_drifts { w with pending := rest ++ w.pending } first.1 first.2

/-- A listing counts down what is put off, and what is due by that happens. -/
theorem advance_drifts (w : World) : Drifts w w.advance := by
  unfold advance
  refine Drifts.trans ?_ (foldl_apply_drifts _ _)
  refine .of_perm rfl ?_ rfl
  -- What is due comes first now, which is only another order of the same effects.
  have hsplit := List.filter_append_perm (fun x : Nat × Effect => decide (x.1 = 0))
    (w.pending.map fun x => (x.1 - 1, x.2))
  have heffects := hsplit.map (·.2)
  rw [List.map_map] at heffects
  simp only [effects, ne_eq, decide_not]
  exact heffects

/-! ## New nodes -/

/-- A node with a new identifier is to arrive. -/
theorem expect_drifts (w : World) (delay : Nat) {m : Member} (hid : m.id = w.newId.1) :
    Drifts w (w.newId.2.postpone delay (.arrival m)) := by
  have hnew : w.IsNew m.id := ⟨w.nodeCount + 1, Nat.lt_succ_self _, hid⟩
  have hexpected : (w.newId.2.postpone delay (.arrival m)).expected = w.expected ++ [m] := by
    unfold expected
    rw [effects_postpone, List.filterMap_append]
    rfl
  have hids : (w.newId.2.postpone delay (.arrival m)).ids = w.ids ++ [m.id] := by
    unfold ids
    rw [hexpected, ← List.append_assoc, List.map_append]
    rfl
  exact
    { count := Nat.le_succ _
      members := fun m' hm' => .inl ⟨m', hm', .refl m'⟩
      expected := fun id hid => by
        rw [hexpected, List.map_append, List.mem_append] at hid
        refine hid.imp_right fun hlast => ?_
        rw [List.mem_singleton.mp hlast]
        exact hnew
      registered := fun hw => by
        refine ⟨?_, ?_⟩
        · rw [hids, List.nodup_append]
          refine ⟨hw.nodup, List.pairwise_singleton _ _, ?_⟩
          rintro id hold _ hlast rfl
          exact hw.known _ hold (List.mem_singleton.mp hlast ▸ hnew)
        · rw [hids]
          rintro id hgiven ⟨n, hn, rfl⟩
          -- The numbers that are left to give out are larger than that of the new node.
          rcases List.mem_append.mp hgiven with hold | hlast
          · exact hw.known _ hold ⟨n, Nat.lt_of_succ_lt hn, rfl⟩
          · have hlast : n = w.nodeCount + 1 :=
              nthId_injective ((List.mem_singleton.mp hlast).trans hid)
            exact absurd hn (hlast ▸ Nat.lt_irrefl _)
      dooms := fun id hdoomed => by
        unfold Dooms at hdoomed
        rw [effects_postpone, List.mem_append] at hdoomed
        exact hdoomed.elim (fun h => h) fun h => by cases List.mem_singleton.mp h
      stays := fun m' hm' _ => ⟨m', hm', .refl m', rfl⟩ }

theorem finishReimage_drifts (w : World) (set machine : String) :
    Drifts w (w.finishReimage set machine) := by
  unfold finishReimage
  split
  · exact .refl w
  · split
    · exact .refl w
    · dsimp only
      split
      · exact .of_eq rfl rfl rfl
      · refine Drifts.trans ?_ (schedule_drifts _ _ _)
        refine Drifts.trans ?_ (expect_drifts _ _ rfl)
        exact .of_eq rfl rfl rfl

theorem haunt_drifts (w : World) (role : Role) (ghosts : List Ghost) :
    Drifts w (w.haunt role ghosts) := by
  induction ghosts generalizing w with
  | nil => exact .refl w
  | cons ghost rest ih =>
      refine Drifts.trans ?_ (ih _)
      exact (expect_drifts w 0 rfl).trans (apply_postponed_drifts _ 0 (.arrival _))

/-! ## Services -/

theorem start_drifts (w : World) (plan : Option Plan) (reimaged : Option (String × String)) :
    Drifts w (w.start plan reimaged).2 := by
  unfold start
  split
  · split
    · exact finishReimage_drifts w _ _
    · exact .refl w
  · exact .of_eq rfl rfl rfl

theorem statusOf_drifts (w : World) (name : String) : Drifts w (w.statusOf name).2 := by
  unfold statusOf
  split
  · exact .refl w
  · split
    · exact .of_eq rfl rfl rfl
    · split
      · exact .refl w
      · exact .refl w
      · refine Drifts.trans ?_ (finishReimage_drifts _ _ _)
        exact .of_eq rfl rfl rfl

theorem started_drifts (w : World) (call : ProviderCall) (reimaged : Option (String × String)) :
    Drifts w (w.started call reimaged).2 :=
  start_drifts w _ reimaged

theorem provider_drifts (w : World) (call : ProviderCall) : Drifts w (w.provider call).2 := by
  cases call with
  | machines set => simp only [provider]; split <;> exact .refl w
  | interfaces set => simp only [provider]; split <;> exact .refl w
  | view set machine => simp only [provider]; split <;> exact .refl w
  | capacity set => simp only [provider]; split <;> exact .refl w
  | deployment name => simp only [provider]; split <;> exact .refl w
  | updateModel set machine =>
      simp only [provider]
      split
      · exact started_drifts w _ _
      · exact .refl w
  | reimage set machine =>
      simp only [provider]
      split
      · exact (haunt_drifts w _ _).trans (started_drifts _ _ _)
      · exact .refl w
  | delete set machine =>
      simp only [provider]
      split
      · refine Drifts.trans ?_ (started_drifts _ _ _)
        exact .of_eq rfl rfl rfl
      · exact .refl w
  | setCapacity set n =>
      simp only [provider]
      split
      · refine Drifts.trans ?_ (started_drifts _ _ _)
        exact .of_eq rfl rfl rfl
      · exact .refl w
  | updateDeployment name template parameters =>
      refine Drifts.trans ?_ (started_drifts _ _ _)
      exact .of_eq rfl rfl rfl
  | status operation =>
      cases operation with
      | done => exact .refl w
      | pending name => exact statusOf_drifts w name

theorem queue_drifts (w : World) (call : QueueCall) : Drifts w (w.queue call).2 := by
  rw [queue_eq]
  exact .of_eq rfl rfl rfl

theorem table_drifts (w : World) (call : TableCall) : Drifts w (w.table call).2 := by
  cases call with
  | delete table partition key => simp only [World.table]; split <;> exact .of_eq rfl rfl rfl
  | get table partition key => exact .refl w
  | upsert table row => exact .of_eq rfl rfl rfl
  | query table partition => exact .refl w

theorem addon_drifts (w : World) (call : AddonCall) : Drifts w (w.addon call).2 := by
  cases call <;> exact .refl w

theorem probe_drifts (w : World) (addr : Address) : Drifts w (w.probe addr).2 := by
  unfold probe
  split <;> exact .of_eq rfl rfl rfl

theorem noted_drifts (w : World) (text : String) : Drifts w (w.noted text) := by
  rw [noted_eq]
  exact .of_eq rfl rfl rfl

end World

/-- A question that neither demotes nor removes anybody, takes no machine away, and does not have
this host leave or join. -/
def Call.IsCalm : Call → Prop
  | .swarm _ (.demote _) => False
  | .swarm _ (.remove _) => False
  | .swarm _ .leave => False
  | .swarm _ (.join _ _) => False
  | .provider (.delete _ _) => False
  | _ => True

theorem Call.IsCalm.isWork {c : Call} (h : c.IsCalm) (hqueue : ∀ call, c ≠ .queue call) :
    c.IsWork := by
  unfold IsCalm at h
  unfold IsWork
  split <;> simp_all

theorem Call.IsQuiet.isCalm {c : Call} (h : c.IsQuiet) : c.IsCalm := by
  unfold IsQuiet at h
  unfold IsCalm
  split <;> simp_all

namespace World

variable {w w' : World}

theorem swarm_drifts (w : World) {call : SwarmCall} {engine : Engine}
    (h : (Call.swarm engine call).IsCalm) : Drifts w (w.swarm call).2 := by
  cases call with
  | members role => exact advance_drifts w
  | inspect id => simp only [swarm]; split <;> exact .refl w
  | localId => exact .refl w
  | joinTokens => exact .refl w
  | demote id => exact h.elim
  | remove id => exact h.elim
  | leave => exact h.elim
  | join remote token => exact h.elim

theorem respond_drifts {c : Call} (h : c.IsCalm) : Drifts w (w.respond c).2 := by
  cases c with
  | swarm engine call =>
      have hnoted := noted_drifts w (engine.text ++ call.text)
      exact respond_swarm_leaves hnoted (hnoted.trans (swarm_drifts _ h))
  | provider call =>
      have hnoted := noted_drifts w call.text
      exact respond_provider_leaves (fun _ => .refl w) hnoted (hnoted.trans (provider_drifts _ call))
  | queue call =>
      have hnoted := noted_drifts w call.text
      exact respond_queue_leaves hnoted (hnoted.trans (queue_drifts _ call))
  | table call =>
      have hnoted := noted_drifts w call.text
      exact respond_table_leaves hnoted (hnoted.trans (table_drifts _ call))
  | addon call =>
      have hnoted := noted_drifts w call.text
      exact respond_addon_leaves hnoted (hnoted.trans (addon_drifts _ call))
  | template url =>
      rw [respond_template]
      exact noted_drifts w _
  | probe addr =>
      refine Drifts.trans ?_ (probe_drifts _ addr)
      exact .of_eq rfl rfl rfl
  | reach addr => exact .of_eq rfl rfl rfl
  | pause milliseconds => exact .of_eq rfl rfl rfl
  | now => exact .of_eq rfl rfl rfl

theorem respond_calm_layout {c : Call} (h : c.IsCalm) : (w.respond c).2.layout = w.layout := by
  by_cases hqueue : ∃ call, c = .queue call
  · obtain ⟨call, rfl⟩ := hqueue
    exact (respond_queue_own w call).2
  · exact (respond_stirs (h.isWork fun call hcall => hqueue ⟨call, hcall⟩)).layout

/-- A listing of a role lists those that are members once it has been answered. -/
theorem members_answer {role : Role} {members : List Member}
    (h : w.respond (.swarm .here (.members (some role))) = (.ok members, w')) :
    members = w'.members.filter fun m => m.role = role := by
  cases hstruck : w.isStruck (Engine.here.text ++ (SwarmCall.members (some role)).text) with
  | true =>
      obtain ⟨e, heq⟩ := respond_swarm_of_struck hstruck
      rw [heq] at h
      cases h
  | false =>
      rw [respond_swarm_of_spared hstruck] at h
      cases h
      rfl

/-- A demotion is put off for a while, or it fails and nothing happens. -/
theorem demote_answers {engine : Engine} {id : String} {answer : Except ServiceError Unit}
    (h : w.respond (.swarm engine (.demote id)) = (answer, w')) :
    (∃ e, answer = .error e ∧ Drifts w w') ∨
      (answer = .ok () ∧ (∃ m ∈ w.members, m.id = id) ∧
        ∃ delay, Drifts (w.postpone delay (.demotion id)) w') := by
  have hnoted := noted_drifts w (engine.text ++ (SwarmCall.demote id).text)
  cases hstruck : w.isStruck (engine.text ++ (SwarmCall.demote id).text) with
  | true =>
      obtain ⟨e, heq⟩ := respond_swarm_of_struck hstruck
      rw [heq] at h
      cases h
      exact .inl ⟨e, rfl, hnoted⟩
  | false =>
      rw [respond_swarm_of_spared hstruck] at h
      simp only [swarm] at h
      rw [noted_eq] at h hnoted
      split at h
      next m hfound =>
        cases h
        refine .inr ⟨rfl, ⟨m, List.mem_of_find?_eq_some hfound, ?_⟩, w.knobs.demoteDelay, ?_⟩
        · simpa using List.find?_some hfound
        · refine Drifts.trans ?_ (schedule_drifts _ _ _)
          exact .of_eq rfl rfl rfl
      next =>
        cases h
        exact .inl ⟨_, rfl, hnoted⟩

/-- Of a removal nobody of its identifier is left, or it fails and nothing happens. -/
theorem remove_answers {engine : Engine} {id : String} {answer : Except ServiceError Unit}
    (h : w.respond (.swarm engine (.remove id)) = (answer, w')) :
    (∃ e, answer = .error e ∧ Drifts w w') ∨
      (answer = .ok () ∧
        Drifts { w with members := w.members.filter fun m => m.id ≠ id } w') := by
  have hnoted := noted_drifts w (engine.text ++ (SwarmCall.remove id).text)
  cases hstruck : w.isStruck (engine.text ++ (SwarmCall.remove id).text) with
  | true =>
      obtain ⟨e, heq⟩ := respond_swarm_of_struck hstruck
      rw [heq] at h
      cases h
      exact .inl ⟨e, rfl, hnoted⟩
  | false =>
      rw [respond_swarm_of_spared hstruck] at h
      simp only [swarm] at h
      rw [noted_eq] at h hnoted
      split at h
      next =>
        cases h
        exact .inr ⟨rfl, .of_eq rfl rfl rfl⟩
      next =>
        cases h
        exact .inl ⟨_, rfl, hnoted⟩

/-! ## Demotions and removals -/

theorem postpone_demotion_follows (w : World) (delay : Nat) (id : String) :
    Follows w (w.postpone delay (.demotion id)) := by
  have hexpected : (w.postpone delay (.demotion id)).expected = w.expected := by
    unfold expected
    rw [effects_postpone, List.filterMap_append]
    exact List.append_nil _
  refine ⟨Nat.le_refl _, fun m hm => .inl ⟨m, hm, .refl m⟩, fun id hid => ?_, fun hw => ?_⟩
  · exact .inl (hexpected ▸ hid)
  · refine hw.of_perm (.of_eq ?_) (Nat.le_refl _)
    unfold ids
    rw [hexpected]
    rfl

theorem remove_follows (w : World) (id : String) :
    Follows w { w with members := w.members.filter fun m => m.id ≠ id } := by
  refine ⟨Nat.le_refl _, fun m hm => .inl ⟨m, (List.mem_filter.mp hm).1, .refl m⟩,
    fun _ hid => .inl hid, fun hw => ?_⟩
  have hsub : ({ w with members := w.members.filter fun m => m.id ≠ id } : World).ids.Sublist
      w.ids := by
    exact (List.filter_sublist.append (.refl _)).map _
  exact ⟨hw.nodup.sublist hsub, fun id hid => hw.known id (hsub.subset hid)⟩

end World

end SwarmUpkeep
