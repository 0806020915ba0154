import SwarmUpkeep.Proofs.Upkeep.Diagnosis
import SwarmUpkeep.Proofs.World.Provisioning
import SwarmUpkeep.Proofs.World.Traces

/-!
# How many machines there are to be

Deleting a machine leaves its scale set with one machine less to be; setting the capacity is the only
other way to change that number. A check deletes the dead machines one by one and makes up for all
of them at the end, so that a check that breaks off in between leaves the scale set smaller by what
it has deleted.
-/

namespace SwarmUpkeep

open Attempt Control

namespace Exchange

/-- A machine of a scale set has been deleted. -/
def deletes (set : String) : Exchange Surroundings → Bool
  | ⟨.provider (.delete asked _), .ok _⟩ => asked == set
  | _ => false

/-- The capacity of a scale set has been set. -/
def resizes (set : String) : Exchange Surroundings → Bool
  | ⟨.provider (.setCapacity asked _), .ok _⟩ => asked == set
  | _ => false

end Exchange

/-- A question that changes no capacity. -/
def Call.KeepsCapacity : Call → Prop
  | .provider (.delete _ _) => False
  | .provider (.setCapacity _ _) => False
  | _ => True

namespace Call

variable {c : Call} {set : String}

theorem KeepsCapacity.deletes (hc : c.KeepsCapacity) (answer : c.Answer) :
    Exchange.deletes set ⟨c, answer⟩ = false := by
  unfold KeepsCapacity at hc
  split at hc <;> simp_all [Exchange.deletes]

theorem KeepsCapacity.resizes (hc : c.KeepsCapacity) (answer : c.Answer) :
    Exchange.resizes set ⟨c, answer⟩ = false := by
  unfold KeepsCapacity at hc
  split at hc <;> simp_all [Exchange.resizes]

theorem IsSurvey.keepsCapacity (hc : c.IsSurvey) : c.KeepsCapacity := by
  unfold IsSurvey at hc
  unfold KeepsCapacity
  split at hc <;> simp_all

theorem IsGlance.keepsCapacity (hc : c.IsGlance) : c.KeepsCapacity := by
  unfold IsGlance at hc
  unfold KeepsCapacity
  split at hc <;> simp_all

end Call

namespace World

variable {w w' : World} {set name machine : String}

/-- How many machines a scale set is to have, if there is one. -/
def target? (w : World) (set : String) : Option Nat :=
  (Keyed.find? w.sets set).map (·.capacity)

theorem target?_of_sets (h : w'.sets = w.sets) : w'.target? = w.target? := by
  unfold target?
  rw [h]

theorem target?_set_self (w : World) (s : ScaleSet) :
    { w with sets := Keyed.set w.sets set s }.target? set = some s.capacity := by
  rw [target?, Keyed.find?_set_self]
  rfl

theorem target?_set_of_ne (w : World) (s : ScaleSet) (h : set ≠ name) :
    { w with sets := Keyed.set w.sets name s }.target? set = w.target? set := by
  unfold target?
  rw [Keyed.find?_set_of_ne _ _ h]

/-- A scale set may change in its machines. -/
theorem target?_set {s s' : ScaleSet} (h : Keyed.find? w.sets name = some s)
    (hcapacity : s'.capacity = s.capacity) :
    { w with sets := Keyed.set w.sets name s' }.target? = w.target? := by
  funext set
  by_cases hset : set = name
  · subst hset
    rw [target?_set_self, target?, h, hcapacity]
    rfl
  · exact target?_set_of_ne w s' hset

theorem finishReimage_target? (w : World) (set machine : String) :
    (w.finishReimage set machine).target? = w.target? := by
  unfold finishReimage
  split
  · rfl
  next s hset =>
    split
    · rfl
    next host hhost =>
      dsimp only
      split
      · exact target?_set hset rfl
      · exact (target?_of_sets (schedule_sets _ _ _)).trans (target?_set hset rfl)

theorem start_target? (w : World) (plan : Option Plan) (reimaged : Option (String × String)) :
    (w.start plan reimaged).2.target? = w.target? := by
  unfold start
  split
  · split
    · exact finishReimage_target? w _ _
    · rfl
  · rfl

theorem started_target? (w : World) (call : ProviderCall) (reimaged : Option (String × String)) :
    (w.started call reimaged).2.target? = w.target? :=
  start_target? w _ reimaged

/-- A world that starts an operation says so. -/
theorem started_eq (w : World) (call : ProviderCall) (reimaged : Option (String × String)) :
    ∃ operation, w.started call reimaged = (.ok operation, (w.started call reimaged).2) :=
  ⟨_, rfl⟩

theorem statusOf_target? (w : World) (operation : String) :
    (w.statusOf operation).2.target? = w.target? := by
  unfold statusOf
  split
  · rfl
  · split
    · rfl
    · split
      · rfl
      · rfl
      · exact finishReimage_target? _ _ _

theorem provider_target? (w : World) {call : ProviderCall}
    (h : (Call.provider call).KeepsCapacity) : (w.provider call).2.target? = w.target? := by
  cases call with
  | machines set => simp only [provider]; split <;> rfl
  | interfaces set => simp only [provider]; split <;> rfl
  | view set machine => simp only [provider]; split <;> rfl
  | capacity set => simp only [provider]; split <;> rfl
  | deployment name => simp only [provider]; split <;> rfl
  | updateModel set machine =>
      simp only [provider]
      split
      · exact started_target? w _ _
      · rfl
  | reimage set machine =>
      simp only [provider]
      split
      · exact (started_target? _ _ _).trans (target?_of_sets (haunt_sets w _ _))
      · rfl
  | delete set machine => exact h.elim
  | setCapacity set n => exact h.elim
  | updateDeployment name template parameters => exact started_target? _ _ _
  | status operation =>
      cases operation with
      | done => rfl
      | pending name => exact statusOf_target? w name

/-- A question that changes no capacity leaves all scale sets theirs. -/
theorem respond_target? {c : Call} (hc : c.KeepsCapacity) :
    (w.respond c).2.target? = w.target? := by
  by_cases hprovider : ∀ call, c ≠ .provider call
  · exact target?_of_sets (respond_sets hprovider)
  · simp only [ne_eq, not_forall, not_not] at hprovider
    obtain ⟨call, rfl⟩ := hprovider
    have hnoted : (w.noted call.text).target? = w.target? := target?_of_sets (noted_sets w _)
    exact respond_provider_leaves (motive := fun left => left.target? = w.target?) (fun _ => rfl)
      hnoted ((provider_target? _ hc).trans hnoted)

/-- A machine that is deleted leaves its scale set with one less to be. -/
theorem delete_target? {answer : Except ServiceError Operation}
    (h : w.respond (.provider (.delete set machine)) = (answer, w')) :
    match answer with
    | .ok _ => w'.target? set = (w.target? set).map (· - 1)
    | .error _ => w'.target? set = w.target? set := by
  have hnoted : (w.noted (ProviderCall.delete set machine).text).target? = w.target? :=
    target?_of_sets (noted_sets w _)
  rw [← hnoted]
  rcases provider_answers (fun hc => by cases hc) h with ⟨rfl, e, rfl⟩ | hserved
  · rfl
  · simp only [provider] at hserved
    split at hserved
    next s found hhost =>
      obtain ⟨operation, hstarted⟩ := started_eq _ _ _
      rw [hstarted] at hserved
      obtain ⟨rfl, rfl⟩ := Prod.mk.inj hserved
      dsimp only
      rw [started_target?, target?_set_self, target?, find?_of_host hhost]
      rfl
    next =>
      cases hserved
      rfl

/-- A capacity that is set is that of the scale set from then on. -/
theorem setCapacity_target? {n : Nat} {answer : Except ServiceError Operation}
    (h : w.respond (.provider (.setCapacity set n)) = (answer, w')) :
    match answer with
    | .ok _ => w'.target? set = some n
    | .error _ => w'.target? set = w.target? set := by
  have hnoted : (w.noted (ProviderCall.setCapacity set n).text).target? = w.target? :=
    target?_of_sets (noted_sets w _)
  rw [← hnoted]
  rcases provider_answers (fun hc => by cases hc) h with ⟨rfl, e, rfl⟩ | hserved
  · rfl
  · simp only [provider] at hserved
    split at hserved
    next s hset =>
      obtain ⟨operation, hstarted⟩ := started_eq _ _ _
      rw [hstarted] at hserved
      obtain ⟨rfl, rfl⟩ := Prod.mk.inj hserved
      dsimp only
      rw [started_target?, target?_set_self]
    next =>
      cases hserved
      rfl

/-- The capacity is told as it is. -/
theorem capacity_answer {n : Nat}
    (h : w.respond (.provider (.capacity set)) = (.ok n, w')) : w.target? set = some n := by
  have hnoted : (w.noted (ProviderCall.capacity set).text).target? = w.target? :=
    target?_of_sets (noted_sets w _)
  rw [← hnoted]
  rcases provider_answers (fun hc => by cases hc) h with ⟨_, e, he⟩ | hserved
  · cases he
  · simp only [provider] at hserved
    split at hserved
    next s hset =>
      cases hserved
      simp only [target?, hset, Option.map_some]
    next => cases hserved

/-! ## What a check has deleted -/

/-- So many machines of the scale set have been deleted, and nothing has made up for them. -/
structure Lacks (w : World) (set : String) (missing : Nat) (s : Traced) : Prop where
  deleted : s.told.countP (Exchange.deletes set) = missing
  unresized : s.told.any (Exchange.resizes set) = false
  target : s.1.target? set = (w.target? set).map (· - missing)

/-- The machines of the scale set that have been deleted have been made up for. -/
structure MadeUp (w : World) (set : String) (s : Traced) : Prop where
  resized : s.told.any (Exchange.resizes set) = true
  target : s.1.target? set = (w.target? set).map (max · (s.told.countP (Exchange.deletes set)))

/-- Where a check may break off. -/
def BreaksOff (w : World) (set : String) (s : Traced) : Prop :=
  (∃ missing, Lacks w set missing s) ∨ MadeUp w set s

variable {origin : World} {missing : Nat} {s : Traced} {config : Config} {role : Role}
variable {assumed : World → Call → Prop} {c : Call}

theorem Lacks.start (w : World) (set : String) : Lacks w set 0 (w, []) :=
  ⟨rfl, rfl, by simp⟩

/-- What neither deletes a machine nor sets the capacity leaves as many to be made up for. -/
theorem Lacks.answered {answer : c.Answer} {s' : Traced} (hs : Lacks origin set missing s)
    (hmove : (tracedRules assumed).moves s c answer s')
    (hdeletes : Exchange.deletes set ⟨c, answer⟩ = false)
    (hresizes : Exchange.resizes set ⟨c, answer⟩ = false)
    (htarget : s'.1.target? set = s.1.target? set) : Lacks origin set missing s' := by
  refine ⟨?_, ?_, htarget.trans hs.target⟩
  · rw [told_of_moves hmove, List.countP_append, hs.deleted]
    simp [hdeletes]
  · rw [told_of_moves hmove, List.any_append, hs.unresized]
    simp [hresizes]

theorem lacks_keeps (hc : c.KeepsCapacity) :
    (tracedRules assumed).Keeps (Lacks origin set missing) c := by
  refine traced_keeps fun s answer s' hs hmove =>
    hs.answered hmove (hc.deletes answer) (hc.resizes answer) ?_
  have hleft : s'.1 = (s.1.respond c).2 := (congrArg Prod.snd (answer_of_moves hmove)).symm
  rw [hleft, respond_target? hc]

theorem madeUp_keeps (hc : c.KeepsCapacity) :
    (tracedRules assumed).Keeps (MadeUp origin set) c := by
  apply traced_keeps
  intro s answer s' hs hmove
  have hleft : s'.1 = (s.1.respond c).2 := (congrArg Prod.snd (answer_of_moves hmove)).symm
  refine ⟨?_, ?_⟩
  · rw [told_of_moves hmove, List.any_append, hs.resized, Bool.true_or]
  · rw [hleft, respond_target? hc, hs.target, told_of_moves hmove, List.countP_append]
    simp [hc.deletes]

theorem keeping_lacks {ε α : Type} {x : Control ε α} (hx : x.Asks Call.KeepsCapacity)
    (hs : Lacks origin set missing s) :
    x.Upholds (tracedRules assumed) (fun _ => Lacks origin set missing)
      (fun _ => BreaksOff origin set) s :=
  (hx.keeps (fun _ => lacks_keeps) hs).monoError fun _ _ hs => .inl ⟨missing, hs⟩

/-- The deletion of a machine leaves one more to be made up for. -/
theorem delete_lacks (machine : String) (hs : Lacks origin set missing s) :
    (deleteMachine set machine).Upholds (tracedRules assumed)
      (fun _ => Lacks origin set (missing + 1)) (fun _ => BreaksOff origin set) s := by
  refine ⟨trivial, fun answer s' hmove => ?_⟩
  have htarget := delete_target? (answer_of_moves hmove)
  cases answer with
  | error e => exact .inl ⟨missing, hs.answered hmove rfl rfl htarget⟩
  | ok operation =>
      refine ⟨?_, ?_, ?_⟩
      · rw [told_of_moves hmove, List.countP_append, hs.deleted]
        simp [Exchange.deletes]
      · rw [told_of_moves hmove, List.any_append, hs.unresized]
        rfl
      · rw [htarget, hs.target, Option.map_map]
        rfl

theorem replace_lacks (members : List Member) (row : MachineAddress)
    (hs : Lacks origin set missing s) :
    (Health.replace config set role members row).Upholds (tracedRules assumed)
      (fun _ => Lacks origin set (missing + 1)) (fun _ => BreaksOff origin set) s := by
  have hevictions : ∀ there : List Member,
      (Attempt.each (fun m => Membership.evict m.id role) there).Asks Call.KeepsCapacity :=
    fun there => Asks.each fun m _ => Membership.evict_asks (fun _ => trivial) trivial
  refine Upholds.bind (keeping_lacks (hevictions _) hs).renamed fun _ s hs => ?_
  refine Upholds.bind (delete_lacks row.machineId hs).renamed fun operation s hs => ?_
  exact (keeping_lacks (Operation.await_asks trivial (fun _ => trivial) _ _) hs).renamed

/-- What is missing is made up for by raising the capacity from what it has become. -/
theorem scaleUp_madeUp (hs : Lacks origin set missing s) :
    (Health.scaleUp config set missing).Upholds (tracedRules assumed)
      (fun _ => MadeUp origin set) (fun _ => BreaksOff origin set) s := by
  have hread : (capacity set).Upholds (tracedRules assumed)
      (fun n s' => Lacks origin set missing s' ∧ s'.1.target? set = some n)
      (fun _ => BreaksOff origin set) s := by
    refine ⟨trivial, fun answer s' hmove => ?_⟩
    have hkeeps : (tracedRules assumed).Keeps (Lacks origin set missing)
        (.provider (.capacity set)) := lacks_keeps trivial
    have hlacks : Lacks origin set missing s' := (hkeeps s hs).2 answer s' hmove
    cases answer with
    | error e => exact .inl ⟨missing, hlacks⟩
    | ok n =>
        refine ⟨hlacks, ?_⟩
        rw [hlacks.target, ← hs.target]
        exact capacity_answer (answer_of_moves hmove)
  -- What is read is what the deletions have left, so that the sum is what there was at first,
  -- unless more were deleted than there were to be.
  refine Upholds.bind hread.renamed ?_
  rintro n s ⟨hs, hn⟩
  have hraise : (setCapacity set (n + missing)).Upholds (tracedRules assumed)
      (fun _ => MadeUp origin set) (fun _ => BreaksOff origin set) s := by
    refine ⟨trivial, fun answer s' hmove => ?_⟩
    have htarget := setCapacity_target? (answer_of_moves hmove)
    cases answer with
    | error e => exact .inl ⟨missing, hs.answered hmove rfl rfl htarget⟩
    | ok operation =>
        have hdeleted : s'.told.countP (Exchange.deletes set) = missing := by
          rw [told_of_moves hmove, List.countP_append, hs.deleted]
          rfl
        refine ⟨?_, ?_⟩
        · rw [told_of_moves hmove, List.any_append]
          simp [Exchange.resizes]
        · obtain ⟨before, hbefore, rfl⟩ := Option.map_eq_some_iff.mp (hs.target.symm.trans hn)
          rw [htarget, hdeleted, hbefore, Option.map_some, Nat.sub_add_eq_max]
  refine Upholds.bind hraise.renamed fun operation s hs => ?_
  have hawait : (operation.await config.timings.providerPolicy
      ("scale " ++ set ++ " to " ++ toString (n + missing))).Asks Call.KeepsCapacity :=
    Operation.await_asks trivial (fun _ => trivial) _ _
  refine Upholds.bind (Upholds.renamed ?_) fun _ s hs => hs
  exact (hawait.keeps (fun _ => madeUp_keeps) hs).monoError fun _ _ hs => .inr hs

theorem capacity_course (origin : World) (config : Config) (set : String) (role : Role) :
    Health.Rounds.Course (tracedRules assumed) config set role
      { free := Lacks origin set 0
        tabled := fun _ => Lacks origin set 0
        examined := fun _ _ _ _ => Lacks origin set 0
        replaced := fun _ _ _ past => Lacks origin set past.length }
      (fun _ s => Lacks origin set 0 s ∨ MadeUp origin set s) (BreaksOff origin set) where
  table _ hs :=
    keeping_lacks ((Resolution.machineTable_surveys set).mono fun _ hc => hc.keepsCapacity) hs
  members _ _ hs := keeping_lacks (Program.asks_perform trivial) hs
  examine _ members _ row _ _ _ _ hs :=
    keeping_lacks ((Health.examine_glances config set members row).mono
      fun _ hc => hc.keepsCapacity) hs
  begin _ _ _ _ hs := hs
  replace _ members _ past row _ s _ hs := by
    simp only [List.length_append, List.length_singleton]
    exact replace_lacks members row hs
  scaleUp _ _ _ _ _ hs := (scaleUp_madeUp hs).mono (fun _ _ hs => .inr hs) fun _ _ hs => hs
  noneDead _ _ _ _ _ hs := .inl hs

theorem check_capacity (config : Config) (set : String) (role : Role) (w : World) :
    (Health.check config set role).Upholds (tracedRules fun _ _ => True)
      (fun _ s => Lacks w set 0 s ∨ MadeUp w set s) (fun _ => BreaksOff w set) (w, []) := by
  apply (capacity_course w config set role).check_upholds
  have hlock : (Lock.isHeld config.swarm.upgradeQueue).Asks Call.KeepsCapacity :=
    Lock.isHeld_asks trivial
  refine (keeping_lacks hlock (.start w set)).mono ?_ fun _ _ hs => hs
  intro held s hs
  cases held with
  | true => exact .inl hs
  | false => exact hs

/-- A check that fails leaves its scale set with fewer machines to be just if it has deleted one and
has not set the capacity since; then as many are missing as have been deleted. A check that comes to
an end has made up for all of them. -/
theorem check_settles_capacity (w : World) (config : Config) (set : String) (role : Role)
    (before : Nat) (htarget : w.target? set = some before) :
    let check := Health.check config set role
    let told := check.transcript respond w
    let deleted := told.countP (Exchange.deletes set)
    ∃ after, (w.run check).2.target? set = some after ∧
      (∀ outcome, (w.run check).1 = .ok outcome → after = max before deleted) ∧
      ∀ error, (w.run check).1 = .error error →
        after = (if told.any (Exchange.resizes set) then max before deleted else before - deleted) ∧
        (after < before ↔
          0 < before ∧ 0 < deleted ∧ told.any (Exchange.resizes set) = false) := by
  intro check told deleted
  obtain ⟨s, hleft, _, htold, hend⟩ := ends_of_traced (check_capacity config set role w)
    fun _ _ => trivial
  have hlacks : ∀ missing, Lacks w set missing s →
      deleted = missing ∧ told.any (Exchange.resizes set) = false ∧
        (w.run check).2.target? set = some (before - missing) := by
    rintro missing ⟨hdeleted, hunresized, hmissing⟩
    rw [htold] at hdeleted hunresized
    rw [hleft, htarget, Option.map_some] at hmissing
    exact ⟨hdeleted, hunresized, hmissing⟩
  have hmadeUp : MadeUp w set s → told.any (Exchange.resizes set) = true ∧
      (w.run check).2.target? set = some (max before deleted) := by
    rintro ⟨hresized, hraised⟩
    rw [htold] at hresized hraised
    rw [hleft, htarget, Option.map_some] at hraised
    exact ⟨hresized, hraised⟩
  cases hresult : (w.run check).1 with
  | ok outcome =>
      rw [hresult] at hend
      refine ⟨max before deleted, ?_, fun _ _ => rfl, fun _ h => by cases h⟩
      rcases hend with hend | hend
      · obtain ⟨hdeleted, _, hafter⟩ := hlacks 0 hend
        rw [hafter, hdeleted]
        simp
      · exact (hmadeUp hend).2
  | error error =>
      rw [hresult] at hend
      rcases hend with ⟨missing, hend⟩ | hend
      · obtain ⟨hdeleted, hunresized, hafter⟩ := hlacks missing hend
        refine ⟨before - missing, hafter, fun _ h => (by cases h), fun _ _ => ⟨?_, ?_⟩⟩
        · rw [hunresized, hdeleted]
          rfl
        · rw [hunresized, hdeleted]
          simp only [and_true]
          omega
      · obtain ⟨hresized, hafter⟩ := hmadeUp hend
        refine ⟨max before deleted, hafter, fun _ h => (by cases h), fun _ _ => ⟨?_, ?_⟩⟩
        · rw [hresized]
          rfl
        · rw [hresized]
          simp only [Bool.true_eq_false, and_false, iff_false, Nat.not_lt]
          exact Nat.le_max_left _ _

/-- Two workers that are down and answer no probe; the second of their machines cannot be deleted. -/
def bereft : World :=
  { trial with
    members :=
      [⟨"w1", "host-1", .v4 10 0 1 4, .worker, .down, false⟩,
        ⟨"w2", "host-2", .v4 10 0 1 5, .worker, .down, false⟩]
    sets :=
      [("workers",
        ⟨.worker, 2,
          [⟨"1", "host-1", [⟨.v4 10 0 1 4, true⟩], .running, .succeeded, some ⟨0, 0⟩⟩,
            ⟨"2", "host-2", [⟨.v4 10 0 1 5, true⟩], .running, .succeeded, some ⟨0, 0⟩⟩], []⟩)]
    probes := [(.v4 10 0 1 4, [false]), (.v4 10 0 1 5, [false])]
    faults := [⟨"delete(workers,2)", 0, none, .service (.fatal "forbidden")⟩]
    clock := ⟨3600, 0⟩ }

theorem check_settles_capacity_bereft :
    let check := Health.check soundConfig "workers" .worker
    ∃ after error, (bereft.run check).1 = .error error ∧
      (bereft.run check).2.target? "workers" = some after ∧
      (after < 2 ↔ 0 < 2 ∧
        0 < (check.transcript respond bereft).countP (Exchange.deletes "workers") ∧
        (check.transcript respond bereft).any (Exchange.resizes "workers") = false) := by
  intro check
  have htarget : bereft.target? "workers" = some 2 := by rfl
  have hfails : (bereft.run check).1 =
      .error (.service (.fatal "forbidden")) := by rfl
  obtain ⟨after, hafter, _, hfailed⟩ :=
    check_settles_capacity bereft soundConfig "workers" .worker 2 htarget
  exact ⟨after, _, hfails, hafter, (hfailed _ hfails).2⟩

/-- A check fails after its first deletion, and the scale set is to have one machine less for good. -/
theorem bereft_shrinks :
    let check := Health.check soundConfig "workers" .worker
    (bereft.run check).1.toOption = none ∧ bereft.target? "workers" = some 2 ∧
      (bereft.run check).2.target? "workers" = some 1 := by
  decide +kernel

end World

end SwarmUpkeep
