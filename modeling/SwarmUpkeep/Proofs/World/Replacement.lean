import SwarmUpkeep.Proofs.World.Deletion
import SwarmUpkeep.Proofs.World.Eviction

/-!
# What a successful check leaves

Where no fault hits the calls, each machine that is found dead takes the members at its address with
it before it is deleted, and in the end the capacity makes up for all that have been deleted. What a
check changes beyond that is who leads, where nobody leads after the demotion of a manager.
-/

namespace SwarmUpkeep.World

open Attempt Control

variable {w w' origin : World} {set name machine : String} {role : Role} {config : Config}
variable {s s' : Traced} {found : ScaleSet}

/-! ## Operations that build nothing -/

theorem started_lapses {call : ProviderCall} {answer : Except ServiceError Operation}
    (h : (answer, w') = w.started call none) : Lapses w w' := by
  simp only [started, start] at h
  split at h <;> cases h <;> exact ⟨rfl⟩

theorem started_plain {call : ProviderCall} {answer : Except ServiceError Operation}
    (h : (answer, w') = w.started call none) {operation : Operation}
    (hok : answer = .ok operation) : w'.Plain operation := by
  obtain ⟨_, hplain⟩ : Wanes .worker w w' ∧ _ := started_answers h
  exact hplain operation hok

theorem statusOf_lapses (h : w.Plain (.pending name)) : Lapses w (w.statusOf name).2 := by
  unfold statusOf
  split
  next => exact .refl w
  next work hwork =>
    have hbuilds : work.reimaged = none := h work hwork
    split
    next => exact ⟨rfl⟩
    next =>
      rw [hbuilds]
      split
      · exact .refl w
      · exact .refl w
      · contradiction

theorem status_lapses {operation : Operation} (h : w.Plain operation) :
    Lapses w (w.respond (.provider (.status operation))).2 := by
  cases operation with
  | done => exact .refl w
  | pending name =>
      have hnoted := noted_lapses w (ProviderCall.status (.pending name)).text
      refine respond_provider_leaves (fun _ => .refl w) hnoted (hnoted.trans (statusOf_lapses ?_))
      rw [noted_eq]
      exact h

/-- Nothing comes up while such an operation is waited for. -/
theorem await_traced {operation : Operation} (hplain : s.1.Plain operation) (policy : RetryPolicy)
    (what : String) :
    (operation.await policy what).Upholds undisturbedRules (fun _ => Idles s) (fun _ => Idles s)
      s := by
  let waiting (s' : Traced) : Prop := Idles s s' ∧ s'.1.Plain operation
  have hstatus : undisturbedRules.Keeps waiting (.provider (.status operation)) := by
    refine traced_keeps fun s' answer s'' hs hmove => ?_
    refine ⟨hs.1.of_moves hmove (status_lapses hs.2) rfl, ?_⟩
    obtain ⟨_, hstill⟩ : Wanes .worker s'.1 _ ∧ _ := status_wanes hs.2
    rw [answer_of_moves hmove] at hstill
    exact hstill
  have hpause : KeptByPauses undisturbedRules waiting := by
    refine fun ms => traced_keeps fun s' answer s'' hs hmove => ?_
    refine ⟨hs.1.of_moves hmove (glance_lapses trivial) rfl, ?_⟩
    have hleft : { s'.1 with slept := s'.1.slept + ms } = s''.1 :=
      congrArg Prod.snd (answer_of_moves hmove)
    rw [← hleft]
    exact hs.2
  have hawait : (operation.await policy what).Upholds undisturbedRules (fun _ => waiting)
      (fun _ => waiting) s :=
    Operation.await_upholds (fun _ => Operation.settles_of_keeps hstatus) hpause
      (fun _ _ hs => hs) ⟨.refl s, hplain⟩
  exact hawait.mono (fun _ _ hs => hs.1) fun _ _ hs => hs.1

/-! ## One machine less -/

theorem delete_traced (machine : String) (hset : Keyed.find? s.1.sets set = some found) :
    (deleteMachine set machine).Upholds undisturbedRules
      (fun operation s' =>
        Lapses { s.1 with sets := Keyed.set s.1.sets set (found.without machine) } s'.1 ∧
          s'.1.Plain operation ∧
          s'.changes = s.changes ++ [(s.1, .provider (.delete set machine))])
      (fun _ _ => True) s := by
  refine ⟨trivial, fun answer s' hmove => ?_⟩
  have hnoted := noted_lapses s.1 (ProviderCall.delete set machine).text
  have hanswer := answer_of_moves hmove
  rw [respond_provider (fun h => by cases h) (undisturbed_of_moves hmove), provider] at hanswer
  split at hanswer
  next there _ hhost =>
    have hthere := find?_of_host hhost
    rw [hnoted.sets, hset, Option.some.injEq] at hthere
    subst hthere
    cases answer with
    | error e => trivial
    | ok operation =>
        refine ⟨?_, started_plain hanswer.symm rfl, changes_of_moves hmove⟩
        rw [hnoted.sets] at hanswer
        exact (hnoted.withSets _).trans (started_lapses hanswer.symm)
  next =>
    obtain ⟨rfl, _⟩ := Prod.mk.inj hanswer
    trivial

theorem capacity_traced (hset : Keyed.find? s.1.sets set = some found) :
    (capacity set).Upholds undisturbedRules (fun n s' => n = found.capacity ∧ Idles s s')
      (fun _ _ => True) s := by
  refine ⟨trivial, fun answer s' hmove => ?_⟩
  have hnoted := noted_lapses s.1 (ProviderCall.capacity set).text
  have hanswer := answer_of_moves hmove
  rw [respond_provider (fun h => by cases h) (undisturbed_of_moves hmove), provider, hnoted.sets,
    hset] at hanswer
  obtain ⟨rfl, hleft⟩ := Prod.mk.inj hanswer
  refine ⟨rfl, hleft ▸ hnoted, ?_⟩
  rw [changes_of_moves hmove]
  exact List.append_nil _

theorem setCapacity_traced (n : Nat) (hset : Keyed.find? s.1.sets set = some found) :
    (setCapacity set n).Upholds undisturbedRules
      (fun operation s' =>
        Lapses { s.1 with sets := Keyed.set s.1.sets set { found with capacity := n } } s'.1 ∧
          s'.1.Plain operation ∧
          s'.changes = s.changes ++ [(s.1, .provider (.setCapacity set n))])
      (fun _ _ => True) s := by
  refine ⟨trivial, fun answer s' hmove => ?_⟩
  have hnoted := noted_lapses s.1 (ProviderCall.setCapacity set n).text
  have hanswer := answer_of_moves hmove
  rw [respond_provider (fun h => by cases h) (undisturbed_of_moves hmove), provider, hnoted.sets,
    hset] at hanswer
  cases answer with
  | error e => trivial
  | ok operation =>
      refine ⟨?_, started_plain hanswer.symm rfl, changes_of_moves hmove⟩
      exact (hnoted.withSets _).trans (started_lapses hanswer.symm)

/-! ## One replacement after the other -/

/-- A scale set once some machines have been deleted. -/
def ScaleSet.withoutAll (found : ScaleSet) (gone : List MachineAddress) : ScaleSet :=
  { found with
    capacity := found.capacity - gone.length
    hosts := found.hosts.filter fun h => !gone.any fun row => row.machineId = h.id }

theorem ScaleSet.withoutAll_nil (found : ScaleSet) : found.withoutAll [] = found := by
  simp [withoutAll]

theorem ScaleSet.withoutAll_concat (found : ScaleSet) (gone : List MachineAddress)
    (row : MachineAddress) :
    found.withoutAll (gone ++ [row]) = (found.withoutAll gone).without row.machineId := by
  simp only [withoutAll, without, List.length_append, List.length_singleton, List.filter_filter,
    Nat.sub_sub, ScaleSet.mk.injEq, true_and, and_true]
  refine List.filter_congr fun h _ => ?_
  simp [List.any_append, Bool.and_comm, eq_comm]

/-- The members at the address of a machine. -/
def housed (members : List Member) (row : MachineAddress) : List Member :=
  members.filter fun m => m.addr = row.privateIp

/-- The calls by which a machine is deleted once its members have been evicted. -/
def replacementCalls (set : String) (role : Role) (members : List Member) (row : MachineAddress) :
    List Call :=
  (housed members row).flatMap (evictionCalls role) ++ [.provider (.delete set row.machineId)]

/-- So many machines have been deleted from the world, each after its members. -/
structure Replaced (origin : World) (set : String) (role : Role) (found : ScaleSet)
    (gone : List MachineAddress) (s : Traced) : Prop where
  evicted : Evicted { origin with sets := Keyed.set origin.sets set (found.withoutAll gone) } role
    (gone.flatMap (housed (ofRole origin.members (some role)))) s.1
  calls : s.changes.map (·.2) =
    gone.flatMap (replacementCalls set role (ofRole origin.members (some role)))
  vacated : ∀ v ∈ s.changes, ∀ machine, v.2 = .provider (.delete set machine) →
    ∃ row ∈ gone, row.machineId = machine ∧
      ∀ m ∈ v.1.members, m.role = role → m.addr ≠ row.privateIp

variable {gone : List MachineAddress} {row : MachineAddress}

/-- Once the members of a role at an address have been evicted, nobody of the role is there. -/
theorem Evicted.vacates {there : List Member} (h : Evicted origin role there w)
    (hthere : ∀ m ∈ housed (ofRole origin.members (some role)) row, m ∈ there) :
    ∀ m ∈ w.members, m.role = role → m.addr ≠ row.privateIp := by
  intro m hm hrole haddr
  have hmem : plain m ∈ w.members.map plain := List.mem_map_of_mem hm
  rw [h.leaves] at hmem
  obtain ⟨old, hold, hsame⟩ := List.mem_map.mp hmem
  obtain ⟨hmember, hkept⟩ := List.mem_filter.mp hold
  have hrole' : old.role = role := (congrArg Member.role hsame).trans hrole
  have haddr' : old.addr = row.privateIp := (congrArg Member.addr hsame).trans haddr
  have hgone : old ∈ there := hthere old (by simp [housed, ofRole, hmember, hrole', haddr'])
  have hany : (there.any fun g => g.id = old.id) = true :=
    List.any_eq_true.mpr ⟨old, hgone, by simp⟩
  simp [hany] at hkept

/-- A machine is deleted after the members of its address where none of them is ready. -/
theorem replace_traced (hids : (origin.members.map (·.id)).Nodup)
    (hready : (Health.statusAt (ofRole origin.members (some role)) row.privateIp).any
      Status.isReady = false)
    (hs : Replaced origin set role found gone s) :
    (Health.replace config set role (ofRole origin.members (some role)) row).Upholds
      undisturbedRules (fun _ => Replaced origin set role found (gone ++ [row])) (fun _ _ => True)
      s := by
  have hevictions : (Attempt.each (fun m => Membership.evict m.id role)
      (housed (ofRole origin.members (some role)) row)).Upholds undisturbedRules
      (fun _ s' => Evicted
          { origin with sets := Keyed.set origin.sets set (found.withoutAll gone) } role
          ((gone ++ [row]).flatMap (housed (ofRole origin.members (some role)))) s'.1 ∧
        ∃ steps, s'.changes = s.changes ++ steps ∧ steps.map (·.2) =
          (housed (ofRole origin.members (some role)) row).flatMap (evictionCalls role))
      (fun _ _ => True) s := by
    rw [List.flatMap_append, List.flatMap_singleton]
    refine (evictions_traced ?_ hs.evicted).monoError fun _ _ h => h.elim
    intro m hm m' hm' hid
    obtain ⟨hlisted, haddr⟩ := List.mem_filter.mp hm
    have hmember : m ∈ origin.members := (List.mem_filter.mp hlisted).1
    rw [eq_of_id hids hm' hmember hid]
    rw [Diagnosis.any_isReady_statusAt, List.any_eq_false] at hready
    have hdown := hready m hlisted
    rw [haddr, Bool.true_and] at hdown
    simpa using hdown
  refine Upholds.bind hevictions.mapError ?_
  rintro _ s₁ ⟨hevicted, steps, hchanges, hcalls⟩
  have hset : Keyed.find? s₁.1.sets set = some (found.withoutAll gone) := by
    obtain ⟨_, _, hleft⟩ := hevicted
    rw [hleft.sets]
    exact Keyed.find?_set_self _ _ _
  refine Upholds.bind (delete_traced row.machineId hset).renamed ?_
  rintro operation s₂ ⟨hdeleted, hplain, hchanges'⟩
  refine (await_traced hplain _ _).renamed.mono ?_ fun _ _ _ => trivial
  rintro _ s₃ ⟨hlapses, hidle⟩
  refine ⟨?_, ?_, ?_⟩
  · have hsets : Keyed.set s₁.1.sets set ((found.withoutAll gone).without row.machineId) =
        Keyed.set origin.sets set (found.withoutAll (gone ++ [row])) := by
      obtain ⟨_, _, hleft⟩ := hevicted
      rw [hleft.sets, Keyed.set_set, found.withoutAll_concat gone row]
    rw [hsets] at hdeleted
    exact ((hevicted.withSets _).lapses hdeleted).lapses hlapses
  · rw [hidle, hchanges', hchanges, List.map_append, List.map_append, hs.calls, hcalls,
      List.flatMap_append, List.flatMap_singleton, List.append_assoc]
    rfl
  · intro v hv machine hv'
    rw [hidle, hchanges', hchanges] at hv
    rcases List.mem_append.mp hv with hv | hlast
    · rcases List.mem_append.mp hv with hbefore | hstep
      · obtain ⟨past, hpast, hmachine⟩ := hs.vacated v hbefore machine hv'
        exact ⟨past, List.mem_append_left _ hpast, hmachine⟩
      · have hcall : v.2 ∈ steps.map (·.2) := List.mem_map_of_mem hstep
        rw [hcalls, hv'] at hcall
        obtain ⟨m, _, hm⟩ := List.mem_flatMap.mp hcall
        obtain ⟨call, _, hcall⟩ := List.mem_map.mp hm
        cases hcall
    · -- The deletion is the last change, and it was asked for when the members had gone.
      rw [List.mem_singleton.mp hlast] at hv' ⊢
      cases hv'
      refine ⟨row, List.mem_append_right _ (List.mem_singleton_self row), rfl, ?_⟩
      exact hevicted.vacates fun m hm => by simp [hm]

/-! ## A check -/

/-- What the answers so far tell of the machines. -/
def Traced.account (s : Traced) : Diagnosis :=
  s.told.foldl Diagnosis.next .start

variable {table past : List MachineAddress} {members : List Member}
variable {verdicts : List (MachineAddress × Health.Verdict)}

/-- What is upheld by the account of a check is upheld by what has been told on the way to a world. -/
theorem account_upholds (config : Config) (set : String) (role : Role) {ε α : Type}
    {ok : α → Diagnosis → Prop} {err : ε → Diagnosis → Prop}
    {x : Control ε α} (h : x.Upholds (Diagnosis.rules config set role) ok err s.account) :
    x.Upholds undisturbedRules (fun a s' => ok a s'.account) (fun e s' => err e s'.account) s :=
  attempt_told_upholds h

/-- The machines and the members are those of the world, and these are the verdicts on the first
machines. Nobody is ready at one that is found dead. -/
structure Assessed (w : World) (config : Config) (set : String) (role : Role)
    (table : List MachineAddress) (members : List Member) (past : List MachineAddress)
    (verdicts : List (MachineAddress × Health.Verdict)) (found : ScaleSet) (s : Traced) : Prop where
  there : Keyed.find? w.sets set = some found
  tabled : table = Resolution.addressed found.machines found.interfaces
  listed : members = ofRole w.members (some role)
  judges : Diagnosis.Judges config.timings table members past verdicts s.account
  unready : ∀ row ∈ Health.deadRows verdicts,
    (Health.statusAt members row.privateIp).any Status.isReady = false

/-- What holds at the stations of a check in a world where nothing has been put off. -/
def replacementRounds (w : World) (config : Config) (set : String) (role : Role) :
    Health.Rounds Traced where
  free s := Idles (w, []) s ∧ s.account = .start
  tabled table s := Idles (w, []) s ∧ s.account.Knows table [] 0 ∧
    ∃ found, Keyed.find? w.sets set = some found ∧
      table = Resolution.addressed found.machines found.interfaces
  examined table members past verdicts s := Idles (w, []) s ∧
    ∃ found, Assessed w config set role table members past verdicts found s
  replaced table members verdicts past s :=
    ∃ found, Assessed w config set role table members table verdicts found s ∧
      Replaced w set role found past s

/-- The scale set that is left once the dead machines have been replaced. -/
def ScaleSet.replenished (found : ScaleSet) (dead : List MachineAddress) : ScaleSet :=
  { found.withoutAll dead with capacity := max found.capacity dead.length }

/-- What a check that comes to an end has made of a world with so many dead machines. -/
structure Settles (w : World) (set : String) (role : Role) (found : ScaleSet)
    (dead : List MachineAddress) (report : Health.Report) (s : Traced) : Prop where
  reported : report.dead = dead.map (·.computerName)
  newCapacity : report.newCapacity =
    if dead = [] then none else some (max found.capacity dead.length)
  evicted : Evicted { w with sets := Keyed.set w.sets set (found.replenished dead) } role
    (dead.flatMap (housed (ofRole w.members (some role)))) s.1
  calls : s.changes.map (·.2) =
    dead.flatMap (replacementCalls set role (ofRole w.members (some role))) ++
      if dead = [] then [] else [.provider (.setCapacity set (max found.capacity dead.length))]
  vacated : ∀ v ∈ s.changes, ∀ machine, v.2 = .provider (.delete set machine) →
    ∃ row ∈ dead, row.machineId = machine ∧
      ∀ m ∈ v.1.members, m.role = role → m.addr ≠ row.privateIp

/-- The capacity is raised from what the deletions have left of it. -/
theorem scaleUp_traced {dead : List MachineAddress} (hsome : dead ≠ [])
    (hs : Replaced w set role found dead s)
    (verdicts : List (MachineAddress × Health.Verdict)) (hdead : Health.deadRows verdicts = dead) :
    (Health.scaleUp config set dead.length).Upholds undisturbedRules
      (fun capacity => Settles w set role found dead
        (Health.reportOf set verdicts (some capacity)))
      (fun _ _ => True) s := by
  have hset : Keyed.find? s.1.sets set = some (found.withoutAll dead) := by
    obtain ⟨_, _, hleft⟩ := hs.evicted
    rw [hleft.sets]
    exact Keyed.find?_set_self _ _ _
  refine Upholds.bind (capacity_traced hset).renamed ?_
  rintro _ s₁ ⟨rfl, hidles⟩
  have hset₁ : Keyed.find? s₁.1.sets set = some (found.withoutAll dead) := by
    rw [hidles.1.sets, hset]
  refine Upholds.bind (setCapacity_traced _ hset₁).renamed ?_
  rintro operation s₂ ⟨hraised, hplain, hchanges⟩
  refine Upholds.bind ((await_traced hplain _ _).renamed.monoError fun _ _ _ => trivial) ?_
  rintro _ s₃ ⟨hlapses, hidle⟩
  have htarget : (found.withoutAll dead).capacity + dead.length = max found.capacity dead.length :=
    Nat.sub_add_eq_max _ _
  have hsets : Keyed.set s₁.1.sets set
      { found.withoutAll dead with
        capacity := (found.withoutAll dead).capacity + dead.length } =
      Keyed.set w.sets set (found.replenished dead) := by
    obtain ⟨_, _, hleft⟩ := hs.evicted
    rw [hidles.1.sets, hleft.sets, Keyed.set_set, htarget]
    rfl
  rw [hsets] at hraised
  have hcalls : s₃.changes.map (·.2) = dead.flatMap (replacementCalls set role
      (ofRole w.members (some role))) ++
        [.provider (.setCapacity set (max found.capacity dead.length))] := by
    rw [hidle, hchanges, hidles.2, List.map_append, hs.calls, htarget]
    rfl
  constructor
  · exact congrArg (List.map (·.computerName)) hdead
  · rw [if_neg hsome]
    exact congrArg some htarget
  · exact (((hs.evicted.lapses hidles.1).withSets _).lapses hraised).lapses hlapses
  · rw [if_neg hsome, hcalls]
  · intro v hv machine hv'
    rw [hidle, hchanges, hidles.2] at hv
    rcases List.mem_append.mp hv with hbefore | hlast
    · exact hs.vacated v hbefore machine hv'
    · rw [List.mem_singleton.mp hlast] at hv'
      cases hv'

/-- Where nothing has died there is nothing to make up for. -/
theorem Replaced.settles (hnone : Health.deadRows verdicts = [])
    (hs : Replaced w set role found [] s) :
    Settles w set role found [] (Health.reportOf set verdicts none) s := by
  have hwhole : found.replenished [] = found.withoutAll [] := by
    simp [ScaleSet.replenished, ScaleSet.withoutAll]
  constructor
  · exact congrArg (List.map (·.computerName)) hnone
  · rfl
  · rw [hwhole]
    exact hs.evicted
  · rw [if_pos rfl, List.append_nil]
    exact hs.calls
  · exact hs.vacated

theorem Assessed.examine (h : Assessed w config set role table members past verdicts found s)
    {row : MachineAddress} {rest : List MachineAddress} (htable : table = past ++ row :: rest) :
    (Health.examine config set members row).Upholds undisturbedRules
      (fun verdict s' => Idles s s' ∧ Assessed w config set role table members (past ++ [row])
        (verdicts ++ [(row, verdict)]) found s')
      (fun _ _ => True) s := by
  have hjudged := account_upholds config set role (h.judges.examine_upholds htable)
  refine ((examine_traced config members row s).and hjudged).mono ?_ fun _ _ _ => trivial
  rintro verdict s' ⟨⟨hready, hidles⟩, hjudges⟩
  refine ⟨hidles, h.there, h.tabled, h.listed, hjudges, fun dead hdead => ?_⟩
  rcases mem_deadRows_concat hdead with hbefore | ⟨rfl, hverdict⟩
  · exact h.unready dead hbefore
  · exact hready hverdict

theorem replacement_course (hpending : w.pending = []) (hids : (w.members.map (·.id)).Nodup)
    (config : Config) (set : String) (role : Role) :
    (replacementRounds w config set role).Course undisturbedRules config set role
      (fun outcome s => ∀ report, outcome = .checked report → ∃ found,
        Keyed.find? w.sets set = some found ∧
          s.account.table = Resolution.addressed found.machines found.interfaces ∧
          s.account.members = ofRole w.members (some role) ∧
          Settles w set role found (s.account.dead config.timings) report s)
      (fun _ => True) where
  table := by
    rintro s ⟨hidles, haccount⟩
    have hstart : (Resolution.machineTable set).Upholds (Diagnosis.rules config set role)
        (fun table d => d.Knows table [] 0) (fun _ _ => True) s.account :=
      haccount ▸ Diagnosis.machineTable_upholds
    refine ((machineTable_found set s).and (account_upholds config set role hstart)).mono ?_
      fun _ _ _ => trivial
    rintro table s' ⟨⟨found, hset, htable, hidles'⟩, hknows⟩
    rw [hidles.1.sets] at hset
    exact ⟨hidles.trans hidles', hknows, found, hset, htable⟩
  members := by
    rintro table s ⟨hidles, hknows, found, hset, htable⟩
    have hjudged : (Control.members .here (some role)).Upholds undisturbedRules
        (fun members s' => Diagnosis.Judges config.timings table members [] [] s'.account)
        (fun _ _ => True) s := account_upholds config set role (Diagnosis.members_upholds hknows)
    refine ((members_traced role s).and hjudged).mono ?_ fun _ _ _ => trivial
    rintro listed s' ⟨⟨w', hlapses, hadvanced, rfl, hchanges⟩, hjudges⟩
    have hlapses' : Lapses w w' := hidles.1.trans hlapses
    -- Nothing has been put off, so that the listing changes nobody.
    have hstill : w'.advance = w' := advance_of_none (hlapses'.pending.trans hpending)
    rw [hstill] at hadvanced hjudges ⊢
    refine ⟨⟨hadvanced ▸ hlapses', hchanges.trans hidles.2⟩, found, hset, htable, ?_, hjudges, ?_⟩
    · rw [hlapses'.members]
    · exact fun row hrow => absurd hrow List.not_mem_nil
  examine := by
    rintro table members past row rest verdicts s htable ⟨hidles, found, hassessed⟩
    refine (hassessed.examine htable).mono ?_ fun _ _ _ => trivial
    exact fun verdict s' hs => ⟨hidles.trans hs.1, found, hs.2⟩
  begin := by
    rintro table members verdicts s ⟨⟨hlapses, hchanges⟩, found, hassessed⟩
    refine ⟨found, hassessed, ?_, ?_, ?_⟩
    · have hsets : Keyed.set w.sets set (found.withoutAll []) = w.sets := by
        rw [found.withoutAll_nil]
        exact Keyed.set_find? hassessed.there
      rw [hsets]
      exact (Evicted.start w role).lapses hlapses
    · rw [hchanges]
      rfl
    · intro v hv
      rw [hchanges] at hv
      exact absurd hv List.not_mem_nil
  replace := by
    rintro table members verdicts past row rest s hdead ⟨found, hassessed, hs⟩
    have hrow : row ∈ Health.deadRows verdicts := by simp [hdead]
    have hjudged := account_upholds config set role
      ((Diagnosis.check_course config set role).replace table members verdicts row s.account hrow
        hassessed.judges)
    obtain ⟨hthere, htabled, rfl, _, hunready⟩ := hassessed
    refine ((replace_traced hids (hunready row hrow) hs).and hjudged).mono ?_ fun _ _ _ => trivial
    rintro _ s' ⟨hreplaced, hjudges⟩
    exact ⟨found, ⟨hthere, htabled, rfl, hjudges, hunready⟩, hreplaced⟩
  scaleUp := by
    rintro table members verdicts s hsome ⟨found, hassessed, hs⟩
    have hkept := account_upholds config set role (s := s)
      (Diagnosis.scaleUp_upholds (Health.deadRows verdicts).length)
    refine ((scaleUp_traced hsome hs verdicts rfl).and hkept).mono ?_ fun _ _ _ => trivial
    rintro capacity s' ⟨hsettles, haccount⟩ report ⟨⟩
    obtain ⟨hthere, rfl, rfl, ⟨hknows, rfl⟩, _⟩ := hassessed
    rw [Diagnosis.deadRows_verdicts] at hsettles
    rw [haccount]
    exact ⟨found, hthere, hknows.table, hknows.members, hsettles⟩
  noneDead := by
    rintro table members verdicts s hnone ⟨found, hassessed, hs⟩ report ⟨⟩
    have hsettles := hs.settles hnone
    obtain ⟨hthere, rfl, rfl, ⟨hknows, rfl⟩, _⟩ := hassessed
    rw [Diagnosis.deadRows_verdicts] at hnone
    refine ⟨found, hthere, hknows.table, hknows.members, ?_⟩
    rw [hnone]
    exact hsettles

theorem check_settles (hpending : w.pending = []) (hids : (w.members.map (·.id)).Nodup)
    (config : Config) (set : String) (role : Role) :
    (Health.check config set role).Upholds undisturbedRules
      (fun outcome s => ∀ report, outcome = .checked report → ∃ found,
        Keyed.find? w.sets set = some found ∧
          s.account.table = Resolution.addressed found.machines found.interfaces ∧
          s.account.members = ofRole w.members (some role) ∧
          Settles w set role found (s.account.dead config.timings) report s)
      (fun _ _ => True) (w, []) := by
  apply (replacement_course hpending hids config set role).check_upholds
  have hlock := account_upholds config set role (s := (w, [])) Diagnosis.isHeld_upholds
  refine ((isHeld_traced _ _).and hlock).mono ?_ fun _ _ _ => trivial
  rintro held s ⟨⟨_, hidles⟩, haccount⟩
  cases held with
  | true =>
      intro report h
      cases h
  | false => exact ⟨hidles, haccount⟩

/-- The members at the dead machines are known by their identifiers. -/
theorem any_housed (hids : (members.map (·.id)).Nodup) (dead : List MachineAddress) {m : Member}
    (hm : m ∈ members) :
    ((dead.flatMap (housed (ofRole members (some role)))).any fun g => g.id = m.id) =
      (decide (m.role = role) && dead.any fun row => row.privateIp = m.addr) := by
  rw [Bool.eq_iff_iff, Bool.and_eq_true, List.any_eq_true, List.any_eq_true, decide_eq_true_eq]
  constructor
  · rintro ⟨g, hg, hid⟩
    obtain ⟨row, hrow, hhoused⟩ := List.mem_flatMap.mp hg
    obtain ⟨hlisted, haddr⟩ := List.mem_filter.mp hhoused
    obtain ⟨hmember, hrole⟩ := List.mem_filter.mp hlisted
    obtain rfl : g = m := eq_of_id hids hmember hm (of_decide_eq_true hid)
    exact ⟨of_decide_eq_true hrole, row, hrow, by simpa [eq_comm] using haddr⟩
  · rintro ⟨hrole, row, hrow, haddr⟩
    refine ⟨m, List.mem_flatMap.mpr ⟨row, hrow, ?_⟩, by simp⟩
    simpa [housed, ofRole, hm, hrole, eq_comm] using haddr

/-- Where nothing has been put off and no fault hits the calls, a check that comes to an end has
taken just the dead machines out of its scale set and just the members of its role at their addresses
out of the swarm, each machine after its members, and has set the capacity to what it was, or to the
number of the dead if that is more. Everything else is as it was but for a leader where nobody leads
any more. -/
theorem check_replaces_dead (hpending : w.pending = []) (hids : (w.members.map (·.id)).Nodup)
    (hspared : ∀ v ∈ (Health.check config set role).visits respond w, v.1.Undisturbed v.2)
    {report : Health.Report}
    (hchecked : (w.run (Health.check config set role)).1 = .ok (.checked report)) :
    let check := Health.check config set role
    let account := (check.transcript respond w).foldl Diagnosis.next .start
    let dead := account.dead config.timings
    let fallen (m : Member) : Bool :=
      decide (m.role = role) && dead.any fun row => row.privateIp = m.addr
    let left := (w.run check).2
    let changes := (check.visits respond w).filter fun v => v.2.mutates
    ∃ found, Keyed.find? w.sets set = some found ∧
      account.table = Resolution.addressed found.machines found.interfaces ∧
      account.members = ofRole w.members (some role) ∧
      report.dead = dead.map (·.computerName) ∧
      report.newCapacity = (if dead = [] then none else some (max found.capacity dead.length)) ∧
      Lapses { w with
        members := without w.knobs role fallen w.members
        sets := Keyed.set w.sets set
          { found with
            capacity := max found.capacity dead.length
            hosts := found.hosts.filter fun h => !dead.any fun row => row.machineId = h.id }
        pending := left.pending } left ∧
      (∀ x ∈ left.pending,
        x.2 = .election ∨ ∃ m ∈ w.members, fallen m = true ∧ x.2 = .demotion m.id) ∧
      changes.map (·.2) = dead.flatMap (replacementCalls set role account.members) ++
        (if dead = [] then [] else [.provider (.setCapacity set (max found.capacity dead.length))]) ∧
      ∀ v ∈ changes, ∀ machine, v.2 = .provider (.delete set machine) →
        ∃ row ∈ dead, row.machineId = machine ∧
          ∀ m ∈ v.1.members, m.role = role → m.addr ≠ row.privateIp := by
  intro check account dead fallen left changes
  obtain ⟨s, hleft, hvisits, htold, hend⟩ :=
    ends_of_traced (check_settles hpending hids config set role) hspared
  rw [hchecked] at hend
  obtain ⟨found, hset, htable, hmembers, hsettles⟩ := hend report rfl
  have haccount : s.account = account := by
    rw [Traced.account, htold]
  have hchanges : s.changes = changes := by
    rw [Traced.changes, hvisits]
  rw [haccount] at htable hmembers hsettles
  obtain ⟨hreported, hcapacity, ⟨pending, hputOff, hlapses⟩, hcalls, hvacated⟩ := hsettles
  rw [hchanges] at hcalls hvacated
  rw [hleft, without_congr fun m hm => any_housed hids dead hm] at hlapses
  simp only [ScaleSet.replenished, ScaleSet.withoutAll] at hlapses
  refine ⟨found, hset, htable, hmembers, hreported, hcapacity, ?_, ?_, hmembers ▸ hcalls, hvacated⟩
  · rw [hlapses.pending]
    exact hlapses
  · rw [hlapses.pending]
    intro x hx
    refine (hputOff x hx).elim ?_ fun h => h.imp_right ?_
    · dsimp only
      rw [hpending]
      exact fun hold => absurd hold List.not_mem_nil
    · rintro ⟨m, hm, hdemotion⟩
      obtain ⟨row, _, hhoused⟩ := List.mem_flatMap.mp hm
      have hmember : m ∈ w.members := (List.mem_filter.mp (List.mem_filter.mp hhoused).1).1
      have hany : ((dead.flatMap (housed (ofRole w.members (some role)))).any fun g => g.id = m.id) =
          true := List.any_eq_true.mpr ⟨m, hm, by simp⟩
      exact ⟨m, hmember, (any_housed hids dead hmember).symm.trans hany, hdemotion⟩

/-- Of three workers two are down and answer no probe. -/
def decimated : World :=
  { trial with
    members :=
      [⟨"w1", "host-1", .v4 10 0 1 4, .worker, .down, false⟩,
        ⟨"w2", "host-2", .v4 10 0 1 5, .worker, .ready, false⟩,
        ⟨"w3", "host-3", .v4 10 0 1 6, .worker, .down, false⟩]
    sets :=
      [("workers",
        ⟨.worker, 3,
          [⟨"1", "host-1", [⟨.v4 10 0 1 4, true⟩], .running, .succeeded, some ⟨0, 0⟩⟩,
            ⟨"2", "host-2", [⟨.v4 10 0 1 5, true⟩], .running, .succeeded, some ⟨0, 0⟩⟩,
            ⟨"3", "host-3", [⟨.v4 10 0 1 6, true⟩], .running, .succeeded, some ⟨0, 0⟩⟩], []⟩)]
    probes := [(.v4 10 0 1 4, [false]), (.v4 10 0 1 6, [false])]
    clock := ⟨3600, 0⟩ }

theorem decimated_restored :
    let check := Health.check soundConfig "workers" .worker
    ∃ report, (decimated.run check).1 = .ok (.checked report) ∧
      report.dead = ["host-1", "host-3"] ∧ report.newCapacity = some 3 ∧
      (decimated.run check).2.members = [⟨"w2", "host-2", .v4 10 0 1 5, .worker, .ready, false⟩] ∧
      ((check.visits respond decimated).filter fun v => v.2.mutates).map (·.2) =
        [.swarm .here (.remove "w1"), .provider (.delete "workers" "1"),
          .swarm .here (.remove "w3"), .provider (.delete "workers" "3"),
          .provider (.setCapacity "workers" 3)] := by
  intro check
  have hspared := (run_faultless (w := decimated) (p := check) rfl).1
  have hchecked : (decimated.run check).1 = .ok (.checked
      ⟨"workers", ["host-1", "host-2", "host-3"], [], ["host-1", "host-3"], some 3⟩) := by rfl
  have hdead : Diagnosis.dead soundConfig.timings
      ((check.transcript respond decimated).foldl Diagnosis.next .start) =
        [⟨"1", .v4 10 0 1 4, "host-1"⟩, ⟨"3", .v4 10 0 1 6, "host-3"⟩] := by decide +kernel
  obtain ⟨found, hset, _, hmembers, _, _, hleft, _, hcalls, _⟩ :=
    check_replaces_dead (w := decimated) rfl (by decide) hspared hchecked
  cases hset
  rw [hmembers, hdead] at hcalls
  refine ⟨_, hchecked, rfl, rfl, ?_, hcalls⟩
  rw [hleft.members, hdead]
  rfl

/-- Nobody leads, and of two managers one is down and answers no probe. -/
def headless : World :=
  { trial with
    members :=
      [⟨"m0", "host-0", .v4 10 0 0 4, .manager, .ready, false⟩,
        ⟨"m1", "host-1", .v4 10 0 0 5, .manager, .down, false⟩]
    sets :=
      [("managers",
        ⟨.manager, 2,
          [⟨"0", "host-0", [⟨.v4 10 0 0 4, true⟩], .running, .succeeded, some ⟨0, 0⟩⟩,
            ⟨"1", "host-1", [⟨.v4 10 0 0 5, true⟩], .running, .succeeded, some ⟨0, 0⟩⟩], []⟩)]
    probes := [(.v4 10 0 0 5, [false])]
    clock := ⟨3600, 0⟩ }

/-- The manager that is spared is elected although nobody who led has been demoted. -/
theorem headless_elects :
    let check := Health.check soundConfig "managers" .manager
    headless.members.map (·.isLeader) = [false, false] ∧
      (headless.run check).1 =
        .ok (.checked ⟨"managers", ["host-0", "host-1"], [], ["host-1"], some 2⟩) ∧
      (headless.run check).2.members =
        [⟨"m0", "host-0", .v4 10 0 0 4, .manager, .ready, true⟩] := by
  decide +kernel

end SwarmUpkeep.World
