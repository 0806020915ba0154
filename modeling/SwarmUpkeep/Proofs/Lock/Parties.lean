import Mathlib.Logic.Function.Basic
import Mathlib.Logic.Relation
import SwarmUpkeep.Proofs.Lock.Discipline
import SwarmUpkeep.Proofs.World.Runs

/-!
# Many parties to one lock

Any number of upgrades and handoffs take turns, one question at a time, over a store that they
share. A question to the queue is served by the store or fails without effect; every other question
has any answer at all. What holds the parties apart is not that they know of each other: each keeps
the discipline of the lock on its own, and the queue does the rest.
-/

namespace SwarmUpkeep.Lock

open World

/-- A party in the middle of its program, and whether it is inside. -/
structure Party where
  rest : Program Surroundings Unit
  inside : Bool

namespace Party

/-- A party that is to upgrade the swarm. -/
def coordinator (site : Site) (templateUrl : String) : Party :=
  ⟨Program.bind (Upgrade.run site templateUrl) fun _ => .done (), false⟩

/-- A party that is to complete the upgrade of its own host. -/
def agent (site : Site) : Party :=
  ⟨Program.bind (Handoff.complete site) fun _ => .done (), false⟩

end Party

/-- Parties over one store. -/
structure Gathering (ι : Type) where
  store : World
  parties : ι → Party

/-- How a question is answered, and what becomes of the store. -/
inductive Serves : World → (c : Call) → c.Answer → World → Prop
  | served (store : World) (call : QueueCall) :
      Serves store (.queue call) (store.queue call).1 (store.queue call).2
  | failed (store : World) (call : QueueCall) (e : ServiceError) :
      Serves store (.queue call) (call.failed e) store
  | elsewhere {store : World} {c : Call} {answer : c.Answer} (h : ∀ call, c ≠ .queue call) :
      Serves store c answer store

variable {ι : Type} [DecidableEq ι]

/-- One party asks its next question and is answered. -/
inductive Turn : Gathering ι → Gathering ι → Prop
  | ask (g : Gathering ι) (i : ι) (c : Call) (next : c.Answer → Program Surroundings Unit)
      (inside : Bool) (answer : c.Answer) (store : World) (hi : g.parties i = ⟨.ask c next, inside⟩)
      (hserves : Serves g.store c answer store) :
      Turn g ⟨store, Function.update g.parties i ⟨next answer, standing inside c answer⟩⟩

/-- Nobody has asked anything yet, there is no queue, and the store serves every call whole. -/
structure Gathering.IsStart (queue : String) (g : Gathering ι) : Prop where
  absent : Keyed.find? g.store.queues queue = none
  createRace : g.store.knobs.createRace = false
  stealOnGet : g.store.knobs.stealOnGet = 0
  parties : ∀ i, ∃ site : Site, site.config.swarm.upgradeQueue = queue ∧
    ((∃ templateUrl, g.parties i = .coordinator site templateUrl) ∨ g.parties i = .agent site)

/-- What parties can come to by taking turns in any order. -/
def Gathering.Reachable (queue : String) (g : Gathering ι) : Prop :=
  ∃ start : Gathering ι, start.IsStart queue ∧ Relation.ReflTransGen Turn start g

/-! ## The queue as a guard -/

/-- Who is inside is there alone, with an empty queue; and there is one message at most. -/
structure Guards (inside : ι → Bool) (contents : Option (List Message)) : Prop where
  alone : ∀ i j, inside i = true → inside j = true → i = j
  empty : ∀ i, inside i = true → contents = some []
  single : ∀ messages, contents = some messages → messages.length ≤ 1

namespace Guards

variable {inside : ι → Bool} {contents : Option (List Message)} {i : ι}

omit [DecidableEq ι] in
theorem outside_of_ne (h : Guards inside contents) (hcontents : contents ≠ some []) (j : ι) :
    inside j = false := by
  by_contra hj
  exact hcontents (h.empty j (by simpa using hj))

/-- Where nobody is inside, one party comes inside of an empty queue. -/
theorem enter (hnobody : ∀ j, inside j = false) :
    Guards (Function.update inside i true) (some []) where
  alone j k hj hk := by
    have hthere : ∀ l, Function.update inside i true l = true → l = i := by
      intro l hl
      by_contra hne
      rw [Function.update_of_ne hne, hnobody l] at hl
      cases hl
    rw [hthere j hj, hthere k hk]
  empty _ _ := rfl
  single messages h := by
    cases h
    exact Nat.zero_le 1

/-- Who is inside comes out, and leaves nobody behind. -/
theorem exit (h : Guards inside contents) (hi : inside i = true) {contents' : Option (List Message)}
    (hsingle : ∀ messages, contents' = some messages → messages.length ≤ 1) :
    Guards (Function.update inside i false) contents' := by
  have hnobody : ∀ j, Function.update inside i false j = false := by
    intro j
    by_cases hj : j = i
    · rw [hj, Function.update_self]
    · rw [Function.update_of_ne hj]
      by_contra hin
      exact hj (h.alone j i (by simpa using hin) hi)
  refine ⟨fun j k hj => ?_, fun j hj => ?_, hsingle⟩
  · rw [hnobody j] at hj
    cases hj
  · rw [hnobody j] at hj
    cases hj

end Guards

/-- A permitted question that the store serves leaves the parties guarded. -/
theorem guards_served {queue : String} {store : World} {inside : ι → Bool} {i : ι}
    (h : Guards inside (Keyed.find? store.queues queue))
    (hcreate : store.knobs.createRace = false) (hget : store.knobs.stealOnGet = 0)
    (call : QueueCall) (hpermits : permits queue (inside i) call) :
    Guards (Function.update inside i (standing (inside i) (.queue call) (store.queue call).1))
      (Keyed.find? (store.queue call).2.queues queue) := by
  have hstay : Guards (Function.update inside i (inside i)) (Keyed.find? store.queues queue) := by
    rw [Function.update_eq_self]
    exact h
  cases call with
  | «exists» name => exact hstay
  | count name => exact hstay
  | peek name =>
      simp only [World.queue]
      split <;> exact hstay
  | get name =>
      obtain rfl : name = queue := hpermits.1
      simp only [World.queue]
      split
      next messages hmessages =>
        dsimp only
        rw [Keyed.find?_set_self, hget, List.drop_zero, ← hmessages]
        exact hstay
      next => exact hstay
  | create name =>
      obtain rfl : name = queue := hpermits.1
      simp only [World.queue]
      split
      next => exact hstay
      next habsent =>
        dsimp only
        rw [Keyed.find?_set_self, hcreate]
        exact Guards.enter (h.outside_of_ne (by simp [habsent]))
  | put name text =>
      obtain ⟨rfl, hinside⟩ : name = queue ∧ inside i = true := hpermits
      have hempty := h.empty i hinside
      simp only [World.queue, hempty, append]
      rw [Keyed.find?_set_self]
      refine h.exit hinside fun messages hmessages => ?_
      cases hmessages
      exact Nat.le_refl 1
  | delete name =>
      obtain ⟨rfl, hinside⟩ : name = queue ∧ inside i = true := hpermits
      have hempty := h.empty i hinside
      simp only [World.queue, hempty]
      rw [Keyed.find?_erase_self]
      exact h.exit hinside fun messages hmessages => by cases hmessages
  | deleteMessage name message =>
      obtain rfl : name = queue := hpermits.1
      simp only [World.queue]
      split
      next messages hmessages =>
        split
        next hany =>
          -- A message is there, so that it is the only one and nobody is inside.
          have hsingle := h.single messages hmessages
          obtain ⟨only, rfl⟩ : ∃ only, messages = [only] := by
            cases messages with
            | nil => cases hany
            | cons first rest =>
                cases rest with
                | nil => exact ⟨first, rfl⟩
                | cons second rest => simp at hsingle
          have hid : only.id = message.id := by simpa using hany
          dsimp only
          rw [Keyed.find?_set_self]
          simp only [ne_eq, hid, not_true_eq_false, decide_false, List.filter_cons_of_neg,
            Bool.false_eq_true, not_false_eq_true, List.filter_nil]
          exact Guards.enter (h.outside_of_ne (by simp [hmessages]))
        next => exact hstay
      next => exact hstay

/-! ## All turns -/

/-- What holds after any number of turns. -/
structure Gathering.Disciplined (queue : String) (g : Gathering ι) : Prop where
  createRace : g.store.knobs.createRace = false
  stealOnGet : g.store.knobs.stealOnGet = 0
  upholds : ∀ i,
    (g.parties i).rest.Upholds (discipline queue) (fun _ _ => True) (g.parties i).inside
  guards : Guards (fun i => (g.parties i).inside) (Keyed.find? g.store.queues queue)

omit [DecidableEq ι] in
theorem Gathering.IsStart.disciplined {queue : String} {g : Gathering ι} (h : g.IsStart queue) :
    g.Disciplined queue := by
  have hoff : ∀ i, (g.parties i).inside = false := by
    intro i
    obtain ⟨site, _, ⟨url, hi⟩ | hi⟩ := h.parties i <;> rw [hi] <;> rfl
  refine ⟨h.createRace, h.stealOnGet, fun i => ?_, ⟨fun i j hi => ?_, fun i hi => ?_, ?_⟩⟩
  · obtain ⟨site, rfl, ⟨url, hi⟩ | hi⟩ := h.parties i
    · rw [hi]
      exact Program.Upholds.bind (run_disciplined site url) fun _ _ _ => trivial
    · rw [hi]
      exact Program.Upholds.bind (complete_disciplined site) fun _ _ _ => trivial
  · rw [hoff i] at hi
    cases hi
  · rw [hoff i] at hi
    cases hi
  · intro messages hmessages
    rw [h.absent] at hmessages
    cases hmessages

theorem Turn.disciplined {queue : String} {g g' : Gathering ι} (hturn : Turn g g')
    (h : g.Disciplined queue) : g'.Disciplined queue := by
  obtain ⟨i, c, next, inside, answer, store, hi, hserves⟩ := hturn
  have hupholds := h.upholds i
  rw [hi] at hupholds
  obtain ⟨hallows, hnext⟩ := hupholds
  have hinside : inside = (g.parties i).inside := by rw [hi]
  have hrest : ∀ j, (Function.update g.parties i
      ⟨next answer, standing inside c answer⟩ j).rest.Upholds (discipline queue) (fun _ _ => True)
      (Function.update g.parties i ⟨next answer, standing inside c answer⟩ j).inside := by
    intro j
    by_cases hj : j = i
    · rw [hj, Function.update_self]
      exact hnext answer _ rfl
    · rw [Function.update_of_ne hj]
      exact h.upholds j
  have hupdate : (fun j => (Function.update g.parties i
        ⟨next answer, standing inside c answer⟩ j).inside) =
      Function.update (fun j => (g.parties j).inside) i (standing inside c answer) :=
    Function.comp_update Party.inside g.parties i _
  subst hinside
  cases hserves with
  | served call =>
      refine ⟨?_, ?_, hrest, ?_⟩
      · rw [queue_eq]
        exact h.createRace
      · rw [queue_eq]
        exact h.stealOnGet
      · rw [hupdate]
        exact guards_served h.guards h.createRace h.stealOnGet call (hallows call rfl)
  | failed call e =>
      refine ⟨h.createRace, h.stealOnGet, hrest, ?_⟩
      have hstill : standing (g.parties i).inside (.queue call) (call.failed e) =
          (g.parties i).inside := by
        cases call <;> rfl
      rw [hupdate, hstill, Function.update_eq_self]
      exact h.guards
  | elsewhere hother =>
      refine ⟨h.createRace, h.stealOnGet, hrest, ?_⟩
      rw [hupdate, standing_elsewhere hother, Function.update_eq_self]
      exact h.guards

theorem Gathering.Reachable.disciplined {queue : String} {g : Gathering ι}
    (h : g.Reachable queue) : g.Disciplined queue := by
  obtain ⟨start, hstart, hturns⟩ := h
  induction hturns with
  | refl => exact hstart.disciplined
  | tail _ hturn ih => exact hturn.disciplined ih

/-- The discipline shuts nobody out: a coordinator with a usable template can come inside. -/
theorem Gathering.IsStart.exists_inside {queue raw : String} {g : Gathering ι}
    (h : g.IsStart queue) {i : ι} {site : Site}
    (hqueue : site.config.swarm.upgradeQueue = queue)
    (hi : g.parties i = .coordinator site raw)
    (hplace : (Template.place raw site.config.swarm.allowInsecureTemplate).isOk = true) :
    ∃ g', Relation.ReflTransGen Turn g g' ∧ (g'.parties i).inside = true := by
  subst hqueue
  let queue := site.config.swarm.upgradeQueue
  obtain ⟨url, hurl⟩ : ∃ url,
      Template.place raw site.config.swarm.allowInsecureTemplate = .ok url := by
    cases hresult : Template.place raw site.config.swarm.allowInsecureTemplate with
    | ok url => exact ⟨url, rfl⟩
    | error e => rw [hresult] at hplace; cases hplace
  obtain ⟨afterTemplate, hfirst, hsecond⟩ : ∃ afterTemplate,
      Party.coordinator site raw = ⟨.ask (.template url) afterTemplate, false⟩ ∧
        ∃ afterExists,
          afterTemplate (.ok plainTemplate) = .ask (.queue (.exists queue)) afterExists ∧
          ∃ afterCreate, afterExists (.ok false) = .ask (.queue (.create queue)) afterCreate := by
    unfold Party.coordinator Upgrade.run Template.validate
    rw [hurl]
    refine ⟨_, rfl, _, rfl, _, rfl⟩
  obtain ⟨afterExists, hsecond, afterCreate, hthird⟩ := hsecond
  have hexists : Serves g.store (.queue (.exists queue)) (.ok false) g.store := by
    have hserved := Serves.served g.store (.exists queue)
    simp only [World.queue, h.absent, queue] at hserved
    exact hserved
  have hcreate : Serves g.store (.queue (.create queue)) (.ok true)
      { g.store with queues := Keyed.set g.store.queues queue [] } := by
    have hserved := Serves.served g.store (.create queue)
    simp only [World.queue, h.absent, h.createRace, queue] at hserved
    exact hserved
  let fetched := Function.update g.parties i ⟨.ask (.queue (.exists queue)) afterExists, false⟩
  let looked := Function.update fetched i ⟨.ask (.queue (.create queue)) afterCreate, false⟩
  have hfetched := Turn.ask g i (.template url) afterTemplate false (.ok plainTemplate) g.store
    (hi.trans hfirst) (.elsewhere fun _ hc => by cases hc)
  have hlooked := Turn.ask ⟨g.store, fetched⟩ i (.queue (.exists queue)) afterExists false
    (.ok false) g.store
    (Function.update_self ..) hexists
  have hcreated := Turn.ask ⟨g.store, looked⟩ i (.queue (.create queue)) afterCreate false
    (.ok true) _
    (Function.update_self ..) hcreate
  rw [hsecond] at hfetched
  rw [hthird] at hlooked
  refine ⟨_, ((Relation.ReflTransGen.single hfetched).tail hlooked).tail hcreated, ?_⟩
  dsimp only
  rw [Function.update_self]
  rfl

/-- Whatever turns the parties take and whatever fails, there is never more than one of them
inside, the queue exists while one is, and it never holds more than one message. -/
theorem mutual_exclusion {queue : String} {g : Gathering ι} (h : g.Reachable queue) :
    (∀ i j, (g.parties i).inside = true → (g.parties j).inside = true → i = j) ∧
      (∀ i, (g.parties i).inside = true → (Keyed.find? g.store.queues queue).isSome = true) ∧
      ∀ messages, Keyed.find? g.store.queues queue = some messages → messages.length ≤ 1 := by
  have hguards := h.disciplined.guards
  refine ⟨hguards.alone, fun i hi => ?_, hguards.single⟩
  rw [hguards.empty i hi]
  rfl

/-- A coordinator beside an agent comes inside, and is there alone. -/
theorem mutual_exclusion_of_two :
    ∃ g : Gathering Bool, g.Reachable "upgrades" ∧ (g.parties true).inside = true ∧
      (∀ i j, (g.parties i).inside = true → (g.parties j).inside = true → i = j) ∧
      (∀ i, (g.parties i).inside = true → (Keyed.find? g.store.queues "upgrades").isSome = true) ∧
      ∀ messages, Keyed.find? g.store.queues "upgrades" = some messages → messages.length ≤ 1 := by
  let coordinator := Party.coordinator trialSite "https://host/a.json"
  let start : Gathering Bool :=
    ⟨{ site := trialSite, clock := default }, fun i => if i then coordinator else .agent trialSite⟩
  have hstart : start.IsStart "upgrades" := by
    refine ⟨rfl, rfl, rfl, fun i => ⟨trialSite, rfl, ?_⟩⟩
    cases i with
    | true => exact .inl ⟨_, rfl⟩
    | false => exact .inr rfl
  have hplace : (Template.place "https://host/a.json" false).isOk = true := by decide +kernel
  have hcoordinator : start.parties true = coordinator := rfl
  obtain ⟨g, hturns, hinside⟩ := hstart.exists_inside rfl hcoordinator hplace
  have hreach : g.Reachable "upgrades" := ⟨start, hstart, hturns⟩
  exact ⟨g, hreach, hinside, mutual_exclusion hreach⟩

end SwarmUpkeep.Lock
