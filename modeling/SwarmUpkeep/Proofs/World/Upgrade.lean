import SwarmUpkeep.Proofs.Lock.Upgrade
import SwarmUpkeep.Proofs.Swarm.Record
import SwarmUpkeep.Proofs.World.Runs

/-!
# The lock of an upgrade in a world

An upgrade that finds the lock taken fails and touches nothing. One that takes the lock gives it up
or hands it over to its own host, whichever of its calls fail, as long as giving it up does not.
-/

namespace SwarmUpkeep.Upgrade

open Attempt Control World

/-! ## A lock that is taken -/

/-- The world is as it was, apart from the record of calls and the faults that are still to come. -/
def Untouched (origin w : World) : Prop :=
  w = { origin with faults := w.faults, journal := w.journal }

variable {origin w w' : World} {queue : String}

theorem Untouched.noted (h : Untouched origin w) (text : String) :
    Untouched origin (w.noted text) := by
  unfold Untouched
  rw [noted_eq, h]

theorem Untouched.queues (h : Untouched origin w) : w.queues = origin.queues := by
  rw [h]

/-- Nothing is assumed of the places that an upgrade comes to. -/
abbrev unassumed : Rules Surroundings World :=
  World.rules (fun _ _ => True) fun _ _ => True

theorem template_keeps_untouched (url : Url) :
    unassumed.Keeps (Untouched origin) (.template url) := by
  intro w hw
  refine ⟨trivial, ?_⟩
  rintro answer w' ⟨_, hanswer⟩
  have hsame := respond_template w url
  rw [hanswer] at hsame
  subst hsame
  exact hw.noted _

/-- Who asks for a lock that is taken is told so, unless the question fails. -/
theorem isHeld_upholds_untouched {messages : List Message}
    (hqueue : Keyed.find? origin.queues queue = some messages) (hw : Untouched origin w) :
    (Lock.isHeld queue).Upholds unassumed (fun held s => held = true ∧ Untouched origin s)
      (fun _ => Untouched origin) w := by
  refine Upholds.mapError ⟨trivial, ?_⟩
  rintro answer w' ⟨_, hanswer⟩
  have hnoted := hw.noted (QueueCall.exists queue).text
  rcases queue_answers hanswer with ⟨_, rfl, e, rfl⟩ | ⟨_, hserved⟩
  · exact hnoted
  · simp only [World.queue, hnoted.queues, hqueue] at hserved
    cases hserved
    exact ⟨rfl, hnoted⟩

/-- An upgrade that finds the queue there fails, and touches nothing. -/
theorem run_upholds_untouched (site : Site) (templateUrl : String) {messages : List Message}
    (hqueue : Keyed.find? w.queues site.config.swarm.upgradeQueue = some messages) :
    (run site templateUrl).Upholds unassumed (fun _ _ => False) (fun _ => Untouched w) w := by
  have hvalidate : (Template.validate templateUrl site.config.swarm.allowInsecureTemplate).Upholds
      unassumed (fun _ => Untouched w) (fun _ => Untouched w) w := by
    have hasks : (Template.validate templateUrl site.config.swarm.allowInsecureTemplate).Asks
        fun c => ∃ url, c = Call.template url :=
      Template.validate_asks (fun url => ⟨url, rfl⟩) _ _
    refine hasks.keeps ?_ rfl
    rintro c ⟨url, rfl⟩
    exact template_keeps_untouched url
  refine hvalidate.bind fun template s hs => ?_
  have hacquire : (Lock.acquire site.config.swarm.upgradeQueue).Upholds unassumed
      (fun got s => got = .alreadyLocked ∧ Untouched w s) (fun _ => Untouched w) s := by
    refine (isHeld_upholds_untouched hqueue hs).bind ?_
    rintro held s ⟨rfl, hs⟩
    exact ⟨rfl, hs⟩
  refine hacquire.renamed.bind ?_
  rintro got s ⟨rfl, hs⟩
  exact hs

/-! ## A lock that is free -/

/-- The time that the clock tells is one that can be kept. A clock knows no other times, but the
instants of a world reach beyond the years for which they are kept. -/
def KeepsTime (v : World × Call) : Prop :=
  v.2 = .now → v.1.read.1.isKept = true

instance : DecidablePred KeepsTime
  | (w, .now) => decidable_of_iff (w.read.1.isKept = true) (by simp [KeepsTime])
  | (_, .swarm _ _) | (_, .reach _) | (_, .provider _) | (_, .queue _) | (_, .table _)
  | (_, .addon _) | (_, .probe _) | (_, .template _) | (_, .pause _) => isTrue fun h => by cases h

/-- The rules for an upgrade: the deletion of the queue is spared by all faults, and the clock does
not run out. -/
abbrev sparing (queue : String) : Rules Surroundings World :=
  World.rules (fun w c => Spares queue (w, c) ∧ KeepsTime (w, c)) fun _ _ => True

/-- What the queue holds in a world in which this host is who it was. -/
structure Holds (origin : World) (queue : String) (contents : Option (List Message))
    (w : World) : Prop where
  queue : QueueIs queue origin.knobs contents w
  localId : w.localId = origin.localId

/-- The queue holds one message, which is a signal for the host. -/
def Names (origin : World) (queue id : String) (w : World) : Prop :=
  ∃ message signal, Holds origin queue (some [message]) w ∧
    RejoinSignal.parse? message.text = some signal ∧ signal.nodeId = id

/-- Where a host stands that runs an upgrade with nobody else about. -/
def host (origin : World) (queue : String) : Lock.Standing World where
  outside := Holds origin queue none
  inside := Holds origin queue (some [])
  stuck _ := False
  released := Holds origin queue none

variable {contents : Option (List Message)} {assumed : World → Call → Prop}

theorem keeps_of_isWork {c : Call} (hc : c.IsWork) :
    (World.rules assumed fun _ _ => True).Keeps (Holds origin queue contents) c :=
  keeps_of_respond (fun _ _ => trivial) fun _ hw =>
    ⟨hw.queue.stirs (respond_stirs hc), (respond_stirs hc).localId.trans hw.localId⟩

theorem Holds.answered (h : Holds origin queue contents w) {call : QueueCall}
    {answer : call.Answer} {contents' : Option (List Message)}
    (hanswer : w.respond (.queue call) = (answer, w'))
    (hqueue : QueueIs queue origin.knobs contents' w') : Holds origin queue contents' w' := by
  have hown := (respond_queue_own w call).1
  rw [hanswer] at hown
  exact ⟨hqueue, hown.trans h.localId⟩

/-- A signal that is put into the queue can be read back, as long as the clock does not run out. -/
theorem enqueue_upholds (hclock : ∀ w c, assumed w c → KeepsTime (w, c)) (id : String)
    (hw : Holds origin queue (some []) w) :
    (Lock.enqueue queue id).Upholds (World.rules assumed fun _ _ => True)
      (fun _ => Names origin queue id) (fun _ => Holds origin queue (some [])) w := by
  refine upholds_bind.mpr (upholds_lift.mpr ⟨trivial, ?_⟩)
  rintro time w' ⟨hassumed, hanswer⟩
  -- The time of the signal is this one reading of the clock.
  have hkept := hclock w .now hassumed rfl
  cases hanswer
  have hread : Holds origin queue (some []) w.read.2 :=
    ⟨⟨hw.queue.contents, hw.queue.knobs⟩, hw.localId⟩
  have hnanos : w.read.1.nanos < 1000000000 := Instant.nanos_ofNanos_lt _
  refine Upholds.bind (m := fun _ => Names origin queue id) (Upholds.renamed ⟨trivial, ?_⟩)
    fun _ s hs => hs
  rintro answer w' ⟨_, hanswer⟩
  rcases hread.queue.put hanswer with ⟨rfl, msg, hqueue⟩ | ⟨⟨e, rfl⟩, hqueue⟩
  · exact ⟨_, _, hread.answered hanswer hqueue, RejoinSignal.parse?_text ⟨hkept, .inl hnanos⟩, rfl⟩
  · exact hread.answered hanswer hqueue

theorem host_coordination (halone : origin.knobs.createRace = false) :
    Lock.Coordination (sparing queue) queue (host origin queue) (· = origin.localId)
      (Names origin queue) where
  outside _ hc := keeps_of_isWork hc
  inside _ hc := keeps_of_isWork hc
  released _ hc := keeps_of_isWork hc
  inside_of_stuck _ h := h.elim
  isHeld := by
    intro w hw
    refine ⟨trivial, ?_⟩
    rintro answer w' ⟨_, hanswer⟩
    exact hw.answered hanswer (hw.queue.look (.inl rfl) hanswer)
  create := by
    intro w hw
    refine ⟨trivial, ?_⟩
    rintro answer w' ⟨_, hanswer⟩
    rcases hw.queue.create halone hanswer with ⟨rfl, hqueue⟩ | ⟨⟨e, rfl⟩, hqueue⟩
    · exact hw.answered hanswer hqueue
    · exact hw.answered hanswer hqueue
  localId := by
    rintro w selfId w' hw ⟨_, hanswer⟩
    exact (localId_answer hanswer).trans hw.localId
  enqueue _ id _ hw := enqueue_upholds (fun _ _ h => h.2) id hw
  release := by
    intro w hw
    refine upholds_bind.mpr (upholds_outcome.mpr ⟨trivial, ?_⟩)
    rintro answer w' ⟨⟨hspares, _⟩, hanswer⟩
    obtain ⟨rfl, hqueue⟩ := hw.queue.delete (hspares rfl) hanswer
    exact hw.answered hanswer hqueue

/-- What a host without anybody else about has done to the lock when its upgrade is over. -/
structure Settles (origin : World) (queue : String) (result : Except UpgradeError Report)
    (after : World) : Prop where
  /-- The queue is gone exactly after a failure and after a release that is reported. -/
  absent : Keyed.find? after.queues queue = none ↔
    (∃ e, result = .error e) ∨ ∃ report, result = .ok report ∧ report.lockReleased = true
  /-- Otherwise the report says that the lock is handed over to this host, and the queue holds one
  message, a signal for it. -/
  handedOver : ∀ report, result = .ok report → report.lockReleased = false →
    ∃ id message signal, report.handedOff = some id ∧ origin.localId = some id ∧
      Keyed.find? after.queues queue = some [message] ∧
      RejoinSignal.parse? message.text = some signal ∧ signal.nodeId = id

theorem settles_of_error {e : UpgradeError} (h : Holds origin queue none w) :
    Settles origin queue (.error e) w where
  absent := ⟨fun _ => .inl ⟨e, rfl⟩, fun _ => h.queue.contents⟩
  handedOver := by
    rintro report ⟨⟩

theorem settles_of_leaves {report : Report}
    (h : Leaves (host origin queue) (· = origin.localId) (Names origin queue) report w) :
    Settles origin queue (.ok report) w := by
  obtain ⟨id, hhanded, hkept, hself, message, signal, hholds, hparse, hnamed⟩ |
    ⟨_, hreleased, hholds⟩ := h
  · have hsome : Keyed.find? w.queues queue = some [message] := hholds.queue.contents
    refine ⟨⟨fun hnone => ?_, ?_⟩, ?_⟩
    · rw [hsome] at hnone
      cases hnone
    · rintro (⟨e, ⟨⟩⟩ | ⟨_, ⟨⟩, hreleased⟩)
      rw [hkept] at hreleased
      cases hreleased
    · rintro _ ⟨⟩ _
      exact ⟨id, message, signal, hhanded, hself.symm, hsome, hparse, hnamed⟩
  · refine ⟨⟨fun _ => .inr ⟨report, rfl, hreleased⟩, fun _ => hholds.queue.contents⟩, ?_⟩
    rintro _ ⟨⟩ hkept
    rw [hreleased] at hkept
    cases hkept

/-- An upgrade that finds the lock free settles it. -/
theorem run_of_free (site : Site) (templateUrl : String)
    (hqueue : Keyed.find? w.queues site.config.swarm.upgradeQueue = none)
    (halone : w.knobs.createRace = false)
    (hvisits : ∀ v ∈ (run site templateUrl).visits World.respond w,
      Spares site.config.swarm.upgradeQueue v ∧ KeepsTime v) :
    Settles w site.config.swarm.upgradeQueue (w.run (run site templateUrl)).1
      (w.run (run site templateUrl)).2 := by
  have hstart : (host w site.config.swarm.upgradeQueue).outside w := ⟨⟨hqueue, rfl⟩, rfl⟩
  have hrun := run_upholds site (host_coordination halone) templateUrl hstart
  have hend := Program.Upholds.run hrun (obeys_rules hvisits)
  rw [show (run site templateUrl).run respond w = w.run (run site templateUrl) from rfl] at hend
  revert hend
  cases (w.run (run site templateUrl)).1 with
  | ok report => exact settles_of_leaves
  | error e =>
      -- A host that gives up stands outside or has come out: nothing is stuck here.
      rintro (hout | hreleased | hstuck)
      · exact settles_of_error hout
      · exact settles_of_error hreleased
      · exact hstuck.elim

/-- An upgrade that finds the lock taken fails and touches nothing. -/
theorem run_of_held (site : Site) (templateUrl : String)
    (hqueue : (Keyed.find? w.queues site.config.swarm.upgradeQueue).isSome = true) :
    (∃ e, (w.run (run site templateUrl)).1 = .error e) ∧
      Untouched w (w.run (run site templateUrl)).2 := by
  obtain ⟨messages, hqueue⟩ := Option.isSome_iff_exists.mp hqueue
  have hend := Program.Upholds.run (run_upholds_untouched site templateUrl hqueue)
    (obeys_rules fun _ _ => trivial)
  rw [show (run site templateUrl).run respond w = w.run (run site templateUrl) from rfl] at hend
  revert hend
  cases (w.run (run site templateUrl)).1 with
  | ok report => exact False.elim
  | error e => exact fun huntouched => ⟨⟨e, rfl⟩, huntouched⟩

/-- How an upgrade settles the lock, whichever of its calls fail but the deletion of the queue: one
that finds the queue there fails and touches nothing, and one that does not leaves no queue, or
exactly one signal, for its own host. -/
theorem run_settles_lock (site : Site) (templateUrl : String) (w : World) :
    let queue := site.config.swarm.upgradeQueue
    let result := (w.run (run site templateUrl)).1
    let after := (w.run (run site templateUrl)).2
    ((Keyed.find? w.queues queue).isSome = true →
        (∃ e, result = .error e) ∧ Untouched w after) ∧
      (Keyed.find? w.queues queue = none → w.knobs.createRace = false →
        (∀ v ∈ (run site templateUrl).visits World.respond w, Spares queue v ∧ KeepsTime v) →
          Settles w queue result after) :=
  ⟨run_of_held site templateUrl, run_of_free site templateUrl⟩

/-- A single manager upgrades itself: it hands the lock over to itself, and nobody else can take
it from then on. -/
theorem run_settles_lock_trial :
    let upgrade := run trialSite "https://templates.example/swarm.json"
    let after := (trial.run upgrade).2
    (∃ message signal, Keyed.find? after.queues "upgrades" = some [message] ∧
        RejoinSignal.parse? message.text = some signal ∧ signal.nodeId = "m0") ∧
      (∃ e, (after.run upgrade).1 = .error e) ∧ Untouched after (after.run upgrade).2 := by
  intro upgrade after
  have hvisits : ∀ v ∈ upgrade.visits World.respond trial, Spares "upgrades" v ∧ KeepsTime v := by
    decide +kernel
  have hkept : (trial.run upgrade).1.toOption.map Report.lockReleased = some false := by
    decide +kernel
  have hsettled := (run_settles_lock trialSite "https://templates.example/swarm.json" trial).2
    rfl rfl hvisits
  cases hresult : (trial.run upgrade).1 with
  | error e =>
      rw [hresult] at hkept
      cases hkept
  | ok report =>
      rw [hresult] at hkept
      obtain ⟨id, message, signal, _, hself, hqueue, hparse, hnamed⟩ :=
        hsettled.handedOver report hresult (Option.some.inj hkept)
      cases hself
      refine ⟨⟨message, signal, hqueue, hparse, hnamed⟩, ?_⟩
      exact (run_settles_lock trialSite "https://templates.example/swarm.json" after).1
        (Option.isSome_iff_exists.mpr ⟨_, hqueue⟩)

end SwarmUpkeep.Upgrade
