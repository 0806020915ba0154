import SwarmUpkeep.Proofs.Lock.Handoff
import SwarmUpkeep.Proofs.World.Upgrade

/-!
# Who acts on a handover

An upgrade that hands over leaves one signal in the queue, and the signal can be read back as it was
written, whatever the identifier of the host is. Of the hosts that look at the queue next, the one
that is named takes the signal; any other is told whom it names and leaves everything as it is.
-/

namespace SwarmUpkeep

open Attempt Control World

namespace Upgrade

/-! ## The signal -/

/-- This host is who it was, and the same has been told in advance. -/
structure SameHost (origin w : World) : Prop where
  knobs : w.knobs = origin.knobs
  localId : w.localId = origin.localId

/-- The rules for an upgrade: the clock does not run out. -/
abbrev timely : Rules Surroundings World :=
  World.rules (fun w c => KeepsTime (w, c)) fun _ _ => True

variable {origin w w' : World} {queue : String}

theorem SameHost.stirs (h : SameHost origin w) (hstirs : Stirs w w') : SameHost origin w' :=
  ⟨hstirs.knobs.trans h.knobs, hstirs.localId.trans h.localId⟩

theorem SameHost.asked (h : SameHost origin w) (call : QueueCall) :
    SameHost origin (w.respond (.queue call)).2 := by
  have hnoted := h.stirs (noted_stirs w call.text)
  cases hstruck : w.isStruck call.text with
  | true =>
      obtain ⟨e, heq⟩ := respond_queue_of_struck hstruck
      rw [heq]
      exact hnoted
  | false =>
      rw [respond_queue_of_spared hstruck, queue_eq]
      exact ⟨hnoted.knobs, hnoted.localId⟩

theorem Holds.sameHost {contents : Option (List Message)} (h : Holds origin queue contents w) :
    SameHost origin w :=
  ⟨h.queue.knobs, h.localId⟩

theorem sameHost_keeps {c : Call} (hc : c.IsWork) : timely.Keeps (SameHost origin) c :=
  keeps_of_respond (fun _ _ => trivial) fun _ hw => hw.stirs (respond_stirs hc)

/-- Where a host stands that runs an upgrade, whatever the queue is like and whoever else is about:
it is inside once it has found that it created the queue. -/
def contender (origin : World) (queue : String) : Lock.Standing World where
  outside := SameHost origin
  inside := Holds origin queue (some [])
  stuck := Holds origin queue (some [])
  released := SameHost origin

theorem contender_coordination :
    Lock.Coordination timely queue (contender origin queue) (· = origin.localId)
      (Names origin queue) where
  outside _ hc := sameHost_keeps hc
  inside _ hc := keeps_of_isWork hc
  released _ hc := sameHost_keeps hc
  inside_of_stuck _ h := h
  isHeld := keeps_of_respond (fun _ _ => trivial) fun _ hw => hw.asked _
  create := by
    intro w hw
    refine ⟨trivial, ?_⟩
    rintro answer w' ⟨_, hanswer⟩
    have hsame := hw.asked (.create queue)
    rw [hanswer] at hsame
    rcases queue_answers hanswer with ⟨_, rfl, e, rfl⟩ | ⟨_, hserved⟩
    · exact hsame
    · simp only [World.queue] at hserved
      split at hserved
      next =>
        cases hserved
        exact hsame
      next =>
        cases hrace : (w.noted (QueueCall.create queue).text).knobs.createRace with
        | true =>
            rw [hrace] at hserved
            cases hserved
            exact hsame
        | false =>
            rw [hrace] at hserved
            cases hserved
            exact ⟨⟨Keyed.find?_set_self _ _ _, hsame.knobs⟩, hsame.localId⟩
  localId := by
    rintro w selfId w' hw ⟨_, hanswer⟩
    exact (localId_answer hanswer).trans hw.localId
  enqueue _ id _ hw := enqueue_upholds (fun _ _ h => h) id hw
  release := by
    intro w hw
    refine upholds_bind.mpr (upholds_outcome.mpr ⟨trivial, ?_⟩)
    rintro answer w' ⟨_, hanswer⟩
    have hsame := hw.sameHost.asked (.delete queue)
    rw [hanswer] at hsame
    rcases queue_answers hanswer with ⟨_, rfl, e, rfl⟩ | ⟨hspared, _⟩
    · have hkept := hw.answered hanswer (hw.queue.noted _)
      cases e with
      | notFound what => exact hsame
      | _ => exact hkept
    · obtain ⟨rfl, _⟩ := hw.queue.delete hspared hanswer
      exact hsame

/-- An upgrade that hands over leaves one signal, which names the host that it has told of. -/
theorem run_names {site : Site} {templateUrl : String} {report : Report} {id : String}
    (hclock : ∀ v ∈ (run site templateUrl).visits World.respond w, KeepsTime v)
    (hresult : (w.run (run site templateUrl)).1 = .ok report)
    (hhanded : report.handedOff = some id) :
    Names w site.config.swarm.upgradeQueue id (w.run (run site templateUrl)).2 := by
  have hstart : (contender w site.config.swarm.upgradeQueue).outside w := ⟨rfl, rfl⟩
  have hend := ends_of_upholds (run_upholds site contender_coordination templateUrl hstart) hclock
  rw [hresult] at hend
  obtain ⟨named, hnamed, _, _, hnames⟩ | ⟨hnobody, _⟩ := hend
  · rw [hhanded] at hnamed
    cases hnamed
    exact hnames
  · rw [hhanded] at hnobody
    cases hnobody

end Upgrade

namespace Handoff

open Upgrade (Untouched)

/-! ## A look at the queue -/

/-- The question is none to a queue, or for who this host is, or else no fault hits it. -/
def Unhit : World × Call → Prop
  | (w, .queue call) => w.isStruck call.text = false
  | (w, .swarm engine .localId) => w.isStruck (engine.text ++ SwarmCall.localId.text) = false
  | _ => True

instance : DecidablePred Unhit
  | (w, .queue call) => inferInstanceAs (Decidable (w.isStruck call.text = false))
  | (w, .swarm engine .localId) =>
      inferInstanceAs (Decidable (w.isStruck (engine.text ++ SwarmCall.localId.text) = false))
  | (_, .swarm _ (.members _)) | (_, .swarm _ (.inspect _)) | (_, .swarm _ (.demote _))
  | (_, .swarm _ (.remove _)) | (_, .swarm _ .joinTokens) | (_, .swarm _ .leave)
  | (_, .swarm _ (.join _ _)) | (_, .reach _) | (_, .provider _) | (_, .table _) | (_, .addon _)
  | (_, .probe _) | (_, .template _) | (_, .pause _) | (_, .now) => isTrue trivial

/-- The rules for a handoff that is not disturbed by faults. -/
abbrev undisturbed : Rules Surroundings World :=
  World.rules (fun w c => Unhit (w, c)) fun _ _ => True

variable {host w w' : World} {queue : String} {message : Message} {signal : RejoinSignal}
variable {told : Knobs}

theorem localId_upholds (hw : Untouched host w) :
    localId.Upholds undisturbed (fun found w' => found = host.localId ∧ Untouched host w')
      (fun _ _ => False) w := by
  refine ⟨trivial, ?_⟩
  rintro answer w' ⟨hunhit, hanswer⟩
  rw [respond_swarm_of_spared hunhit] at hanswer
  cases hanswer
  have hnoted := hw.noted (Engine.here.text ++ SwarmCall.localId.text)
  refine ⟨?_, hnoted⟩
  rw [hnoted]

/-- What a question to the queue is answered that no fault hits. -/
theorem answer_of_unhit {call : QueueCall} {answer : call.Answer}
    (hunhit : Unhit (w, .queue call)) (hanswer : w.respond (.queue call) = (answer, w')) :
    (answer, w') = (w.noted call.text).queue call := by
  rw [respond_queue_of_spared hunhit] at hanswer
  exact hanswer.symm

theorem peek_upholds (hw : QueueIs queue told (some [message]) w)
    (hparse : RejoinSignal.parse? message.text = some signal) :
    (Lock.peek queue).Upholds undisturbed
      (fun head w' => head = some signal ∧ w' = w.noted (QueueCall.peek queue).text)
      (fun _ _ => False) w := by
  refine upholds_bind.mpr (upholds_outcome.mpr ⟨trivial, ?_⟩)
  rintro answer w' ⟨hunhit, hanswer⟩
  have hserved := answer_of_unhit hunhit hanswer
  simp only [World.queue, (hw.noted _).contents] at hserved
  cases hserved
  refine upholds_bind.mpr (upholds_ofExcept.mpr ?_)
  simp only [Lock.signalOf, hparse]
  exact ⟨rfl, rfl⟩

theorem count_upholds (hw : QueueIs queue told (some [message]) w) :
    (Lock.pendingSignals queue).Upholds undisturbed
      (fun pending w' => pending = 1 ∧ w' = w.noted (QueueCall.count queue).text)
      (fun _ _ => False) w := by
  refine Upholds.renamed ⟨trivial, ?_⟩
  rintro answer w' ⟨hunhit, hanswer⟩
  have hserved := answer_of_unhit hunhit hanswer
  simp only [World.queue, (hw.noted _).contents] at hserved
  cases hserved
  exact ⟨rfl, rfl⟩

theorem get_upholds (hsteal : told.stealOnGet = 0) (hw : QueueIs queue told (some [message]) w) :
    (getMessage queue).Upholds undisturbed
      (fun got w' => got = some message ∧ QueueIs queue told (some [message]) w')
      (fun _ _ => False) w := by
  refine ⟨trivial, ?_⟩
  rintro answer w' ⟨hunhit, hanswer⟩
  have hqueue := (hw.get hsteal hanswer).1
  have hserved := answer_of_unhit hunhit hanswer
  have hnoted := hw.noted (QueueCall.get queue).text
  simp only [World.queue, hnoted.contents, hnoted.knobs, hsteal, List.drop_zero] at hserved
  obtain ⟨rfl, _⟩ := Prod.ext_iff.mp hserved
  exact ⟨rfl, hqueue⟩

theorem take_upholds (hw : QueueIs queue told (some [message]) w) :
    (deleteMessage queue message).Upholds undisturbed (fun _ => QueueIs queue told (some []))
      (fun _ _ => False) w := by
  refine ⟨trivial, ?_⟩
  rintro answer w' ⟨hunhit, hanswer⟩
  obtain ⟨rfl, hqueue⟩ := hw.remove (List.mem_singleton_self message) hunhit hanswer
  have hnone : [message].filter (fun m => m.id ≠ message.id) = [] := by simp
  rw [hnone] at hqueue
  exact hqueue

/-- The host that the only signal names takes it. -/
theorem consume_upholds (hsteal : told.stealOnGet = 0)
    (hparse : RejoinSignal.parse? message.text = some signal)
    (hw : QueueIs queue told (some [message]) w) :
    (Lock.consumeFor queue signal.nodeId).Upholds undisturbed
      (fun taken w' => taken = some signal ∧ QueueIs queue told (some []) w')
      (fun _ _ => False) w := by
  have hnamed : signal.isFor signal.nodeId = true := beq_self_eq_true signal.nodeId
  refine (peek_upholds hw hparse).bind ?_
  rintro head w' ⟨rfl, rfl⟩
  simp only [hnamed, Bool.not_true, Bool.false_eq_true, if_false]
  refine Upholds.bind (get_upholds hsteal (hw.noted _)).renamed ?_
  rintro got w' ⟨rfl, hgot⟩
  refine upholds_bind.mpr (upholds_ofExcept.mpr ?_)
  simp only [Lock.signalOf, hparse, outcomeIs, hnamed, Bool.not_true, Bool.false_eq_true, if_false]
  exact Upholds.bind (take_upholds hgot).renamed fun _ w'' hw'' => ⟨rfl, hw''⟩

/-! ## The named host -/

/-- Where a host stands that the only signal names. -/
def addressee (queue : String) (told : Knobs) (message : Message) : Lock.Standing World where
  outside := QueueIs queue told (some [message])
  inside := QueueIs queue told (some [])
  stuck _ := False
  released := QueueIs queue told none

theorem queueIs_keeps {contents : Option (List Message)} {c : Call} (hc : c.IsWork) :
    undisturbed.Keeps (QueueIs queue told contents) c :=
  keeps_of_respond (fun _ _ => trivial) fun _ hw => hw.stirs (respond_stirs hc)

theorem look_keeps {contents : Option (List Message)} {call : QueueCall}
    (hcall : call = .exists queue ∨ call = .peek queue ∨ call = .count queue) :
    undisturbed.Keeps (QueueIs queue told contents) (.queue call) := by
  intro w hw
  refine ⟨trivial, ?_⟩
  rintro answer w' ⟨_, hanswer⟩
  exact hw.look hcall hanswer

theorem addressee_takeover (hsteal : told.stealOnGet = 0) :
    Lock.Takeover undisturbed queue (addressee queue told message) (· = message) where
  outside _ hc := queueIs_keeps hc
  inside _ hc := queueIs_keeps hc
  released _ hc := queueIs_keeps hc
  inside_of_stuck _ h := h.elim
  peek := look_keeps (.inr (.inl rfl))
  count := look_keeps (.inr (.inr rfl))
  get _ hw := by
    refine (get_upholds hsteal hw).mono ?_ fun _ _ h => h.elim
    rintro got w' ⟨rfl, hw'⟩
    exact ⟨hw', fun first hfirst => (Option.some.inj hfirst).symm⟩
  take := by
    rintro w message rfl hw
    exact (take_upholds hw).monoError fun _ _ h => h.elim
  release := by
    intro w hw
    refine upholds_bind.mpr (upholds_outcome.mpr ⟨trivial, ?_⟩)
    rintro answer w' ⟨hunhit, hanswer⟩
    obtain ⟨rfl, hqueue⟩ := hw.delete hunhit hanswer
    exact hqueue
  leave := keeps_of_respond (fun _ _ => trivial) fun _ hw => hw.leave

/-! ## Completing an upgrade -/

variable (site : Site)

/-- The signal is no longer in the queue, if there still is one. -/
def IsTaken (queue : String) (w : World) : Prop :=
  Keyed.find? w.queues queue = some [] ∨ Keyed.find? w.queues queue = none

theorem complete_of_stranger (hlocal : host.localId = none) :
    (complete site).Upholds undisturbed (fun outcome w' => outcome = .idle ∧ Untouched host w')
      (fun _ _ => False) host := by
  have hstart : Untouched host host := rfl
  refine Upholds.bind (localId_upholds hstart).renamed ?_
  rintro found w' ⟨rfl, hw'⟩
  rw [hlocal]
  exact ⟨rfl, hw'⟩

theorem complete_of_other {id : String} (hlocal : host.localId = some id)
    (hother : id ≠ signal.nodeId)
    (hqueue : Keyed.find? host.queues site.config.swarm.upgradeQueue = some [message])
    (hparse : RejoinSignal.parse? message.text = some signal) :
    (complete site).Upholds undisturbed
      (fun outcome w' => outcome = .notForUs signal.nodeId 1 ∧ Untouched host w')
      (fun _ _ => False) host := by
  have hstart : Untouched host host := rfl
  refine Upholds.bind (localId_upholds hstart).renamed ?_
  rintro found w ⟨rfl, hw⟩
  have hholds : QueueIs site.config.swarm.upgradeQueue w.knobs (some [message]) w := by
    rw [← hw.queues] at hqueue
    exact ⟨hqueue, rfl⟩
  rw [hlocal]
  refine Upholds.bind (peek_upholds hholds hparse).renamed ?_
  rintro head w' ⟨rfl, rfl⟩
  have hunnamed : signal.isFor id = false := beq_false_of_ne (Ne.symm hother)
  simp only [hunnamed, Bool.not_false, if_true]
  refine Upholds.bind (count_upholds (hholds.noted _)).renamed ?_
  rintro pending w'' ⟨rfl, rfl⟩
  exact ⟨rfl, (hw.noted _).noted _⟩

theorem complete_of_named (hsteal : host.knobs.stealOnGet = 0)
    (hlocal : host.localId = some signal.nodeId)
    (hqueue : Keyed.find? host.queues site.config.swarm.upgradeQueue = some [message])
    (hparse : RejoinSignal.parse? message.text = some signal) :
    (complete site).Upholds undisturbed
      (fun outcome w' => outcome = .completed signal.nodeId ∧
        IsTaken site.config.swarm.upgradeQueue w')
      (fun _ => IsTaken site.config.swarm.upgradeQueue) host := by
  have hstart : Untouched host host := rfl
  refine Upholds.bind ((localId_upholds hstart).monoError fun _ _ h => h.elim).renamed ?_
  rintro found w ⟨rfl, hw⟩
  have hholds : QueueIs site.config.swarm.upgradeQueue host.knobs (some [message]) w := by
    rw [hw]
    exact ⟨hqueue, rfl⟩
  rw [hlocal]
  refine Upholds.bind ((peek_upholds hholds hparse).monoError fun _ _ h => h.elim).renamed ?_
  rintro head w' ⟨rfl, rfl⟩
  have hnamed : signal.isFor signal.nodeId = true := beq_self_eq_true signal.nodeId
  simp only [hnamed, Bool.not_true, Bool.false_eq_true, if_false]
  have hpeeked := hholds.noted (QueueCall.peek site.config.swarm.upgradeQueue).text
  have hconsume := consume_upholds hsteal hparse hpeeked
  refine Upholds.bind (hconsume.monoError fun _ _ h => h.elim).renamed ?_
  rintro taken w'' ⟨rfl, hw''⟩
  -- From here on the signal is gone, whatever else fails.
  have htakeover : Lock.Takeover undisturbed site.config.swarm.upgradeQueue
      (addressee site.config.swarm.upgradeQueue host.knobs message) (· = message) :=
    addressee_takeover hsteal
  have hdepart := depart_upholds site htakeover signal.nodeId hw''
  refine Upholds.bind (hdepart.monoError ?_) ?_
  · rintro e left (hinside | hreleased)
    · exact .inl hinside.contents
    · exact .inr hreleased.contents
  · exact fun _ left hreleased => ⟨rfl, .inr hreleased.contents⟩

/-- A handoff that is told one thing and cannot fail has told it. -/
theorem told_of_outcomeIs {told : HandoffOutcome} {result : Except RejoinError HandoffOutcome}
    {left : World → Prop}
    (h : outcomeIs (fun outcome w' => outcome = told ∧ left w') (fun _ _ => False) result w) :
    result = .ok told ∧ left w := by
  cases result with
  | error e => exact h.elim
  | ok outcome => exact ⟨congrArg Except.ok h.1, h.2⟩

/-- Which host acts on a signal that is the only one in the queue, and how the others answer. -/
structure ActsOn (queue id : String) (host : World)
    (result : Except RejoinError HandoffOutcome) (after : World) : Prop where
  /-- A host that is no member has nothing to do. -/
  stranger : host.localId = none → result = .ok .idle ∧ Untouched host after
  /-- Another member is told whom the signal names. -/
  other : ∀ other, host.localId = some other → other ≠ id →
    result = .ok (.notForUs id 1) ∧ Untouched host after
  /-- The host that is named takes the signal, and completes its upgrade or fails. -/
  named : host.localId = some id →
    ((∃ e, result = .error e) ∨ result = .ok (.completed id)) ∧ IsTaken queue after

/-- The host that an upgrade has named is the one to act on the handover. That the clock keeps its
time and that nobody else takes from the queue is all that is asked of the surroundings, apart from
the questions of the second host to be spared by the faults. -/
theorem handoff_reaches_named {site next : Site} {templateUrl id : String} {w host : World}
    {report : Upgrade.Report}
    (hclock : ∀ v ∈ (Upgrade.run site templateUrl).visits World.respond w, Upgrade.KeepsTime v)
    (hresult : (w.run (Upgrade.run site templateUrl)).1 = .ok report)
    (hhanded : report.handedOff = some id)
    (hsame : next.config.swarm.upgradeQueue = site.config.swarm.upgradeQueue)
    (hqueue : Keyed.find? host.queues site.config.swarm.upgradeQueue =
      Keyed.find? (w.run (Upgrade.run site templateUrl)).2.queues site.config.swarm.upgradeQueue)
    (hsteal : host.knobs.stealOnGet = 0)
    (hunhit : ∀ v ∈ (complete next).visits World.respond host, Unhit v) :
    ActsOn site.config.swarm.upgradeQueue id host (host.run (complete next)).1
      (host.run (complete next)).2 := by
  obtain ⟨message, signal, hholds, hparse, rfl⟩ := Upgrade.run_names hclock hresult hhanded
  rw [hholds.queue.contents, ← hsame] at hqueue
  rw [← hsame]
  constructor
  · intro hlocal
    exact told_of_outcomeIs (ends_of_upholds (complete_of_stranger next hlocal) hunhit)
  · intro other hlocal hother
    apply told_of_outcomeIs
    exact ends_of_upholds (complete_of_other next hlocal hother hqueue hparse) hunhit
  · intro hlocal
    have hend := ends_of_upholds (complete_of_named next hsteal hlocal hqueue hparse) hunhit
    revert hend
    cases (host.run (complete next)).1 with
    | error e => exact fun htaken => ⟨.inl ⟨e, rfl⟩, htaken⟩
    | ok outcome =>
        rintro ⟨rfl, htaken⟩
        exact ⟨.inr rfl, htaken⟩

/-- A single manager hands over to itself. Of the hosts that look at the queue then, only it acts. -/
theorem handoff_reaches_named_trial :
    let upgrade := Upgrade.run trialSite "https://templates.example/swarm.json"
    let complete (localId : Option String) :=
      { (trial.run upgrade).2 with localId }.run (complete trialSite)
    (complete none).1 = .ok .idle ∧ (complete (some "m1")).1 = .ok (.notForUs "m0" 1) ∧
      (complete (some "m0")).1 = .ok (.completed "m0") ∧
        IsTaken "upgrades" (complete (some "m0")).2 := by
  intro upgrade complete
  have hclock : ∀ v ∈ upgrade.visits World.respond trial, Upgrade.KeepsTime v := by
    decide +kernel
  have hhanded : (trial.run upgrade).1.toOption.bind Upgrade.Report.handedOff = some "m0" := by
    decide +kernel
  have hunhit : ∀ localId ∈ [none, some "m1", some "m0"],
      ∀ v ∈ (Handoff.complete trialSite).visits World.respond
        { (trial.run upgrade).2 with localId }, Unhit v := by
    decide +kernel
  have hsteal : (trial.run upgrade).2.knobs.stealOnGet = 0 := by decide +kernel
  have hsucceeds : (complete (some "m0")).1.isOk = true := by decide +kernel
  cases hresult : (trial.run upgrade).1 with
  | error e =>
      rw [hresult] at hhanded
      cases hhanded
  | ok report =>
      rw [hresult] at hhanded
      have hacts : ∀ localId ∈ [none, some "m1", some "m0"],
          ActsOn "upgrades" "m0" { (trial.run upgrade).2 with localId } (complete localId).1
            (complete localId).2 := fun localId hmem =>
        handoff_reaches_named hclock hresult hhanded rfl rfl hsteal (hunhit localId hmem)
      refine ⟨((hacts none (by simp)).stranger rfl).1,
        ((hacts (some "m1") (by simp)).other "m1" rfl (by decide)).1, ?_⟩
      obtain ⟨hend, htaken⟩ := (hacts (some "m0") (by simp)).named rfl
      refine ⟨?_, htaken⟩
      rcases hend with ⟨e, herror⟩ | hcompleted
      · rw [herror] at hsucceeds
        cases hsucceeds
      · exact hcompleted

end Handoff

end SwarmUpkeep
