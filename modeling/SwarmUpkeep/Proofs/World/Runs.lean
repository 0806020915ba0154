import SwarmUpkeep.Proofs.World.Frame

/-!
# Runs in a world

A world is one of the surroundings under which a control loop can be judged: it answers as
`World.respond` says, and what is assumed of the places that a run comes to is a rule. What the
queue of a lock holds changes only by questions to it that no fault hits.
-/

namespace SwarmUpkeep.World

variable {w w' : World} {assumed allowed : World → Call → Prop}

/-- The rules of a world in which each question comes where it is assumed to come. -/
def rules (assumed allowed : World → Call → Prop) : Rules Surroundings World where
  allows := allowed
  moves w c answer w' := assumed w c ∧ w.respond c = (answer, w')

theorem obeys_rules {visits : List (World × Call)} (h : ∀ v ∈ visits, assumed v.1 v.2) :
    Program.Obeys (rules assumed allowed) respond visits :=
  fun v hv => ⟨h v hv, rfl⟩

/-- What is still true once a question has been answered is kept by it where it may be asked. -/
theorem keeps_of_respond {inv : World → Prop} {c : Call} (hallowed : ∀ w, inv w → allowed w c)
    (hrespond : ∀ w, inv w → inv (w.respond c).2) : (rules assumed allowed).Keeps inv c := by
  intro w hw
  refine ⟨hallowed w hw, ?_⟩
  rintro answer w' ⟨_, hanswer⟩
  have hleft : (w.respond c).2 = w' := congrArg Prod.snd hanswer
  rw [← hleft]
  exact hrespond w hw

/-- A control loop that upholds the rules of a world ends in it as one of the postconditions says. -/
theorem ends_of_upholds {ε α : Type} {ok : α → World → Prop} {err : ε → World → Prop}
    {x : Control ε α} (h : x.Upholds (rules assumed allowed) ok err w)
    (hvisits : ∀ v ∈ Program.visits respond x w, assumed v.1 v.2) :
    Attempt.outcomeIs ok err (w.run x).1 (w.run x).2 :=
  Program.Upholds.run h (obeys_rules hvisits)

/-- A question to the queue is hit and changes nothing, or it is served. -/
theorem queue_answers {call : QueueCall} {answer : call.Answer}
    (h : w.respond (.queue call) = (answer, w')) :
    (w.isStruck call.text = true ∧ w' = w.noted call.text ∧ ∃ e, answer = call.failed e) ∨
      (w.isStruck call.text = false ∧ (answer, w') = (w.noted call.text).queue call) := by
  cases hstruck : w.isStruck call.text with
  | true =>
      obtain ⟨e, heq⟩ := respond_queue_of_struck hstruck
      rw [heq] at h
      cases h
      exact .inl ⟨rfl, rfl, e, rfl⟩
  | false =>
      rw [respond_queue_of_spared hstruck] at h
      exact .inr ⟨rfl, h.symm⟩

/-- So is a question to the provider that is about more than finished work. -/
theorem provider_answers {call : ProviderCall} {answer : call.Answer} (hcall : call ≠ .status .done)
    (h : w.respond (.provider call) = (answer, w')) :
    (w' = w.noted call.text ∧ ∃ e, answer = call.failed e) ∨
      (answer, w') = (w.noted call.text).provider call := by
  cases hstruck : w.isStruck call.text with
  | true =>
      obtain ⟨e, heq⟩ := respond_provider_of_struck hcall hstruck
      rw [heq] at h
      cases h
      exact .inl ⟨rfl, e, rfl⟩
  | false =>
      rw [respond_provider_of_spared hcall hstruck] at h
      exact .inr h.symm

/-- So is one to the swarm. -/
theorem swarm_answers {engine : Engine} {call : SwarmCall} {answer : call.Answer}
    (h : w.respond (.swarm engine call) = (answer, w')) :
    (w' = w.noted (engine.text ++ call.text) ∧ ∃ e, answer = call.failed e) ∨
      (answer, w') = (w.noted (engine.text ++ call.text)).swarm call := by
  cases hstruck : w.isStruck (engine.text ++ call.text) with
  | true =>
      obtain ⟨e, heq⟩ := respond_swarm_of_struck hstruck
      rw [heq] at h
      cases h
      exact .inl ⟨rfl, e, rfl⟩
  | false =>
      rw [respond_swarm_of_spared hstruck] at h
      exact .inr h.symm

/-- So is one to a table. -/
theorem table_answers {call : TableCall} {answer : call.Answer}
    (h : w.respond (.table call) = (answer, w')) :
    (w' = w.noted call.text ∧ ∃ e, answer = call.failed e) ∨
      (answer, w') = (w.noted call.text).table call := by
  cases hstruck : w.isStruck call.text with
  | true =>
      obtain ⟨failure, hreceive⟩ := receive_of_struck hstruck
      rw [respond_table_eq, hreceive] at h
      cases h
      exact .inl ⟨rfl, failure.asService, rfl⟩
  | false =>
      rw [respond_table_eq, receive_of_spared hstruck] at h
      exact .inr h.symm

/-- A question to a queue changes neither this host nor the machines. -/
theorem respond_queue_own (w : World) (call : QueueCall) :
    (w.respond (.queue call)).2.localId = w.localId ∧
      (w.respond (.queue call)).2.layout = w.layout := by
  have hnoted := noted_stirs w call.text
  cases hstruck : w.isStruck call.text with
  | true =>
      obtain ⟨e, heq⟩ := respond_queue_of_struck hstruck
      rw [heq]
      exact ⟨hnoted.localId, hnoted.layout⟩
  | false =>
      rw [respond_queue_of_spared hstruck, queue_eq]
      exact ⟨hnoted.localId, hnoted.layout⟩

/-- The work on nodes leaves the machines as they are. -/
theorem layout_answer {c : Call} {answer : c.Answer} (h : w.respond c = (answer, w'))
    (hc : c.IsWork) : w'.layout = w.layout := by
  rw [show w' = (w.respond c).2 from (congrArg Prod.snd h).symm]
  exact (respond_stirs hc).layout

/-- A host that learns who it is learns the truth. -/
theorem localId_answer {selfId : Option String}
    (h : w.respond (.swarm .here .localId) = (.ok selfId, w')) : selfId = w.localId := by
  cases hstruck : w.isStruck (Engine.here.text ++ SwarmCall.localId.text) with
  | true =>
      obtain ⟨e, heq⟩ := respond_swarm_of_struck hstruck
      rw [heq] at h
      cases h
  | false =>
      rw [respond_swarm_of_spared hstruck] at h
      cases h
      exact (noted_stirs w _).localId

/-- Machines are listed as they are laid out, and so are their interfaces. -/
theorem machines_answer {set : String} {machines : List Machine}
    (h : w.respond (.provider (.machines set)) = (.ok machines, w')) :
    ∃ interfaces, w.layout set = some (machines, interfaces) := by
  rw [← (noted_stirs w (ProviderCall.machines set).text).layout]
  rcases provider_answers (fun hc => by cases hc) h with ⟨_, e, he⟩ | hserved
  · cases he
  · simp only [provider] at hserved
    split at hserved
    next s hset =>
      cases hserved
      exact ⟨s.interfaces, by simp only [layout, hset, Option.map_some]⟩
    next => cases hserved

theorem interfaces_answer {set : String} {interfaces : List NetworkInterface}
    (h : w.respond (.provider (.interfaces set)) = (.ok interfaces, w')) :
    ∃ machines, w.layout set = some (machines, interfaces) := by
  rw [← (noted_stirs w (ProviderCall.interfaces set).text).layout]
  rcases provider_answers (fun hc => by cases hc) h with ⟨_, e, he⟩ | hserved
  · cases he
  · simp only [provider] at hserved
    split at hserved
    next s hset =>
      cases hserved
      exact ⟨s.machines, by simp only [layout, hset, Option.map_some]⟩
    next => cases hserved

/-! ## Giving the lock up -/

/-- The lock is to be given up. -/
def Releases (queue : String) (v : World × Call) : Prop :=
  v.2 = .queue (.delete queue)

/-- If the lock is to be given up, then no fault hits that. -/
def Spares (queue : String) (v : World × Call) : Prop :=
  Releases queue v → v.1.isStruck (QueueCall.delete queue).text = false

instance (queue : String) : DecidablePred (Releases queue)
  | (_, .queue call) => decidable_of_iff (call = .delete queue) (by simp [Releases])
  | (_, .swarm _ _) | (_, .reach _) | (_, .provider _) | (_, .table _) | (_, .addon _)
  | (_, .probe _) | (_, .template _) | (_, .pause _) | (_, .now) => isFalse fun h => by cases h

instance (queue : String) : DecidablePred (Spares queue) := fun v =>
  inferInstanceAs (Decidable (Releases queue v →
    v.1.isStruck (QueueCall.delete queue).text = false))

/-! ## What a queue holds -/

/-- What the queue holds, if there is one, in a world to which the same has been told in advance as
to another. -/
structure QueueIs (queue : String) (told : Knobs) (contents : Option (List Message))
    (w : World) : Prop where
  contents : Keyed.find? w.queues queue = contents
  knobs : w.knobs = told

namespace QueueIs

variable {queue : String} {told : Knobs} {contents : Option (List Message)}

theorem stirs (h : QueueIs queue told contents w) (hstirs : Stirs w w') :
    QueueIs queue told contents w' := by
  refine ⟨?_, ?_⟩
  · rw [hstirs.queues]
    exact h.contents
  · rw [hstirs.knobs]
    exact h.knobs

theorem noted (h : QueueIs queue told contents w) (text : String) :
    QueueIs queue told contents (w.noted text) :=
  h.stirs (noted_stirs w text)

/-- Where looking is no more than looking: it leaves the queue as it is. -/
theorem look (h : QueueIs queue told contents w) {call : QueueCall}
    (hcall : call = .exists queue ∨ call = .peek queue ∨ call = .count queue)
    {answer : call.Answer} (hanswer : w.respond (.queue call) = (answer, w')) :
    QueueIs queue told contents w' := by
  rcases queue_answers hanswer with ⟨_, rfl, _⟩ | ⟨_, hserved⟩
  · exact h.noted _
  · have hsame : w' = w.noted call.text := by
      refine (congrArg Prod.snd hserved).trans ?_
      rcases hcall with rfl | rfl | rfl
      · rfl
      · simp only [World.queue]
        split <;> rfl
      · rfl
    rw [hsame]
    exact h.noted _

/-- A message that is got is the head, unless others take theirs at the same time. -/
theorem get (h : QueueIs queue told contents w) (hsteal : told.stealOnGet = 0)
    {answer : Except ServiceError (Option Message)}
    (hanswer : w.respond (.queue (.get queue)) = (answer, w')) :
    QueueIs queue told contents w' ∧
      ∀ message, answer = .ok (some message) → ∃ rest, contents = some (message :: rest) := by
  rcases queue_answers hanswer with ⟨_, rfl, e, rfl⟩ | ⟨_, hserved⟩
  · exact ⟨h.noted _, fun message hmessage => by cases hmessage⟩
  · have hnoted := h.noted (QueueCall.get queue).text
    simp only [World.queue, hnoted.contents, hnoted.knobs, hsteal, List.drop_zero] at hserved
    cases contents with
    | none =>
        cases hserved
        exact ⟨hnoted, fun message hmessage => by cases hmessage⟩
    | some messages =>
        cases hserved
        refine ⟨⟨Keyed.find?_set_self _ _ _, rfl⟩, fun message hmessage => ?_⟩
        cases messages with
        | nil => cases hmessage
        | cons first rest =>
            cases hmessage
            exact ⟨rest, rfl⟩

/-- Creating a queue that is not there, with nobody else about. -/
theorem create (h : QueueIs queue told none w) (halone : told.createRace = false)
    {answer : Except ServiceError Bool}
    (hanswer : w.respond (.queue (.create queue)) = (answer, w')) :
    (answer = .ok true ∧ QueueIs queue told (some []) w') ∨
      ((∃ e, answer = .error e) ∧ QueueIs queue told none w') := by
  rcases queue_answers hanswer with ⟨_, rfl, e, rfl⟩ | ⟨_, hserved⟩
  · exact .inr ⟨⟨e, rfl⟩, h.noted _⟩
  · have hnoted := h.noted (QueueCall.create queue).text
    simp only [World.queue, hnoted.contents, hnoted.knobs, halone, Bool.not_false] at hserved
    cases hserved
    exact .inl ⟨rfl, Keyed.find?_set_self _ _ _, rfl⟩

/-- Putting a text into a queue that is there. -/
theorem put {messages : List Message} {text : String} (h : QueueIs queue told (some messages) w)
    {answer : Except ServiceError Unit}
    (hanswer : w.respond (.queue (.put queue text)) = (answer, w')) :
    (answer = .ok () ∧ ∃ id, QueueIs queue told (some (messages ++ [⟨id, text⟩])) w') ∨
      ((∃ e, answer = .error e) ∧ QueueIs queue told (some messages) w') := by
  rcases queue_answers hanswer with ⟨_, rfl, e, rfl⟩ | ⟨_, hserved⟩
  · exact .inr ⟨⟨e, rfl⟩, h.noted _⟩
  · have hnoted := h.noted (QueueCall.put queue text).text
    simp only [World.queue, hnoted.contents] at hserved
    cases hserved
    exact .inl ⟨rfl, _, Keyed.find?_set_self _ _ _, hnoted.knobs⟩

/-- Removing a message that is there. -/
theorem remove {message : Message} {messages : List Message}
    (h : QueueIs queue told (some messages) w) (hmem : message ∈ messages)
    (hspared : w.isStruck (QueueCall.deleteMessage queue message).text = false)
    {answer : Except ServiceError Unit}
    (hanswer : w.respond (.queue (.deleteMessage queue message)) = (answer, w')) :
    answer = .ok () ∧
      QueueIs queue told (some (messages.filter fun m => m.id ≠ message.id)) w' := by
  rcases queue_answers hanswer with ⟨hstruck, _⟩ | ⟨_, hserved⟩
  · rw [hspared] at hstruck
    cases hstruck
  · have hnoted := h.noted (QueueCall.deleteMessage queue message).text
    have hany : (messages.any fun m => m.id = message.id) = true :=
      List.any_eq_true.mpr ⟨message, hmem, by simp⟩
    simp only [World.queue, hnoted.contents, hany, if_true] at hserved
    cases hserved
    exact ⟨rfl, Keyed.find?_set_self _ _ _, hnoted.knobs⟩

/-- Deleting a queue that is there. -/
theorem delete {messages : List Message} (h : QueueIs queue told (some messages) w)
    (hspared : w.isStruck (QueueCall.delete queue).text = false)
    {answer : Except ServiceError Unit}
    (hanswer : w.respond (.queue (.delete queue)) = (answer, w')) :
    answer = .ok () ∧ QueueIs queue told none w' := by
  rcases queue_answers hanswer with ⟨hstruck, _⟩ | ⟨_, hserved⟩
  · rw [hspared] at hstruck
    cases hstruck
  · have hnoted := h.noted (QueueCall.delete queue).text
    simp only [World.queue, hnoted.contents] at hserved
    cases hserved
    exact ⟨rfl, Keyed.find?_erase_self _ _, hnoted.knobs⟩

/-- A host that leaves the swarm leaves the queue as it is. -/
theorem leave (h : QueueIs queue told contents w) :
    QueueIs queue told contents (w.respond (.swarm .here .leave)).2 := by
  cases hstruck : w.isStruck (Engine.here.text ++ SwarmCall.leave.text) with
  | true =>
      obtain ⟨e, heq⟩ := respond_swarm_of_struck hstruck
      rw [heq]
      exact h.noted _
  | false =>
      rw [respond_swarm_of_spared hstruck]
      exact ⟨(h.noted _).contents, (h.noted _).knobs⟩

end QueueIs

/-! ## A small swarm -/

/-- Settings without an add-on, under which no wait pauses. -/
def trialSite : Site where
  config :=
    { cloud := default
      swarm :=
        { managerSet := "managers"
          workerSet := "workers"
          deploymentName := "swarm"
          leaderTable := "leaders"
          replicaTable := "replicas"
          upgradeQueue := "upgrades"
          dockerHost := default
          swarmPort := 2377
          diagnosticPort := 44444
          secretParameter := "secret"
          resetSingleManager := true
          allowInsecureTemplate := false }
      addon := default
      timings := .immediate }
  hasAddon := false

/-- The same site with the add-on. -/
def addonSite : Site :=
  { trialSite with hasAddon := true }

/-- A swarm of one manager, which is this host, and no workers. -/
def trial : World where
  site := trialSite
  members := [⟨"m0", "host-0", .v4 10 0 0 4, .manager, .ready, true⟩]
  localId := some "m0"
  sets :=
    [("managers",
        ⟨.manager, 1, [⟨"0", "host-0", [⟨.v4 10 0 0 4, true⟩], .running, .succeeded, none⟩], []⟩),
      ("workers", ⟨.worker, 0, [], []⟩)]
  deployment := ⟨"swarm", none, []⟩
  clock := default

end SwarmUpkeep.World
