import SwarmUpkeep.Proofs.Upkeep.Questions
import SwarmUpkeep.World.Respond

/-!
# What the services of a world leave alone

Whatever happens to members and machines, the queues, this host and all that was told in advance
stay as they are. A question of the work on nodes changes neither a queue nor who this host is,
whether a fault hits it or not.
-/

namespace SwarmUpkeep.World

variable {w w' w'' : World}

/-- The machines of a scale set and the interfaces that are listed for it, if there is one. -/
def layout (w : World) (set : String) : Option (List Machine × List NetworkInterface) :=
  (Keyed.find? w.sets set).map fun s => (s.machines, s.interfaces)

/-- The second world differs from the first at most in members, the deployment, tables, what is
under way, time and the record of calls, and in its scale sets by when machines were provisioned
and how many there are to be. -/
structure Stirs (w w' : World) : Prop where
  rest : w' = { w with
    members := w'.members
    sets := w'.sets
    deployment := w'.deployment
    supplied := w'.supplied
    tables := w'.tables
    probes := w'.probes
    faults := w'.faults
    pending := w'.pending
    works := w'.works
    nodeCount := w'.nodeCount
    operationCount := w'.operationCount
    clock := w'.clock
    slept := w'.slept
    journal := w'.journal }
  layout : w'.layout = w.layout

namespace Stirs

theorem refl (w : World) : Stirs w w :=
  ⟨rfl, rfl⟩

theorem trans (h : Stirs w w') (h' : Stirs w' w'') : Stirs w w'' := by
  refine ⟨?_, h'.layout.trans h.layout⟩
  rw [h'.rest, h.rest]

theorem queues (h : Stirs w w') : w'.queues = w.queues := by
  rw [h.rest]

theorem localId (h : Stirs w w') : w'.localId = w.localId := by
  rw [h.rest]

theorem knobs (h : Stirs w w') : w'.knobs = w.knobs := by
  rw [h.rest]

end Stirs

/-- A scale set may change in what is not listed of it. -/
theorem layout_set {set : String} {s s' : ScaleSet} (h : Keyed.find? w.sets set = some s)
    (hmachines : s'.machines = s.machines) (hinterfaces : s'.interfaces = s.interfaces) :
    { w with sets := Keyed.set w.sets set s' }.layout = w.layout := by
  funext name
  unfold layout
  by_cases hname : name = set
  · rw [hname, Keyed.find?_set_self, h]
    simp only [Option.map_some, hmachines, hinterfaces]
  · rw [Keyed.find?_set_of_ne _ _ hname]

/-! ## Effects -/

theorem elect_stirs (w : World) : Stirs w w.elect := by
  unfold elect
  split <;> exact ⟨rfl, rfl⟩

theorem demoteNow_stirs (w : World) (id : String) : Stirs w (w.demoteNow id) := by
  unfold demoteNow
  dsimp only
  split
  · exact ⟨rfl, rfl⟩
  · split
    · refine Stirs.trans ?_ (elect_stirs _)
      exact ⟨rfl, rfl⟩
    · exact ⟨rfl, rfl⟩

theorem apply_stirs (w : World) (effect : Effect) : Stirs w (w.apply effect) := by
  cases effect with
  | demotion id => exact demoteNow_stirs w id
  | election => exact elect_stirs w
  | arrival member => exact ⟨rfl, rfl⟩

theorem schedule_stirs (w : World) (delay : Nat) (effect : Effect) :
    Stirs w (w.schedule delay effect) := by
  unfold schedule
  split
  · exact apply_stirs w effect
  · exact ⟨rfl, rfl⟩

theorem foldl_apply_stirs (due : List (Nat × Effect)) (w : World) :
    Stirs w (due.foldl (fun w (_, effect) => w.apply effect) w) := by
  induction due generalizing w with
  | nil => exact Stirs.refl w
  | cons first rest ih => exact (apply_stirs w first.2).trans (ih _)

theorem advance_stirs (w : World) : Stirs w w.advance := by
  refine Stirs.trans ?_ (foldl_apply_stirs _ _)
  exact ⟨rfl, rfl⟩

/-- A reimage changes when a machine was provisioned, but neither machines nor interfaces. -/
theorem reimaged_listed (s : ScaleSet) (machine : String) (now : Instant) :
    let hosts := s.hosts.map fun h =>
      if h.id = machine then { h with provisionedAt := some now } else h
    { s with hosts }.machines = s.machines ∧ { s with hosts }.interfaces = s.interfaces := by
  refine ⟨?_, ?_⟩
  · simp only [ScaleSet.machines, List.map_map]
    congr 1
    funext h
    simp only [Function.comp_apply]
    split <;> rfl
  · simp only [ScaleSet.interfaces, List.flatMap_map]
    congr 2
    funext h
    split <;> rfl

theorem finishReimage_stirs (w : World) (set machine : String) :
    Stirs w (w.finishReimage set machine) := by
  unfold finishReimage
  split
  · exact Stirs.refl w
  next s hset =>
    split
    · exact Stirs.refl w
    · obtain ⟨hmachines, hinterfaces⟩ := reimaged_listed s machine w.clock
      dsimp only
      have hlisted : Stirs w { w with sets := Keyed.set w.sets set _ } :=
        ⟨rfl, layout_set hset hmachines hinterfaces⟩
      split
      · exact hlisted
      · refine hlisted.trans (Stirs.trans ?_ (schedule_stirs _ _ _))
        exact ⟨rfl, rfl⟩

theorem haunt_stirs (w : World) (role : Role) (ghosts : List Ghost) :
    Stirs w (w.haunt role ghosts) := by
  induction ghosts generalizing w with
  | nil => exact Stirs.refl w
  | cons ghost rest ih =>
      refine Stirs.trans ?_ (ih _)
      exact ⟨rfl, rfl⟩

theorem start_stirs (w : World) (plan : Option Plan) (reimaged : Option (String × String)) :
    Stirs w (w.start plan reimaged).2 := by
  unfold start
  split
  · split
    · exact finishReimage_stirs w _ _
    · exact Stirs.refl w
  · exact ⟨rfl, rfl⟩

theorem statusOf_stirs (w : World) (name : String) : Stirs w (w.statusOf name).2 := by
  unfold statusOf
  split
  · exact Stirs.refl w
  · split
    · exact ⟨rfl, rfl⟩
    · split
      · exact Stirs.refl w
      · exact Stirs.refl w
      · refine Stirs.trans ?_ (finishReimage_stirs _ _ _)
        exact ⟨rfl, rfl⟩

theorem started_stirs (w : World) (call : ProviderCall) (reimaged : Option (String × String)) :
    Stirs w (w.started call reimaged).2 :=
  start_stirs w _ reimaged

/-! ## Services -/

/-- A question to the provider that takes no machine away. -/
theorem provider_stirs (w : World) {call : ProviderCall} (h : (Call.provider call).IsWork) :
    Stirs w (w.provider call).2 := by
  cases call with
  | machines set => simp only [provider]; split <;> exact Stirs.refl w
  | interfaces set => simp only [provider]; split <;> exact Stirs.refl w
  | view set machine => simp only [provider]; split <;> exact Stirs.refl w
  | capacity set => simp only [provider]; split <;> exact Stirs.refl w
  | deployment name => simp only [provider]; split <;> exact Stirs.refl w
  | updateModel set machine =>
      simp only [provider]
      split
      · exact started_stirs w _ _
      · exact Stirs.refl w
  | reimage set machine =>
      simp only [provider]
      split
      · exact (haunt_stirs w _ _).trans (started_stirs _ _ _)
      · exact Stirs.refl w
  | delete set machine => exact h.elim
  | setCapacity set n =>
      simp only [provider]
      split
      next s hset =>
        refine Stirs.trans ?_ (started_stirs _ _ _)
        exact ⟨rfl, layout_set hset rfl rfl⟩
      next => exact Stirs.refl w
  | updateDeployment name template parameters =>
      refine Stirs.trans ?_ (started_stirs _ _ _)
      exact ⟨rfl, rfl⟩
  | status operation =>
      cases operation with
      | done => exact Stirs.refl w
      | pending name => exact statusOf_stirs w name

/-- A question to the swarm's control plane that neither leaves nor joins. -/
theorem swarm_stirs (w : World) {call : SwarmCall} {engine : Engine}
    (h : (Call.swarm engine call).IsWork) : Stirs w (w.swarm call).2 := by
  cases call with
  | members role => exact advance_stirs w
  | inspect id => simp only [swarm]; split <;> exact Stirs.refl w
  | demote id =>
      simp only [swarm]
      split
      · exact schedule_stirs w _ _
      · exact Stirs.refl w
  | remove id => simp only [swarm]; split <;> exact ⟨rfl, rfl⟩
  | localId => exact Stirs.refl w
  | joinTokens => exact Stirs.refl w
  | leave => exact h.elim
  | join remote token => exact h.elim

theorem table_stirs (w : World) (call : TableCall) : Stirs w (w.table call).2 := by
  cases call with
  | delete table partition key => simp only [World.table]; split <;> exact ⟨rfl, rfl⟩
  | get table partition key => exact Stirs.refl w
  | upsert table row => exact ⟨rfl, rfl⟩
  | query table partition => exact Stirs.refl w

theorem addon_stirs (w : World) (call : AddonCall) : Stirs w (w.addon call).2 := by
  cases call <;> exact Stirs.refl w

theorem probe_stirs (w : World) (addr : Address) : Stirs w (w.probe addr).2 := by
  unfold probe
  split <;> exact ⟨rfl, rfl⟩

/-- A question to a queue leaves all but the queues. -/
theorem queue_eq (w : World) (call : QueueCall) :
    (w.queue call).2 = { w with
      queues := (w.queue call).2.queues, messageCount := (w.queue call).2.messageCount } := by
  cases call <;> simp only [World.queue] <;> split <;> first | rfl | (split <;> rfl)

/-! ## Faults -/

/-- Whether a fault hits a call of this text. -/
def isStruck (w : World) (text : String) : Bool :=
  (strike text w.faults).1.isSome

/-- The world once a call has been recorded, whether it is hit or not. -/
def noted (w : World) (text : String) : World :=
  (w.receive text).2

theorem noted_eq (w : World) (text : String) :
    w.noted text =
      { w with faults := (w.noted text).faults, journal := (w.noted text).journal } := by
  unfold noted receive
  split <;> rfl

theorem noted_stirs (w : World) (text : String) : Stirs w (w.noted text) := by
  rw [noted_eq]
  exact ⟨rfl, rfl⟩

theorem receive_of_struck {text : String} (h : w.isStruck text = true) :
    ∃ failure, w.receive text = (some failure, w.noted text) := by
  unfold isStruck at h
  unfold noted receive
  split
  next failure faults heq => exact ⟨failure, rfl⟩
  next faults heq => rw [heq] at h; cases h

theorem receive_of_spared {text : String} (h : w.isStruck text = false) :
    w.receive text = (none, w.noted text) := by
  unfold isStruck at h
  unfold noted receive
  split
  next failure faults heq => rw [heq] at h; cases h
  next faults heq => rfl

/-! ## Answers

A call that is hit fails and nothing but the record changes; any other is answered by its service
once it is recorded. -/

theorem respond_swarm_eq (w : World) (engine : Engine) (call : SwarmCall) :
    w.respond (.swarm engine call) =
      match w.receive (engine.text ++ call.text) with
      | (some failure, w) => (call.failed failure.asService, w)
      | (none, w) => w.swarm call :=
  rfl

theorem respond_provider_eq (w : World) {call : ProviderCall} (hcall : call ≠ .status .done) :
    w.respond (.provider call) =
      match w.receive call.text with
      | (some failure, w) => (call.failed failure.asService, w)
      | (none, w) => w.provider call := by
  cases call with
  | status operation =>
      cases operation with
      | done => exact absurd rfl hcall
      | pending name => rfl
  | _ => rfl

theorem respond_queue_eq (w : World) (call : QueueCall) :
    w.respond (.queue call) =
      match w.receive call.text with
      | (some failure, w) => (call.failed failure.asService, w)
      | (none, w) => w.queue call :=
  rfl

theorem respond_table_eq (w : World) (call : TableCall) :
    w.respond (.table call) =
      match w.receive call.text with
      | (some failure, w) => (call.failed failure.asService, w)
      | (none, w) => w.table call :=
  rfl

theorem respond_addon_eq (w : World) (call : AddonCall) :
    w.respond (.addon call) =
      match w.receive call.text with
      | (some failure, w) => (call.failed failure.asAddon, w)
      | (none, w) => w.addon call :=
  rfl

theorem respond_template_eq (w : World) (url : Url) :
    w.respond (.template url) =
      match w.receive (callText "fetch" [url.text]) with
      | (some failure, w) => (.error failure.asService, w)
      | (none, w) => (.ok (w.template url), w) :=
  rfl

theorem respond_swarm_of_struck {engine : Engine} {call : SwarmCall}
    (h : w.isStruck (engine.text ++ call.text) = true) :
    ∃ e, w.respond (.swarm engine call) = (call.failed e, w.noted (engine.text ++ call.text)) := by
  obtain ⟨failure, hreceive⟩ := receive_of_struck h
  exact ⟨failure.asService, by rw [respond_swarm_eq, hreceive]⟩

theorem respond_swarm_of_spared {engine : Engine} {call : SwarmCall}
    (h : w.isStruck (engine.text ++ call.text) = false) :
    w.respond (.swarm engine call) = (w.noted (engine.text ++ call.text)).swarm call := by
  rw [respond_swarm_eq, receive_of_spared h]

theorem respond_provider_of_struck {call : ProviderCall} (hcall : call ≠ .status .done)
    (h : w.isStruck call.text = true) :
    ∃ e, w.respond (.provider call) = (call.failed e, w.noted call.text) := by
  obtain ⟨failure, hreceive⟩ := receive_of_struck h
  exact ⟨failure.asService, by rw [respond_provider_eq w hcall, hreceive]⟩

theorem respond_provider_of_spared {call : ProviderCall} (hcall : call ≠ .status .done)
    (h : w.isStruck call.text = false) :
    w.respond (.provider call) = (w.noted call.text).provider call := by
  rw [respond_provider_eq w hcall, receive_of_spared h]

theorem respond_queue_of_struck {call : QueueCall} (h : w.isStruck call.text = true) :
    ∃ e, w.respond (.queue call) = (call.failed e, w.noted call.text) := by
  obtain ⟨failure, hreceive⟩ := receive_of_struck h
  exact ⟨failure.asService, by rw [respond_queue_eq, hreceive]⟩

theorem respond_queue_of_spared {call : QueueCall} (h : w.isStruck call.text = false) :
    w.respond (.queue call) = (w.noted call.text).queue call := by
  rw [respond_queue_eq, receive_of_spared h]

/-- Fetching a template leaves no more than its record, whether it is hit or not. -/
theorem respond_template (w : World) (url : Url) :
    (w.respond (.template url)).2 = w.noted (callText "fetch" [url.text]) := by
  cases hstruck : w.isStruck (callText "fetch" [url.text]) with
  | true =>
      obtain ⟨failure, hreceive⟩ := receive_of_struck hstruck
      rw [respond_template_eq, hreceive]
  | false => rw [respond_template_eq, receive_of_spared hstruck]

/-! ## What a call leaves

What holds of the world in which a call is recorded, and of what its service leaves if no fault hits
the call, holds after the call. -/

variable {motive : World → Prop}

theorem of_receive {α : Type} {text : String} {fails : Failure → α} {serves : World → α × World}
    (hnoted : motive (w.noted text)) (hserved : motive (serves (w.noted text)).2) :
    motive (match w.receive text with
      | (some failure, w) => (fails failure, w)
      | (none, w) => serves w).2 := by
  cases hstruck : w.isStruck text with
  | true =>
      obtain ⟨failure, hreceive⟩ := receive_of_struck hstruck
      rw [hreceive]
      exact hnoted
  | false =>
      rw [receive_of_spared hstruck]
      exact hserved

theorem respond_swarm_leaves {engine : Engine} {call : SwarmCall}
    (hnoted : motive (w.noted (engine.text ++ call.text)))
    (hserved : motive ((w.noted (engine.text ++ call.text)).swarm call).2) :
    motive (w.respond (.swarm engine call)).2 := by
  rw [respond_swarm_eq]
  exact of_receive hnoted hserved

/-- Nobody is asked for the state of work that is done. -/
theorem respond_provider_leaves {call : ProviderCall}
    (hdone : call = .status .done → motive w) (hnoted : motive (w.noted call.text))
    (hserved : motive ((w.noted call.text).provider call).2) :
    motive (w.respond (.provider call)).2 := by
  by_cases hcall : call = .status .done
  · subst hcall
    exact hdone rfl
  · rw [respond_provider_eq w hcall]
    exact of_receive hnoted hserved

theorem respond_queue_leaves {call : QueueCall} (hnoted : motive (w.noted call.text))
    (hserved : motive ((w.noted call.text).queue call).2) :
    motive (w.respond (.queue call)).2 := by
  rw [respond_queue_eq]
  exact of_receive hnoted hserved

theorem respond_table_leaves {call : TableCall} (hnoted : motive (w.noted call.text))
    (hserved : motive ((w.noted call.text).table call).2) :
    motive (w.respond (.table call)).2 := by
  rw [respond_table_eq]
  exact of_receive hnoted hserved

theorem respond_addon_leaves {call : AddonCall} (hnoted : motive (w.noted call.text))
    (hserved : motive ((w.noted call.text).addon call).2) :
    motive (w.respond (.addon call)).2 := by
  rw [respond_addon_eq]
  exact of_receive hnoted hserved

/-- What a question of the work on nodes leaves as it was. -/
theorem respond_stirs {c : Call} (h : c.IsWork) : Stirs w (w.respond c).2 := by
  cases c with
  | swarm engine call =>
      have hnoted := noted_stirs w (engine.text ++ call.text)
      exact respond_swarm_leaves hnoted (hnoted.trans (swarm_stirs _ h))
  | provider call =>
      have hnoted := noted_stirs w call.text
      exact respond_provider_leaves (fun _ => .refl w) hnoted (hnoted.trans (provider_stirs _ h))
  | table call =>
      have hnoted := noted_stirs w call.text
      exact respond_table_leaves hnoted (hnoted.trans (table_stirs _ call))
  | addon call =>
      have hnoted := noted_stirs w call.text
      exact respond_addon_leaves hnoted (hnoted.trans (addon_stirs _ call))
  | template url =>
      rw [respond_template]
      exact noted_stirs w _
  | probe addr =>
      refine Stirs.trans ?_ (probe_stirs _ addr)
      exact ⟨rfl, rfl⟩
  | queue call => exact h.elim
  | reach addr => exact ⟨rfl, rfl⟩
  | pause milliseconds => exact ⟨rfl, rfl⟩
  | now => exact ⟨rfl, rfl⟩

end SwarmUpkeep.World
