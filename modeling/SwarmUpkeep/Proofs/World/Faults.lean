import SwarmUpkeep.Proofs.World.Frame

/-!
# Worlds without faults

No service touches the faults that are told in advance; they are used up by the calls that come in,
and none comes up by itself. In a world without faults no call is ever hit. Nor do members and
machines touch the tables.
-/

namespace SwarmUpkeep.World

variable {w : World} {c : Call}

/-- No fault hits the call. -/
def Undisturbed (w : World) : Call → Prop
  | .reach _ | .probe _ => True
  | c => ∀ text, c.text? = some text → w.isStruck text = false

/-- The second world has the same faults ahead as the first, and the same in its tables. -/
structure Stays (w w' : World) : Prop where
  faults : w'.faults = w.faults
  tables : w'.tables = w.tables

namespace Stays

variable {w' w'' : World}

theorem refl (w : World) : Stays w w :=
  ⟨rfl, rfl⟩

theorem trans (h : Stays w w') (h' : Stays w' w'') : Stays w w'' :=
  ⟨h'.faults.trans h.faults, h'.tables.trans h.tables⟩

end Stays

/-! ## Effects -/

theorem elect_stays (w : World) : Stays w w.elect := by
  unfold elect
  split <;> exact ⟨rfl, rfl⟩

theorem demoteNow_stays (w : World) (id : String) : Stays w (w.demoteNow id) := by
  unfold demoteNow
  dsimp only
  split
  · exact ⟨rfl, rfl⟩
  · split
    · refine Stays.trans ?_ (elect_stays _)
      exact ⟨rfl, rfl⟩
    · exact ⟨rfl, rfl⟩

theorem apply_stays (w : World) (effect : Effect) : Stays w (w.apply effect) := by
  cases effect with
  | demotion id => exact demoteNow_stays w id
  | election => exact elect_stays w
  | arrival member => exact ⟨rfl, rfl⟩

theorem schedule_stays (w : World) (delay : Nat) (effect : Effect) :
    Stays w (w.schedule delay effect) := by
  unfold schedule
  split
  · exact apply_stays w effect
  · exact ⟨rfl, rfl⟩

theorem foldl_apply_stays (due : List (Nat × Effect)) (w : World) :
    Stays w (due.foldl (fun w (_, effect) => w.apply effect) w) := by
  induction due generalizing w with
  | nil => exact .refl w
  | cons first rest ih => exact (apply_stays w first.2).trans (ih _)

theorem advance_stays (w : World) : Stays w w.advance := by
  refine Stays.trans ?_ (foldl_apply_stays _ _)
  exact ⟨rfl, rfl⟩

theorem finishReimage_stays (w : World) (set machine : String) :
    Stays w (w.finishReimage set machine) := by
  unfold finishReimage
  split
  · exact .refl w
  · split
    · exact .refl w
    · dsimp only
      split
      · exact ⟨rfl, rfl⟩
      · refine Stays.trans ?_ (schedule_stays _ _ _)
        exact ⟨rfl, rfl⟩

theorem haunt_stays (w : World) (role : Role) (ghosts : List Ghost) :
    Stays w (w.haunt role ghosts) := by
  induction ghosts generalizing w with
  | nil => exact .refl w
  | cons ghost rest ih =>
      refine Stays.trans ?_ (ih _)
      exact ⟨rfl, rfl⟩

theorem start_stays (w : World) (plan : Option Plan) (reimaged : Option (String × String)) :
    Stays w (w.start plan reimaged).2 := by
  unfold start
  split
  · split
    · exact finishReimage_stays w _ _
    · exact .refl w
  · exact ⟨rfl, rfl⟩

theorem started_stays (w : World) (call : ProviderCall) (reimaged : Option (String × String)) :
    Stays w (w.started call reimaged).2 :=
  start_stays w _ reimaged

theorem statusOf_stays (w : World) (name : String) : Stays w (w.statusOf name).2 := by
  unfold statusOf
  split
  · exact .refl w
  · split
    · exact ⟨rfl, rfl⟩
    · split
      · exact .refl w
      · exact .refl w
      · refine Stays.trans ?_ (finishReimage_stays _ _ _)
        exact ⟨rfl, rfl⟩

/-! ## Services -/

theorem swarm_stays (w : World) (call : SwarmCall) : Stays w (w.swarm call).2 := by
  cases call with
  | members role => exact advance_stays w
  | inspect id => simp only [swarm]; split <;> exact .refl w
  | demote id =>
      simp only [swarm]
      split
      · exact schedule_stays w _ _
      · exact .refl w
  | remove id => simp only [swarm]; split <;> exact ⟨rfl, rfl⟩
  | join remote token =>
      simp only [swarm, join]
      split <;> split <;> exact ⟨rfl, rfl⟩
  | localId => exact .refl w
  | joinTokens => exact .refl w
  | leave => exact ⟨rfl, rfl⟩

theorem provider_stays (w : World) (call : ProviderCall) : Stays w (w.provider call).2 := by
  cases call with
  | machines set => simp only [provider]; split <;> exact .refl w
  | interfaces set => simp only [provider]; split <;> exact .refl w
  | view set machine => simp only [provider]; split <;> exact .refl w
  | capacity set => simp only [provider]; split <;> exact .refl w
  | deployment name => simp only [provider]; split <;> exact .refl w
  | updateModel set machine =>
      simp only [provider]
      split
      · exact started_stays w _ _
      · exact .refl w
  | reimage set machine =>
      simp only [provider]
      split
      · exact (haunt_stays w _ _).trans (started_stays _ _ _)
      · exact .refl w
  | delete set machine =>
      simp only [provider]
      split
      · refine Stays.trans ?_ (started_stays _ _ _)
        exact ⟨rfl, rfl⟩
      · exact .refl w
  | setCapacity set n =>
      simp only [provider]
      split
      · refine Stays.trans ?_ (started_stays _ _ _)
        exact ⟨rfl, rfl⟩
      · exact .refl w
  | updateDeployment name template parameters =>
      refine Stays.trans ?_ (started_stays _ _ _)
      exact ⟨rfl, rfl⟩
  | status operation =>
      cases operation with
      | done => exact .refl w
      | pending name => exact statusOf_stays w name

theorem queue_faults (w : World) (call : QueueCall) : (w.queue call).2.faults = w.faults := by
  rw [queue_eq]

theorem table_faults (w : World) (call : TableCall) : (w.table call).2.faults = w.faults := by
  cases call with
  | delete table partition key => simp only [World.table]; split <;> rfl
  | get table partition key => rfl
  | upsert table row => rfl
  | query table partition => rfl

theorem addon_faults (w : World) (call : AddonCall) : (w.addon call).2.faults = w.faults := by
  cases call <;> rfl

theorem probe_faults (w : World) (addr : Address) : (w.probe addr).2.faults = w.faults := by
  unfold probe
  split <;> rfl

/-! ## Calls -/

theorem isStruck_of_faultless (h : w.faults = []) (text : String) : w.isStruck text = false := by
  rw [isStruck, h]
  rfl

theorem noted_faultless (h : w.faults = []) (text : String) : (w.noted text).faults = [] := by
  rw [noted, receive, h]
  rfl

theorem respond_faultless (h : w.faults = []) (c : Call) : (w.respond c).2.faults = [] := by
  cases c with
  | swarm engine call =>
      have hnoted := noted_faultless h (engine.text ++ call.text)
      exact respond_swarm_leaves (motive := fun left => left.faults = []) hnoted
        ((swarm_stays _ call).faults.trans hnoted)
  | provider call =>
      have hnoted := noted_faultless h call.text
      exact respond_provider_leaves (motive := fun left => left.faults = []) (fun _ => h) hnoted
        ((provider_stays _ call).faults.trans hnoted)
  | queue call =>
      have hnoted := noted_faultless h call.text
      exact respond_queue_leaves (motive := fun left => left.faults = []) hnoted
        ((queue_faults _ call).trans hnoted)
  | table call =>
      have hnoted := noted_faultless h call.text
      exact respond_table_leaves (motive := fun left => left.faults = []) hnoted
        ((table_faults _ call).trans hnoted)
  | addon call =>
      have hnoted := noted_faultless h call.text
      exact respond_addon_leaves (motive := fun left => left.faults = []) hnoted
        ((addon_faults _ call).trans hnoted)
  | template url =>
      rw [respond_template]
      exact noted_faultless h _
  | probe addr => exact (probe_faults _ addr).trans h
  | reach addr => exact h
  | pause milliseconds => exact h
  | now => exact h

theorem undisturbed_of_faultless (h : w.faults = []) (c : Call) : w.Undisturbed c := by
  unfold Undisturbed
  split
  · trivial
  · trivial
  · exact fun text _ => isStruck_of_faultless h text

/-- Where there are no faults, none hits a call of a run, and there are none after it. -/
theorem run_faultless {α : Type} {p : Program Surroundings α} (h : w.faults = []) :
    (∀ v ∈ p.visits respond w, v.1.Undisturbed v.2) ∧ (w.run p).2.faults = [] := by
  induction p generalizing w with
  | done a => exact ⟨fun v hv => absurd hv List.not_mem_nil, h⟩
  | ask c next ih =>
      obtain ⟨hrest, hleft⟩ := ih (w.respond c).1 (respond_faultless h c)
      exact ⟨List.forall_mem_cons.mpr ⟨undisturbed_of_faultless h c, hrest⟩, hleft⟩

/-! ## Answers of a call that no fault hits -/

theorem respond_swarm (h : w.Undisturbed (.swarm engine call)) :
    w.respond (.swarm engine call) = (w.noted (engine.text ++ call.text)).swarm call :=
  respond_swarm_of_spared (h _ rfl)

theorem respond_queue {call : QueueCall} (h : w.Undisturbed (.queue call)) :
    w.respond (.queue call) = (w.noted call.text).queue call :=
  respond_queue_of_spared (h _ rfl)

theorem respond_provider {call : ProviderCall} (hcall : call ≠ .status .done)
    (h : w.Undisturbed (.provider call)) :
    w.respond (.provider call) = (w.noted call.text).provider call := by
  refine respond_provider_of_spared hcall (h _ ?_)
  unfold Call.text?
  split
  all_goals simp_all

end SwarmUpkeep.World
