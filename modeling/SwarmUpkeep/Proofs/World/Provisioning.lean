import SwarmUpkeep.Proofs.World.Waning

/-!
# When machines were provisioned

The provider tells of a machine when it was provisioned. Nothing makes a machine newer than it was
but a reimage of it that comes to its end: one that has merely been started leaves the machine its
time.
-/

namespace SwarmUpkeep.World

variable {w w' w'' : World} {set machine name id : String}

/-- When a machine of a scale set was provisioned, if that is known. -/
def ScaleSet.provisioned? (s : ScaleSet) (machine : String) : Option Instant :=
  (s.host? machine).bind (·.provisionedAt)

/-- When a machine was provisioned, if that is known. -/
def provisioned? (w : World) (set machine : String) : Option Instant :=
  (Keyed.find? w.sets set).bind fun s => s.provisioned? machine

/-- In the second world the machine is not newer than in the first: if it is known when it was
provisioned, then that was known already. -/
def Ages (set machine : String) (w w' : World) : Prop :=
  ∀ t, w'.provisioned? set machine = some t → w.provisioned? set machine = some t

namespace Ages

theorem refl (w : World) : Ages set machine w w :=
  fun _ h => h

theorem trans (h : Ages set machine w w') (h' : Ages set machine w' w'') :
    Ages set machine w w'' :=
  fun t ht => h t (h' t ht)

end Ages

/-! ## Effects -/

theorem elect_sets (w : World) : w.elect.sets = w.sets := by
  unfold elect
  split <;> rfl

theorem demoteNow_sets (w : World) (id : String) : (w.demoteNow id).sets = w.sets := by
  unfold demoteNow
  dsimp only
  split
  · rfl
  · split
    · exact elect_sets _
    · rfl

theorem apply_sets (w : World) (effect : Effect) : (w.apply effect).sets = w.sets := by
  cases effect with
  | demotion id => exact demoteNow_sets w id
  | election => exact elect_sets w
  | arrival member => rfl

theorem schedule_sets (w : World) (delay : Nat) (effect : Effect) :
    (w.schedule delay effect).sets = w.sets := by
  unfold schedule
  split
  · exact apply_sets w effect
  · rfl

theorem foldl_apply_sets (due : List (Nat × Effect)) (w : World) :
    (due.foldl (fun w (_, effect) => w.apply effect) w).sets = w.sets := by
  induction due generalizing w with
  | nil => rfl
  | cons first rest ih => exact (ih _).trans (apply_sets w first.2)

theorem advance_sets (w : World) : w.advance.sets = w.sets :=
  foldl_apply_sets _ _

theorem haunt_sets (w : World) (role : Role) (ghosts : List Ghost) :
    (w.haunt role ghosts).sets = w.sets := by
  induction ghosts generalizing w with
  | nil => rfl
  | cons ghost rest ih => exact ih _

theorem noted_sets (w : World) (text : String) : (w.noted text).sets = w.sets := by
  rw [noted_eq]

/-! ## Machines -/

/-- The machine that is being reimaged by an operation. -/
def reimaged? (w : World) (operation : String) : Option (String × String) :=
  (Keyed.find? w.works operation).bind (·.reimaged)

theorem swarm_sets (w : World) (call : SwarmCall) : (w.swarm call).2.sets = w.sets := by
  cases call with
  | members role => exact advance_sets w
  | inspect id => simp only [swarm]; split <;> rfl
  | demote id =>
      simp only [swarm]
      split
      · exact schedule_sets w _ _
      · rfl
  | remove id => simp only [swarm]; split <;> rfl
  | join remote token =>
      simp only [swarm, join]
      split <;> split <;> rfl
  | localId => rfl
  | joinTokens => rfl
  | leave => rfl

theorem queue_sets (w : World) (call : QueueCall) : (w.queue call).2.sets = w.sets := by
  rw [queue_eq]

theorem table_sets (w : World) (call : TableCall) : (w.table call).2.sets = w.sets := by
  cases call with
  | delete table partition key => simp only [World.table]; split <;> rfl
  | get table partition key => rfl
  | upsert table row => rfl
  | query table partition => rfl

theorem addon_sets (w : World) (call : AddonCall) : (w.addon call).2.sets = w.sets := by
  cases call <;> rfl

theorem probe_sets (w : World) (addr : Address) : (w.probe addr).2.sets = w.sets := by
  unfold probe
  split <;> rfl

/-- Only the provider knows of scale sets. -/
theorem respond_sets {c : Call} (hc : ∀ call, c ≠ .provider call) :
    (w.respond c).2.sets = w.sets := by
  cases c with
  | swarm engine call =>
      have hnoted := noted_sets w (engine.text ++ call.text)
      exact respond_swarm_leaves (motive := fun left => left.sets = w.sets) hnoted
        ((swarm_sets _ call).trans hnoted)
  | queue call =>
      have hnoted := noted_sets w call.text
      exact respond_queue_leaves (motive := fun left => left.sets = w.sets) hnoted
        ((queue_sets _ call).trans hnoted)
  | table call =>
      have hnoted := noted_sets w call.text
      exact respond_table_leaves (motive := fun left => left.sets = w.sets) hnoted
        ((table_sets _ call).trans hnoted)
  | addon call =>
      have hnoted := noted_sets w call.text
      exact respond_addon_leaves (motive := fun left => left.sets = w.sets) hnoted
        ((addon_sets _ call).trans hnoted)
  | template url =>
      rw [respond_template]
      exact noted_sets w _
  | probe addr => exact probe_sets _ addr
  | provider call => exact absurd rfl (hc call)
  | reach addr => rfl
  | pause milliseconds => rfl
  | now => rfl

end SwarmUpkeep.World
