import SwarmUpkeep.Proofs.World.Faults
import SwarmUpkeep.Proofs.World.Provisioning
import SwarmUpkeep.Proofs.World.StandDown
import SwarmUpkeep.Proofs.World.Traces

/-!
# Calls that no fault hits

What a check and a reconciliation look up before they change anything is answered as the world is,
where no fault hits the call, and leaves nothing behind but the record of it.
-/

namespace SwarmUpkeep.World

open Attempt Control

variable {w w' w'' : World} {set : String} {role : Role}

/-! ## Time that passes -/

/-- The second world differs from the first at most by time, by what is under way and by what has
been recorded and used up. -/
structure Lapses (w w' : World) : Prop where
  rest : w' = { w with
    probes := w'.probes
    faults := w'.faults
    works := w'.works
    operationCount := w'.operationCount
    clock := w'.clock
    slept := w'.slept
    journal := w'.journal }

namespace Lapses

theorem refl (w : World) : Lapses w w :=
  ⟨rfl⟩

theorem trans (h : Lapses w w') (h' : Lapses w' w'') : Lapses w w'' := by
  refine ⟨?_⟩
  rw [h'.rest, h.rest]

theorem members (h : Lapses w w') : w'.members = w.members := by
  rw [h.rest]

theorem sets (h : Lapses w w') : w'.sets = w.sets := by
  rw [h.rest]

theorem pending (h : Lapses w w') : w'.pending = w.pending := by
  rw [h.rest]

theorem knobs (h : Lapses w w') : w'.knobs = w.knobs := by
  rw [h.rest]

theorem queues (h : Lapses w w') : w'.queues = w.queues := by
  rw [h.rest]

/-- Time passes in the same way beside other members, with other effects put off and beside other
scale sets. -/
theorem withMembers (h : Lapses w w') (members : List Member) :
    Lapses { w with members } { w' with members } := by
  refine ⟨?_⟩
  rw [h.rest]

theorem withEffects (h : Lapses w w') (members : List Member) (pending : List (Nat × Effect)) :
    Lapses { w with members, pending } { w' with members, pending } := by
  refine ⟨?_⟩
  rw [h.rest]

theorem withSets (h : Lapses w w') (sets : List (String × ScaleSet)) :
    Lapses { w with sets } { w' with sets } := by
  refine ⟨?_⟩
  rw [h.rest]

end Lapses

theorem noted_lapses (w : World) (text : String) : Lapses w (w.noted text) := by
  rw [noted_eq]
  exact ⟨rfl⟩

/-! ## What has been changed -/

/-- The places at which members and machines have been changed. -/
def Traced.changes (s : Traced) : List (World × Call) :=
  s.2.filter fun v => v.2.mutates

theorem changes_of_moves {assumed : World → Call → Prop} {s s' : Traced} {c : Call}
    {answer : c.Answer} (h : (tracedRules assumed).moves s c answer s') :
    s'.changes = s.changes ++ if c.mutates then [(s.1, c)] else [] := by
  rw [Traced.changes, h.2, List.filter_append, List.filter_singleton, Bool.cond_eq_ite]
  rfl

/-- The rules of a world in which no fault hits a call. -/
abbrev undisturbedRules : Rules Surroundings Traced :=
  tracedRules Undisturbed

theorem undisturbed_of_moves {s s' : Traced} {c : Call} {answer : c.Answer}
    (h : undisturbedRules.moves s c answer s') : s.1.Undisturbed c :=
  h.1.1

/-! ## What is looked up -/

variable {s s' : Traced} {found : ScaleSet}

/-- The second world is the first but for time, and nothing has been changed in between. -/
def Idles (s s' : Traced) : Prop :=
  Lapses s.1 s'.1 ∧ s'.changes = s.changes

theorem Idles.refl (s : Traced) : Idles s s :=
  ⟨.refl s.1, rfl⟩

theorem Idles.trans {s s' s'' : Traced} (h : Idles s s') (h' : Idles s' s'') : Idles s s'' :=
  ⟨h.1.trans h'.1, h'.2.trans h.2⟩

/-- The lock is held if its queue exists. -/
theorem isHeld_traced (queue : String) (s : Traced) :
    (Lock.isHeld queue).Upholds undisturbedRules
      (fun held s' => held = (Keyed.find? s.1.queues queue).isSome ∧ Idles s s')
      (fun _ _ => False) s := by
  refine Upholds.mapError ⟨trivial, fun answer s' hmove => ?_⟩
  have hnoted := noted_lapses s.1 (QueueCall.exists queue).text
  have hanswer := answer_of_moves hmove
  rw [respond_queue (undisturbed_of_moves hmove)] at hanswer
  obtain ⟨rfl, hleft⟩ := Prod.mk.inj hanswer
  refine ⟨?_, ?_, ?_⟩
  · rw [hnoted.queues]
  · rw [← hleft]
    exact hnoted
  · rw [changes_of_moves hmove]
    exact List.append_nil _

theorem machines_traced (hset : Keyed.find? s.1.sets set = some found) :
    (machines set).Upholds undisturbedRules
      (fun machines s' => machines = found.machines ∧ Idles s s') (fun _ _ => False) s := by
  refine ⟨trivial, fun answer s' hmove => ?_⟩
  have hnoted := noted_lapses s.1 (ProviderCall.machines set).text
  have hanswer := answer_of_moves hmove
  rw [respond_provider (fun h => by cases h) (undisturbed_of_moves hmove), provider, hnoted.sets,
    hset] at hanswer
  obtain ⟨rfl, hleft⟩ := Prod.mk.inj hanswer
  refine ⟨rfl, ?_, ?_⟩
  · rw [← hleft]
    exact hnoted
  · rw [changes_of_moves hmove]
    exact List.append_nil _

theorem interfaces_traced (hset : Keyed.find? s.1.sets set = some found) :
    (interfaces set).Upholds undisturbedRules
      (fun interfaces s' => interfaces = found.interfaces ∧ Idles s s') (fun _ _ => False) s := by
  refine ⟨trivial, fun answer s' hmove => ?_⟩
  have hnoted := noted_lapses s.1 (ProviderCall.interfaces set).text
  have hanswer := answer_of_moves hmove
  rw [respond_provider (fun h => by cases h) (undisturbed_of_moves hmove), provider, hnoted.sets,
    hset] at hanswer
  obtain ⟨rfl, hleft⟩ := Prod.mk.inj hanswer
  refine ⟨rfl, ?_, ?_⟩
  · rw [← hleft]
    exact hnoted
  · rw [changes_of_moves hmove]
    exact List.append_nil _

theorem machineTable_traced (hset : Keyed.find? s.1.sets set = some found) :
    (Resolution.machineTable set).Upholds undisturbedRules
      (fun table s' => table = Resolution.addressed found.machines found.interfaces ∧ Idles s s')
      (fun _ _ => False) s := by
  refine (machines_traced hset).bind ?_
  rintro machines s' ⟨rfl, hidles⟩
  have hset' : Keyed.find? s'.1.sets set = some found := by rw [hidles.1.sets, hset]
  refine (interfaces_traced hset').bind ?_
  rintro interfaces s'' ⟨rfl, hidles'⟩
  exact ⟨rfl, hidles.trans hidles'⟩

/-- A scale set whose machines can be told is there. -/
theorem machineTable_found (set : String) (s : Traced) :
    (Resolution.machineTable set).Upholds undisturbedRules
      (fun table s' => ∃ found, Keyed.find? s.1.sets set = some found ∧
        table = Resolution.addressed found.machines found.interfaces ∧ Idles s s')
      (fun _ _ => True) s := by
  cases hset : Keyed.find? s.1.sets set with
  | some found =>
      exact (machineTable_traced hset).mono (fun _ _ hs => ⟨found, rfl, hs⟩) fun _ _ _ => trivial
  | none =>
      have hmachines : (machines set).Upholds undisturbedRules (fun _ _ => False)
          (fun _ _ => True) s := by
        refine ⟨trivial, fun answer s' hmove => ?_⟩
        have hanswer := answer_of_moves hmove
        rw [respond_provider (fun h => by cases h) (undisturbed_of_moves hmove), provider,
          (noted_lapses s.1 _).sets, hset] at hanswer
        obtain ⟨rfl, _⟩ := Prod.mk.inj hanswer
        trivial
      exact hmachines.bind fun _ _ hs => hs.elim

/-- Looking at a machine leaves nothing behind. -/
theorem glance_lapses {c : Call} (hc : c.IsGlance) : Lapses w (w.respond c).2 := by
  cases c with
  | provider call =>
      cases call with
      | view set machine =>
          have hnoted := noted_lapses w (ProviderCall.view set machine).text
          refine respond_provider_leaves (fun _ => .refl w) hnoted ?_
          simp only [provider]
          split <;> exact hnoted
      | _ => exact hc.elim
  | probe addr =>
      simp only [respond, probe]
      split <;> exact ⟨rfl⟩
  | pause milliseconds => exact ⟨rfl⟩
  | now => exact ⟨rfl⟩
  | _ => exact hc.elim

/-- A question changes nothing if it leaves nothing behind and takes nothing away. -/
theorem Idles.of_moves {s'' : Traced} {c : Call} {answer : c.Answer} (h : Idles s s')
    (hmove : undisturbedRules.moves s' c answer s'')
    (hlapses : Lapses s'.1 (s'.1.respond c).2) (hmutates : c.mutates = false) : Idles s s'' := by
  rw [answer_of_moves hmove] at hlapses
  refine h.trans ⟨hlapses, ?_⟩
  rw [changes_of_moves hmove, hmutates]
  exact List.append_nil _

theorem examine_traced (config : Config) (members : List Member) (row : MachineAddress) (s : Traced) :
    (Health.examine config set members row).Upholds undisturbedRules
      (fun verdict s' =>
        (verdict = .dead → (Health.statusAt members row.privateIp).any Status.isReady = false) ∧
          Idles s s')
      (fun _ => Idles s) s := by
  refine Health.examine_upholds (fun c hc => traced_keeps fun s' answer s'' hs hmove => ?_)
    (.refl s)
  refine hs.of_moves hmove (glance_lapses hc) ?_
  unfold Call.IsGlance at hc
  unfold Call.mutates
  split at hc <;> simp_all

/-- The members are listed once what is due has happened. -/
theorem members_traced (role : Role) (s : Traced) :
    (Control.members .here (some role)).Upholds undisturbedRules
      (fun listed s' => ∃ w, Lapses s.1 w ∧ s'.1 = w.advance ∧
        listed = ofRole w.advance.members (some role) ∧ s'.changes = s.changes)
      (fun _ _ => False) s := by
  refine ⟨trivial, fun answer s' hmove => ?_⟩
  have hanswer := answer_of_moves hmove
  rw [respond_swarm (undisturbed_of_moves hmove)] at hanswer
  obtain ⟨rfl, hleft⟩ := Prod.mk.inj hanswer
  refine ⟨_, noted_lapses s.1 _, hleft.symm, rfl, ?_⟩
  rw [changes_of_moves hmove]
  exact List.append_nil _

/-- Nothing is due where nothing has been put off. -/
theorem advance_of_none (h : w.pending = []) : w.advance = w := by
  unfold advance
  rw [h]
  obtain ⟨⟩ := w
  cases h
  rfl

end SwarmUpkeep.World
