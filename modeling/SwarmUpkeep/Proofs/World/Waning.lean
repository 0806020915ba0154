import SwarmUpkeep.Proofs.World.OwnHost
import SwarmUpkeep.Proofs.World.Turnover

/-!
# Fewer ready members, fewer machines

Evicting members and deleting machines leaves fewer of both: nobody becomes ready in a role, and no
machine gets an address. The same goes for looking at machines, and for waiting for an operation
that does not reimage anything. A demotion makes a worker of a manager, so that this holds of
demotions for the role of the managers only.
-/

namespace SwarmUpkeep.World

variable {w w' w'' : World} {role : Role} {set machine : String} {addr : Address}

/-- A member is ready in a role at an address. -/
def Vouched (w : World) (role : Role) (addr : Address) : Prop :=
  ∃ m ∈ w.members, m.role = role ∧ m.addr = addr ∧ m.status.isReady = true

/-- In the second world nobody is ready in the role at an address where nobody was so in the first,
and no machine has an address that it did not have. -/
structure Wanes (role : Role) (w w' : World) : Prop where
  vouched : ∀ addr, w'.Vouched role addr → w.Vouched role addr
  address : ∀ set machine addr, w'.address? set machine = some addr →
    w.address? set machine = some addr

namespace Wanes

theorem trans (h : Wanes role w w') (h' : Wanes role w' w'') : Wanes role w w'' :=
  ⟨fun addr hv => h.vouched addr (h'.vouched addr hv),
    fun set machine addr ha => h.address set machine addr (h'.address set machine addr ha)⟩

/-- Members may go, change what they lead and lose the role. -/
theorem of_members (hlayout : w'.layout = w.layout)
    (hmembers : ∀ m' ∈ w'.members, m'.role = role →
      ∃ m ∈ w.members, m.role = role ∧ m.addr = m'.addr ∧ m.status = m'.status) :
    Wanes role w w' := by
  refine ⟨?_, fun set machine addr ha => ?_⟩
  · rintro addr ⟨m', hm', hrole, rfl, hready⟩
    obtain ⟨m, hm, hrole, haddr, hstatus⟩ := hmembers m' hm' hrole
    exact ⟨m, hm, hrole, haddr, by rw [hstatus, hready]⟩
  · rw [address?, hlayout] at ha
    exact ha

theorem of_eq (hmembers : w'.members = w.members) (hlayout : w'.layout = w.layout) :
    Wanes role w w' :=
  of_members hlayout fun m hm hrole => ⟨m, hmembers ▸ hm, hrole, rfl, rfl⟩

theorem refl (w : World) : Wanes role w w :=
  of_eq rfl rfl

end Wanes

theorem noted_wanes (role : Role) (w : World) (text : String) : Wanes role w (w.noted text) := by
  rw [noted_eq]
  exact .of_eq rfl rfl

/-! ## Evictions -/

theorem elect_wanes (w : World) : Wanes role w w.elect := by
  unfold elect
  split
  · exact .refl w
  · rcases electFirst_eq w.members with hsame | ⟨before, first, after, hmembers, helected⟩
    · exact .of_eq hsame rfl
    · refine .of_members rfl fun m' hm' hrole => ?_
      simp only [helected, List.mem_append, List.mem_cons] at hm'
      simp only [hmembers, List.mem_append, List.mem_cons]
      rcases hm' with hm' | rfl | hm'
      · exact ⟨m', .inl hm', hrole, rfl, rfl⟩
      · exact ⟨first, .inr (.inl rfl), hrole, rfl, rfl⟩
      · exact ⟨m', .inr (.inr hm'), hrole, rfl, rfl⟩

/-- A manager that is demoted is one manager less. -/
theorem demoteNow_wanes (w : World) (id : String) : Wanes .manager w (w.demoteNow id) := by
  have hdemoted : Wanes .manager w { w with members := demoteIn id w.members } := by
    refine .of_members rfl fun m' hm' hrole => ?_
    obtain ⟨m, hm, rfl⟩ := List.mem_map.mp hm'
    by_cases hid : m.id = id
    · rw [if_pos hid] at hrole
      cases hrole
    · rw [if_neg hid] at hrole ⊢
      exact ⟨m, hm, hrole, rfl, rfl⟩
  refine hdemoted.trans ?_
  unfold demoteNow
  dsimp only
  split
  · exact .refl _
  · split
    · exact elect_wanes _
    · exact .of_eq rfl rfl

theorem demote_wanes (w : World) (id : String) :
    Wanes .manager w (w.respond (.swarm .here (.demote id))).2 := by
  have hnoted := noted_wanes .manager w (Engine.here.text ++ (SwarmCall.demote id).text)
  refine respond_swarm_leaves hnoted ?_
  simp only [swarm]
  split
  · refine hnoted.trans ?_
    unfold schedule
    split
    · exact demoteNow_wanes _ id
    · exact .of_eq rfl rfl
  · exact hnoted

theorem remove_wanes (w : World) (id : String) :
    Wanes role w (w.respond (.swarm .here (.remove id))).2 := by
  have hnoted := noted_wanes role w (Engine.here.text ++ (SwarmCall.remove id).text)
  refine respond_swarm_leaves hnoted ?_
  simp only [swarm]
  split
  · refine hnoted.trans (.of_members rfl fun m hm hrole => ?_)
    exact ⟨m, (List.mem_filter.mp hm).1, hrole, rfl, rfl⟩
  · exact hnoted

/-! ## Machines -/

/-- The interfaces of a machine, as they are listed. -/
def Host.interfaces (h : Host) : List NetworkInterface :=
  h.nics.map fun nic => ⟨h.id, nic.ip, nic.primary⟩

theorem Host.primary_interfaces_of_ne {h : Host} {id : String} (hne : h.id ≠ id) :
    (h.interfaces.filter fun nic => nic.primary && nic.machineId == id) = [] := by
  rw [List.filter_eq_nil_iff]
  intro nic hnic
  obtain ⟨own, _, rfl⟩ := List.mem_map.mp hnic
  simp [hne]

/-- The interfaces of a machine that is gone were its own, and the others keep theirs. -/
theorem primary_interfaces_without (hosts : List Host) (machine id : String) :
    (((hosts.filter fun h => h.id ≠ machine).flatMap Host.interfaces).filter
        fun nic => nic.primary && nic.machineId == id) =
      if id = machine then []
      else (hosts.flatMap Host.interfaces).filter fun nic => nic.primary && nic.machineId == id := by
  induction hosts with
  | nil => simp
  | cons h rest ih =>
      rw [List.flatMap_cons, List.filter_append]
      by_cases hgone : h.id = machine
      · rw [List.filter_cons_of_neg (by simp [hgone]), ih]
        by_cases hid : id = machine
        · rw [if_pos hid, if_pos hid]
        · have hne : h.id ≠ id := fun h => hid (h.symm.trans hgone)
          rw [Host.primary_interfaces_of_ne hne, List.nil_append]
      · rw [List.filter_cons_of_pos (by simp [hgone]), List.flatMap_cons, List.filter_append, ih]
        by_cases hid : id = machine
        · have hne : h.id ≠ id := fun h => hgone (h.trans hid)
          rw [Host.primary_interfaces_of_ne hne, if_pos hid, if_pos hid, List.nil_append]
        · rw [if_neg hid, if_neg hid]

/-- A machine that is gone leaves nobody with an address that was not theirs. -/
theorem primaryIp_without (s : ScaleSet) {machine id : String} {ip : Address}
    (h : Resolution.primaryIp (s.without machine).interfaces id = some ip) :
    Resolution.primaryIp s.interfaces id = some ip := by
  have hinterfaces : ∀ s : ScaleSet,
      s.interfaces = s.hosts.flatMap Host.interfaces ++ s.extraInterfaces := fun _ => rfl
  simp only [Resolution.primaryIp, hinterfaces, List.filter_append, List.getLast?_append] at h ⊢
  simp only [ScaleSet.without, primary_interfaces_without] at h
  by_cases hid : id = machine
  · -- Interfaces listed under the name of the machine come behind its own.
    rw [if_pos hid, List.getLast?_nil, Option.or_none] at h
    obtain ⟨nic, hlast, rfl⟩ := Option.map_eq_some_iff.mp h
    rw [hlast]
    rfl
  · rw [if_neg hid] at h
    exact h

/-! ## Operations that build nothing -/

/-- No machine is being reimaged under the name of an operation. -/
def Plain (w : World) : Operation → Prop
  | .done => True
  | .pending name => ∀ work, Keyed.find? w.works name = some work → work.reimaged = none

/-- A world that starts an operation without a reimage starts one that builds nothing. -/
theorem started_answers {call : ProviderCall} {answer : Except ServiceError Operation}
    (h : (answer, w') = w.started call none) :
    Wanes role w w' ∧ ∀ operation, answer = .ok operation → w'.Plain operation := by
  simp only [started, start] at h
  split at h
  · cases h
    refine ⟨.refl w, ?_⟩
    rintro operation ⟨⟩
    trivial
  · cases h
    refine ⟨.of_eq rfl rfl, ?_⟩
    rintro operation ⟨⟩ work hwork
    rw [Keyed.find?_set_self] at hwork
    cases hwork
    rfl

/-- The status of such an operation brings nobody into the swarm. -/
theorem statusOf_plain {name : String} (h : w.Plain (.pending name)) :
    Wanes role w (w.statusOf name).2 ∧ (w.statusOf name).2.Plain (.pending name) := by
  unfold statusOf
  split
  next hnone => exact ⟨.refl w, h⟩
  next work hwork =>
    have hbuilds : work.reimaged = none := h work hwork
    split
    next =>
      refine ⟨.of_eq rfl rfl, ?_⟩
      intro work' hwork'
      rw [Keyed.find?_set_self] at hwork'
      cases hwork'
      exact hbuilds
    next =>
      rw [hbuilds]
      split
      · exact ⟨.refl w, h⟩
      · exact ⟨.refl w, h⟩
      · contradiction

theorem find?_of_host {s : ScaleSet} {h : Host} (hhost : w.host set machine = .ok (s, h)) :
    Keyed.find? w.sets set = some s := by
  unfold host at hhost
  split at hhost
  next => cases hhost
  next s' hset =>
    split at hhost
    next => cases hhost
    next =>
      cases hhost
      exact hset

theorem without_wanes {s : ScaleSet} (hset : Keyed.find? w.sets set = some s) (machine : String) :
    Wanes role w { w with sets := Keyed.set w.sets set (s.without machine) } := by
  refine ⟨fun _ h => h, fun name id addr haddr => ?_⟩
  unfold address? layout at haddr ⊢
  by_cases hname : name = set
  · subst hname
    rw [Keyed.find?_set_self] at haddr
    rw [hset]
    exact primaryIp_without s haddr
  · rw [Keyed.find?_set_of_ne _ _ hname] at haddr
    exact haddr

/-- A machine is deleted by an operation that builds nothing. -/
theorem delete_answers {answer : Except ServiceError Operation}
    (h : w.respond (.provider (.delete set machine)) = (answer, w')) :
    Wanes role w w' ∧ ∀ operation, answer = .ok operation → w'.Plain operation := by
  have hnoted := noted_wanes role w (ProviderCall.delete set machine).text
  rcases provider_answers (fun hc => by cases hc) h with ⟨rfl, e, rfl⟩ | hserved
  · exact ⟨hnoted, fun operation hok => by cases hok⟩
  · simp only [provider] at hserved
    split at hserved
    next s found hhost =>
      obtain ⟨hstarted, hplain⟩ := started_answers hserved
      exact ⟨(hnoted.trans (without_wanes (find?_of_host hhost) machine)).trans hstarted, hplain⟩
    next =>
      cases hserved
      exact ⟨hnoted, fun operation hok => by cases hok⟩

theorem glance_wanes {c : Call} (hc : c.IsGlance) : Wanes role w (w.respond c).2 := by
  cases c with
  | provider call =>
      cases call with
      | view set machine =>
          have hnoted := noted_wanes role w (ProviderCall.view set machine).text
          refine respond_provider_leaves (fun _ => .refl w) hnoted ?_
          simp only [provider]
          split <;> exact hnoted
      | _ => exact hc.elim
  | probe addr =>
      simp only [respond, probe]
      split <;> exact .of_eq rfl rfl
  | pause milliseconds => exact .of_eq rfl rfl
  | now => exact .of_eq rfl rfl
  | _ => exact hc.elim

/-- An operation that builds nothing still builds nothing once its status has been asked for. -/
theorem status_wanes {operation : Operation} (h : w.Plain operation) :
    Wanes role w (w.respond (.provider (.status operation))).2 ∧
      (w.respond (.provider (.status operation))).2.Plain operation := by
  cases operation with
  | done => exact ⟨.refl w, trivial⟩
  | pending name =>
      have hnoted := noted_wanes role w (ProviderCall.status (.pending name)).text
      have hplain : (w.noted (ProviderCall.status (.pending name)).text).Plain (.pending name) := by
        rw [noted_eq]
        exact h
      obtain ⟨hwanes, hstill⟩ := statusOf_plain hplain
      exact respond_provider_leaves (motive := fun w' => Wanes role w w' ∧ w'.Plain (.pending name))
        (fun hdone => by cases hdone) ⟨hnoted, hplain⟩ ⟨hnoted.trans hwanes, hstill⟩

end SwarmUpkeep.World
