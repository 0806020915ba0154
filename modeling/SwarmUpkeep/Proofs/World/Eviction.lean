import Mathlib.Data.List.Nodup
import SwarmUpkeep.Proofs.Upkeep.Reconciliation
import SwarmUpkeep.Proofs.World.Undisturbed

/-!
# What evictions make of a world

Where no fault hits the calls, the members that are evicted are gone, and the others are as they
were, but that a leader is elected where nobody leads after the demotion of a manager. Members that
are not ready are not elected on the way, so that it does not matter in which order they go.
-/

namespace SwarmUpkeep.World

open Attempt Control

variable {w w' w'' origin : World} {role : Role} {id : String}

/-! ## Elections -/

section Elections

variable {members : List Member}

/-- The members with a leader, if one of them leads or can be elected. -/
def settle (members : List Member) : List Member :=
  if members.any (·.isLeader) then members else electFirst members

theorem elect_eq (w : World) : w.elect = { w with members := settle w.members } := by
  unfold elect settle hasLeader
  split <;> rfl

/-- An election makes nobody a leader but a ready manager, and only where nobody leads. -/
theorem settle_eq (members : List Member) :
    settle members = members ∨ members.any (·.isLeader) = false ∧
      ∃ before m after, members = before ++ m :: after ∧
        settle members = before ++ { m with isLeader := true } :: after := by
  unfold settle
  cases hleader : members.any (·.isLeader) with
  | true => exact .inl rfl
  | false => exact (electFirst_eq members).imp_right fun h => ⟨rfl, h⟩

theorem settle_of_leader (h : members.any (·.isLeader) = true) : settle members = members := by
  rw [settle, if_pos h]

theorem settle_of_none (h : members.any (·.isLeader) = false) :
    settle members = electFirst members := by
  rw [settle, if_neg (by simp [h])]

/-- A member apart from whether it leads. -/
def plain (m : Member) : Member :=
  { m with isLeader := false }

/-- An election makes no difference but to who leads. -/
theorem settle_plain (members : List Member) : (settle members).map plain = members.map plain := by
  rcases settle_eq members with hsame | ⟨_, before, m, after, hmembers, hsettled⟩
  · rw [hsame]
  · rw [hsettled, hmembers]
    simp [plain]

/-- One election is as good as two. -/
theorem settle_settle (members : List Member) : settle (settle members) = settle members := by
  rcases settle_eq members with hsame | ⟨_, before, m, after, _, hsettled⟩
  · rw [hsame, hsame]
  · apply settle_of_leader
    simp [hsettled]

/-- Members who cannot be elected make no difference to who is. -/
theorem electFirst_without
    (h : ∀ m ∈ members, m.id = id → ¬(m.role = .manager ∧ m.status.isReady = true)) :
    (electFirst members).filter (fun m => m.id ≠ id) =
      electFirst (members.filter fun m => m.id ≠ id) := by
  induction members with
  | nil => rfl
  | cons m rest ih =>
      obtain ⟨hm, hrest⟩ := List.forall_mem_cons.mp h
      by_cases hid : m.id = id
      · rw [electFirst, if_neg (hm hid), List.filter_cons_of_neg (by simp [hid]),
          List.filter_cons_of_neg (by simp [hid]), ih hrest]
      · rw [List.filter_cons_of_pos (by simp [hid]), electFirst, electFirst]
        split
        · rw [List.filter_cons_of_pos (by simp [hid])]
        · rw [List.filter_cons_of_pos (by simp [hid]), ih hrest]

theorem settle_without
    (h : ∀ m ∈ members, m.id = id →
      m.isLeader = false ∧ ¬(m.role = .manager ∧ m.status.isReady = true)) :
    (settle members).filter (fun m => m.id ≠ id) =
      settle (members.filter fun m => m.id ≠ id) := by
  have hleader : (members.filter fun m => m.id ≠ id).any (·.isLeader) = members.any (·.isLeader) := by
    rw [List.any_filter, Bool.eq_iff_iff, List.any_eq_true, List.any_eq_true]
    constructor
    · rintro ⟨m, hm, hleads⟩
      exact ⟨m, hm, (Bool.and_eq_true_iff.mp hleads).2⟩
    · rintro ⟨m, hm, hleads⟩
      have hid : m.id ≠ id := by
        intro hid
        rw [(h m hm hid).1] at hleads
        cases hleads
      exact ⟨m, hm, by simp [hid, hleads]⟩
  unfold settle
  rw [hleader]
  split
  · rfl
  · exact electFirst_without fun m hm hid => (h m hm hid).2

/-- Somebody who is not ready may go before an election or after it. -/
theorem settle_settle_without
    (h : ∀ m ∈ members, m.id = id → m.status.isReady = false) :
    settle ((settle members).filter fun m => m.id ≠ id) =
      settle (members.filter fun m => m.id ≠ id) := by
  cases hleader : members.any (·.isLeader) with
  | true => rw [settle_of_leader hleader]
  | false =>
      -- Whoever is elected first is ready and stays, so that the second election changes nothing.
      rw [settle_of_none hleader, electFirst_without fun m hm hid => by simp [h m hm hid]]
      have hnone : (members.filter fun m => m.id ≠ id).any (·.isLeader) = false := by
        rw [List.any_eq_false] at hleader ⊢
        exact fun m hm => hleader m (List.mem_filter.mp hm).1
      rw [← settle_of_none hnone, settle_settle]

/-! ## Members who are gone -/

/-- Demotions take place at once, and so do the elections after them. -/
def Knobs.electsAtOnce (k : Knobs) : Bool :=
  k.demoteDelay == 0 && !k.noElection && k.electDelay == 0

/-- The members when some of a role have been evicted. -/
def without (k : Knobs) (role : Role) (gone : Member → Bool) (members : List Member) :
    List Member :=
  let kept := members.filter fun m => !gone m
  if role = .manager ∧ k.electsAtOnce = true ∧ members.any gone = true then settle kept else kept

/-- Only those of the members matter who are there. -/
theorem without_congr {k : Knobs} {gone gone' : Member → Bool}
    (h : ∀ m ∈ members, gone m = gone' m) :
    without k role gone members = without k role gone' members := by
  have hkept : (members.filter fun m => !gone m) = members.filter fun m => !gone' m :=
    List.filter_congr fun m hm => by rw [h m hm]
  have hany : members.any gone = members.any gone' := by
    rw [Bool.eq_iff_iff, List.any_eq_true, List.any_eq_true]
    exact exists_congr fun m => and_congr_right fun hm => by rw [h m hm]
  simp only [without, hkept, hany]

theorem without_none (k : Knobs) (role : Role) (members : List Member) :
    without k role (fun _ => false) members = members := by
  simp [without]

/-- Apart from who leads, those who are left are as they were. -/
theorem without_plain (k : Knobs) (gone : Member → Bool) (members : List Member) :
    (without k role gone members).map plain =
      (members.filter fun m => !gone m).map plain := by
  unfold without
  dsimp only
  split
  · exact settle_plain _
  · rfl

end Elections

/-! ## One eviction -/

variable {members : List Member}

/-- What may be put off when a member is demoted. -/
def PutsOff (id : String) (pending pending' : List (Nat × Effect)) : Prop :=
  ∀ x ∈ pending', x ∈ pending ∨ x.2 = .election ∨ x.2 = .demotion id

/-- The members when one of them is demoted. -/
def demoteFrom (k : Knobs) (id : String) (members : List Member) : List Member :=
  if k.demoteDelay ≠ 0 then members
  else if k.noElection = true ∨ k.electDelay ≠ 0 then demoteIn id members
  else settle (demoteIn id members)

theorem schedule_demotion (w : World) (id : String) :
    ∃ pending, PutsOff id w.pending pending ∧
      w.schedule w.knobs.demoteDelay (.demotion id) =
        { w with members := demoteFrom w.knobs id w.members, pending } := by
  unfold schedule demoteFrom
  by_cases hdelay : w.knobs.demoteDelay = 0
  · rw [if_pos hdelay, if_neg (not_not.mpr hdelay), apply, demoteNow]
    dsimp only
    by_cases hnone : w.knobs.noElection = true
    · rw [if_pos hnone, if_pos (.inl hnone)]
      exact ⟨w.pending, fun x hx => .inl hx, rfl⟩
    · rw [if_neg hnone]
      by_cases hlater : w.knobs.electDelay = 0
      · rw [if_pos hlater, if_neg (not_or.mpr ⟨hnone, not_not.mpr hlater⟩), elect_eq]
        exact ⟨w.pending, fun x hx => .inl hx, rfl⟩
      · rw [if_neg hlater, if_pos (.inr hlater)]
        refine ⟨_, ?_, rfl⟩
        intro x hx
        refine (List.mem_append.mp hx).imp_right fun hlast => .inl ?_
        rw [List.mem_singleton.mp hlast]
  · rw [if_neg hdelay, if_pos hdelay]
    refine ⟨_, ?_, rfl⟩
    intro x hx
    refine (List.mem_append.mp hx).imp_right fun hlast => .inr ?_
    rw [List.mem_singleton.mp hlast]

theorem demoteIn_without (id : String) (members : List Member) :
    (demoteIn id members).filter (fun m => m.id ≠ id) = members.filter fun m => m.id ≠ id := by
  induction members with
  | nil => rfl
  | cons m rest ih =>
      rw [demoteIn, List.map_cons]
      by_cases hid : m.id = id
      · rw [if_pos hid, List.filter_cons_of_neg (by simp [hid]),
          List.filter_cons_of_neg (by simp [hid])]
        exact ih
      · rw [if_neg hid, List.filter_cons_of_pos (by simp [hid]),
          List.filter_cons_of_pos (by simp [hid])]
        exact congrArg _ ih

/-- A demoted member neither leads nor can be elected. -/
theorem demoteIn_self {m : Member} (hm : m ∈ demoteIn id members) (hid : m.id = id) :
    m.isLeader = false ∧ ¬(m.role = .manager ∧ m.status.isReady = true) := by
  obtain ⟨old, _, rfl⟩ := List.mem_map.mp hm
  split at hid
  · rename_i hold
    rw [if_pos hold]
    exact ⟨rfl, fun h => by cases h.1⟩
  · contradiction

/-- A worker that is removed is gone, and so is somebody who has not been there. -/
theorem without_of_not {k : Knobs}
    (h : ¬(role = .manager ∧ members.any (fun m => m.id = id) = true)) :
    without k role (fun m => m.id = id) members = members.filter fun m => m.id ≠ id := by
  rw [without, if_neg fun hall => h ⟨hall.1, hall.2.2⟩]
  simp

/-- Once a member that is there is demoted and removed, it is gone, and its successor is elected. -/
theorem demoteFrom_without {k : Knobs} (hthere : members.any (fun m => m.id = id) = true) :
    (demoteFrom k id members).filter (fun m => m.id ≠ id) =
      without k .manager (fun m => m.id = id) members := by
  have hkept : (members.filter fun m => !decide (m.id = id)) =
      members.filter fun m => m.id ≠ id := by simp
  unfold demoteFrom without
  rw [hkept]
  by_cases helects : k.electsAtOnce = true
  · have hknobs := helects
    simp only [Knobs.electsAtOnce, Bool.and_eq_true, beq_iff_eq, Bool.not_eq_true'] at hknobs
    obtain ⟨⟨hdelay, hnone⟩, hlater⟩ := hknobs
    rw [if_neg (not_not.mpr hdelay), if_neg (by simp [hnone, hlater]),
      settle_without fun m hm hid => demoteIn_self hm hid, demoteIn_without]
    exact (if_pos ⟨rfl, helects, hthere⟩).symm
  · -- Where nobody is elected at once, a demotion changes nobody but the member that goes.
    have hsame : (if k.demoteDelay ≠ 0 then members
        else if k.noElection = true ∨ k.electDelay ≠ 0 then demoteIn id members
        else settle (demoteIn id members)).filter (fun m => m.id ≠ id) =
          members.filter fun m => m.id ≠ id := by
      split
      · rfl
      · rename_i hdelay
        rw [not_not] at hdelay
        split
        · exact demoteIn_without id members
        · rename_i hlater
          obtain ⟨hnone, hlater⟩ := not_or.mp hlater
          rw [not_not] at hlater
          exact absurd (by simp [Knobs.electsAtOnce, hdelay, hnone, hlater]) helects
    rw [hsame]
    exact (if_neg fun h => helects h.2.1).symm

theorem swarm_demote (w : World) (id : String) :
    (w.members.any (fun m => m.id = id) = false ∧
        w.swarm (.demote id) = (.error (noNode id), w)) ∨
      w.members.any (fun m => m.id = id) = true ∧ ∃ pending, PutsOff id w.pending pending ∧
        w.swarm (.demote id) =
          (.ok (), { w with members := demoteFrom w.knobs id w.members, pending }) := by
  rw [← List.isSome_find?]
  change ((w.member? id).isSome = false ∧ _) ∨ (w.member? id).isSome = true ∧ _
  simp only [swarm]
  cases w.member? id with
  | none => exact .inl ⟨rfl, rfl⟩
  | some m =>
      obtain ⟨pending, hputsOff, hscheduled⟩ := schedule_demotion w id
      exact .inr ⟨rfl, pending, hputsOff, by rw [hscheduled]⟩

/-- A removal leaves nobody of its identifier, whether or not there has been somebody. -/
theorem swarm_remove (w : World) (id : String) :
    ∃ answer : Except ServiceError Unit, (answer = .ok () ∨ answer = .error (noNode id)) ∧
      w.swarm (.remove id) =
        (answer, { w with members := w.members.filter fun m => m.id ≠ id }) := by
  simp only [swarm]
  cases hfound : w.member? id with
  | some m => exact ⟨.ok (), .inl rfl, rfl⟩
  | none =>
      have hnobody := List.find?_eq_none.mp hfound
      have hall : (w.members.filter fun m => m.id ≠ id) = w.members :=
        List.filter_eq_self.mpr fun m hm => by simpa using hnobody m hm
      exact ⟨.error (noNode id), .inr rfl, by rw [hall]⟩

/-- The second world is the first once a member has been evicted from it. -/
def Evicts (role : Role) (id : String) (w w' : World) : Prop :=
  ∃ pending, PutsOff id w.pending pending ∧
    Lapses { w with members := without w.knobs role (fun m => m.id = id) w.members, pending } w'

variable {s : Traced}

theorem remove_traced (id : String) (s : Traced) :
    (Membership.unlessGone (remove .here id)).Upholds undisturbedRules
      (fun _ s' => Lapses { s.1 with members := s.1.members.filter fun m => m.id ≠ id } s'.1 ∧
        s'.changes = s.changes ++ [(s.1, .swarm .here (.remove id))])
      (fun _ _ => False) s := by
  apply Membership.unlessGone_upholds
  refine ⟨trivial, fun answer s' hmove => ?_⟩
  have hnoted := noted_lapses s.1 (Engine.here.text ++ (SwarmCall.remove id).text)
  have hanswer := answer_of_moves hmove
  obtain ⟨told, htold, hserved⟩ :=
    swarm_remove (s.1.noted (Engine.here.text ++ (SwarmCall.remove id).text)) id
  rw [respond_swarm (undisturbed_of_moves hmove), hserved] at hanswer
  obtain ⟨rfl, hleft⟩ := Prod.mk.inj hanswer
  have hgone : Lapses { s.1 with members := s.1.members.filter fun m => m.id ≠ id } s'.1 := by
    rw [← hleft, hnoted.members]
    exact hnoted.withMembers _
  have hchanges := changes_of_moves hmove
  rcases htold with rfl | rfl
  · exact ⟨hgone, hchanges⟩
  · exact ⟨hgone, hchanges⟩

theorem demote_traced (id : String) (s : Traced) :
    (Membership.unlessGone (demote .here id)).Upholds undisturbedRules
      (fun _ s' => (∃ pending, PutsOff id s.1.pending pending ∧
          Lapses { s.1 with
            members := if s.1.members.any (fun m => m.id = id) then
              demoteFrom s.1.knobs id s.1.members else s.1.members
            pending } s'.1) ∧
        s'.changes = s.changes ++ [(s.1, .swarm .here (.demote id))])
      (fun _ _ => False) s := by
  apply Membership.unlessGone_upholds
  refine ⟨trivial, fun answer s' hmove => ?_⟩
  have hnoted := noted_lapses s.1 (Engine.here.text ++ (SwarmCall.demote id).text)
  have hanswer := answer_of_moves hmove
  have hchanges := changes_of_moves hmove
  rw [respond_swarm (undisturbed_of_moves hmove)] at hanswer
  rcases swarm_demote (s.1.noted (Engine.here.text ++ (SwarmCall.demote id).text)) id with
    ⟨hnobody, hserved⟩ | ⟨hthere, pending, hputsOff, hserved⟩
  · rw [hnoted.members] at hnobody
    rw [hserved] at hanswer
    obtain ⟨rfl, hleft⟩ := Prod.mk.inj hanswer
    refine ⟨⟨s.1.pending, fun x hx => .inl hx, ?_⟩, hchanges⟩
    rw [← hleft, if_neg (by simp [hnobody])]
    exact hnoted
  · rw [hnoted.members] at hthere
    rw [hnoted.pending] at hputsOff
    rw [hserved] at hanswer
    obtain ⟨rfl, hleft⟩ := Prod.mk.inj hanswer
    refine ⟨⟨pending, hputsOff, ?_⟩, hchanges⟩
    have hdemoted : demoteFrom (s.1.noted (Engine.here.text ++ (SwarmCall.demote id).text)).knobs id
        (s.1.noted (Engine.here.text ++ (SwarmCall.demote id).text)).members =
          demoteFrom s.1.knobs id s.1.members := by rw [hnoted.members, hnoted.knobs]
    rw [← hleft, if_pos hthere, hdemoted]
    exact hnoted.withEffects _ _

/-- The calls by which a member of a role is evicted. -/
def evictionCalls (role : Role) (m : Member) : List Call :=
  (Inventory.eviction role m).map (.swarm .here)

/-- Where no fault hits the calls, an eviction succeeds. -/
theorem evict_traced (role : Role) (m : Member) (s : Traced) :
    (Membership.evict m.id role).Upholds undisturbedRules
      (fun _ s' => Evicts role m.id s.1 s'.1 ∧
        ∃ steps, s'.changes = s.changes ++ steps ∧ steps.map (·.2) = evictionCalls role m)
      (fun _ _ => False) s := by
  unfold Membership.evict evictionCalls Inventory.eviction
  split
  next hrole =>
    subst hrole
    refine (demote_traced m.id s).bind ?_
    rintro _ s' ⟨⟨pending, hputsOff, hdemoted⟩, hchanges⟩
    refine (remove_traced m.id s').mono ?_ fun _ _ h => h
    rintro _ s'' ⟨hremoved, hchanges'⟩
    refine ⟨⟨pending, hputsOff, ?_⟩, _, by rw [hchanges', hchanges, List.append_assoc], rfl⟩
    have hgone : s'.1.members.filter (fun m' => m'.id ≠ m.id) =
        without s.1.knobs .manager (fun m' => m'.id = m.id) s.1.members := by
      rw [hdemoted.members]
      dsimp only
      split
      next hthere => exact demoteFrom_without hthere
      next hnobody => exact (without_of_not fun h => hnobody h.2).symm
    rw [hgone] at hremoved
    exact (hdemoted.withMembers _).trans hremoved
  next hrole =>
    refine (remove_traced m.id s).mono ?_ fun _ _ h => h
    rintro _ s' ⟨hremoved, hchanges⟩
    refine ⟨⟨s.1.pending, fun x hx => .inl hx, ?_⟩, _, hchanges, rfl⟩
    rw [without_of_not fun h => hrole h.1]
    exact hremoved

/-! ## One eviction after the other -/

/-- Somebody who is not ready may be evicted after others or with them. -/
theorem without_without {k : Knobs} {gone : Member → Bool}
    (hready : ∀ m ∈ members, m.id = id → m.status.isReady = false) :
    without k role (fun m => m.id = id) (without k role gone members) =
      without k role (fun m => gone m || m.id = id) members := by
  cases hany : members.any gone with
  | false =>
      have hnobody : ∀ m ∈ members, gone m = false := by simpa using hany
      have hall : without k role gone members = members :=
        (without_congr hnobody).trans (without_none k role members)
      rw [hall]
      exact without_congr fun m hm => by rw [hnobody m hm, Bool.false_or]
  | true =>
      generalize hkept : (members.filter fun m => !gone m) = kept
      have hfilter : (members.filter fun m => !(gone m || decide (m.id = id))) =
          kept.filter fun m => m.id ≠ id := by
        rw [← hkept, List.filter_filter]
        exact List.filter_congr fun m _ => by simp [Bool.and_comm]
      have hmore : (members.any fun m => gone m || decide (m.id = id)) = true := by
        obtain ⟨m, hm, hgone⟩ := List.any_eq_true.mp hany
        exact List.any_eq_true.mpr ⟨m, hm, by rw [hgone, Bool.true_or]⟩
      by_cases helects : role = .manager ∧ k.electsAtOnce = true
      · -- The election between the evictions falls on somebody who stays: who goes is not ready.
        have hwith : without k role (fun m => gone m || m.id = id) members =
            settle (kept.filter fun m => m.id ≠ id) := by
          rw [without, hfilter, if_pos ⟨helects.1, helects.2, hmore⟩]
        have hbefore : without k role gone members = settle kept := by
          rw [without, hkept, if_pos ⟨helects.1, helects.2, hany⟩]
        have hafter : settle ((settle kept).filter fun m => m.id ≠ id) =
            settle (kept.filter fun m => m.id ≠ id) := by
          apply settle_settle_without
          intro m hm
          rw [← hkept] at hm
          exact hready m (List.mem_filter.mp hm).1
        rw [hwith, hbefore, ← hafter]
        cases hthere : (settle kept).any fun m => m.id = id with
        | true =>
            rw [without, if_pos ⟨helects.1, helects.2, hthere⟩]
            simp
        | false =>
            have hall : ((settle kept).filter fun m => m.id ≠ id) = settle kept :=
              List.filter_eq_self.mpr (by simpa using hthere)
            rw [without_of_not fun h => by simp [hthere] at h, hall, settle_settle]
      · rw [without, if_neg fun h => helects ⟨h.1, h.2.1⟩, without,
          if_neg fun h => helects ⟨h.1, h.2.1⟩, without, if_neg fun h => helects ⟨h.1, h.2.1⟩,
          hfilter, hkept]
        simp

/-- Members of pairwise different identifiers are known by them. -/
theorem eq_of_id (hids : (members.map (·.id)).Nodup) {m m' : Member} (hm : m ∈ members)
    (hm' : m' ∈ members) (hid : m.id = m'.id) : m = m' :=
  List.inj_on_of_nodup_map hids hm hm' hid

/-- The world is another once some members have been evicted from it. -/
def Evicted (origin : World) (role : Role) (gone : List Member) (w : World) : Prop :=
  ∃ pending, (∀ x ∈ pending, x ∈ origin.pending ∨ x.2 = .election ∨
      ∃ m ∈ gone, x.2 = .demotion m.id) ∧
    Lapses { origin with
      members := without origin.knobs role (fun m => gone.any fun g => g.id = m.id) origin.members
      pending } w

namespace Evicted

variable {gone : List Member}

theorem start (origin : World) (role : Role) : Evicted origin role [] origin := by
  refine ⟨origin.pending, fun x hx => .inl hx, ?_⟩
  have hall : without origin.knobs role (fun m => [].any fun g : Member => g.id = m.id)
      origin.members = origin.members := without_none _ _ _
  rw [hall]
  exact .refl origin

theorem lapses (h : Evicted origin role gone w) (hlapses : Lapses w w') :
    Evicted origin role gone w' := by
  obtain ⟨pending, hpending, hleft⟩ := h
  exact ⟨pending, hpending, hleft.trans hlapses⟩

/-- One more member that was not ready has been evicted. -/
theorem concat {m : Member} (h : Evicted origin role gone w)
    (hready : ∀ m' ∈ origin.members, m'.id = m.id → m'.status.isReady = false)
    (hevicts : Evicts role m.id w w') : Evicted origin role (gone ++ [m]) w' := by
  obtain ⟨pending, hpending, hleft⟩ := h
  obtain ⟨pending', hputsOff, hevicted⟩ := hevicts
  refine ⟨pending', ?_, ?_⟩
  · intro x hx
    rcases hputsOff x hx with hold | helection | hdemotion
    · rw [hleft.pending] at hold
      refine (hpending x hold).imp_right fun h => h.imp_right ?_
      rintro ⟨g, hg, hx⟩
      exact ⟨g, List.mem_append_left _ hg, hx⟩
    · exact .inr (.inl helection)
    · exact .inr (.inr ⟨m, List.mem_append_right _ (List.mem_singleton_self m), hdemotion⟩)
  · have hmembers : without w.knobs role (fun m' => m'.id = m.id) w.members =
        without origin.knobs role (fun m' => (gone ++ [m]).any fun g => g.id = m'.id)
          origin.members := by
      rw [hleft.members, hleft.knobs]
      refine (without_without hready).trans (without_congr fun m' _ => ?_)
      simp [List.any_append, eq_comm]
    rw [hmembers] at hevicted
    exact (hleft.withEffects _ pending').trans hevicted

theorem of_lapses (h : Evicted w' role gone w'')
    (hlapses : Lapses w w') : Evicted w role gone w'' := by
  obtain ⟨pending, hpending, hleft⟩ := h
  have hmembers : without w'.knobs role (fun m => gone.any fun g => g.id = m.id) w'.members =
      without w.knobs role (fun m => gone.any fun g => g.id = m.id) w.members := by
    rw [hlapses.members, hlapses.knobs]
  rw [hlapses.pending] at hpending
  rw [hmembers] at hleft
  exact ⟨pending, hpending, (hlapses.withEffects _ pending).trans hleft⟩

theorem withSets (h : Evicted origin role gone w) (sets : List (String × ScaleSet)) :
    Evicted { origin with sets } role gone { w with sets } := by
  obtain ⟨pending, hputOff, hleft⟩ := h
  exact ⟨pending, hputOff, hleft.withSets sets⟩

/-- Apart from who leads, those who are left are those who have not been evicted. -/
theorem leaves (h : Evicted origin role gone w) :
    w.members.map plain =
      (origin.members.filter fun m => !gone.any fun g => g.id = m.id).map plain := by
  obtain ⟨pending, _, hleft⟩ := h
  rw [hleft.members]
  exact without_plain _ _ _

end Evicted

/-- Where no fault hits the calls, members who are not ready are evicted one after the other. -/
theorem evictions_traced {gone there : List Member}
    (hready : ∀ m ∈ there, ∀ m' ∈ origin.members, m'.id = m.id → m'.status.isReady = false)
    (hs : Evicted origin role gone s.1) :
    (Attempt.each (fun m => Membership.evict m.id role) there).Upholds undisturbedRules
      (fun _ s' => Evicted origin role (gone ++ there) s'.1 ∧
        ∃ steps, s'.changes = s.changes ++ steps ∧
          steps.map (·.2) = there.flatMap (evictionCalls role))
      (fun _ _ => False) s := by
  apply Upholds.each_along fun past (s' : Traced) => Evicted origin role (gone ++ past) s'.1 ∧
    ∃ steps, s'.changes = s.changes ++ steps ∧ steps.map (·.2) = past.flatMap (evictionCalls role)
  · rintro past m rest s' hthere ⟨hs', steps, hchanges, hcalls⟩
    have hm : m ∈ there := by simp [hthere]
    refine (evict_traced role m s').mono ?_ fun _ _ h => h
    rintro _ s'' ⟨hevicts, more, hchanges', hcalls'⟩
    refine ⟨?_, steps ++ more, ?_, ?_⟩
    · rw [← List.append_assoc]
      exact hs'.concat (hready m hm) hevicts
    · rw [hchanges', hchanges, List.append_assoc]
    · rw [List.map_append, hcalls, hcalls', List.flatMap_append, List.flatMap_singleton]
  · rw [List.append_nil]
    exact ⟨hs, [], (List.append_nil _).symm, rfl⟩

end SwarmUpkeep.World
