import SwarmUpkeep.Proofs.Text.Digits
import SwarmUpkeep.Proofs.World.Runs

/-!
# Who is in the swarm, and who is to come

Members come and go, but who is who stays the same: an identifier belongs to one node, and to a new
one if it is new. What is so of a node as long as it is there can thus be told by its identifier.
-/

namespace SwarmUpkeep

/-- The same node later on: it may have lost its role and its lead. -/
structure Member.Becomes (m m' : Member) : Prop where
  id : m'.id = m.id
  hostname : m'.hostname = m.hostname
  status : m'.status = m.status
  role : m'.role = .manager → m.role = .manager

namespace Member.Becomes

variable {m m' m'' : Member}

theorem refl (m : Member) : m.Becomes m :=
  ⟨rfl, rfl, rfl, fun h => h⟩

theorem trans (h : m.Becomes m') (h' : m'.Becomes m'') : m.Becomes m'' :=
  ⟨h'.id.trans h.id, h'.hostname.trans h.hostname, h'.status.trans h.status,
    fun hrole => h.role (h'.role hrole)⟩

end Member.Becomes

namespace World

variable {w w' w'' : World}

/-! ## Identifiers -/

/-- The identifier that a world gives out as its nth. -/
def nthId (n : Nat) : String :=
  "x" ++ toString n

theorem nthId_injective {n k : Nat} (h : nthId n = nthId k) : n = k :=
  Ascii.toString_injective ((String.append_right_inj "x").mp h)

/-- Still to be given out. -/
def IsNew (w : World) (id : String) : Prop :=
  ∃ n, w.nodeCount < n ∧ id = nthId n

/-- A world gives out identifiers of one initial letter only. -/
theorem not_isNew_of_head {id : String} (h : id.toList.head? ≠ some 'x') : ¬w.IsNew id := by
  rintro ⟨n, _, rfl⟩
  refine h ?_
  unfold nthId
  rw [String.toList_append]
  rfl

/-- What is still to happen. -/
def effects (w : World) : List Effect :=
  w.pending.map (·.2)

/-- The member that an effect brings. -/
def Effect.arrival? : Effect → Option Member
  | .arrival member => some member
  | _ => none

/-- The members that are to arrive. -/
def expected (w : World) : List Member :=
  w.effects.filterMap Effect.arrival?

/-- The identifiers of all that are members or are to be. -/
def ids (w : World) : List String :=
  (w.members ++ w.expected).map (·.id)

/-- Whether a member is to be demoted. -/
def Dooms (w : World) (id : String) : Prop :=
  .demotion id ∈ w.effects

/-- Every node has an identifier of its own, and none that is still to be given out. -/
structure Registered (w : World) : Prop where
  nodup : w.ids.Nodup
  known : ∀ id ∈ w.ids, ¬w.IsNew id

namespace Registered

/-- The identifiers of the members, and apart from them those of the nodes that are to come. -/
theorem nodup_append (h : w.Registered) :
    (w.members.map (·.id)).Nodup ∧ (w.expected.map (·.id)).Nodup ∧
      ∀ id ∈ w.members.map (·.id), ∀ id' ∈ w.expected.map (·.id), id ≠ id' := by
  have hids := h.nodup
  unfold ids at hids
  rw [List.map_append, List.nodup_append] at hids
  exact hids

theorem unique (h : w.Registered) {m m' : Member} (hm : m ∈ w.members) (hm' : m' ∈ w.members)
    (hid : m.id = m'.id) : m = m' := by
  obtain ⟨hnodup, _⟩ := h.nodup_append
  -- Members of one identifier stand at one place, since the list of identifiers has no doubles.
  obtain ⟨i, hi, rfl⟩ := List.getElem_of_mem hm
  obtain ⟨j, hj, rfl⟩ := List.getElem_of_mem hm'
  have hi' : i < (w.members.map (·.id)).length := by rwa [List.length_map]
  have hj' : j < (w.members.map (·.id)).length := by rwa [List.length_map]
  have hsame : (w.members.map (·.id))[i] = (w.members.map (·.id))[j] := by
    rw [List.getElem_map, List.getElem_map]
    exact hid
  have hindex := (List.getElem_inj hnodup).mp hsame
  subst hindex
  rfl

theorem not_isNew (h : w.Registered) {m : Member} (hm : m ∈ w.members) : ¬w.IsNew m.id :=
  h.known _ (List.mem_map_of_mem (List.mem_append_left _ hm))

/-- A member is not one of those that are to come. -/
theorem not_expected (h : w.Registered) {m : Member} (hm : m ∈ w.members) :
    m.id ∉ w.expected.map (·.id) := by
  obtain ⟨_, _, hapart⟩ := h.nodup_append
  exact fun hexpected => hapart _ (List.mem_map_of_mem hm) _ hexpected rfl

theorem of_perm (h : w.Registered) (hids : w'.ids.Perm w.ids)
    (hcount : w.nodeCount ≤ w'.nodeCount) : w'.Registered := by
  refine ⟨hids.nodup_iff.mpr h.nodup, fun id hid => ?_⟩
  rintro ⟨n, hn, rfl⟩
  exact h.known _ (hids.mem_iff.mp hid) ⟨n, by omega, rfl⟩

end Registered

/-! ## What may come after what -/

/-- In the second world nobody takes the identifier of somebody else in the first. -/
structure Follows (w w' : World) : Prop where
  count : w.nodeCount ≤ w'.nodeCount
  members : ∀ m' ∈ w'.members, (∃ m ∈ w.members, m.Becomes m') ∨
    m'.id ∈ w.expected.map (·.id) ∨ w.IsNew m'.id
  expected : ∀ id ∈ w'.expected.map (·.id), id ∈ w.expected.map (·.id) ∨ w.IsNew id
  registered : w.Registered → w'.Registered

/-- What is so of everybody who has an identifier, now or later. -/
structure Fixed (w : World) (id : String) (P : Member → Prop) : Prop where
  known : ¬w.IsNew id
  unexpected : id ∉ w.expected.map (·.id)
  holds : ∀ m ∈ w.members, m.id = id → P m

/-- What holds of a node as long as it is there. -/
def Lasting (P : Member → Prop) : Prop :=
  ∀ m m', P m → m.Becomes m' → P m'

theorem IsNew.mono {id : String} (h : w'.IsNew id) (hcount : w.nodeCount ≤ w'.nodeCount) :
    w.IsNew id := by
  obtain ⟨n, hn, rfl⟩ := h
  exact ⟨n, by omega, rfl⟩

namespace Follows

theorem trans (h : Follows w w') (h' : Follows w' w'') : Follows w w'' := by
  refine ⟨Nat.le_trans h.count h'.count, fun m'' hm'' => ?_, fun id hid => ?_,
    fun hw => h'.registered (h.registered hw)⟩
  · rcases h'.members m'' hm'' with ⟨m', hm', hbecomes'⟩ | hexpected | hnew
    · rcases h.members m' hm' with ⟨m, hm, hbecomes⟩ | hother
      · exact .inl ⟨m, hm, hbecomes.trans hbecomes'⟩
      · rw [hbecomes'.id]
        exact .inr hother
    · exact .inr (h.expected _ hexpected)
    · exact .inr (.inr (hnew.mono h.count))
  · rcases h'.expected id hid with hexpected | hnew
    · exact h.expected id hexpected
    · exact .inr (hnew.mono h.count)

theorem fixed (h : Follows w w') {id : String} {P : Member → Prop} (hP : Lasting P)
    (hfixed : w.Fixed id P) : w'.Fixed id P := by
  refine ⟨fun hnew => hfixed.known (hnew.mono h.count), fun hexpected => ?_, ?_⟩
  · exact (h.expected id hexpected).elim hfixed.unexpected hfixed.known
  · rintro m' hm' rfl
    rcases h.members m' hm' with ⟨m, hm, hbecomes⟩ | hexpected | hnew
    · exact hP m m' (hfixed.holds m hm hbecomes.id.symm) hbecomes
    · exact absurd hexpected hfixed.unexpected
    · exact absurd hnew hfixed.known

end Follows

theorem Registered.fixed (h : w.Registered) {m : Member} {P : Member → Prop} (hm : m ∈ w.members)
    (hP : P m) : w.Fixed m.id P := by
  refine ⟨h.not_isNew hm, h.not_expected hm, fun m' hm' hid => ?_⟩
  rw [h.unique hm' hm hid]
  exact hP

/-- Neither has anybody been demoted whom the first world does not doom, nor has anybody else but
those left. -/
structure Drifts (w w' : World) : Prop extends Follows w w' where
  dooms : ∀ id, w'.Dooms id → w.Dooms id
  stays : ∀ m ∈ w.members, ¬w.Dooms m.id → ∃ m' ∈ w'.members, m.Becomes m' ∧ m'.role = m.role

namespace Drifts

theorem trans (h : Drifts w w') (h' : Drifts w' w'') : Drifts w w'' := by
  refine ⟨h.toFollows.trans h'.toFollows, fun id hid => h.dooms id (h'.dooms id hid), ?_⟩
  intro m hm hspared
  obtain ⟨m', hm', hbecomes, hrole⟩ := h.stays m hm hspared
  obtain ⟨m'', hm'', hbecomes', hrole'⟩ := h'.stays m' hm' fun hdoomed =>
    hspared (hbecomes.id ▸ h.dooms _ hdoomed)
  exact ⟨m'', hm'', hbecomes.trans hbecomes', hrole'.trans hrole⟩

/-- The members change in their places, and nobody else is expected. -/
theorem of_members (hids : w'.members.map (·.id) = w.members.map (·.id))
    (hback : ∀ m' ∈ w'.members, ∃ m ∈ w.members, m.Becomes m')
    (hstays : ∀ m ∈ w.members, ¬w.Dooms m.id → ∃ m' ∈ w'.members, m.Becomes m' ∧ m'.role = m.role)
    (hexpected : w'.expected.Perm w.expected) (hdooms : ∀ id, w'.Dooms id → w.Dooms id)
    (hcount : w'.nodeCount = w.nodeCount) : Drifts w w' := by
  have hperm : w'.ids.Perm w.ids := by
    unfold ids
    rw [List.map_append, List.map_append, hids]
    exact (hexpected.map _).append_left _
  exact
    { count := Nat.le_of_eq hcount.symm
      members := fun m' hm' => .inl (hback m' hm')
      expected := fun id hid => .inl ((hexpected.map _).mem_iff.mp hid)
      registered := fun hw => hw.of_perm hperm (Nat.le_of_eq hcount.symm)
      dooms := hdooms
      stays := hstays }

/-- The members stay as they are, and what is to happen does so in another order. -/
theorem of_perm (hmembers : w'.members = w.members) (heffects : w'.effects.Perm w.effects)
    (hcount : w'.nodeCount = w.nodeCount) : Drifts w w' := by
  refine of_members (by rw [hmembers]) (fun m hm => ?_) (fun m hm _ => ?_)
    (heffects.filterMap _) (fun id hid => heffects.mem_iff.mp hid) hcount
  · exact ⟨m, hmembers ▸ hm, .refl m⟩
  · exact ⟨m, hmembers ▸ hm, .refl m, rfl⟩

theorem of_eq (hmembers : w'.members = w.members) (hpending : w'.pending = w.pending)
    (hcount : w'.nodeCount = w.nodeCount) : Drifts w w' := by
  refine of_perm hmembers (.of_eq ?_) hcount
  unfold effects
  rw [hpending]

theorem refl (w : World) : Drifts w w :=
  of_eq rfl rfl rfl

end Drifts

end World

end SwarmUpkeep
