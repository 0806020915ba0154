import SwarmUpkeep.Proofs.World.Turnover

/-!
# The hosts of the managers

A host has a manager if a ready one has its name, since a machine that has been reimaged comes back
as a new member. What an upgrade sees to is that all hosts but the one that is away have one that is
not to be demoted. The look at the other managers before a demotion does not suffice for this: it
does not see a host that has gone and has not come back.
-/

namespace SwarmUpkeep

/-- Whether a member is a ready manager on the host of a name. -/
def Member.serves (m : Member) (host : String) : Bool :=
  m.role = .manager && m.status.isReady && Ascii.sameFold m.hostname host

/-- A member that is a ready manager on none of the hosts. -/
def Member.IsAside (hosts : List String) (m : Member) : Prop :=
  ∀ host ∈ hosts, m.serves host = false

/-- What the resolution has found of the member of a node: the name of a manager, and of a worker
that it is no manager. -/
def Node.Describes (hosts : List String) (node : Node) (m : Member) : Prop :=
  match node.role with
  | .manager => m.hostname = node.hostname
  | .worker => m.IsAside hosts

/-- The host that is away while a node is upgraded. -/
def Node.away? (node : Node) : Option String :=
  if node.role = .manager then some node.hostname else none

/-- The member that is to be demoted while a node is upgraded. -/
def Node.doomed? (node : Node) : Option String :=
  if node.role = .manager then node.memberId else none

/-- Whether the host of a name has a ready manager. -/
def World.isServed (w : World) (host : String) : Bool :=
  w.members.any (·.serves host)

/-- At most one of the hosts has no ready manager. -/
def World.IsQuorate (w : World) (hosts : List String) : Prop :=
  hosts.length ≤ hosts.countP w.isServed + 1

instance (hosts : List String) (m : Member) : Decidable (m.IsAside hosts) :=
  inferInstanceAs (Decidable (∀ host ∈ hosts, m.serves host = false))

instance (hosts : List String) (w : World) : Decidable (w.IsQuorate hosts) :=
  inferInstanceAs (Decidable (hosts.length ≤ hosts.countP w.isServed + 1))

namespace Member

variable {m m' : Member} {host : String} {hosts : List String}

theorem serves_iff : m.serves host = true ↔
    m.role = .manager ∧ m.status.isReady = true ∧ Ascii.sameFold m.hostname host = true := by
  simp [serves, and_assoc]

/-- A member that stays in its role goes on serving its host. -/
theorem Becomes.serves (h : m.Becomes m') (hrole : m'.role = m.role)
    (hserves : m.serves host = true) : m'.serves host = true := by
  rw [serves_iff] at hserves ⊢
  rw [hrole, h.status, h.hostname]
  exact hserves

theorem isAside_lasting : World.Lasting (IsAside hosts) := by
  intro m m' haside hbecomes host hhost
  rw [Bool.eq_false_iff]
  intro hserves
  obtain ⟨hrole, hready, hname⟩ := serves_iff.mp hserves
  rw [hbecomes.status] at hready
  rw [hbecomes.hostname] at hname
  have hserved := serves_iff.mpr ⟨hbecomes.role hrole, hready, hname⟩
  rw [haside host hhost] at hserved
  cases hserved

theorem isAside_of_worker (h : m.role = .worker) : m.IsAside hosts := by
  intro host _
  simp [serves, h]

end Member

theorem Node.describes_lasting (hosts : List String) (node : Node) :
    World.Lasting (node.Describes hosts) := by
  intro m m' hdescribes hbecomes
  unfold Describes at hdescribes ⊢
  split at hdescribes
  · exact hbecomes.hostname.trans hdescribes
  · exact Member.isAside_lasting m m' hdescribes hbecomes

namespace World

variable {w w' : World} {site : Site} {hosts : List String} {nodes rest : List Node} {node : Node}
variable {away doomed : Option String} {host id : String}

/-- A host is secure if one of its ready managers is not to be demoted. -/
def Secures (w : World) (host : String) : Prop :=
  ∃ m ∈ w.members, m.serves host = true ∧ ¬w.Dooms m.id

theorem Drifts.secures (h : Drifts w w') (hsecure : w.Secures host) : w'.Secures host := by
  obtain ⟨m, hm, hserves, hspared⟩ := hsecure
  obtain ⟨m', hm', hbecomes, hrole⟩ := h.stays m hm hspared
  refine ⟨m', hm', hbecomes.serves hrole hserves, fun hdoomed => hspared ?_⟩
  rw [← hbecomes.id]
  exact h.dooms _ hdoomed

theorem Secures.isServed (h : w.Secures host) : w.isServed host = true := by
  obtain ⟨m, hm, hserves, _⟩ := h
  exact List.any_eq_true.mpr ⟨m, hm, hserves⟩

/-- Whether a host is the one that is away. -/
def isAway (away : Option String) (host : String) : Bool :=
  away.any (Ascii.sameFold · host)

/-- What an upgrade relies on and sees to: who the members of the nodes are that it has resolved,
that all hosts but the one that is away are secure, and that nobody else who is to be demoted serves
a host. -/
structure Mustered (site : Site) (hosts : List String) (nodes : List Node)
    (away doomed : Option String) (w : World) : Prop where
  registered : w.Registered
  distinct : hosts.Pairwise fun host host' => Ascii.sameFold host host' = false
  housed : ∀ machines interfaces,
    w.layout (site.config.setOf .manager) = some (machines, interfaces) →
      ∀ host ∈ hosts, ∃ i ∈ machines, Ascii.sameFold i.computerName host = true
  known : ∀ node ∈ nodes, ∀ id, node.memberId = some id → w.Fixed id (node.Describes hosts)
  secure : ∀ host ∈ hosts, isAway away host = false → w.Secures host
  spared : ∀ id, w.Dooms id → doomed = some id ∨ w.Fixed id (Member.IsAside hosts)

namespace Mustered

theorem drifts (h : Mustered site hosts nodes away doomed w) (hdrifts : Drifts w w')
    (hlayout : w'.layout = w.layout) : Mustered site hosts nodes away doomed w' where
  registered := hdrifts.registered h.registered
  distinct := h.distinct
  housed machines interfaces hset := h.housed machines interfaces (hlayout ▸ hset)
  known node hnode id hid := hdrifts.fixed (node.describes_lasting hosts) (h.known node hnode id hid)
  secure host hhost haway := hdrifts.secures (h.secure host hhost haway)
  spared id hdoomed := (h.spared id (hdrifts.dooms id hdoomed)).imp_right
    (hdrifts.fixed Member.isAside_lasting)

theorem of_subset (h : Mustered site hosts nodes away doomed w) (hsub : rest ⊆ nodes) :
    Mustered site hosts rest away doomed w :=
  { h with known := fun node hnode => h.known node (hsub hnode) }

/-- At most one host is away, since no two have the same name. -/
theorem countP_isAway (h : hosts.Pairwise fun host host' => Ascii.sameFold host host' = false)
    (away : Option String) : hosts.countP (isAway away) ≤ 1 := by
  cases away with
  | none =>
      have hnone : hosts.countP (isAway none) = 0 :=
        List.countP_eq_zero.mpr fun _ _ => Bool.false_ne_true
      omega
  | some name =>
      induction hosts with
      | nil => exact Nat.zero_le 1
      | cons host rest ih =>
          obtain ⟨hhost, hrest⟩ := List.pairwise_cons.mp h
          cases hcase : isAway (some name) host with
          | false =>
              rw [List.countP_cons_of_neg (by rw [hcase]; exact Bool.false_ne_true)]
              exact ih hrest
          | true =>
              -- Another host that is away would have the same name as this one.
              have hothers : rest.countP (isAway (some name)) = 0 := by
                refine List.countP_eq_zero.mpr fun other hother hsame => ?_
                have hfold : Ascii.sameFold host other = true :=
                  Ascii.sameFold_iff.mpr
                    ((Ascii.sameFold_iff.mp hcase).symm.trans (Ascii.sameFold_iff.mp hsame))
                rw [hhost other hother] at hfold
                cases hfold
              have hcount := List.countP_cons_of_pos (l := rest) hcase
              omega

theorem isQuorate (h : Mustered site hosts nodes away doomed w) : w.IsQuorate hosts := by
  -- A host without a ready manager is the one that is away.
  have hlength := List.length_eq_countP_add_countP w.isServed (l := hosts)
  have haway : hosts.countP (fun host => decide ¬w.isServed host = true) ≤
      hosts.countP (isAway away) := by
    refine List.countP_mono_left fun host hhost hunserved => ?_
    cases hcase : isAway away host with
    | true => rfl
    | false =>
        rw [(h.secure host hhost hcase).isServed] at hunserved
        cases hunserved
  have hone := countP_isAway h.distinct away
  unfold IsQuorate
  omega

/-! ### Demotions and removals -/

/-- A host may go away, and a member may be about to be demoted. -/
theorem weaken (h : Mustered site hosts nodes none none w) (away doomed : Option String) :
    Mustered site hosts nodes away doomed w :=
  { h with
    secure := fun host hhost _ => h.secure host hhost rfl
    spared := fun id hdoomed => .inr ((h.spared id hdoomed).resolve_left fun h => by cases h) }

/-- Nobody of an identifier serves a host but the one that is away. -/
def Expendable (hosts : List String) (away : Option String) (w : World) (id : String) : Prop :=
  ∀ m ∈ w.members, m.id = id → ∀ host ∈ hosts, isAway away host = false → m.serves host = false

theorem expendable_of_fixed (h : w.Fixed id (Member.IsAside hosts)) :
    Expendable hosts away w id :=
  fun m hm hid host hhost _ => h.holds m hm hid host hhost

/-- The member of a node is expendable while the node is upgraded. -/
theorem expendable_of_node (h : Mustered site hosts nodes node.away? doomed w)
    (hnode : node ∈ nodes) (hid : node.memberId = some id) :
    Expendable hosts node.away? w id := by
  intro m hm hm' host hhost haway
  have hdescribes := (h.known node hnode id hid).holds m hm hm'
  unfold Node.Describes at hdescribes
  unfold Node.away? at haway
  cases hrole : node.role with
  | manager =>
      rw [hrole] at hdescribes
      rw [hrole, if_pos rfl] at haway
      have haway : Ascii.sameFold node.hostname host = false := haway
      simp [Member.serves, hdescribes, haway]
  | worker =>
      rw [hrole] at hdescribes
      exact hdescribes host hhost

theorem postpone_demotion (h : Mustered site hosts nodes away doomed w)
    (hexpendable : Expendable hosts away w id)
    (hallowed : doomed = some id ∨ w.Fixed id (Member.IsAside hosts)) (delay : Nat) :
    Mustered site hosts nodes away doomed (w.postpone delay (.demotion id)) := by
  have hfollows := postpone_demotion_follows w delay id
  have hdooms : ∀ id', (w.postpone delay (.demotion id)).Dooms id' → w.Dooms id' ∨ id' = id := by
    intro id' hdoomed
    unfold Dooms at hdoomed
    rw [effects_postpone, List.mem_append] at hdoomed
    exact hdoomed.imp_right fun hlast => Effect.demotion.inj (List.mem_singleton.mp hlast)
  exact
    { registered := hfollows.registered h.registered
      distinct := h.distinct
      housed := h.housed
      known := fun node hnode id hid =>
        hfollows.fixed (node.describes_lasting hosts) (h.known node hnode id hid)
      secure := fun host hhost haway => by
        obtain ⟨m, hm, hserves, hspared⟩ := h.secure host hhost haway
        refine ⟨m, hm, hserves, fun hdoomed => ?_⟩
        rcases hdooms _ hdoomed with hold | hid
        · exact hspared hold
        · rw [hexpendable m hm hid host hhost haway] at hserves
          cases hserves
      spared := fun id' hdoomed => by
        rcases hdooms id' hdoomed with hold | rfl
        · exact (h.spared id' hold).imp_right (hfollows.fixed Member.isAside_lasting)
        · exact hallowed.imp_right (hfollows.fixed Member.isAside_lasting) }

theorem remove (h : Mustered site hosts nodes away doomed w)
    (hexpendable : Expendable hosts away w id) :
    Mustered site hosts nodes away doomed
      { w with members := w.members.filter fun m => m.id ≠ id } := by
  have hfollows := remove_follows w id
  exact
    { registered := hfollows.registered h.registered
      distinct := h.distinct
      housed := h.housed
      known := fun node hnode id hid =>
        hfollows.fixed (node.describes_lasting hosts) (h.known node hnode id hid)
      secure := fun host hhost haway => by
        obtain ⟨m, hm, hserves, hspared⟩ := h.secure host hhost haway
        refine ⟨m, List.mem_filter.mpr ⟨hm, decide_eq_true fun hid => ?_⟩, hserves, hspared⟩
        rw [hexpendable m hm hid host hhost haway] at hserves
        cases hserves
      spared := fun id' hdoomed =>
        (h.spared id' hdoomed).imp_right (hfollows.fixed Member.isAside_lasting) }

/-- Once a member is aside, its demotion is no danger any more. -/
theorem settle (h : Mustered site hosts nodes away doomed w)
    (haside : ∀ id, doomed = some id → w.Fixed id (Member.IsAside hosts)) :
    Mustered site hosts nodes away none w :=
  { h with spared := fun id hdoomed => .inr ((h.spared id hdoomed).elim (haside id) fun h => h) }

end Mustered

end World

end SwarmUpkeep
