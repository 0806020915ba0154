import SwarmUpkeep.Proofs.Program.Transcript
import SwarmUpkeep.Upkeep.Upgrade.Run

/-!
# An account of an upgrade

What an upgrade may ask next follows from what it has been answered so far. The account below keeps
track of that. The deployment comes first; then the managers are gathered from one listing of their
machines, interfaces and members, and walked through their upgrade one after the other, and after
them the workers. A walk goes leg by leg, and each leg is left only by the answer that ends it: the
last one by a listing in which the node is ready again.

The account knows nothing of the program. It is a measure for its transcripts, whoever answers.
-/

namespace SwarmUpkeep

/-! ## Errands -/

/-- A node to be upgraded: a machine and the member that runs on it. -/
structure Errand where
  role : Role
  machine : String
  id : String
  hostname : String
deriving DecidableEq, Inhabited

namespace Errand

/-- The errand that a machine stands for, unless nobody runs on it or this host does. -/
def ofRow? (selfId : Option String) (role : Role) (members : List Member) (row : MachineAddress) :
    Option Errand :=
  (Resolution.memberAt members row.privateIp).bind fun m =>
    if selfId = some m.id then none else some ⟨role, row.machineId, m.id, m.hostname⟩

/-- The errand to a resolved node. -/
def ofNode (node : Node) : Errand :=
  ⟨node.role, node.instanceId, node.memberId.getD "", node.hostname⟩

/-- The errand that a resolved node stands for, with the same exceptions. -/
def ofNode? (selfId : Option String) (node : Node) : Option Errand :=
  if Upgrade.isOwn selfId node ∨ !node.isMember then none else some (ofNode node)

theorem ofNode?_node (selfId : Option String) (role : Role) (members : List Member)
    (row : MachineAddress) (provisionedAt : Option Instant) :
    ofNode? selfId (Resolution.node role members row provisionedAt) =
      ofRow? selfId role members row := by
  unfold ofNode? ofRow? Resolution.node
  cases Resolution.memberAt members row.privateIp with
  | none => simp [Node.isMember]
  | some m =>
      cases selfId with
      | none => simp [Upgrade.isOwn, Node.isMember, ofNode]
      | some own =>
          by_cases h : own = m.id
          · simp [Upgrade.isOwn, Node.hasId, h]
          · have hne : ¬m.id = own := Ne.symm h
            simp [Upgrade.isOwn, Node.hasId, Node.isMember, ofNode, h, hne]

/-- What the report of a run says of a node that is back. -/
def report (errand : Errand) : Upgrade.NodeReport :=
  ⟨errand.hostname, errand.role, .rejoined⟩

end Errand

/-! ## Phases -/

/-- How far the walk of a node has come. -/
inductive Leg where
  | untouched
  | demoted
  | removed
  | updating (operation : Operation)
  | updated
  | reimaging (operation : Operation)
  | reimaged
deriving DecidableEq, Inhabited

/-- How far a run has come: whether the deployment has been updated, which role's nodes are being
gathered, and which node is on its way before which others. -/
inductive Phase where
  | unprepared
  | deploying (operation : Operation)
  | gathering (role : Role)
  | walking (leg : Leg) (errand : Errand) (rest : List Errand)
  | finished
deriving DecidableEq, Inhabited

/-- What is known from the answers so far: who this host is, the nodes gathered and those that are
back, and the latest listings. -/
structure Account where
  selfId : Option String
  planned : List Errand
  returned : List Errand
  machines : Option (List Machine)
  interfaces : Option (List NetworkInterface)
  members : List Member
  phase : Phase
deriving Inhabited

/-- Whether a member was removed, or there was nobody to remove. -/
def isRemoved : Except ServiceError Unit → Bool
  | .ok _ => true
  | .error e => e.isNotFound

/-- Where a started operation leads, which may be done at once. -/
def Leg.started (operation : Operation) : Leg :=
  if operation = .done then .updated else .updating operation

/-- The leg after an answer. -/
def Leg.next : Leg → Exchange Surroundings → Leg
  | .untouched, ⟨.swarm _ (.demote _), .ok _⟩ => .demoted
  | .untouched, ⟨.swarm _ (.remove _), answer⟩ => if isRemoved answer then .removed else .untouched
  | .demoted, ⟨.swarm _ (.remove _), answer⟩ => if isRemoved answer then .removed else .demoted
  | .removed, ⟨.provider (.updateModel _ _), .ok operation⟩ => .started operation
  | .updating _, ⟨.provider (.status _), .ok .succeeded⟩ => .updated
  | .updated, ⟨.provider (.reimage _ _), .ok operation⟩ => .reimaging operation
  | .reimaging _, ⟨.provider (.status _), .ok .succeeded⟩ => .reimaged
  | leg, _ => leg

namespace Account

/-- The account of nothing. -/
def start : Account :=
  ⟨none, [], [], none, none, [], .unprepared⟩

/-- The nodes of a role are to be gathered, from new listings. -/
def gather (a : Account) (role : Role) : Account :=
  { a with machines := none, interfaces := none, phase := .gathering role }

/-- The next node is on its way; after the last manager the workers are gathered. -/
def proceed (a : Account) (role : Role) : List Errand → Account
  | errand :: rest => { a with phase := .walking .untouched errand rest }
  | [] =>
      match role with
      | .manager => a.gather .worker
      | .worker => { a with phase := .finished }

/-- The nodes that the latest listings stand for. -/
def errands (a : Account) (role : Role) (members : List Member) : List Errand :=
  (Resolution.addressed (a.machines.getD []) (a.interfaces.getD [])).filterMap
    (Errand.ofRow? a.selfId role members)

/-- Keeps what an answer lists. -/
def note (a : Account) : Exchange Surroundings → Account
  | ⟨.swarm _ .localId, .ok selfId⟩ => { a with selfId }
  | ⟨.swarm _ (.members _), .ok members⟩ => { a with members }
  | ⟨.provider (.machines _), .ok machines⟩ => { a with machines := some machines }
  | ⟨.provider (.interfaces _), .ok interfaces⟩ => { a with interfaces := some interfaces }
  | _ => a

/-- Moves on by an answer. -/
def move (a : Account) (e : Exchange Surroundings) : Account :=
  match a.phase with
  | .unprepared =>
      match e with
      | ⟨.provider (.updateDeployment _ _ _), .ok operation⟩ =>
          if operation = .done then a.gather .manager
          else { a with phase := .deploying operation }
      | _ => a
  | .deploying _ =>
      match e with
      | ⟨.provider (.status _), .ok .succeeded⟩ => a.gather .manager
      | _ => a
  | .gathering role =>
      match e with
      | ⟨.swarm _ (.members _), .ok members⟩ =>
          let errands := a.errands role members
          { a with planned := a.planned ++ errands }.proceed role errands
      | _ => a
  | .walking .reimaged errand rest =>
      match e with
      | ⟨.swarm _ (.members _), .ok members⟩ =>
          if (NodeWalk.returned errand.hostname members).isSome then
            { a with returned := a.returned ++ [errand] }.proceed errand.role rest
          else a
      | _ => a
  | .walking leg errand rest => { a with phase := .walking (leg.next e) errand rest }
  | .finished => a

/-- The account after one more answer. -/
def next (a : Account) (e : Exchange Surroundings) : Account :=
  (a.note e).move e

/-! ## What may be asked -/

/-- Whether a member has the name of no machine, by the latest listings. -/
def IsStale (a : Account) (id : String) : Prop :=
  ∃ m ∈ NodeWalk.overprovisioned (a.machines.getD []) a.members, m.id = id

end Account

/-- What may be asked on a leg of a walk. Only the machine and the member of the errand are touched,
but for members without a machine, which are evicted while the machine is reimaged. -/
def Leg.Permits (site : Site) (errand : Errand) (isStale : String → Prop) : Leg → Call → Prop
  | .untouched, .table _ => True
  | .untouched, .addon (.removeReplica replica) =>
      Ascii.sameFold replica.nodeName errand.hostname = true
  | .untouched, .swarm .here (.members listed) => errand.role = .manager ∧ listed = some .manager
  | .untouched, .swarm .here (.demote id) => errand.role = .manager ∧ id = errand.id
  | .untouched, .swarm .here (.remove id) => errand.role ≠ .manager ∧ id = errand.id
  | .demoted, .table _ => True
  | .demoted, .swarm .here (.members listed) => listed = some .manager
  | .demoted, .swarm .here (.remove id) => id = errand.id
  | .removed, .table _ => True
  | .removed, .provider (.updateModel set machine) =>
      set = site.config.setOf errand.role ∧ machine = errand.machine
  | .updating operation, .provider (.status asked) => asked = operation
  | .updated, .provider (.reimage set machine) =>
      set = site.config.setOf errand.role ∧ machine = errand.machine
  | .reimaging _, .provider (.machines set) => set = site.config.setOf errand.role
  | .reimaging _, .swarm .here (.members listed) => listed = some errand.role
  | .reimaging _, .swarm .here (.demote id) => errand.role = .manager ∧ isStale id
  | .reimaging _, .swarm .here (.remove id) => isStale id
  | .reimaging operation, .provider (.status asked) => asked = operation
  | .reimaged, .swarm .here (.members listed) => listed = some errand.role
  | _, _ => False

/-- What may be asked in a phase. -/
def Phase.Permits (site : Site) (a : Account) : Phase → Call → Prop
  | .unprepared, .queue _ => True
  | .unprepared, .template _ => True
  | .unprepared, .swarm .here .localId => True
  | .unprepared, .swarm .here (.members listed) => listed = some .manager
  | .unprepared, .provider (.deployment _) => True
  | .unprepared, .provider (.updateDeployment _ _ _) => True
  | .deploying operation, .provider (.status asked) => asked = operation
  | .gathering role, .provider (.machines set) => set = site.config.setOf role
  | .gathering role, .provider (.interfaces set) => set = site.config.setOf role
  | .gathering role, .swarm .here (.members listed) =>
      listed = some role ∧ a.machines.isSome = true ∧ a.interfaces.isSome = true
  | .walking leg errand _, c => leg.Permits site errand a.IsStale c
  | .finished, .queue _ => True
  | .finished, .table _ => True
  | .finished, .addon (.removeReplica _) => True
  | _, _ => False

/-- What may be asked at any time: giving the lock up, how a machine is, and time. -/
def Call.IsFree : Call → Prop
  | .queue (.delete _) => True
  | .provider (.view _ _) => True
  | .pause _ => True
  | .now => True
  | _ => False

/-- What may be asked by the account of what has been answered. -/
def Account.Permits (site : Site) (a : Account) (c : Call) : Prop :=
  c.IsFree ∨ a.phase.Permits site a c

/-! ## The order of the nodes -/

namespace Account

/-- The nodes that are still to be back of those that have been gathered. -/
def due (a : Account) : List Errand :=
  match a.phase with
  | .walking _ errand rest => errand :: rest
  | _ => []

end Account

end SwarmUpkeep
