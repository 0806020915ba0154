import SwarmUpkeep.World.State

/-!
# What happens in a world by itself

A demoted manager becomes a worker and loses the lead, and then the first ready manager is elected
if nobody leads. A machine that has been reimaged joins the swarm again under a new identifier.
Each of these can be put off for a number of listings of the members.
-/

namespace SwarmUpkeep.World

/-- A new identifier of a node. -/
def newId (w : World) : String × World :=
  ("x" ++ toString (w.nodeCount + 1), { w with nodeCount := w.nodeCount + 1 })

def hasLeader (w : World) : Bool :=
  w.members.any (·.isLeader)

/-- The first ready manager of a listing takes the lead. -/
def electFirst : List Member → List Member
  | [] => []
  | m :: rest =>
      if m.role = .manager ∧ m.status.isReady then { m with isLeader := true } :: rest
      else m :: electFirst rest

def elect (w : World) : World :=
  if w.hasLeader then w else { w with members := electFirst w.members }

def arrive (w : World) (member : Member) : World :=
  { w with members := w.members ++ [member] }

/-- The members when one of them has become a plain worker. -/
def demoteIn (id : String) (members : List Member) : List Member :=
  members.map fun m => if m.id = id then { m with role := .worker, isLeader := false } else m

/-- Puts an effect off. -/
def postpone (w : World) (delay : Nat) (effect : Effect) : World :=
  { w with pending := w.pending ++ [(delay, effect)] }

def demoteNow (w : World) (id : String) : World :=
  let w := { w with members := demoteIn id w.members }
  if w.knobs.noElection then w
  else if w.knobs.electDelay = 0 then w.elect
  else w.postpone w.knobs.electDelay .election

def apply (w : World) : Effect → World
  | .demotion id => w.demoteNow id
  | .election => w.elect
  | .arrival member => w.arrive member

/-- Lets an effect happen after a number of listings, or at once if that is zero. -/
def schedule (w : World) (delay : Nat) (effect : Effect) : World :=
  if delay = 0 then w.apply effect else w.postpone delay effect

/-- One listing passes: what is due happens, in order. -/
def advance (w : World) : World :=
  let counted := w.pending.map fun (delay, effect) => (delay - 1, effect)
  let due := counted.filter fun (delay, _) => delay = 0
  let w := { w with pending := counted.filter fun (delay, _) => delay ≠ 0 }
  due.foldl (fun w (_, effect) => w.apply effect) w

/-! ## Machines -/

def ScaleSet.host? (set : ScaleSet) (id : String) : Option Host :=
  set.hosts.find? fun h => h.id = id

/-- The address under which a host joins again. -/
def Host.joinAddress (host : Host) : Address :=
  ((host.nics.find? (·.primary)).map (·.ip)).getD (.v4 10 255 255 255)

/-- A machine has been reimaged: it is provisioned now and joins the swarm again. -/
def finishReimage (w : World) (set machine : String) : World :=
  match Keyed.find? w.sets set with
  | none => w
  | some s =>
      match s.host? machine with
      | none => w
      | some host =>
          let hosts := s.hosts.map fun h =>
            if h.id = machine then { h with provisionedAt := some w.clock } else h
          let w := { w with sets := Keyed.set w.sets set { s with hosts } }
          if w.knobs.noRejoin then w
          else
            let (id, w) := w.newId
            let hostname := if w.knobs.rejoinUpper then Ascii.upper host.name else host.name
            w.schedule w.knobs.rejoinDelay
              (.arrival ⟨id, hostname, host.joinAddress, s.role, w.knobs.rejoinStatus, false⟩)

/-- The ghosts of a reimage appear. -/
def haunt (w : World) (role : Role) : List Ghost → World
  | [] => w
  | ghost :: rest =>
      let (id, w) := w.newId
      (w.arrive ⟨id, ghost.hostname ++ id, ghost.addr, role, ghost.status, false⟩).haunt role rest

/-! ## Operations -/

/-- Starts an operation as it is planned under the text of its call. -/
def start (w : World) (plan : Option Plan) (reimaged : Option (String × String)) :
    Operation × World :=
  match plan with
  | some ⟨true, _, _⟩ =>
      match reimaged with
      | some (set, machine) => (.done, w.finishReimage set machine)
      | none => (.done, w)
  | plan =>
      let name := "op-" ++ toString (w.operationCount + 1)
      let polls := ((plan.bind (·.polls)).or w.knobs.operationPolls).getD 2
      let work : Work := ⟨polls, plan.bind (·.failure), reimaged⟩
      (.pending name,
        { w with operationCount := w.operationCount + 1, works := Keyed.set w.works name work })

/-- The status of an operation, which comes nearer to its end by being asked for. -/
def statusOf (w : World) (name : String) : Except ServiceError OperationStatus × World :=
  match Keyed.find? w.works name with
  | none => (.error (.notFound ("operation " ++ name)), w)
  | some work =>
      if 1 < work.polls then
        (.ok .inProgress,
          { w with works := Keyed.set w.works name { work with polls := work.polls - 1 } })
      else
        match work.failure, work.reimaged with
        | some reason, _ => (.ok (.failed reason), w)
        | none, none => (.ok .succeeded, w)
        | none, some (set, machine) =>
            let w := { w with works := Keyed.set w.works name { work with reimaged := none } }
            (.ok .succeeded, w.finishReimage set machine)

end SwarmUpkeep.World
