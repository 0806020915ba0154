import SwarmUpkeep.World.Effects
import SwarmUpkeep.World.Journal

/-!
# The services of a world

How each service of a world answers a call that no fault hits, and what the world is afterwards.
-/

namespace SwarmUpkeep.World

/-! ## The swarm -/

def member? (w : World) (id : String) : Option Member :=
  w.members.find? fun m => m.id = id

def noNode (id : String) : ServiceError :=
  .notFound ("node " ++ id)

/-- The members of a role, or all. -/
def ofRole (members : List Member) : Option Role → List Member
  | none => members
  | some role => members.filter fun m => m.role = role

/-- This host leaves: its node is down from now on. -/
def leave (w : World) : World :=
  let members := w.members.map fun m =>
    if w.localId = some m.id then { m with status := .down } else m
  { w with members, localId := none }

def managerToken : String := "T-manager"

def workerToken : String := "T-worker"

def join (w : World) (remote : Address) (token : String) : World :=
  let (id, w) := w.newId
  let role := if token = managerToken then .manager else .worker
  let w := w.arrive ⟨id, w.localHostname, w.localIp.getD remote, role, .ready, false⟩
  if w.knobs.joinInvisible then w else { w with localId := some id }

def swarm (w : World) : (call : SwarmCall) → call.Answer × World
  | .members role =>
      let w := w.advance
      (.ok (ofRole w.members role), w)
  | .inspect id =>
      match w.member? id with
      | some m => (.ok m, w)
      | none => (.error (noNode id), w)
  | .localId => (.ok w.localId, w)
  | .demote id =>
      match w.member? id with
      | some _ => (.ok (), w.schedule w.knobs.demoteDelay (.demotion id))
      | none => (.error (noNode id), w)
  | .remove id =>
      match w.member? id with
      | some _ => (.ok (), { w with members := w.members.filter fun m => m.id ≠ id })
      | none => (.error (noNode id), w)
  | .joinTokens => (.ok ⟨managerToken, workerToken⟩, w)
  | .leave => (.ok (), w.leave)
  | .join remote token => (.ok (), w.join remote token)

/-! ## The provider -/

def noSet (set : String) : ServiceError :=
  .notFound ("scale set " ++ set)

def noMachine (set machine : String) : ServiceError :=
  .notFound ("instance " ++ set ++ "/" ++ machine)

/-- A machine and its scale set. -/
def host (w : World) (set machine : String) : Except ServiceError (ScaleSet × Host) :=
  match Keyed.find? w.sets set with
  | none => .error (noSet set)
  | some s =>
      match s.host? machine with
      | none => .error (noMachine set machine)
      | some h => .ok (s, h)

def ScaleSet.machines (set : ScaleSet) : List Machine :=
  set.hosts.map fun h => ⟨h.id, h.name, false⟩

/-- The interfaces of all machines, and then those that are listed beside them. -/
def ScaleSet.interfaces (set : ScaleSet) : List NetworkInterface :=
  (set.hosts.flatMap fun h => h.nics.map fun nic => ⟨h.id, nic.ip, nic.primary⟩) ++
    set.extraInterfaces

/-- The machine is gone and the set is meant to have one less. -/
def ScaleSet.without (set : ScaleSet) (machine : String) : ScaleSet :=
  { set with capacity := set.capacity - 1, hosts := set.hosts.filter fun h => h.id ≠ machine }

/-- An operation that a world starts. -/
def started (w : World) (call : ProviderCall) (reimaged : Option (String × String)) :
    Except ServiceError Operation × World :=
  let (operation, w) := w.start (Keyed.find? w.plans call.text) reimaged
  (.ok operation, w)

def provider (w : World) : (call : ProviderCall) → call.Answer × World
  | .machines set =>
      match Keyed.find? w.sets set with
      | some s => (.ok s.machines, w)
      | none => (.error (noSet set), w)
  | .interfaces set =>
      match Keyed.find? w.sets set with
      | some s => (.ok s.interfaces, w)
      | none => (.error (noSet set), w)
  | .view set machine =>
      match w.host set machine with
      | .ok (_, h) => (.ok ⟨h.power, h.provisioning, h.provisionedAt⟩, w)
      | .error e => (.error e, w)
  | .updateModel set machine =>
      match w.host set machine with
      | .ok _ => w.started (.updateModel set machine) none
      | .error e => (.error e, w)
  | .reimage set machine =>
      match w.host set machine with
      | .ok (s, _) =>
          (w.haunt s.role w.knobs.ghosts).started (.reimage set machine) (some (set, machine))
      | .error e => (.error e, w)
  | .delete set machine =>
      match w.host set machine with
      | .ok (s, _) =>
          { w with sets := Keyed.set w.sets set (s.without machine) }.started
            (.delete set machine) none
      | .error e => (.error e, w)
  | .capacity set =>
      match Keyed.find? w.sets set with
      | some s => (.ok s.capacity, w)
      | none => (.error (noSet set), w)
  | .setCapacity set n =>
      match Keyed.find? w.sets set with
      | some s =>
          { w with sets := Keyed.set w.sets set { s with capacity := n } }.started
            (.setCapacity set n) none
      | none => (.error (noSet set), w)
  | .deployment name =>
      if name = w.deployment.name then (.ok w.deployment, w)
      else (.error (.notFound ("deployment " ++ name)), w)
  | .updateDeployment name template parameters =>
      { w with
        deployment := { w.deployment with template := some template }
        supplied := some parameters }.started (.updateDeployment name template parameters) none
  | .status .done => (.ok .succeeded, w)
  | .status (.pending operation) => w.statusOf operation

/-! ## Queues -/

def noQueue (queue : String) : ServiceError :=
  .notFound ("queue " ++ queue)

/-- Puts a text at the end of a queue. -/
def append (w : World) (queue : String) (messages : List Message) (text : String) : World :=
  let message : Message := ⟨"msg-" ++ toString (w.messageCount + 1), text⟩
  { w with
    queues := Keyed.set w.queues queue (messages ++ [message])
    messageCount := w.messageCount + 1 }

def queue (w : World) : (call : QueueCall) → call.Answer × World
  | .create queue =>
      match Keyed.find? w.queues queue with
      | some _ => (.ok false, w)
      | none => (.ok !w.knobs.createRace, { w with queues := Keyed.set w.queues queue [] })
  | .delete queue =>
      match Keyed.find? w.queues queue with
      | some _ => (.ok (), { w with queues := Keyed.erase w.queues queue })
      | none => (.error (noQueue queue), w)
  | .exists queue => (.ok (Keyed.find? w.queues queue).isSome, w)
  | .put queue text =>
      match Keyed.find? w.queues queue with
      | some messages => (.ok (), w.append queue messages text)
      | none => (.error (noQueue queue), w)
  | .peek queue =>
      match Keyed.find? w.queues queue with
      | some messages => (.ok messages.head?, w)
      | none => (.error (noQueue queue), w)
  | .get queue =>
      match Keyed.find? w.queues queue with
      | some messages =>
          let messages := messages.drop w.knobs.stealOnGet
          (.ok messages.head?, { w with queues := Keyed.set w.queues queue messages })
      | none => (.error (noQueue queue), w)
  | .deleteMessage queue message =>
      match Keyed.find? w.queues queue with
      | some messages =>
          if messages.any fun m => m.id = message.id then
            let messages := messages.filter fun m => m.id ≠ message.id
            (.ok (), { w with queues := Keyed.set w.queues queue messages })
          else (.error (.notFound ("message " ++ message.id)), w)
      | none => (.error (noQueue queue), w)
  | .count queue => (.ok ((Keyed.find? w.queues queue).getD []).length, w)

/-! ## Tables -/

/-- Whether a row has this partition and key. -/
def isAt (partition key : String) (row : Row) : Bool :=
  row.partition == partition && row.key == key

/-- Puts a row in its place by partition and key, instead of one that is there. -/
def putRow (row : Row) : List Row → List Row
  | [] => [row]
  | old :: rest =>
      if isAt row.partition row.key old then row :: rest
      else if row.partition < old.partition ∨ (row.partition = old.partition ∧ row.key < old.key)
      then row :: old :: rest
      else old :: putRow row rest

/-- The rows of a table. -/
def rows (w : World) (table : String) : List Row :=
  (Keyed.find? w.tables table).getD []

def table (w : World) : (call : TableCall) → call.Answer × World
  | .get table partition key => (.ok ((w.rows table).find? (isAt partition key)), w)
  | .upsert table row =>
      (.ok (), { w with tables := Keyed.set w.tables table (putRow row (w.rows table)) })
  | .delete table partition key =>
      if (w.rows table).any (isAt partition key) then
        let rows := (w.rows table).filter fun row => !isAt partition key row
        (.ok (), { w with tables := Keyed.set w.tables table rows })
      else (.error (.notFound (table ++ "/" ++ partition ++ "/" ++ key)), w)
  | .query table partition =>
      (.ok ((w.rows table).filter fun row => row.partition == partition), w)

/-! ## Small services -/

def addon (w : World) : (call : AddonCall) → call.Answer × World
  | .removeReplica _ => (.ok (), w)
  | .joinReplica nodeName => (.ok ("replica-" ++ nodeName), w)

/-- The answer to a probe; the last that was told in advance is given again and again. -/
def probe (w : World) (addr : Address) : Bool × World :=
  match Keyed.find? w.probes addr with
  | none | some [] => (true, w)
  | some [answer] => (answer, w)
  | some (answer :: rest) => (answer, { w with probes := Keyed.set w.probes addr rest })

/-- A template without anything in it. -/
def plainTemplate : Json :=
  .obj [("resources", .arr [])]

def template (w : World) (url : Url) : Json :=
  (Keyed.find? w.templates url.text).getD plainTemplate

/-- The clock, which moves on by a microsecond with each reading. -/
def read (w : World) : Instant × World :=
  let t := w.clock.addNanos 1000
  (t, { w with clock := t })

end SwarmUpkeep.World
