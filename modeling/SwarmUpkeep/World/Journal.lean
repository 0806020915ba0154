import SwarmUpkeep.Control.Call

/-!
# Calls as texts

Each call to a service has a text, by which it is recorded and by which a fault is aimed at it.
Time passing and the clock have none, and neither has the status of finished work, for which no
service is asked.
-/

namespace SwarmUpkeep

/-- A name with its arguments. -/
def callText (name : String) (arguments : List String) : String :=
  name ++ "(" ++ ",".intercalate arguments ++ ")"

def SwarmCall.text : SwarmCall → String
  | members none => callText "nodes" ["*"]
  | members (some role) => callText "nodes" [role.text]
  | inspect id => callText "inspect" [id]
  | localId => callText "local" []
  | demote id => callText "demote" [id]
  | remove id => callText "remove" [id]
  | joinTokens => callText "tokens" []
  | leave => callText "leave" []
  | join remote token => callText "join" [remote.text, token]

def ProviderCall.text : ProviderCall → String
  | machines set => callText "instances" [set]
  | interfaces set => callText "nics" [set]
  | view set machine => callText "view" [set, machine]
  | updateModel set machine => callText "update-model" [set, machine]
  | reimage set machine => callText "reimage" [set, machine]
  | delete set machine => callText "delete" [set, machine]
  | capacity set => callText "capacity" [set]
  | setCapacity set n => callText "set-capacity" [set, toString n]
  | deployment name => callText "deployment" [name]
  | updateDeployment name template _ => callText "update-deployment" [name, template.text]
  | status .done => callText "status" ["done"]
  | status (.pending operation) => callText "status" [operation]

def QueueCall.text : QueueCall → String
  | create queue => callText "q-create" [queue]
  | delete queue => callText "q-delete" [queue]
  | .exists queue => callText "q-exists" [queue]
  | put queue _ => callText "q-put" [queue]
  | peek queue => callText "q-peek" [queue]
  | get queue => callText "q-get" [queue]
  | deleteMessage queue message => callText "q-delmsg" [queue, message.id]
  | count queue => callText "q-count" [queue]

def TableCall.text : TableCall → String
  | get table partition key => callText "t-get" [table, partition, key]
  | upsert table row => callText "t-upsert" [table, row.partition, row.key]
  | delete table partition key => callText "t-delete" [table, partition, key]
  | query table partition => callText "t-query" [table, partition]

def AddonCall.text : AddonCall → String
  | removeReplica replica =>
      callText "addon-remove" [replica.replicaId, replica.nodeName, replica.description.text]
  | joinReplica nodeName => callText "addon-join" [nodeName]

/-- What stands in front of a call to another host's control plane. -/
def Engine.text : Engine → String
  | here => ""
  | .at addr => addr.text ++ ">"

def Call.text? : Call → Option String
  | swarm engine call => some (engine.text ++ call.text)
  | reach addr => some (callText "at" [addr.text])
  | provider (.status .done) => none
  | provider call => some call.text
  | queue call => some call.text
  | table call => some call.text
  | addon call => some call.text
  | probe addr => some (callText "probe" [addr.text])
  | template url => some (callText "fetch" [url.text])
  | pause _ => none
  | now => none

end SwarmUpkeep
