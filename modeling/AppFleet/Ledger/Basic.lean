import AppFleet.Json.Reread
import AppFleet.Ledger.Record
import AppFleet.Message.Node
import AppFleet.Store.Table

/-!
The ledger: the last-known liveness and usage of every instance slot. Heartbeats and stats replies
write it, the last one wins, and nothing is ever removed.
-/

namespace AppFleet

abbrev Ledger := Table LedgerRecord

/-- Records are kept as text. -/
def LedgerRecord.stored (r : LedgerRecord) : LedgerRecord :=
  { r with usage := r.usage.map fun u => { u with cpu := Json.reread u.cpu } }

/-- What an application's slot shows. -/
structure Slot where
  state : InstanceState
  usage : Option Usage
  instanceId : Option String
  nodeId : Option NodeId
deriving DecidableEq

/-- A slot of which nothing is known. -/
def Slot.down : Slot := ⟨.down, none, none, none⟩

def Slot.ofRecord (r : LedgerRecord) : Slot := ⟨r.state, r.usage, some r.instanceId, some r.nodeId⟩

def Slot.codec : Codec Slot :=
  Fields.record "Slot" <|
    Slot.mk
      <$> .required "state" InstanceState.codec (·.state)
      <*> .optional "usage" Usage.codec (·.usage)
      <*> .optional "instance_id" .string (·.instanceId)
      <*> .optional "node_id" .string (·.nodeId)

namespace Ledger

def write (l : Ledger) (key : String) (r : LedgerRecord) : Ledger := l.put key r.stored

/-- The record of a reported instance. Usage carries over only while the same instance holds the
slot. -/
def reported (now ttl : UInt64) (node : NodeId) (entry : HeartbeatInstance)
    (current : Option LedgerRecord) : LedgerRecord where
  appId := entry.appId
  index := entry.index
  version := entry.version
  instanceId := entry.instanceId
  nodeId := node
  state := entry.state
  usage := (current.filter (·.instanceId = entry.instanceId)).bind (·.usage)
  refreshedAt := now
  ttl

def report (now ttl : UInt64) (node : NodeId) (l : Ledger) (entry : HeartbeatInstance) : Ledger :=
  let key := LedgerRecord.key entry.appId entry.index
  l.write key (reported now ttl node entry (l.get? key))

/-- Records every instance of a heartbeat, in order. -/
def ingest (l : Ledger) (now ttl : UInt64) (heartbeat : Heartbeat) : Ledger :=
  heartbeat.instances.foldl (report now ttl heartbeat.nodeId) l

/-- A stats reply answers for a record if it is about the same slot. -/
def Answers (reply : StatsReply) (requested : LedgerRecord) : Prop :=
  reply.appId = requested.appId ∧ reply.index = requested.index

instance (reply : StatsReply) (requested : LedgerRecord) : Decidable (Answers reply requested) := by
  unfold Answers; infer_instance

def refreshed (now ttl : UInt64) (r : LedgerRecord) (reply : StatsReply) : LedgerRecord :=
  { r with state := reply.state, usage := some reply.usage, refreshedAt := now, ttl }

/-- Merges a stats reply into the record that the slot holds by now. A reply for another slot is
dropped. -/
def merge (l : Ledger) (now ttl : UInt64) (requested : LedgerRecord) (reply : StatsReply) :
    Option LedgerRecord × Ledger :=
  if Answers reply requested then
    let r := refreshed now ttl ((l.get? requested.slot).getD requested) reply
    (some r, l.write requested.slot r)
  else (none, l)

/-- The records within their time to live. -/
def live (l : Ledger) (now : UInt64) : List LedgerRecord := l.toList.filter (!·.isExpired now)

/-- The records whose keys begin with the application's id and a colon. -/
def ofApp (l : Ledger) (app : AppId) : List LedgerRecord := l.withPrefix (app ++ ":")

/-- One slot for every desired index. The last live record listed for an index is shown. -/
def states (l : Ledger) (now : UInt64) (app : AppId) (instances : UInt32) : List Slot :=
  let records := (l.ofApp app).filter (!·.isExpired now)
  (List.range instances.toNat).map fun i =>
    ((records.filter (·.index.toNat = i)).getLast?.map Slot.ofRecord).getD .down

end Ledger

end AppFleet
