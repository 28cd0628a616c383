import AppFleet.Application.Basic
import AppFleet.Instance

/-!
What is known of one instance slot. Records are never deleted: one that was not refreshed for longer
than its time to live has expired, and reads as down.
-/

namespace AppFleet

structure LedgerRecord where
  appId : AppId
  index : UInt32
  /-- The generation that the reporting node runs in this slot. -/
  version : Version
  instanceId : String
  nodeId : NodeId
  state : InstanceState
  usage : Option Usage
  /-- Unix seconds of the last heartbeat or stats reply. -/
  refreshedAt : UInt64
  ttl : UInt64
deriving DecidableEq

namespace LedgerRecord

def codec : Codec LedgerRecord :=
  Fields.record "LedgerRecord" <|
    LedgerRecord.mk
      <$> .required "app_id" .string (·.appId)
      <*> .required "index" .uint32 (·.index)
      <*> .required "version" .string (·.version)
      <*> .required "instance_id" .string (·.instanceId)
      <*> .required "node_id" .string (·.nodeId)
      <*> .required "state" InstanceState.codec (·.state)
      <*> .optional "usage" Usage.codec (·.usage)
      <*> .required "refreshed_at" .uint64 (·.refreshedAt)
      <*> .required "ttl_secs" .uint64 (·.ttl)

/-- The key of a slot. -/
def key (app : AppId) (index : UInt32) : String := s!"{app}:{index}"

def slot (r : LedgerRecord) : String := key r.appId r.index

/-- A reading before the refresh counts as no time at all. -/
def isExpired (r : LedgerRecord) (now : UInt64) : Bool := r.ttl.toNat < now.toNat - r.refreshedAt.toNat

def stateAt (r : LedgerRecord) (now : UInt64) : InstanceState :=
  if r.isExpired now then .down else r.state

end LedgerRecord

end AppFleet
