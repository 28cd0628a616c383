import AppFleet.Application.Basic
import AppFleet.Json.Fields

/-! What is known of a compute node. -/

namespace AppFleet

structure NodeRecord where
  id : NodeId
  /-- Unknown until the node says who it is. -/
  address : Option String
  version : Option String
  /-- Unix seconds of the last heartbeat or status. -/
  lastSeen : UInt64
  ttl : UInt64
deriving DecidableEq, Repr

namespace NodeRecord

def codec : Codec NodeRecord :=
  Fields.record "NodeRecord" <|
    NodeRecord.mk
      <$> .required "id" .string (·.id)
      <*> .optional "address" .string (·.address)
      <*> .optional "version" .string (·.version)
      <*> .required "last_seen" .uint64 (·.lastSeen)
      <*> .required "ttl_secs" .uint64 (·.ttl)

def isExpired (r : NodeRecord) (now : UInt64) : Bool := r.ttl.toNat < now.toNat - r.lastSeen.toNat

def isIdentified (r : NodeRecord) : Bool := r.address.isSome

end NodeRecord

end AppFleet
