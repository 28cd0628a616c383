import AppFleet.Message.Node
import AppFleet.Node.Record
import AppFleet.Store.Table

/-!
The node registry. A node is known from its first heartbeat on, and known by address once it has said
who it is; no record is ever removed.
-/

namespace AppFleet

abbrev Registry := Table NodeRecord

namespace Registry

/-- The record of a node that was heard from. -/
def seen (now ttl : UInt64) (node : NodeId) : Option NodeRecord → NodeRecord
  | some r => { r with lastSeen := now, ttl }
  | none => ⟨node, none, none, now, ttl⟩

/-- Notes that a node was heard from, and whether it was unknown before. -/
def touch (r : Registry) (now ttl : UInt64) (node : NodeId) : Bool × Registry :=
  ((r.get? node).isNone, r.put node (seen now ttl node (r.get? node)))

def identified (now ttl : UInt64) (status : NodeStatus) : NodeRecord :=
  ⟨status.nodeId, some status.address, some status.version, now, ttl⟩

/-- Notes who a node says it is. -/
def ingest (r : Registry) (now ttl : UInt64) (status : NodeStatus) : Registry :=
  r.put status.nodeId (identified now ttl status)

def live (r : Registry) (now : UInt64) : List NodeRecord := r.toList.filter (!·.isExpired now)

end Registry

end AppFleet
