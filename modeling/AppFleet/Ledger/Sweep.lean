import AppFleet.Activity
import AppFleet.Message.Subject

/-!
The stats sweep: every live instance is asked for its usage, at the node that holds it, all at once.
A node that does not answer is skipped until the next sweep.
-/

namespace AppFleet.Ledger

/-- The question about one record. -/
def query (timeoutMs : UInt64) (r : LedgerRecord) : Request :=
  .single (Subject.nodeStats r.nodeId) (StatsRequest.codec.write ⟨r.appId, r.index, r.instanceId⟩)
    timeoutMs.toNat

/-- The stats in the first reply, if they are well-formed. -/
def statsOf : Replies → Option StatsReply
  | .ok (reply :: _) => (StatsReply.codec.read reply).toOption
  | _ => none

def sweep (timeoutMs : UInt64) : Activity SweepReport := do
  let records ← Activity.perform .liveRecords
  Activity.survey records timeoutMs .done

def handleHeartbeat (payload : Json) : Activity Unit :=
  match Heartbeat.codec.read payload with
  | .ok heartbeat => Activity.perform (.ingestHeartbeat heartbeat)
  | .error _ => return

end AppFleet.Ledger
