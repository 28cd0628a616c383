import AppFleet.Activity
import AppFleet.Message.Subject

/-! Asking nodes who they are. -/

namespace AppFleet.Node

/-- Asks one node who it is, and records what the first reply says. Answers whether there was one. -/
def identify (timeoutMs : UInt64) (node : NodeId) : Activity Bool := do
  match ← Activity.ask (.single (Subject.nodeStatus node) (.object []) timeoutMs.toNat) with
  | .ok (reply :: _) =>
    match NodeStatus.codec.read reply with
    | .ok status =>
      Activity.perform (.ingestStatus status)
      return true
    | .error _ => return false
  | _ => return false

/-- Asks every node to announce itself. -/
def locate : Activity Unit := do
  let _ ← Activity.publish Subject.nodeLocate (.object [])

def handleStatus (payload : Json) : Activity Unit :=
  match NodeStatus.codec.read payload with
  | .ok status => Activity.perform (.ingestStatus status)
  | .error _ => return

end AppFleet.Node
