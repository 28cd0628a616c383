import AppFleet.Autoscale.Decision
import AppFleet.Dispatch.Observe

/-! Scaling up on a signal. -/

namespace AppFleet

structure ScalePolicy where
  id : PolicyId
  /-- Least time between two scale-ups of one application, in seconds. -/
  cooldown : UInt64
  staging : StagingConfig

inductive ScaleError where
  | missing (app : AppId)
  /-- The application was deleted meanwhile. -/
  | vanished (app : AppId)
  | rejected (rejection : Rejection)
deriving DecidableEq, Repr

def ScaleError.message : ScaleError → String
  | missing app => s!"application not found: {app}"
  | vanished app => s!"application vanished while scaling: {app}"
  | rejected r => s!"mutation rejected: {r.message}"

namespace ScalePolicy

def evaluate (p : ScalePolicy) (a : Application) (cpu : Float) : Activity Decision := do
  let now ← Activity.perform .clock
  let last ← Activity.perform (.lastScaleUp p.id a.id)
  return Decision.make a cpu p.cooldown now last

/-- Decides about the stored application, and stores and dispatches a scale-up. -/
def scaleUp (p : ScalePolicy) (app : AppId) (cpu : Float) :
    Activity (Except ScaleError Decision) := do
  match ← Activity.findApp app with
  | none => return .error (.missing app)
  | some a =>
    match ← p.evaluate a cpu with
    | .noChange => return .ok .noChange
    | .scaleTo target =>
      match ← Activity.changeApp app (·.apply (.ofInstances target)) with
      | .error r => return .error (.rejected r)
      | .ok none => return .error (.vanished app)
      | .ok (some diff) =>
        Activity.perform (.noteScaleUp p.id app)
        let _ ← Dispatch.observe p.staging diff
        return .ok (.scaleTo target)

/-- Acts on one signal. Without a policy signals are dropped, and so are malformed ones. -/
def handleSignal (policy : Option ScalePolicy) (payload : Json) : Activity (Option Decision) :=
  match policy, ScaleUpSignal.codec.read payload with
  | some p, .ok signal => do return (← p.scaleUp signal.appId signal.cpu).toOption
  | _, _ => return none

end ScalePolicy

end AppFleet
