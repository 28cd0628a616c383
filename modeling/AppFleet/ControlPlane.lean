import AppFleet.Autoscale.Policy
import AppFleet.Config.Check
import AppFleet.Dispatch.Respondent
import AppFleet.Ledger.Sweep
import AppFleet.Node.Identify
import AppFleet.World

/-!
The control plane: the calls that create, update and delete applications, the subjects it listens on,
and what it does from time to time.
-/

namespace AppFleet

inductive PlaneError where
  | alreadyThere (app : AppId)
  | missing (app : AppId)
  | vanished (app : AppId)
  | rejected (rejection : Rejection)
deriving DecidableEq, Repr

def PlaneError.message : PlaneError → String
  | alreadyThere app => s!"application already exists: {app}"
  | missing app => s!"application not found: {app}"
  | vanished app => s!"application vanished: {app}"
  | rejected r => s!"mutation rejected: {r.message}"

namespace ControlPlane

/-- Stores a new application and dispatches its creation. -/
def create (config : Config) (a : Application) : Activity (Except PlaneError Application) := do
  match ← Activity.findApp a.id with
  | some _ => return .error (.alreadyThere a.id)
  | none =>
    Activity.perform (.putApp a)
    let _ ← Dispatch.observe config.staging (.created a)
    return .ok a

/-- Applies an update and dispatches the change. -/
def update (config : Config) (app : AppId) (u : Update) :
    Activity (Except PlaneError Application) := do
  match ← Activity.changeApp app (·.apply u) with
  | .error r => return .error (.rejected r)
  | .ok none => return .error (.missing app)
  | .ok (some diff) =>
    let _ ← Dispatch.observe config.staging diff
    return diff.after.elim (.error (.vanished app)) .ok

/-- Deletes an application and dispatches that. Answers whether it was there. -/
def delete (config : Config) (app : AppId) : Activity Bool := do
  match ← Activity.perform (.removeApp app) with
  | none => return false
  | some before =>
    let _ ← Dispatch.observe config.staging (.deleted before)
    return true

/-- The policy that scale-up signals go to, unless autoscaling is off. -/
def policy (config : Config) : Option ScalePolicy :=
  if config.autoscale.enabled then some ⟨0, config.autoscale.cooldownSecs, config.staging⟩ else none

def respond (config : Config) (e : Envelope) : Activity Unit :=
  Respondent.handle config.staging e.subject e.payload

/-- The subjects that are listened on, in the order of subscribing, and what handles each. -/
def handlers (config : Config) : List (String × (Envelope → Activity Unit)) := [
  (Subject.nodeHeartbeat, fun e => Ledger.handleHeartbeat e.payload),
  (Subject.nodeStatusResponse, fun e => Node.handleStatus e.payload),
  (Subject.hmStart, respond config),
  (Subject.hmStop, respond config),
  (Subject.hmAdjust, respond config),
  (Subject.hmAutoscalingRequest, respond config),
  (Subject.autoscaleScaleUp, fun e => do
    let _ ← ScalePolicy.handleSignal (policy config) e.payload)]

/-- How many nodes are live, and how many ledger records and applications there are. -/
structure SelfCheck where
  liveNodes : Nat
  ledgerKeys : Nat
  applications : Nat
deriving DecidableEq, Repr

def SelfCheck.codec : Codec SelfCheck :=
  Fields.record "SelfCheck" <|
    SelfCheck.mk
      <$> .required "live_nodes" .counter (·.liveNodes)
      <*> .required "ledger_keys" .counter (·.ledgerKeys)
      <*> .required "applications" .counter (·.applications)

def selfCheck (w : World) : SelfCheck :=
  ⟨(w.store.nodes.live w.clock).length, w.store.ledger.toList.length, w.store.apps.toList.length⟩

end ControlPlane

end AppFleet
