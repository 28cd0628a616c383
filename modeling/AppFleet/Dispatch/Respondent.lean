import AppFleet.Dispatch.Observe
import AppFleet.Message.Command

/-!
Answers to the commands of the health-signal subsystem. A payload that is no command is dropped, with
an event against the application it named.
-/

namespace AppFleet.Respondent

inductive CommandOutcome where
  | forwarded
  | ignored
  /-- The stop would have left too few instances of the current generation. -/
  | refused
deriving DecidableEq, Repr

inductive AdjustOutcome where
  | missing
  | alreadySatisfied
  | updated (instances : UInt32)
deriving DecidableEq, Repr

def forward (order : Activity (Except BusError Unit)) :
    Activity (Except ReactionError CommandOutcome) := do
  match ← order with
  | .ok () => return .ok .forwarded
  | .error cause => return .error (.backend cause.message)

/-- Whether an application is short of instances of the requested generation and could run them. -/
def needsInstances (a : Application) (request : StartInstances) : Bool :=
  a.isStarted && a.bitsUploaded && !a.stagingFailed && a.version = request.version &&
    (request.running.lookup request.version).getD 0 < a.instances

/-- Starts the requested indices that are desired, if the generation is short of instances. -/
def start (request : StartInstances) : Activity (Except ReactionError CommandOutcome) := do
  match ← Activity.findApp request.droplet with
  | none => return .ok .ignored
  | some a =>
    let indices := request.indices.filter (· < a.instances)
    if needsInstances a request && !indices.isEmpty then forward (Orders.startIndices a indices)
    else return .ok .ignored

/-- How many instances of the current generation a stop would take. -/
def stopping (a : Application) (request : StopInstances) : UInt32 :=
  UInt32.ofNat (request.instances.countP (·.2 = a.version))

/-- A stop is refused if it takes instances of the current generation of a started application and
leaves fewer than are desired. -/
def leavesTooFew (a : Application) (request : StopInstances) : Bool :=
  let running := (request.running.lookup a.version).getD 0
  a.isStarted && 0 < stopping a request &&
    running.toNat - (stopping a request).toNat < a.instances.toNat

def refusal (a : Application) (request : StopInstances) : String :=
  let running := (request.running.lookup a.version).getD 0
  s!"refusing to stop {stopping a request} of {running} running instances, {a.instances} desired"

/-- Stops the requested instances, also those of an application that is gone. -/
def stop (request : StopInstances) : Activity (Except ReactionError CommandOutcome) := do
  let order := Orders.stopInstances request.droplet (request.instances.map (·.1))
  match ← Activity.findApp request.droplet with
  | none => forward order
  | some a =>
    if leavesTooFew a request then
      Orders.recordEvent request.droplet .stopRefused (refusal a request)
      return .ok .refused
    else forward order

/-- Whether the current count is already on the requested side. -/
def isSatisfied (counts : AdjustInstances) (current : UInt32) : Bool :=
  (counts.before < counts.after && counts.after ≤ current) ||
    (counts.after < counts.before && current ≤ counts.after) || counts.after = counts.before

def adjusted (counts : AdjustInstances) (a : Application) : Except Fault Application :=
  if isSatisfied counts a.instances then .ok a else a.apply (.ofInstances counts.after)

/-- Moves the desired count. The change is dispatched only if the router has to be told of routes. -/
def adjust (config : StagingConfig) (app : AppId) (counts : AdjustInstances) :
    Activity (Except ReactionError AdjustOutcome) := do
  match ← Activity.changeApp app (adjusted counts) with
  | .error r => return .error (.state r)
  | .ok none => return .ok .missing
  | .ok (some diff) =>
    match diff.after with
    | some after =>
      if diff.instancesChanged then
        if after.routesPending then
          let _ ← Dispatch.observe config diff
        return .ok (.updated after.instances)
      else return .ok .alreadySatisfied
    | none => return .ok .alreadySatisfied

/-- Publishes the autoscaling settings of an application, if it is there. -/
def queryAutoscaling (app : AppId) : Activity Unit := do
  match ← Activity.findApp app with
  | some a => Orders.updateAutoscaling a
  | none => return

def obey (config : StagingConfig) : Command → Activity Unit
  | .start request => do
    let _ ← start request
  | .stop request => do
    let _ ← stop request
  | .adjust app counts => do
    let _ ← adjust config app counts
  | .queryAutoscaling app => queryAutoscaling app

/-- Handles one payload on a command subject. -/
def handle (config : StagingConfig) (subject : String) (payload : Json) : Activity Unit :=
  match Command.decode subject payload with
  | .ok command => obey config command
  | .error malformed =>
    match malformed.droplet with
    | some app => Orders.recordEvent app .error malformed.message
    | none => return

end AppFleet.Respondent
