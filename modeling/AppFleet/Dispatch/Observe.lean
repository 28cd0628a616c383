import AppFleet.Dispatch.Orders
import AppFleet.Dispatch.Staging

/-!
Dispatch: the reaction to one stored change. A reaction that fails never takes the change back.
Pending routes are pushed after any reaction.
-/

namespace AppFleet.Dispatch

/-- The indices from `first` up to the desired count. -/
def indicesFrom (first instances : UInt32) : List UInt32 :=
  (List.range (instances.toNat - first.toNat)).map fun i => first + UInt32.ofNat i

/-- Starts what the stager has not started itself. -/
def startRemaining (a : Application) (started : UInt32) : Activity (Except BusError Unit) :=
  if started = 0 then Orders.start a
  else
    match indicesFrom started a.instances with
    | [] => return .ok ()
    | remaining => Orders.startIndices a remaining

/-- Stages if needed and starts. With `announce`, the new generation is announced as it is stored after
staging, which may have opened another. -/
def stageAndStart (config : StagingConfig) (a : Application) (announce : Bool) :
    Activity (Except ReactionError (Option Diff)) := do
  let start (started : UInt32) (staged : Application) : Activity (Except BusError Unit) := do
    if announce then Orders.announceVersion staged
    startRemaining staged started
  match ← Staging.stageIfNeeded config a start with
  | .error e => return .error e
  | .ok (.started (.error cause)) => return .error (.backend cause.message)
  | .ok (.started (.ok ())) => return .ok none
  | .ok (.failed error recorded) =>
    Orders.recordEvent a.id .stagingFailed error.message
    return .ok recorded

/-- Stops everything and lets the artifacts go, whatever becomes of the stop. -/
def delete (a : Application) : Activity Unit := do
  Orders.attempt (Orders.stop a)
  Orders.deleteArtifact .package a.id
  Orders.deleteArtifact .buildpackCache a.id

def scale (a : Application) : Activity (Except ReactionError Unit) := do
  match ← Orders.scale a with
  | .error cause => return .error (.backend cause.message)
  | .ok () => return (← Orders.broadcastUpdated a).mapError .bus

/-- Carries out a reaction. What it stored in turn, if anything, is dispatched next. -/
def react (config : StagingConfig) (reaction : Reaction) (diff : Diff) :
    Activity (Except ReactionError (Option Diff)) := do
  match reaction, diff.before, diff.after with
  | .delete, some before, none =>
    delete before
    return .ok none
  | .stop, _, some after =>
    return (← Orders.stop after).mapError (fun e => .backend e.message) |>.map fun _ => none
  | .start, _, some after => stageAndStart config after false
  | .scale, _, some after => return (← scale after).map fun _ => none
  | .rollout, _, some after => stageAndStart config after true
  | .updateAutoscaling, _, some after =>
    Orders.updateAutoscaling after
    return .ok none
  | _, _, _ => return .ok none

/-- Tells the router, and then notes that it knows. -/
def pushRoutes (a : Application) : Activity Unit := do
  match ← Orders.updateRoutes a with
  | .error _ => return
  | .ok () =>
    let _ ← Activity.changeApp a.id (fun stored => .ok stored.routesPushed)

/-- Reacts to one change and pushes pending routes. -/
def dispatch (config : StagingConfig) (diff : Diff) : Activity (Option Diff) := do
  let next ←
    match diff.classify with
    | none => pure none
    | some reaction => pure ((← react config reaction diff).toOption.getD none)
  match diff.after with
  | some after => if after.routesPending then pushRoutes after
  | none => pure ()
  return next

/-- Dispatches what reactions stored, one after the other. -/
def follow (config : StagingConfig) : (fuel : Nat) → Option Diff → Activity Unit
  | _, none => return
  | 0, some _ => return
  | fuel + 1, some diff => do follow config fuel (← dispatch config diff)

/-- Reacts to a stored change. Only a staging failure is stored by a reaction, and it calls for no
reaction of its own, so the second follow-up is never there. -/
def observe (config : StagingConfig) (diff : Diff) : Activity (Option Reaction) := do
  follow config 2 (← dispatch config diff)
  return diff.classify

end AppFleet.Dispatch
