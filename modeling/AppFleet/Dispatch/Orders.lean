import AppFleet.Activity
import AppFleet.Message.Broadcast
import AppFleet.Message.Health
import AppFleet.Message.Node
import AppFleet.Message.Staging

/-! What the control plane tells the nodes, the router, the artifact store and the health-signal
subsystem. Each order is one message; nobody answers it. -/

namespace AppFleet.Orders

open Activity (publish)

/-- Run the application's current generation. -/
def start (a : Application) : Activity (Except BusError Unit) :=
  publish Subject.nodeStart (RunCommand.codec.write (.ofApp a))

/-- Run some instances of the application's current generation. -/
def startIndices (a : Application) (indices : List UInt32) : Activity (Except BusError Unit) :=
  publish Subject.nodeStart (RunCommand.codec.write { RunCommand.ofApp a with indices })

/-- Stop some instances, or all if none is listed. -/
def stopInstances (app : AppId) (instanceIds : List String) : Activity (Except BusError Unit) :=
  publish Subject.nodeStop (StopCommand.codec.write ⟨app, instanceIds⟩)

def stop (a : Application) : Activity (Except BusError Unit) := stopInstances a.id []

/-- Run as many instances as are desired by now. -/
def scale (a : Application) : Activity (Except BusError Unit) :=
  publish Subject.nodeScale (RunCommand.codec.write (.ofApp a))

def updateRoutes (a : Application) : Activity (Except BusError Unit) :=
  publish Subject.routerUpdate (RouteUpdate.codec.write ⟨a.id, a.routes⟩)

def broadcastUpdated (a : Application) : Activity (Except BusError Unit) :=
  publish Subject.appUpdated (AppUpdated.codec.write ⟨a.id, a.instances, a.version⟩)

/-- An order whose failure changes nothing. -/
def attempt (order : Activity (Except BusError Unit)) : Activity Unit := do
  let _ ← order

def deleteArtifact (kind : ArtifactKind) (app : AppId) : Activity Unit :=
  attempt (publish Subject.blobstoreDelete (ArtifactDeletion.codec.write ⟨kind, app⟩))

def updateAutoscaling (a : Application) : Activity Unit :=
  attempt (publish Subject.hmAutoscalingUpdate (AutoscalingSettings.codec.write (.ofApp a)))

/-- The application's current generation is live. -/
def announceVersion (a : Application) : Activity Unit :=
  attempt (publish Subject.hmLiveVersion (LiveVersion.codec.write ⟨a.id, a.version⟩))

/-- Something happened to an application. -/
def recordEvent (app : AppId) (kind : AppEventKind) (message : String) : Activity Unit := do
  let now ← Activity.perform .wallClock
  attempt (publish Subject.appEvent (AppEvent.codec.write ⟨app, kind, message, now⟩))

end AppFleet.Orders
