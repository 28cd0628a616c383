import AppFleet.Application.Wire
import AppFleet.Bus.Frame
import AppFleet.Config.Basic
import AppFleet.Ledger.Record
import AppFleet.Message.Broadcast
import AppFleet.Message.Health
import AppFleet.Message.Node
import AppFleet.Message.Staging
import AppFleet.Node.Record

/-! Everything that travels or is stored, by name. -/

namespace AppFleet.Catalog

/-- Reads a value and writes it again. -/
def again (codec : Codec α) (j : Json) : Except DecodeError Json := (codec.read j).map codec.write

def entries : List (String × (Json → Except DecodeError Json)) := [
  ("Application", again Application.codec),
  ("DesiredState", again DesiredState.codec),
  ("PackageState", again PackageState.codec),
  ("HealthCheckType", again HealthCheck.codec),
  ("StagingResponse", again StagingResult.codec),
  ("AutoscalingBounds", again Scaling.codec),
  ("InstanceState", again InstanceState.codec),
  ("ResourceUsage", again Usage.codec),
  ("ControlPlaneConfig", again Config.codec),
  ("DaemonConfig", again DaemonConfig.codec),
  ("LedgerConfig", again LedgerConfig.codec),
  ("HealthClientConfig", again HealthConfig.codec),
  ("StagingConfig", again StagingConfig.codec),
  ("AutoscaleConfig", again AutoscaleConfig.codec),
  ("BusTransport", again Transport.codec),
  ("LedgerRecord", again LedgerRecord.codec),
  ("NodeRecord", again NodeRecord.codec),
  ("Frame", again Frame.codec),
  ("HeartbeatInstance", again HeartbeatInstance.codec),
  ("Heartbeat", again Heartbeat.codec),
  ("NodeStatus", again NodeStatus.codec),
  ("StatsRequest", again StatsRequest.codec),
  ("StatsReply", again StatsReply.codec),
  ("RunCommand", again RunCommand.codec),
  ("StopCommand", again StopCommand.codec),
  ("RouteUpdate", again RouteUpdate.codec),
  ("StageRequest", again StageRequest.codec),
  ("StageReply", again StageReply.codec),
  ("ArtifactKind", again ArtifactKind.codec),
  ("ArtifactDeletion", again ArtifactDeletion.codec),
  ("DropletVersion", again DropletVersion.codec),
  ("HealthQuery", again HealthQuery.codec),
  ("HealthReply", again HealthReply.codec),
  ("StatusQuery", again StatusQuery.codec),
  ("CrashedInstance", again CrashedInstance.codec),
  ("CrashesReply", again CrashesReply.codec),
  ("FlappingIndex", again FlappingIndex.codec),
  ("FlappingReply", again FlappingReply.codec),
  ("AutoscalingSettings", again AutoscalingSettings.codec),
  ("LiveVersion", again LiveVersion.codec),
  ("AppUpdated", again AppUpdated.codec),
  ("ScaleUpSignal", again ScaleUpSignal.codec),
  ("AppEventKind", again AppEventKind.codec),
  ("AppEvent", again AppEvent.codec)]

/-- Reads a value as what a name stands for, and writes it again. -/
def again? (name : String) (j : Json) : Option (Except DecodeError Json) :=
  (entries.lookup name).map (· j)

end AppFleet.Catalog
