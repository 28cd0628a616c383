import AppFleet.Application.Basic
import AppFleet.Instance

/-! Messages between the control plane and the health-signal subsystem. -/

namespace AppFleet

structure DropletVersion where
  droplet : AppId
  version : Version
deriving DecidableEq, Repr

def DropletVersion.codec : Codec DropletVersion :=
  Fields.record "DropletVersion" <|
    DropletVersion.mk
      <$> .required "droplet" .string (·.droplet)
      <*> .required "version" .string (·.version)

/-- How many instances of each of these generations are healthy? -/
structure HealthQuery where
  droplets : List DropletVersion
deriving DecidableEq, Repr

def HealthQuery.codec : Codec HealthQuery :=
  Fields.record "HealthQuery" <|
    HealthQuery.mk <$> .required "droplets" (.list DropletVersion.codec) (·.droplets)

structure HealthReply where
  droplet : AppId
  version : Version
  healthy : UInt32
deriving DecidableEq, Repr

def HealthReply.codec : Codec HealthReply :=
  Fields.record "HealthReply" <|
    HealthReply.mk
      <$> .required "droplet" .string (·.droplet)
      <*> .required "version" .string (·.version)
      <*> .required "healthy" .uint32 (·.healthy)

/-- Which instances of an application are in this state? -/
structure StatusQuery where
  droplet : AppId
  version : Option Version
  state : InstanceState
deriving DecidableEq, Repr

def StatusQuery.codec : Codec StatusQuery :=
  Fields.record "StatusQuery" <|
    StatusQuery.mk
      <$> .required "droplet" .string (·.droplet)
      <*> .omitNone "version" .string (·.version)
      <*> .required "state" InstanceState.codec (·.state)

structure CrashedInstance where
  instanceId : String
  index : UInt32
  since : UInt64
deriving DecidableEq, Repr

def CrashedInstance.codec : Codec CrashedInstance :=
  Fields.record "CrashedInstance" <|
    CrashedInstance.mk
      <$> .required "instance" .string (·.instanceId)
      <*> .required "index" .uint32 (·.index)
      <*> .required "since" .uint64 (·.since)

structure CrashesReply where
  instances : List CrashedInstance
deriving DecidableEq, Repr

def CrashesReply.codec : Codec CrashesReply :=
  Fields.record "CrashesReply" <|
    CrashesReply.mk <$> .withDefault "instances" (.list CrashedInstance.codec) [] (·.instances)

structure FlappingIndex where
  index : UInt32
  since : UInt64
deriving DecidableEq, Repr

def FlappingIndex.codec : Codec FlappingIndex :=
  Fields.record "FlappingIndex" <|
    FlappingIndex.mk
      <$> .required "index" .uint32 (·.index)
      <*> .required "since" .uint64 (·.since)

structure FlappingReply where
  indices : List FlappingIndex
deriving DecidableEq, Repr

def FlappingReply.codec : Codec FlappingReply :=
  Fields.record "FlappingReply" <|
    FlappingReply.mk <$> .withDefault "indices" (.list FlappingIndex.codec) [] (·.indices)

/-- The autoscaling settings of an application. -/
structure AutoscalingSettings where
  appId : AppId
  minInstances : Option UInt32
  maxInstances : Option UInt32
  minCpu : Option UInt32
  maxCpu : Option UInt32
  enabled : Bool
deriving DecidableEq, Repr

namespace AutoscalingSettings

def codec : Codec AutoscalingSettings :=
  Fields.record "AutoscalingSettings" <|
    AutoscalingSettings.mk
      <$> .required "app_id" .string (·.appId)
      <*> .optional "min_instances" .uint32 (·.minInstances)
      <*> .optional "max_instances" .uint32 (·.maxInstances)
      <*> .optional "min_cpu_threshold" .uint32 (·.minCpu)
      <*> .optional "max_cpu_threshold" .uint32 (·.maxCpu)
      <*> .required "enabled" .bool (·.enabled)

def ofApp (a : Application) : AutoscalingSettings :=
  let s := a.scaling
  ⟨a.id, s.minInstances, s.maxInstances, s.minCpu, s.maxCpu, s.enabled⟩

end AutoscalingSettings

/-- A new generation is live. -/
structure LiveVersion where
  appId : AppId
  version : Version
deriving DecidableEq, Repr

def LiveVersion.codec : Codec LiveVersion :=
  Fields.record "LiveVersion" <|
    LiveVersion.mk
      <$> .required "app_id" .string (·.appId)
      <*> .required "version" .string (·.version)

end AppFleet
