import AppFleet.Application.Basic
import AppFleet.Instance

/-! Messages between the control plane and the nodes that run instances. -/

namespace AppFleet

structure HeartbeatInstance where
  appId : AppId
  version : Version
  index : UInt32
  instanceId : String
  state : InstanceState
deriving DecidableEq, Repr

def HeartbeatInstance.codec : Codec HeartbeatInstance :=
  Fields.record "HeartbeatInstance" <|
    HeartbeatInstance.mk
      <$> .required "app_id" .string (·.appId)
      <*> .required "version" .string (·.version)
      <*> .required "index" .uint32 (·.index)
      <*> .required "instance_id" .string (·.instanceId)
      <*> .required "state" InstanceState.codec (·.state)

/-- What a node says it is running. -/
structure Heartbeat where
  nodeId : NodeId
  instances : List HeartbeatInstance
deriving DecidableEq, Repr

def Heartbeat.codec : Codec Heartbeat :=
  Fields.record "Heartbeat" <|
    Heartbeat.mk
      <$> .required "node_id" .string (·.nodeId)
      <*> .withDefault "instances" (.list HeartbeatInstance.codec) [] (·.instances)

/-- A node that says who it is. -/
structure NodeStatus where
  nodeId : NodeId
  address : String
  version : String
deriving DecidableEq, Repr

def NodeStatus.codec : Codec NodeStatus :=
  Fields.record "NodeStatus" <|
    NodeStatus.mk
      <$> .required "node_id" .string (·.nodeId)
      <*> .required "address" .string (·.address)
      <*> .required "version" .string (·.version)

structure StatsRequest where
  appId : AppId
  index : UInt32
  instanceId : String
deriving DecidableEq, Repr

def StatsRequest.codec : Codec StatsRequest :=
  Fields.record "StatsRequest" <|
    StatsRequest.mk
      <$> .required "app_id" .string (·.appId)
      <*> .required "index" .uint32 (·.index)
      <*> .required "instance_id" .string (·.instanceId)

structure StatsReply where
  appId : AppId
  index : UInt32
  state : InstanceState
  usage : Usage
deriving DecidableEq

def StatsReply.codec : Codec StatsReply :=
  Fields.record "StatsReply" <|
    StatsReply.mk
      <$> .required "app_id" .string (·.appId)
      <*> .required "index" .uint32 (·.index)
      <*> .required "state" InstanceState.codec (·.state)
      <*> .required "usage" Usage.codec (·.usage)

/-- Run instances of one generation. -/
structure RunCommand where
  appId : AppId
  version : Version
  /-- Desired number of instances of the generation. -/
  instances : UInt32
  memoryMb : UInt32
  dropletHash : Option String
  /-- The indices to start; none listed means all that are missing. -/
  indices : List UInt32
deriving DecidableEq, Repr

namespace RunCommand

def codec : Codec RunCommand :=
  Fields.record "RunCommand" <|
    RunCommand.mk
      <$> .required "app_id" .string (·.appId)
      <*> .required "version" .string (·.version)
      <*> .required "instances" .uint32 (·.instances)
      <*> .required "memory_mb" .uint32 (·.memoryMb)
      <*> .optional "droplet_hash" .string (·.dropletHash)
      <*> .omitEmpty "indices" .uint32 (·.indices)

def ofApp (a : Application) : RunCommand :=
  ⟨a.id, a.version, a.instances, a.memoryMb, a.dropletHash, []⟩

end RunCommand

structure StopCommand where
  appId : AppId
  /-- The instances to stop; none listed means every instance of the application. -/
  instanceIds : List String
deriving DecidableEq, Repr

def StopCommand.codec : Codec StopCommand :=
  Fields.record "StopCommand" <|
    StopCommand.mk
      <$> .required "app_id" .string (·.appId)
      <*> .omitEmpty "instance_ids" .string (·.instanceIds)

end AppFleet
