import AppFleet.Application.Update
import AppFleet.Json.Fields

/-! Applications and their updates as JSON. -/

namespace AppFleet

def DesiredState.codec : Codec DesiredState :=
  .choice [("STOPPED", .stopped), ("STARTED", .started)]

def PackageState.codec : Codec PackageState :=
  .choice [("PENDING", .pending), ("STAGED", .staged), ("FAILED", .failed)]

def HealthCheck.codec : Codec HealthCheck :=
  .choice [("port", .port), ("process", .process), ("http", .http)]

def StagingResult.fields : Fields StagingResult StagingResult :=
  StagingResult.mk
    <$> .required "instances_started" .uint32 (·.instancesStarted)
    <*> .optional "droplet_hash" .string (·.dropletHash)
    <*> .optional "detected_buildpack" .string (·.detectedBuildpack)

def StagingResult.codec : Codec StagingResult := fields.record "StagingResponse"

def Scaling.codec : Codec Scaling :=
  Fields.record "AutoscalingBounds" <|
    Scaling.mk
      <$> .optional "min_instances" .uint32 (·.minInstances)
      <*> .optional "max_instances" .uint32 (·.maxInstances)
      <*> .optional "min_cpu_threshold" .uint32 (·.minCpu)
      <*> .optional "max_cpu_threshold" .uint32 (·.maxCpu)
      <*> .required "enabled" .bool (·.enabled)

def Application.codec : Codec Application :=
  Fields.record "Application" <|
    Application.mk
      <$> .required "id" .string (·.id)
      <*> .required "name" .string (·.name)
      <*> .required "desired_state" DesiredState.codec (·.desired)
      <*> .required "instances" .uint32 (·.instances)
      <*> .required "memory_mb" .uint32 (·.memoryMb)
      <*> .required "disk_mb" .uint32 (·.diskMb)
      <*> .required "health_check_type" HealthCheck.codec (·.healthCheck)
      <*> .optional "package_hash" .string (·.packageHash)
      <*> .optional "droplet_hash" .string (·.dropletHash)
      <*> .required "package_state" PackageState.codec (·.package)
      <*> .optional "staging_failed_reason" .string (·.stagingFailure)
      <*> .optional "last_staging_response" StagingResult.codec (·.lastStaging)
      <*> .required "version" .string (·.version)
      <*> .required "generation" .uint64 (·.generation)
      <*> .required "scaling" Scaling.codec (·.scaling)
      <*> .required "routes" (.list .string) (·.routes)
      <*> .required "pending_route_update" .bool (·.routesPending)
      <*> .required "updated_at" .uint64 (·.updatedAt)

def Update.codec : Codec Update :=
  Fields.record "ApplicationUpdate" <|
    Update.mk
      <$> .optional "state" DesiredState.codec (·.state)
      <*> .optional "instances" .uint32 (·.instances)
      <*> .optional "memory_mb" .uint32 (·.memoryMb)
      <*> .optional "disk_mb" .uint32 (·.diskMb)
      <*> .optional "health_check_type" HealthCheck.codec (·.healthCheck)
      <*> .optional "package_hash" .string (·.packageHash)
      <*> .optional "droplet_hash" .string (·.dropletHash)
      <*> .optional "min_instances" .uint32 (·.minInstances)
      <*> .optional "max_instances" .uint32 (·.maxInstances)
      <*> .optional "min_cpu_threshold" .uint32 (·.minCpu)
      <*> .optional "max_cpu_threshold" .uint32 (·.maxCpu)
      <*> .optional "autoscale_enabled" .bool (·.autoscale)
      <*> .optional "routes" (.list .string) (·.routes)

end AppFleet
