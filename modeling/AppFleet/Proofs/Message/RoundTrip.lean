import AppFleet.Message.Broadcast
import AppFleet.Message.Health
import AppFleet.Message.Node
import AppFleet.Message.Staging
import AppFleet.Proofs.Json.Record

/-! Messages read back as they were written, unless they tell of a number that is not finite. -/

namespace AppFleet

open Codec Fields

theorem Codec.text_faithful : string.option.Faithful := option_faithful string_faithful nofun

theorem Codec.number_faithful : uint32.option.Faithful := option_faithful uint32_faithful nofun

theorem Codec.read_float {x : Float} (h : x.isFinite) : float.read (float.write x) = .ok x := by
  simp [float, Json.ofFloat, h]

theorem Codec.finite_faithful : finite.Faithful := by
  intro x
  simp [finite, read_float x.finite, x.finite, bind, Except.bind]

theorem InstanceState.codec_faithful : codec.Faithful := by
  intro state
  cases state <;> rfl

theorem ArtifactKind.codec_faithful : codec.Faithful := by
  intro kind
  cases kind <;> rfl

theorem AppEventKind.codec_faithful : codec.Faithful := by
  intro kind
  cases kind <;> rfl

theorem HeartbeatInstance.codec_faithful : codec.Faithful := by
  have hreads := ((reads_required "app_id" string_faithful HeartbeatInstance.appId).map
    HeartbeatInstance.mk)
    |>.seq (reads_required "version" string_faithful HeartbeatInstance.version)
    |>.seq (reads_required "index" uint32_faithful HeartbeatInstance.index)
    |>.seq (reads_required "instance_id" string_faithful HeartbeatInstance.instanceId)
    |>.seq (reads_required "state" InstanceState.codec_faithful HeartbeatInstance.state)
  exact record_faithful hreads (by decide)

theorem Heartbeat.codec_faithful : codec.Faithful := by
  have hreads := ((reads_required "node_id" string_faithful Heartbeat.nodeId).map Heartbeat.mk)
    |>.seq (reads_withDefault "instances" (list_faithful HeartbeatInstance.codec_faithful) []
      Heartbeat.instances)
  exact record_faithful hreads (by decide)

theorem NodeStatus.codec_faithful : codec.Faithful := by
  have hreads := ((reads_required "node_id" string_faithful NodeStatus.nodeId).map NodeStatus.mk)
    |>.seq (reads_required "address" string_faithful NodeStatus.address)
    |>.seq (reads_required "version" string_faithful NodeStatus.version)
  exact record_faithful hreads (by decide)

theorem StatsRequest.codec_faithful : codec.Faithful := by
  have hreads := ((reads_required "app_id" string_faithful StatsRequest.appId).map StatsRequest.mk)
    |>.seq (reads_required "index" uint32_faithful StatsRequest.index)
    |>.seq (reads_required "instance_id" string_faithful StatsRequest.instanceId)
  exact record_faithful hreads (by decide)

theorem Usage.codec_faithful : codec.Faithful := by
  have hreads := ((reads_required "memory_bytes" uint64_faithful Usage.memoryBytes).map Usage.mk)
    |>.seq (reads_required "disk_bytes" uint64_faithful Usage.diskBytes)
    |>.seq (reads_required "cpu_percent" finite_faithful Usage.cpu)
  exact record_faithful hreads (by decide)

theorem StatsReply.codec_faithful : codec.Faithful := by
  have hreads := ((reads_required "app_id" string_faithful StatsReply.appId).map StatsReply.mk)
    |>.seq (reads_required "index" uint32_faithful StatsReply.index)
    |>.seq (reads_required "state" InstanceState.codec_faithful StatsReply.state)
    |>.seq (reads_required "usage" Usage.codec_faithful StatsReply.usage)
  exact record_faithful hreads (by decide)

theorem RunCommand.codec_faithful : codec.Faithful := by
  have hreads := ((reads_required "app_id" string_faithful RunCommand.appId).map RunCommand.mk)
    |>.seq (reads_required "version" string_faithful RunCommand.version)
    |>.seq (reads_required "instances" uint32_faithful RunCommand.instances)
    |>.seq (reads_required "memory_mb" uint32_faithful RunCommand.memoryMb)
    |>.seq (reads_optional "droplet_hash" text_faithful RunCommand.dropletHash)
    |>.seq (reads_omitEmpty "indices" uint32_faithful RunCommand.indices)
  exact record_faithful hreads (by decide)

theorem StopCommand.codec_faithful : codec.Faithful := by
  have hreads := ((reads_required "app_id" string_faithful StopCommand.appId).map StopCommand.mk)
    |>.seq (reads_omitEmpty "instance_ids" string_faithful StopCommand.instanceIds)
  exact record_faithful hreads (by decide)

theorem RouteUpdate.codec_faithful : codec.Faithful := by
  have hreads := ((reads_required "app_id" string_faithful RouteUpdate.appId).map RouteUpdate.mk)
    |>.seq (reads_required "routes" (list_faithful string_faithful) RouteUpdate.routes)
  exact record_faithful hreads (by decide)

theorem StageRequest.codec_faithful : codec.Faithful := by
  have hreads := ((reads_required "app_id" string_faithful StageRequest.appId).map StageRequest.mk)
    |>.seq (reads_required "version" string_faithful StageRequest.version)
    |>.seq (reads_optional "package_hash" text_faithful StageRequest.packageHash)
    |>.seq (reads_required "memory_mb" uint32_faithful StageRequest.memoryMb)
    |>.seq (reads_required "disk_mb" uint32_faithful StageRequest.diskMb)
  exact record_faithful hreads (by decide)

theorem StagingResult.fields_reads :
    fields.Reads ["instances_started", "droplet_hash", "detected_buildpack"] id :=
  ((reads_required "instances_started" uint32_faithful StagingResult.instancesStarted).map
      StagingResult.mk)
    |>.seq (reads_optional "droplet_hash" text_faithful StagingResult.dropletHash)
    |>.seq (reads_optional "detected_buildpack" text_faithful StagingResult.detectedBuildpack)

namespace StageReply

theorem messageField_reads : messageField.Reads ["message"] id :=
  reads_required "message" string_faithful id

theorem codec_faithful : codec.Faithful := by
  intro reply
  cases reply with
  | staged result =>
    exact Variant.read_codec rfl (Variant.nodup_keys StagingResult.fields_reads (by decide) _ result)
      (Variant.readObject_of StagingResult.fields_reads (by decide) result)
  | noCapacity message | failed message =>
    exact Variant.read_codec rfl (Variant.nodup_keys messageField_reads (by decide) _ message)
      (Variant.readObject_of messageField_reads (by decide) message)

def status : StageReply → String
  | staged _ => "staged"
  | noCapacity _ => "no_capacity"
  | failed _ => "failed"

theorem write_status (reply : StageReply) :
    (codec.write reply).get? "status" = some (.string reply.status) := by
  cases reply with
  | staged result =>
    exact Variant.get?_tag (Variant.nodup_keys StagingResult.fields_reads (by decide) _ result)
  | noCapacity message | failed message =>
    exact Variant.get?_tag (Variant.nodup_keys messageField_reads (by decide) _ message)

theorem read_status {entries : List (String × Json)} {reply : StageReply}
    (h : codec.read (.object entries) = .ok reply) :
    (Json.object entries).get? "status" = some (.string reply.status) := by
  obtain ⟨v, hv, htag, hread⟩ := Variant.variant_of_read h
  rw [htag]
  simp only [List.mem_cons, List.not_mem_nil, or_false] at hv
  obtain rfl | rfl | rfl := hv
  all_goals
    obtain ⟨b, rfl⟩ := Variant.wrap_of_readObject hread
    rfl

end StageReply

theorem ArtifactDeletion.codec_faithful : codec.Faithful := by
  have hreads := ((reads_required "kind" ArtifactKind.codec_faithful ArtifactDeletion.kind).map
    ArtifactDeletion.mk)
    |>.seq (reads_required "app_id" string_faithful ArtifactDeletion.appId)
  exact record_faithful hreads (by decide)

theorem DropletVersion.codec_faithful : codec.Faithful := by
  have hreads := ((reads_required "droplet" string_faithful DropletVersion.droplet).map
    DropletVersion.mk)
    |>.seq (reads_required "version" string_faithful DropletVersion.version)
  exact record_faithful hreads (by decide)

theorem HealthQuery.codec_faithful : codec.Faithful := by
  have hreads := ((reads_required "droplets" (list_faithful DropletVersion.codec_faithful)
      HealthQuery.droplets).map HealthQuery.mk)
  exact record_faithful hreads (by decide)

theorem HealthReply.codec_faithful : codec.Faithful := by
  have hreads := ((reads_required "droplet" string_faithful HealthReply.droplet).map HealthReply.mk)
    |>.seq (reads_required "version" string_faithful HealthReply.version)
    |>.seq (reads_required "healthy" uint32_faithful HealthReply.healthy)
  exact record_faithful hreads (by decide)

theorem StatusQuery.codec_faithful : codec.Faithful := by
  have hreads := ((reads_required "droplet" string_faithful StatusQuery.droplet).map StatusQuery.mk)
    |>.seq (reads_omitNone "version" text_faithful StatusQuery.version)
    |>.seq (reads_required "state" InstanceState.codec_faithful StatusQuery.state)
  exact record_faithful hreads (by decide)

theorem CrashedInstance.codec_faithful : codec.Faithful := by
  have hreads := ((reads_required "instance" string_faithful CrashedInstance.instanceId).map
    CrashedInstance.mk)
    |>.seq (reads_required "index" uint32_faithful CrashedInstance.index)
    |>.seq (reads_required "since" uint64_faithful CrashedInstance.since)
  exact record_faithful hreads (by decide)

theorem CrashesReply.codec_faithful : codec.Faithful := by
  have hreads := ((reads_withDefault "instances" (list_faithful CrashedInstance.codec_faithful) []
      CrashesReply.instances).map CrashesReply.mk)
  exact record_faithful hreads (by decide)

theorem FlappingIndex.codec_faithful : codec.Faithful := by
  have hreads := ((reads_required "index" uint32_faithful FlappingIndex.index).map FlappingIndex.mk)
    |>.seq (reads_required "since" uint64_faithful FlappingIndex.since)
  exact record_faithful hreads (by decide)

theorem FlappingReply.codec_faithful : codec.Faithful := by
  have hreads := ((reads_withDefault "indices" (list_faithful FlappingIndex.codec_faithful) []
      FlappingReply.indices).map FlappingReply.mk)
  exact record_faithful hreads (by decide)

theorem AutoscalingSettings.codec_faithful : codec.Faithful := by
  have hreads := ((reads_required "app_id" string_faithful AutoscalingSettings.appId).map
    AutoscalingSettings.mk)
    |>.seq (reads_optional "min_instances" number_faithful AutoscalingSettings.minInstances)
    |>.seq (reads_optional "max_instances" number_faithful AutoscalingSettings.maxInstances)
    |>.seq (reads_optional "min_cpu_threshold" number_faithful AutoscalingSettings.minCpu)
    |>.seq (reads_optional "max_cpu_threshold" number_faithful AutoscalingSettings.maxCpu)
    |>.seq (reads_required "enabled" bool_faithful AutoscalingSettings.enabled)
  exact record_faithful hreads (by decide)

theorem LiveVersion.codec_faithful : codec.Faithful := by
  have hreads := ((reads_required "app_id" string_faithful LiveVersion.appId).map LiveVersion.mk)
    |>.seq (reads_required "version" string_faithful LiveVersion.version)
  exact record_faithful hreads (by decide)

theorem AppUpdated.codec_faithful : codec.Faithful := by
  have hreads := ((reads_required "app_id" string_faithful AppUpdated.appId).map AppUpdated.mk)
    |>.seq (reads_required "instances" uint32_faithful AppUpdated.instances)
    |>.seq (reads_required "version" string_faithful AppUpdated.version)
  exact record_faithful hreads (by decide)

theorem AppEvent.codec_faithful : codec.Faithful := by
  have hreads := ((reads_required "app_id" string_faithful AppEvent.appId).map AppEvent.mk)
    |>.seq (reads_required "kind" AppEventKind.codec_faithful AppEvent.kind)
    |>.seq (reads_required "message" string_faithful AppEvent.message)
    |>.seq (reads_required "timestamp" uint64_faithful AppEvent.timestamp)
  exact record_faithful hreads (by decide)

theorem ScaleUpSignal.read_write {signal : ScaleUpSignal} (h : signal.cpu.isFinite) :
    codec.read (codec.write signal) = .ok signal := by
  -- The fields are described for finite numbers alone: not every signal reads back.
  have hcpu := reads_required_of "cpu_percent" float
    (fun s : { s : ScaleUpSignal // s.cpu.isFinite } => s.1.cpu) fun s => read_float s.2
  have hreads := ((reads_required "app_id" string_faithful
      fun s : { s : ScaleUpSignal // s.cpu.isFinite } => s.1.appId).map ScaleUpSignal.mk)
    |>.seq hcpu
  exact hreads.readObject (by decide) ⟨_, h⟩

theorem RunCommand.leaves_out (command : RunCommand) :
    (codec.write command).get? "indices" = none ↔ command.indices = [] := by
  simp [codec, record, Json.get?_record_eq_none_iff, Seq.seq, Fields.seq, Functor.map, Fields.map,
    required, Fields.optional, omitEmpty, field]

theorem StopCommand.leaves_out (command : StopCommand) :
    (codec.write command).get? "instance_ids" = none ↔ command.instanceIds = [] := by
  simp [codec, record, Json.get?_record_eq_none_iff, Seq.seq, Fields.seq, Functor.map, Fields.map,
    required, omitEmpty, field]

theorem StatusQuery.leaves_out (query : StatusQuery) :
    (codec.write query).get? "version" = none ↔ query.version = none := by
  simp [codec, record, Json.get?_record_eq_none_iff, Seq.seq, Fields.seq, Functor.map, Fields.map,
    required, omitNone, field]

structure WireType where
  Value : Type
  codec : Codec Value
  /-- All numbers in the value are finite that could be infinite. -/
  Finite : Value → Prop

def wireTypes : List WireType := [
  ⟨Heartbeat, Heartbeat.codec, fun _ => True⟩,
  ⟨NodeStatus, NodeStatus.codec, fun _ => True⟩,
  ⟨StatsRequest, StatsRequest.codec, fun _ => True⟩,
  ⟨StatsReply, StatsReply.codec, fun _ => True⟩,
  ⟨RunCommand, RunCommand.codec, fun _ => True⟩,
  ⟨StopCommand, StopCommand.codec, fun _ => True⟩,
  ⟨RouteUpdate, RouteUpdate.codec, fun _ => True⟩,
  ⟨StageRequest, StageRequest.codec, fun _ => True⟩,
  ⟨StageReply, StageReply.codec, fun _ => True⟩,
  ⟨ArtifactDeletion, ArtifactDeletion.codec, fun _ => True⟩,
  ⟨HealthQuery, HealthQuery.codec, fun _ => True⟩,
  ⟨HealthReply, HealthReply.codec, fun _ => True⟩,
  ⟨StatusQuery, StatusQuery.codec, fun _ => True⟩,
  ⟨CrashesReply, CrashesReply.codec, fun _ => True⟩,
  ⟨FlappingReply, FlappingReply.codec, fun _ => True⟩,
  ⟨AutoscalingSettings, AutoscalingSettings.codec, fun _ => True⟩,
  ⟨LiveVersion, LiveVersion.codec, fun _ => True⟩,
  ⟨AppUpdated, AppUpdated.codec, fun _ => True⟩,
  ⟨ScaleUpSignal, ScaleUpSignal.codec, fun signal => signal.cpu.isFinite⟩]

/-- Every message with finite numbers reads back as it was written. A list of indices or instances is
left out if it is empty, a version if there is none, and nothing else is left out of these commands and
queries; a reply of the stager always tells by its tag what it is. -/
theorem messages_round_trip :
    (∀ t ∈ wireTypes, ∀ value, t.Finite value → t.codec.read (t.codec.write value) = .ok value) ∧
    (∀ command : RunCommand,
      (RunCommand.codec.write command).get? "indices" = none ↔ command.indices = []) ∧
    (∀ command : StopCommand,
      (StopCommand.codec.write command).get? "instance_ids" = none ↔ command.instanceIds = []) ∧
    (∀ query : StatusQuery,
      (StatusQuery.codec.write query).get? "version" = none ↔ query.version = none) ∧
    ∀ reply : StageReply,
      (StageReply.codec.write reply).get? "status" = some (.string reply.status) ∧
      ∀ entries, StageReply.codec.read (.object entries) = .ok reply →
        (Json.object entries).get? "status" = some (.string reply.status) := by
  refine ⟨?_, RunCommand.leaves_out, StopCommand.leaves_out, StatusQuery.leaves_out,
    fun reply => ⟨reply.write_status, fun _ => StageReply.read_status⟩⟩
  simp only [wireTypes, List.forall_mem_cons]
  exact ⟨fun v _ => Heartbeat.codec_faithful v, fun v _ => NodeStatus.codec_faithful v,
    fun v _ => StatsRequest.codec_faithful v, fun v _ => StatsReply.codec_faithful v,
    fun v _ => RunCommand.codec_faithful v, fun v _ => StopCommand.codec_faithful v,
    fun v _ => RouteUpdate.codec_faithful v, fun v _ => StageRequest.codec_faithful v,
    fun v _ => StageReply.codec_faithful v, fun v _ => ArtifactDeletion.codec_faithful v,
    fun v _ => HealthQuery.codec_faithful v, fun v _ => HealthReply.codec_faithful v,
    fun v _ => StatusQuery.codec_faithful v, fun v _ => CrashesReply.codec_faithful v,
    fun v _ => FlappingReply.codec_faithful v, fun v _ => AutoscalingSettings.codec_faithful v,
    fun v _ => LiveVersion.codec_faithful v, fun v _ => AppUpdated.codec_faithful v,
    fun _ h => ScaleUpSignal.read_write h, by simp⟩

def webLoad : ScaleUpSignal := ⟨"web", 12.5⟩

theorem messages_round_trip_web :
    ScaleUpSignal.codec.read (ScaleUpSignal.codec.write webLoad) = .ok webLoad :=
  messages_round_trip.1 ⟨ScaleUpSignal, ScaleUpSignal.codec, fun signal => signal.cpu.isFinite⟩
    (by simp [wireTypes]) webLoad (by decide +kernel)

end AppFleet
