import AppFleet.Json.Fields

/-! The settings of a control plane. Every setting has a value for its absence. -/

namespace AppFleet

/-- How the nodes, the stagers and the health-signal subsystem are reached. -/
inductive Transport where
  /-- Only within the process. -/
  | local
  /-- Serve the bus at an address. -/
  | listen
  /-- Join the bus that another process serves. -/
  | connect
deriving DecidableEq, Repr

namespace Transport

def name : Transport → String
  | .local => "local"
  | .listen => "listen"
  | .connect => "connect"

def codec : Codec Transport :=
  .choice ([Transport.local, .listen, .connect].map fun t => (t.name, t))

end Transport

structure DaemonConfig where
  nodeId : String
  dataDir : Path
  selfCheckSecs : UInt64
  bus : Transport
  busAddr : String
deriving DecidableEq, Repr

namespace DaemonConfig

def default : DaemonConfig := ⟨"stratus-0", .ofText "/var/lib/stratus", 60, .listen, "127.0.0.1:4222"⟩

def fields : Fields DaemonConfig DaemonConfig :=
  DaemonConfig.mk
    <$> .withDefault "node_id" .string default.nodeId (·.nodeId)
    <*> .withDefault "data_dir" .path default.dataDir (·.dataDir)
    <*> .withDefault "self_check_interval_secs" .uint64 default.selfCheckSecs (·.selfCheckSecs)
    <*> .withDefault "bus" Transport.codec default.bus (·.bus)
    <*> .withDefault "bus_addr" .string default.busAddr (·.busAddr)

def codec : Codec DaemonConfig := fields.record "DaemonConfig"

end DaemonConfig

structure LedgerConfig where
  /-- How long a record lives without a refresh. -/
  ttlSecs : UInt64
  sweepSecs : UInt64
  statsMs : UInt64
  identifyMs : UInt64
deriving DecidableEq, Repr

namespace LedgerConfig

def default : LedgerConfig := ⟨30, 20, 2000, 2000⟩

def fields : Fields LedgerConfig LedgerConfig :=
  LedgerConfig.mk
    <$> .withDefault "ttl_secs" .uint64 default.ttlSecs (·.ttlSecs)
    <*> .withDefault "sweep_interval_secs" .uint64 default.sweepSecs (·.sweepSecs)
    <*> .withDefault "stats_timeout_ms" .uint64 default.statsMs (·.statsMs)
    <*> .withDefault "identify_timeout_ms" .uint64 default.identifyMs (·.identifyMs)

def codec : Codec LedgerConfig := fields.record "LedgerConfig"

end LedgerConfig

structure HealthConfig where
  queryMs : UInt64
deriving DecidableEq, Repr

namespace HealthConfig

def default : HealthConfig := ⟨2000⟩

def fields : Fields HealthConfig HealthConfig :=
  HealthConfig.mk <$> .withDefault "query_timeout_ms" .uint64 default.queryMs (·.queryMs)

def codec : Codec HealthConfig := fields.record "HealthClientConfig"

end HealthConfig

structure StagingConfig where
  /-- Attempts after the first when no stager has capacity. -/
  maxRetries : UInt32
  retryMs : UInt64
  /-- How long one staging request may take. -/
  stageSecs : UInt64
deriving DecidableEq, Repr

namespace StagingConfig

def default : StagingConfig := ⟨10, 3000, 900⟩

def fields : Fields StagingConfig StagingConfig :=
  StagingConfig.mk
    <$> .withDefault "max_retries" .uint32 default.maxRetries (·.maxRetries)
    <*> .withDefault "retry_delay_ms" .uint64 default.retryMs (·.retryMs)
    <*> .withDefault "stage_timeout_secs" .uint64 default.stageSecs (·.stageSecs)

def codec : Codec StagingConfig := fields.record "StagingConfig"

end StagingConfig

structure AutoscaleConfig where
  /-- Whether applications are scaled up at all. -/
  enabled : Bool
  /-- Least time between two scale-ups of one application. -/
  cooldownSecs : UInt64
deriving DecidableEq, Repr

namespace AutoscaleConfig

def default : AutoscaleConfig := ⟨true, 60⟩

def fields : Fields AutoscaleConfig AutoscaleConfig :=
  AutoscaleConfig.mk
    <$> .withDefault "enabled" .bool default.enabled (·.enabled)
    <*> .withDefault "cooldown_secs" .uint64 default.cooldownSecs (·.cooldownSecs)

def codec : Codec AutoscaleConfig := fields.record "AutoscaleConfig"

end AutoscaleConfig

structure Config where
  daemon : DaemonConfig
  ledger : LedgerConfig
  health : HealthConfig
  staging : StagingConfig
  autoscale : AutoscaleConfig
deriving DecidableEq, Repr

namespace Config

def default : Config := ⟨.default, .default, .default, .default, .default⟩

def codec : Codec Config :=
  Fields.record "ControlPlaneConfig" <|
    Config.mk
      <$> .withDefault "daemon" DaemonConfig.codec .default (·.daemon)
      <*> .withDefault "ledger" LedgerConfig.codec .default (·.ledger)
      <*> .withDefault "health" HealthConfig.codec .default (·.health)
      <*> .withDefault "staging" StagingConfig.codec .default (·.staging)
      <*> .withDefault "autoscale" AutoscaleConfig.codec .default (·.autoscale)

end Config

end AppFleet
