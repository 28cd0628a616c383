import AppFleet.Config.Basic
import AppFleet.Text.Blank

/-! Checks on a configuration that its fields alone cannot express. The first that fails is reported. -/

namespace AppFleet

inductive ConfigFault where
  | zero (setting : String)
  | sweepNotShorter (sweepSecs ttlSecs : UInt64)
  | missingAddress (bus : Transport)
deriving DecidableEq, Repr

def Transport.word : Transport → String
  | .local => "Local"
  | .listen => "Listen"
  | .connect => "Connect"

def ConfigFault.message : ConfigFault → String
  | zero setting => s!"{setting} must be greater than zero"
  | sweepNotShorter sweep ttl =>
    s!"ledger sweep interval ({sweep}s) must be shorter than the ledger ttl ({ttl}s)"
  | missingAddress bus => s!"daemon.bus = {bus.word} needs a daemon.bus_addr"

namespace Config

def nonzero (setting : String) (value : UInt64) : Except ConfigFault Unit :=
  if value = 0 then .error (.zero setting) else .ok ()

def validate (c : Config) : Except ConfigFault Unit := do
  nonzero "ledger.ttl_secs" c.ledger.ttlSecs
  nonzero "ledger.sweep_interval_secs" c.ledger.sweepSecs
  if c.ledger.ttlSecs ≤ c.ledger.sweepSecs then
    throw (.sweepNotShorter c.ledger.sweepSecs c.ledger.ttlSecs)
  nonzero "ledger.stats_timeout_ms" c.ledger.statsMs
  nonzero "ledger.identify_timeout_ms" c.ledger.identifyMs
  nonzero "health.query_timeout_ms" c.health.queryMs
  nonzero "staging.stage_timeout_secs" c.staging.stageSecs
  nonzero "daemon.self_check_interval_secs" c.daemon.selfCheckSecs
  if c.daemon.bus ≠ .local ∧ Text.isBlank c.daemon.busAddr then
    throw (.missingAddress c.daemon.bus)

end Config

def LedgerConfig.ttlMs (c : LedgerConfig) : Nat := 1000 * c.ttlSecs.toNat

def LedgerConfig.sweepMs (c : LedgerConfig) : Nat := 1000 * c.sweepSecs.toNat

def StagingConfig.stageMs (c : StagingConfig) : Nat := 1000 * c.stageSecs.toNat

end AppFleet
