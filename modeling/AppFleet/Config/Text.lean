import AppFleet.Config.Basic
import AppFleet.Toml.Reader
import AppFleet.Toml.Writer

/-!
A configuration as TOML text: one table for each part, in order. Reading ignores tables and keys that
are no settings; writing fails only for a number beyond the integers of TOML and for a path that is no text.
-/

namespace AppFleet

mutual

/-- A TOML value as JSON. A date or time is an object that no setting can be read from. -/
def Toml.Value.toJson : Toml.Value → Json
  | .string s => .string s
  | .integer n =>
    if h : 0 ≤ n.toInt then .ofNat (UInt64.ofNat n.toInt.toNat)
    else .number (.negative ⟨(-n.toInt - 1).toNat, by have := n.le_toInt; omega⟩)
  | .float x => .number (.double x)
  | .boolean b => .bool b
  | .datetime text => .object [("datetime", .string text)]
  | .array items => .array (Toml.Value.toJsonItems items)
  | .table _ entries => .object (Toml.Value.toJsonEntries entries)
  | .tables items => .array (Toml.Value.toJsonTables items)

def Toml.Value.toJsonItems : List Toml.Value → List Json
  | [] => []
  | v :: rest => v.toJson :: Toml.Value.toJsonItems rest

def Toml.Value.toJsonEntries : List (String × Toml.Value) → List (String × Json)
  | [] => []
  | (k, v) :: rest => (k, v.toJson) :: Toml.Value.toJsonEntries rest

def Toml.Value.toJsonTables : List (List (String × Toml.Value)) → List Json
  | [] => []
  | t :: rest => .object (Toml.Value.toJsonEntries t) :: Toml.Value.toJsonTables rest

end

namespace Config

/-- One of several names may also be the key of an empty array or table. -/
def plainChoice : Json → Json
  | .object [(name, .array [])] | .object [(name, .object [])] => .object [(name, .null)]
  | v => v

/-- How many settings each part has. -/
def partSizes : List (String × Nat) :=
  [("daemon", DaemonConfig.fields.count), ("ledger", LedgerConfig.fields.count),
    ("health", HealthConfig.fields.count), ("staging", StagingConfig.fields.count),
    ("autoscale", AutoscaleConfig.fields.count)]

/-- A part given as an array holds its settings in order; items that are left over do not count. -/
def plainPart (part : String × Json) : String × Json :=
  match part.2 with
  | .object entries => (part.1, .object (entries.map fun e => (e.1, plainChoice e.2)))
  | .array items =>
    (part.1, .array ((items.take ((partSizes.lookup part.1).getD 0)).map plainChoice))
  | v => (part.1, v)

/-- The configuration in a TOML text. -/
def parse? (text : String) : Option Config := do
  let table ← Toml.parse? text
  let parts := (Toml.Value.toJsonEntries table).map plainPart
  (codec.read (.object parts)).toOption

/-- A setting as TOML text. -/
inductive Setting where
  | text (s : String)
  | path (p : Path)
  | count (n : UInt64)
  | switch (b : Bool)

def Setting.write? : Setting → Option (List Char)
  | text s => some (Toml.quote s)
  | path p => p.text?.map Toml.quote
  | count n => if n.toNat < 0x8000000000000000 then some (Nat.toDigits 10 n.toNat) else none
  | switch true => some ['t', 'r', 'u', 'e']
  | switch false => some ['f', 'a', 'l', 's', 'e']

def settings (c : Config) : List (String × List (String × Setting)) := [
  ("daemon", [("node_id", .text c.daemon.nodeId), ("data_dir", .path c.daemon.dataDir),
    ("self_check_interval_secs", .count c.daemon.selfCheckSecs), ("bus", .text c.daemon.bus.name),
    ("bus_addr", .text c.daemon.busAddr)]),
  ("ledger", [("ttl_secs", .count c.ledger.ttlSecs),
    ("sweep_interval_secs", .count c.ledger.sweepSecs),
    ("stats_timeout_ms", .count c.ledger.statsMs),
    ("identify_timeout_ms", .count c.ledger.identifyMs)]),
  ("health", [("query_timeout_ms", .count c.health.queryMs)]),
  ("staging", [("max_retries", .count c.staging.maxRetries.toUInt64),
    ("retry_delay_ms", .count c.staging.retryMs),
    ("stage_timeout_secs", .count c.staging.stageSecs)]),
  ("autoscale", [("enabled", .switch c.autoscale.enabled),
    ("cooldown_secs", .count c.autoscale.cooldownSecs)])]

def writeSetting (entry : String × Setting) : Option (List Char) :=
  entry.2.write?.map fun value => entry.1.toList ++ [' ', '=', ' '] ++ value ++ ['\n']

def writePart (part : String × List (String × Setting)) : Option (List Char) := do
  let lines ← part.2.mapM writeSetting
  return '[' :: part.1.toList ++ [']', '\n'] ++ lines.flatten

/-- The configuration as TOML text, an empty line between its parts. -/
def render? (c : Config) : Option String := do
  let parts ← c.settings.mapM writePart
  return String.ofList (List.intercalate ['\n'] parts)

end Config

end AppFleet
