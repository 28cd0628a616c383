import AppFleet.Json.Fields

/-! Running instances as nodes report them. -/

namespace AppFleet

inductive InstanceState where
  | starting
  | running
  | crashed
  | flapping
  | down
deriving DecidableEq, Repr

def InstanceState.codec : Codec InstanceState :=
  .choice [("STARTING", .starting), ("RUNNING", .running), ("CRASHED", .crashed),
    ("FLAPPING", .flapping), ("DOWN", .down)]

/-- What one instance uses at one moment; CPU in percent of one core. -/
structure Usage where
  memoryBytes : UInt64
  diskBytes : UInt64
  cpu : FiniteFloat
deriving DecidableEq

def Usage.codec : Codec Usage :=
  Fields.record "ResourceUsage" <|
    Usage.mk
      <$> .required "memory_bytes" .uint64 (·.memoryBytes)
      <*> .required "disk_bytes" .uint64 (·.diskBytes)
      <*> .required "cpu_percent" .finite (·.cpu)

end AppFleet
