import AppFleet.Application.Basic

/-!
When an application grows: its CPU is above its threshold and it has not grown within the cooldown. It
grows in proportion to the excess, by at least one instance, and never past its maximum.
-/

namespace AppFleet

inductive Decision where
  | noChange
  | scaleTo (instances : UInt32)
deriving DecidableEq, Repr

namespace Decision

def defaultThreshold : UInt32 := 80

/-- The CPU percentage above which an application grows, at least one. -/
def threshold (s : Scaling) : UInt32 := max (s.maxCpu.getD defaultThreshold) 1

/-- The count at which each instance would be at the threshold, rounded up and kept within 32 bits. -/
def proportional (instances : UInt32) (cpu : Float) (threshold : UInt32) : UInt32 :=
  (Float.ofNat instances.toNat * (cpu / Float.ofNat threshold.toNat)).ceil.toUInt32

/-- One more, within 32 bits. -/
def successor (n : UInt32) : UInt32 := if n = 0xffffffff then n else n + 1

/-- The decision for a count that is aimed at. -/
def ofTarget (a : Application) (target : UInt32) : Decision :=
  let target := max target (successor a.instances)
  let target := match a.scaling.maxInstances with
    | some most => min target most
    | none => target
  if a.instances < target then scaleTo target else noChange

def isCooling (cooldown now : UInt64) : Option UInt64 → Bool
  | some last => now.toNat - last.toNat < cooldown.toNat
  | none => false

def mayGrow (a : Application) : Bool := a.scaling.enabled && a.isStarted && a.instances ≠ 0

/-- A threshold that the CPU is not known to keep counts as exceeded. -/
def exceeds (cpu : Float) (threshold : UInt32) : Bool := !(cpu ≤ Float.ofNat threshold.toNat)

/-- What to do about an application with this CPU, when it last grew at `last`. -/
def make (a : Application) (cpu : Float) (cooldown now : UInt64) (last : Option UInt64) : Decision :=
  let threshold := threshold a.scaling
  if mayGrow a && exceeds cpu threshold && !isCooling cooldown now last then
    ofTarget a (proportional a.instances cpu threshold)
  else noChange

end Decision

end AppFleet
