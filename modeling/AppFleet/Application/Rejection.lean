import AppFleet.Application.Basic

/-!
Why a change to an application does not come about. It leaves the application as it was, whether it is
rejected or whoever makes it panics.
-/

namespace AppFleet

/-- The bound that a rejected change tripped over. -/
inductive Bound where
  | minInstances
  | maxInstances
  | minCpu
  | maxCpu
deriving DecidableEq, Repr

def Bound.name : Bound → String
  | minInstances => "min_instances"
  | maxInstances => "max_instances"
  | minCpu => "min_cpu_threshold"
  | maxCpu => "max_cpu_threshold"

inductive Rejection where
  | boundBelowOne (bound : Bound)
  | invertedInstances (bound : Bound) (min max : UInt32)
  | cpuOutOfRange (bound : Bound) (value : UInt32)
  | invertedCpu (bound : Bound) (min max : UInt32)
  | packageTransition (source target : PackageState)
deriving DecidableEq, Repr

def PackageState.word : PackageState → String
  | pending => "Pending"
  | staged => "Staged"
  | failed => "Failed"

namespace Rejection

def bound? : Rejection → Option Bound
  | boundBelowOne b | invertedInstances b _ _ | cpuOutOfRange b _ | invertedCpu b _ _ => some b
  | packageTransition _ _ => none

def message : Rejection → String
  | boundBelowOne b => s!"{b.name} must be at least 1"
  | invertedInstances b min max =>
    s!"{b.name} violates min_instances ({min}) <= max_instances ({max})"
  | cpuOutOfRange b value => s!"{b.name} must be within 0..=100, got {value}"
  | invertedCpu b min max =>
    s!"{b.name} violates min_cpu_threshold ({min}) <= max_cpu_threshold ({max})"
  | packageTransition source target =>
    s!"package state cannot move from {source.word} to {target.word}"

end Rejection

inductive Fault where
  | rejected (rejection : Rejection)
  /-- A number has outgrown its type, which is a panic. -/
  | overflow
deriving DecidableEq, Repr

/-- A check within a change rejects the change. -/
instance : MonadLift (Except Rejection) (Except Fault) := ⟨Except.mapError .rejected⟩

@[simp] theorem Fault.lift_ok (a : α) :
    (liftM (.ok a : Except Rejection α) : Except Fault α) = .ok a := rfl

@[simp] theorem Fault.lift_error (r : Rejection) :
    (liftM (.error r : Except Rejection α) : Except Fault α) = .error (.rejected r) := rfl

end AppFleet
