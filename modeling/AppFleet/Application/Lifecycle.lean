import AppFleet.Application.Rejection
import AppFleet.Application.Update
import AppFleet.Application.Version

/-!
The lifecycle of an application. Every change goes through `settle`: the changed candidate is checked
against its bounds, a lone instance bound is mirrored into the missing one, the instances are moved
into the bounds, and a change of what runs opens a new generation. A candidate that fails a check is
dropped as a whole, and so is one that outgrows the generations.
-/

namespace AppFleet

namespace Scaling

def checkPercent (bound : Bound) : Option UInt32 → Except Rejection Unit
  | none => .ok ()
  | some value => if 100 < value then .error (.cpuOutOfRange bound value) else .ok ()

/-- Thresholds are percentages in order. Inverted ones are blamed on the maximum only if it alone
changed. -/
def checkThresholds (s prior : Scaling) : Except Rejection Unit := do
  checkPercent .minCpu s.minCpu
  checkPercent .maxCpu s.maxCpu
  match s.minCpu, s.maxCpu with
  | some min, some max =>
    if max < min then
      let blamed := if some max ≠ prior.maxCpu ∧ some min = prior.minCpu then .maxCpu else .minCpu
      .error (.invertedCpu blamed min max)
    else .ok ()
  | _, _ => .ok ()

def checkPositive (bound : Bound) (value : Option UInt32) : Except Rejection Unit :=
  if value = some 0 then .error (.boundBelowOne bound) else .ok ()

/-- A bound that is set alone stands for the missing one too. -/
def completeBounds (s : Scaling) (edits : BoundEdits) : Scaling :=
  if edits.min && !edits.max && s.maxInstances.isNone then { s with maxInstances := s.minInstances }
  else if edits.max && !edits.min && s.minInstances.isNone then
    { s with minInstances := s.maxInstances }
  else s

/-- Instance bounds are positive and, once completed, in order. -/
def reconcile (s : Scaling) (edits : BoundEdits) : Except Rejection Scaling := do
  checkPositive .minInstances s.minInstances
  checkPositive .maxInstances s.maxInstances
  let s := s.completeBounds edits
  match s.minInstances, s.maxInstances with
  | some min, some max =>
    if max < min then
      let blamed := if edits.max && !edits.min then .maxInstances else .minInstances
      .error (.invertedInstances blamed min max)
    else .ok s
  | _, _ => .ok s

/-- The nearest count within the bounds; the lower bound is looked at first. -/
def nearest (s : Scaling) (count : UInt32) : UInt32 :=
  match s.minInstances, s.maxInstances with
  | some min, some max => if count < min then min else if max < count then max else count
  | some min, none => if count < min then min else count
  | none, some max => if max < count then max else count
  | none, none => count

end Scaling

namespace Application

/-- Instances move into the bounds when autoscaling is on and the change touched either. -/
def clamp (prior a : Application) : Application :=
  if a.scaling.enabled &&
      (a.instances ≠ prior.instances || a.scaling.minInstances ≠ prior.scaling.minInstances ||
        a.scaling.maxInstances ≠ prior.scaling.maxInstances ||
        a.scaling.enabled ≠ prior.scaling.enabled) then
    { a with instances := a.scaling.nearest a.instances }
  else a

/-- A started application runs something new when it was not started before, when its memory or its
health check changed, or when it got its first droplet. -/
def opensGeneration (prior a : Application) : Bool :=
  a.isStarted && (!prior.isStarted || a.memoryMb ≠ prior.memoryMb ||
    a.healthCheck ≠ prior.healthCheck || (prior.dropletHash.isNone && a.dropletHash.isSome))

/-- The generations are counted in 64 bits; there is none after the last. -/
def renew (prior a : Application) : Except Fault Application :=
  if opensGeneration prior a then
    if a.generation = 0xffffffffffffffff then .error .overflow
    else .ok { a with
      generation := a.generation + 1
      version := Version.token a.id (a.generation + 1) }
  else .ok a

/-- What becomes of a changed candidate. -/
def settle (prior : Application) (edits : BoundEdits) (candidate : Application) :
    Except Fault Application := do
  candidate.scaling.checkThresholds prior.scaling
  let scaling ← candidate.scaling.reconcile edits
  renew prior (clamp prior { candidate with scaling })

def apply (a : Application) (u : Update) : Except Fault Application :=
  settle a u.boundEdits (a.assign u)

def start (a : Application) : Except Fault Application :=
  settle a .neither { a with desired := .started }

def stop (a : Application) : Except Fault Application :=
  settle a .neither { a with desired := .stopped }

def markForRestaging (a : Application) : Except Fault Application :=
  settle a .neither a.resetPackage

/-- Stop, return the package to pending, and start again, as one change. -/
def restage (a : Application) : Except Fault Application := do
  (← (← a.stop).markForRestaging).start

/-- Only a pending package takes a staging result. -/
def checkPending (a : Application) (target : PackageState) : Except Rejection Unit :=
  if a.isPending then .ok () else .error (.packageTransition a.package target)

def markStaged (a : Application) (result : StagingResult) : Except Fault Application := do
  a.checkPending .staged
  settle a .neither { a with
    package := .staged
    stagingFailure := none
    dropletHash := result.dropletHash.or a.dropletHash
    lastStaging := some result }

def markFailed (a : Application) (reason : String) : Except Fault Application := do
  a.checkPending .failed
  settle a .neither { a with package := .failed, stagingFailure := some reason }

def bindRoute (a : Application) (route : String) : Application :=
  if route ∈ a.routes then a else { a with routes := a.routes ++ [route], routesPending := true }

def unbindRoute (a : Application) (route : String) : Application :=
  if route ∈ a.routes then
    { a with routes := a.routes.filter (· ≠ route), routesPending := true }
  else a

/-- The router knows the current routes. -/
def routesPushed (a : Application) : Application := { a with routesPending := false }

end Application

end AppFleet
