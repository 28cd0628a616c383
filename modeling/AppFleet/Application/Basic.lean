/-!
An application: what its owner wants running, the package it is built from, and the generation that
identifies one desired running state.
-/

namespace AppFleet

abbrev AppId := String

abbrev NodeId := String

/-- An opaque token that tells one generation of an application from the next. -/
abbrev Version := String

inductive DesiredState where
  | stopped
  | started
deriving DecidableEq, Repr

/-- Readiness of the uploaded package. -/
inductive PackageState where
  | pending
  | staged
  | failed
deriving DecidableEq, Repr

/-- How a node decides that an instance is alive. -/
inductive HealthCheck where
  | port
  | process
  | http
deriving DecidableEq, Repr

/-- What the stager reports for a package it has staged. -/
structure StagingResult where
  /-- Instances that the stager started itself. -/
  instancesStarted : UInt32
  dropletHash : Option String
  detectedBuildpack : Option String
deriving DecidableEq, Repr

/-- Autoscaling bounds; the thresholds are CPU percentages. -/
structure Scaling where
  minInstances : Option UInt32
  maxInstances : Option UInt32
  minCpu : Option UInt32
  maxCpu : Option UInt32
  enabled : Bool
deriving DecidableEq, Repr

/-- No bounds, and autoscaling off. -/
def Scaling.off : Scaling := ⟨none, none, none, none, false⟩

structure Application where
  id : AppId
  name : String
  desired : DesiredState
  /-- Desired number of instances. -/
  instances : UInt32
  memoryMb : UInt32
  diskMb : UInt32
  healthCheck : HealthCheck
  /-- Hash of the uploaded bits, if any were uploaded. -/
  packageHash : Option String
  dropletHash : Option String
  package : PackageState
  stagingFailure : Option String
  lastStaging : Option StagingResult
  version : Version
  /-- Counts the generations; the version is derived from it. -/
  generation : UInt64
  scaling : Scaling
  routes : List String
  /-- The routes changed and the router has not been told yet. -/
  routesPending : Bool
  /-- Unix seconds of the last stored change. -/
  updatedAt : UInt64
deriving DecidableEq, Repr

namespace Application

def isStarted (a : Application) : Bool := a.desired = .started

def isStopped (a : Application) : Bool := a.desired = .stopped

def isPending (a : Application) : Bool := a.package = .pending

def isStaged (a : Application) : Bool := a.package = .staged

def stagingFailed (a : Application) : Bool := a.package = .failed

def bitsUploaded (a : Application) : Bool := a.packageHash.isSome

/-- There are bits that are not staged yet, and the application wants instances running. -/
def needsStaging (a : Application) : Bool :=
  a.bitsUploaded && !a.isStaged && a.isStarted && 0 < a.instances

end Application

end AppFleet
