import AppFleet.Application.Basic

/-! A requested change to an application: each field that has a value is assigned. -/

namespace AppFleet

structure Update where
  state : Option DesiredState
  instances : Option UInt32
  memoryMb : Option UInt32
  diskMb : Option UInt32
  healthCheck : Option HealthCheck
  packageHash : Option String
  dropletHash : Option String
  minInstances : Option UInt32
  maxInstances : Option UInt32
  minCpu : Option UInt32
  maxCpu : Option UInt32
  autoscale : Option Bool
  routes : Option (List String)
deriving DecidableEq, Repr

/-- Which instance bounds a change sets. -/
structure BoundEdits where
  min : Bool
  max : Bool
deriving DecidableEq, Repr

def BoundEdits.neither : BoundEdits := ⟨false, false⟩

namespace Update

def empty : Update :=
  ⟨none, none, none, none, none, none, none, none, none, none, none, none, none⟩

/-- Only the desired number of instances. -/
def ofInstances (count : UInt32) : Update := { empty with instances := some count }

def boundEdits (u : Update) : BoundEdits := ⟨u.minInstances.isSome, u.maxInstances.isSome⟩

end Update

/-- The bounds after an update. -/
def Scaling.assign (s : Scaling) (u : Update) : Scaling where
  minInstances := u.minInstances.or s.minInstances
  maxInstances := u.maxInstances.or s.maxInstances
  minCpu := u.minCpu.or s.minCpu
  maxCpu := u.maxCpu.or s.maxCpu
  enabled := u.autoscale.getD s.enabled

namespace Application

/-- The package has to be staged again. -/
def resetPackage (a : Application) : Application :=
  { a with package := .pending, stagingFailure := none }

/-- New bits always need a fresh staging; the same bits do not. -/
def assignPackage (a : Application) : Option String → Application
  | none => a
  | some hash =>
    if a.packageHash = some hash then a else { a with packageHash := some hash }.resetPackage

def assignRoutes (a : Application) : Option (List String) → Application
  | none => a
  | some routes => if routes = a.routes then a else { a with routes, routesPending := true }

def assign (a : Application) (u : Update) : Application :=
  let a := { a with
    desired := u.state.getD a.desired
    instances := u.instances.getD a.instances
    memoryMb := u.memoryMb.getD a.memoryMb
    diskMb := u.diskMb.getD a.diskMb
    healthCheck := u.healthCheck.getD a.healthCheck
    scaling := a.scaling.assign u }
  let a := a.assignPackage u.packageHash
  let a := { a with dropletHash := u.dropletHash.or a.dropletHash }
  a.assignRoutes u.routes

end Application

end AppFleet
