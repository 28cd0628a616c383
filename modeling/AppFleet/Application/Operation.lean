import AppFleet.Application.Lifecycle

/-! The operations of the lifecycle as values, and runs of them. An operation that fails changes nothing. -/

namespace AppFleet

inductive Operation where
  | apply (update : Update)
  | start
  | stop
  | restage
  | markForRestaging
  | markStaged (result : StagingResult)
  | markFailed (reason : String)
  | bindRoute (route : String)
  | unbindRoute (route : String)
  | routesPushed
deriving DecidableEq, Repr

namespace Operation

def perform (a : Application) : Operation → Except Fault Application
  | apply u => a.apply u
  | start => a.start
  | stop => a.stop
  | restage => a.restage
  | markForRestaging => a.markForRestaging
  | markStaged result => a.markStaged result
  | markFailed reason => a.markFailed reason
  | bindRoute route => .ok (a.bindRoute route)
  | unbindRoute route => .ok (a.unbindRoute route)
  | routesPushed => .ok a.routesPushed

/-- The application after an operation. -/
def after (a : Application) (op : Operation) : Application :=
  match op.perform a with
  | .ok b => b
  | .error _ => a

def run (a : Application) (ops : List Operation) : Application := ops.foldl after a

end Operation

end AppFleet
