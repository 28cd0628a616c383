import AppFleet.Application.Basic

/-!
The two sides of one change to an application, and the reaction it calls for. A creation has no
`before`, a deletion no `after`.
-/

namespace AppFleet

structure Diff where
  before : Option Application
  after : Option Application
deriving DecidableEq, Repr

inductive Reaction where
  | stop
  | start
  | scale
  | rollout
  | delete
  | updateAutoscaling
deriving DecidableEq, Repr

namespace Diff

def created (a : Application) : Diff := ⟨none, some a⟩

def updated (before after : Application) : Diff := ⟨some before, some after⟩

def deleted (a : Application) : Diff := ⟨some a, none⟩

def appId (d : Diff) : AppId := ((d.after.or d.before).map (·.id)).getD ""

def isDeletion (d : Diff) : Bool := d.before.isSome && d.after.isNone

/-- Whether some aspect is present on both sides and differs. -/
def differs [DecidableEq α] (d : Diff) (aspect : Application → α) : Bool :=
  match d.before, d.after with
  | some b, some a => aspect b ≠ aspect a
  | _, _ => false

/-- A creation changes the desired state if it starts the application. -/
def desiredChanged (d : Diff) : Bool :=
  match d.before, d.after with
  | some b, some a => b.desired ≠ a.desired
  | none, some a => a.isStarted
  | _, none => false

def instancesChanged (d : Diff) : Bool := d.differs (·.instances)

def versionChanged (d : Diff) : Bool := d.differs (·.version)

/-- The uploaded bits or the staged droplet changed. -/
def packageChanged (d : Diff) : Bool := d.differs fun a => (a.packageHash, a.dropletHash)

def scalingChanged (d : Diff) : Bool := d.differs (·.scaling)

/-- The one reaction that a change calls for, the first of these that fits: a deletion, a new desired
state, another number of instances, another version or package, other autoscaling settings. -/
def classify (d : Diff) : Option Reaction :=
  match d.after with
  | none => if d.isDeletion then some .delete else none
  | some a =>
    if d.desiredChanged then some (if a.isStarted then .start else .stop)
    else if a.isStarted && d.instancesChanged then some .scale
    else if a.isStarted && (d.versionChanged || d.packageChanged) then some .rollout
    else if d.scalingChanged then some .updateAutoscaling
    else none

end Diff

end AppFleet
