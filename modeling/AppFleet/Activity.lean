import AppFleet.Bus.Request
import AppFleet.Store.Basic

/-!
Activities: what the control plane does in answer to a call, a message or the passing of time. An
activity is a finite tree. Its actions happen at once, each as one transaction; a request, a delay
and a survey let other activities run until they are over. An activity that panics has no result, and
what it did before stays done.
-/

namespace AppFleet

/-- Names an autoscaling policy, which has cooldowns of its own. -/
abbrev PolicyId := Nat

inductive Action where
  /-- Unix seconds by which records expire and cooldowns end. -/
  | clock
  /-- Unix seconds with which events are stamped. -/
  | wallClock
  | findApp (id : AppId)
  | putApp (app : Application)
  | removeApp (id : AppId)
  | changeApp (id : AppId) (change : Application → Except Fault Application)
  | ingestHeartbeat (heartbeat : Heartbeat)
  | mergeStats (requested : LedgerRecord) (reply : StatsReply)
  | liveRecords
  | touchNode (node : NodeId)
  | ingestStatus (status : NodeStatus)
  | lastScaleUp (policy : PolicyId) (app : AppId)
  | noteScaleUp (policy : PolicyId) (app : AppId)
  | publish (subject : String) (payload : Json)

/-- What an action answers. -/
def Action.Answer : Action → Type
  | clock | wallClock => UInt64
  | findApp _ | removeApp _ => Option Application
  | putApp _ | ingestHeartbeat _ | ingestStatus _ | noteScaleUp .. => Unit
  | changeApp .. => Except Fault (Option Diff)
  | mergeStats .. => Option LedgerRecord
  | liveRecords => List LedgerRecord
  | touchNode _ => Bool
  | lastScaleUp .. => Option UInt64
  | publish .. => Except BusError Unit

/-- What came of asking every live instance for its usage. -/
structure SweepReport where
  queried : Nat
  refreshed : Nat
deriving DecidableEq, Repr

def SweepReport.codec : Codec SweepReport :=
  Fields.record "SweepReport" <|
    SweepReport.mk
      <$> .required "queried" .counter (·.queried)
      <*> .required "refreshed" .counter (·.refreshed)

inductive Activity (α : Type) where
  | done (a : α)
  | panic
  | act (action : Action) (next : action.Answer → Activity α)
  | request (request : Request) (next : Replies → Activity α)
  | sleep (ms : Nat) (next : Activity α)
  /-- Asks for the usage of all these instances at once, and merges every answer as it comes. -/
  | survey (records : List LedgerRecord) (timeoutMs : UInt64) (next : SweepReport → Activity α)

namespace Activity

protected def bind (x : Activity α) (f : α → Activity β) : Activity β :=
  match x with
  | done a => f a
  | panic => panic
  | act action next => act action fun answer => (next answer).bind f
  | request r next => request r fun replies => (next replies).bind f
  | sleep ms next => sleep ms (next.bind f)
  | survey records timeoutMs next => survey records timeoutMs fun report => (next report).bind f

instance : Monad Activity where
  pure := done
  bind := Activity.bind

theorem bind_done (x : Activity α) : x.bind done = x := by
  induction x with
  | done | panic => rfl
  | act _ _ ih | request _ _ ih | survey _ _ _ ih => simp only [Activity.bind, ih]
  | sleep _ _ ih => simp only [Activity.bind, ih]

theorem bind_bind (x : Activity α) (f : α → Activity β) (g : β → Activity γ) :
    (x.bind f).bind g = x.bind fun a => (f a).bind g := by
  induction x with
  | done | panic => rfl
  | act _ _ ih | request _ _ ih | survey _ _ _ ih => simp only [Activity.bind, ih]
  | sleep _ _ ih => simp only [Activity.bind, ih]

instance : LawfulMonad Activity :=
  LawfulMonad.mk' _ (fun x => bind_done x) (fun _ _ => rfl) (fun x f g => bind_bind x f g)

def perform (action : Action) : Activity action.Answer := act action done

def ask (r : Request) : Activity Replies := request r done

def pause (ms : Nat) : Activity Unit := sleep ms (done ())

def findApp (id : AppId) : Activity (Option Application) := perform (.findApp id)

/-- A change that overflows is a panic, and no answer. -/
def changeApp (id : AppId) (change : Application → Except Fault Application) :
    Activity (Except Rejection (Option Diff)) := do
  match ← perform (.changeApp id change) with
  | .ok recorded => return .ok recorded
  | .error (.rejected r) => return .error r
  | .error .overflow => panic

def publish (subject : String) (payload : Json) : Activity (Except BusError Unit) :=
  perform (.publish subject payload)

end Activity

end AppFleet
