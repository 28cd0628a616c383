import AppFleet.Activity
import AppFleet.Config.Check
import AppFleet.Message.Staging

/-!
Staging: turning uploaded bits into something that runs. Only a lack of capacity is tried again. The
verdict is recorded on the application; one whose package failed is not staged again before it is
marked for restaging.
-/

namespace AppFleet

inductive StagingError where
  /-- No stager had the memory or the disk for the job. -/
  | noCapacity (message : String)
  | failed (message : String)
  | timedOut (secs : UInt64)
  | unavailable (cause : BusError)
  /-- The package failed to stage before. -/
  | notRestaged (reason : String)
deriving DecidableEq, Repr

def StagingError.message : StagingError → String
  | noCapacity m => s!"no stager has capacity: {m}"
  | failed m => s!"staging failed: {m}"
  | timedOut secs => s!"no staging reply within {secs}s"
  | unavailable cause => s!"stager unreachable: {cause.message}"
  | notRestaged reason =>
    s!"package failed to stage earlier ({reason}); mark it for restaging first"

/-- Why a reaction to a change did not go through. -/
inductive ReactionError where
  | state (rejection : Rejection)
  | bus (cause : BusError)
  | backend (reason : String)
  /-- The application was deleted meanwhile. -/
  | gone (app : AppId)
deriving DecidableEq, Repr

def ReactionError.message : ReactionError → String
  | state r => s!"state store error: mutation rejected: {r.message}"
  | bus cause => s!"bus error: {cause.message}"
  | backend reason => s!"backend error: {reason}"
  | gone app => s!"application {app} vanished mid-reaction"

inductive StagingOutcome (β : Type) where
  /-- Staged, or there was no need to, and then started, with what came of that. -/
  | started (outcome : β)
  /-- Not staged. `recorded` is the change that recorded the failure, if one did. -/
  | failed (error : StagingError) (recorded : Option Diff)

namespace Staging

/-- What the replies of a stager amount to. -/
def verdict (config : StagingConfig) : List Json → Except StagingError StagingResult
  | [] => .error (.timedOut config.stageSecs)
  | reply :: _ =>
    match StageReply.codec.read reply with
    | .ok (.staged result) => .ok result
    | .ok (.noCapacity m) => .error (.noCapacity m)
    | .ok (.failed m) => .error (.failed m)
    | .error e => .error (.failed s!"malformed stager reply: {e.message}")

def stage (config : StagingConfig) (a : Application) :
    Activity (Except StagingError StagingResult) := do
  let request := StageRequest.codec.write (.ofApp a)
  match ← Activity.ask (.single Subject.stagerStage request config.stageMs) with
  | .ok replies => return verdict config replies
  | .error cause => return .error (.unavailable cause)

/-- The number after an attempt's, if 32 bits can count to it. -/
def next? (attempt : UInt32) : Option UInt32 :=
  if attempt = 0xffffffff then none else some (attempt + 1)

/-- How many attempts a configuration allows: the first, and the retries. -/
def attempts? (config : StagingConfig) : Option UInt32 := next? config.maxRetries

/-- Stages, as the given attempt and, while there is no capacity, as up to `left` more after it. -/
def stageFrom (config : StagingConfig) (a : Application) :
    (left : Nat) → (attempt : UInt32) → Activity (Except StagingError StagingResult)
  | 0, _ => stage config a
  | left + 1, attempt => do
    match ← stage config a with
    | .error (.noCapacity _) =>
      Activity.pause config.retryMs.toNat
      match next? attempt with
      | some attempt => stageFrom config a left attempt
      | none => Activity.panic
    | answer => return answer

/-- Stages, and tries again as often as is allowed while there is no capacity. -/
def stageWithRetry (config : StagingConfig) (a : Application) :
    Activity (Except StagingError StagingResult) :=
  match attempts? config with
  | some attempts => stageFrom config a (attempts.toNat - 1) 1
  | none => Activity.panic

/-- Records a staging result. Nothing may start before that. -/
def recordStaged (app : AppId) (result : StagingResult) :
    Activity (Except ReactionError Application) := do
  match ← Activity.changeApp app (·.markStaged result) with
  | .error r => return .error (.state r)
  | .ok none => return .error (.gone app)
  | .ok (some diff) => return diff.after.elim (.error (.gone app)) .ok

def recordFailed (app : AppId) (error : StagingError) : Activity (Option Diff) := do
  match ← Activity.changeApp app (·.markFailed error.message) with
  | .ok recorded => return recorded
  | .error _ => return none

/-- Stages an application if it needs that, and then starts it. `start` is given how many instances the
stager started itself, and the application as it was recorded. -/
def stageIfNeeded (config : StagingConfig) (a : Application)
    (start : UInt32 → Application → Activity β) :
    Activity (Except ReactionError (StagingOutcome β)) := do
  if !a.needsStaging then return .ok (.started (← start 0 a))
  else if a.stagingFailed then
    return .ok (.failed (.notRestaged (a.stagingFailure.getD "")) none)
  else
    match ← stageWithRetry config a with
    | .ok result =>
      match ← recordStaged a.id result with
      | .ok staged => return .ok (.started (← start result.instancesStarted staged))
      | .error e => return .error e
    | .error e => return .ok (.failed e (← recordFailed a.id e))

end Staging

end AppFleet
