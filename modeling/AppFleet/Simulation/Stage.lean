import AppFleet.Ledger.Sweep
import AppFleet.World

/-!
Activities under way. An activity runs until it has to wait: for a moment, for the replies to a
request, or for the answers to a survey.
-/

namespace AppFleet

/-- How far an activity is. -/
inductive Stage (α : Type) where
  | finished (a : α)
  | panicked
  | asleep (wake : Nat) (next : Activity α)
  | waiting (exchange : Exchange) (next : Replies → Activity α)
  | surveying (exchanges : List (LedgerRecord × Exchange)) (report : SweepReport)
      (next : SweepReport → Activity α)

namespace World

def request (w : World) (now : Nat) (r : Request) : Except BusError (Option Exchange) × World :=
  let (sent, link) := w.link.request now w.horizon r
  (sent, { w with link })

/-- Sends the question about each record; those that were refused are not waited for. -/
def sendSurvey (w : World) (now : Nat) (timeoutMs : UInt64) :
    List LedgerRecord → List (LedgerRecord × Exchange) × World
  | [] => ([], w)
  | r :: rest =>
    let (sent, w) := w.request now (Ledger.query timeoutMs r)
    let (exchanges, w) := w.sendSurvey now timeoutMs rest
    (match sent with
      | .ok (some x) => (r, x) :: exchanges
      | .ok none | .error _ => exchanges, w)

/-- Merges what came back for a record, and counts it if it did. -/
def mergeReplies (w : World) (report : SweepReport) (r : LedgerRecord) (replies : Replies) :
    SweepReport × World :=
  match Ledger.statsOf replies with
  | none => (report, w)
  | some reply =>
    match w.mergeStats r reply with
    | (some _, w) => ({ report with refreshed := report.refreshed + 1 }, w)
    | (none, w) => (report, w)

/-- Looks at every open question of a survey once. -/
def pollSurvey (w : World) (now : Nat) (report : SweepReport) :
    List (LedgerRecord × Exchange) → List (LedgerRecord × Exchange) × SweepReport × World
  | [] => ([], report, w)
  | (r, x) :: rest =>
    let (outcome, x, bus) := x.poll w.link.bus now
    let w := { w with link := { w.link with bus } }
    match outcome with
    | some replies =>
      let (report, w) := w.mergeReplies report r replies
      w.pollSurvey now report rest
    | none =>
      let (left, report, w) := w.pollSurvey now report rest
      ((r, x) :: left, report, w)

end World

/-- Runs an activity until it has to wait. -/
def Activity.advance (now : Nat) : Activity α → World → Stage α × World
  | .done a, w => (.finished a, w)
  | .panic, w => (.panicked, w)
  | .act action next, w =>
    let (answer, w) := w.perform action
    (next answer).advance now w
  | .request r next, w =>
    match w.request now r with
    | (.ok (some x), w) => (.waiting x next, w)
    | (.ok none, w) => (.panicked, w)
    | (.error e, w) => (next (.error e)).advance now w
  | .sleep ms next, w => (.asleep (now + ms) next, w)
  | .survey records timeoutMs next, w =>
    match w.sendSurvey now timeoutMs records with
    | ([], w) => (next ⟨records.length, 0⟩).advance now w
    | (exchanges, w) => (.surveying exchanges ⟨records.length, 0⟩ next, w)

namespace Stage

/-- Whether a stage is over by now, or has gone on. -/
def poll (now : Nat) (stage : Stage α) (w : World) : Bool × Stage α × World :=
  match stage with
  | finished a => (false, finished a, w)
  | panicked => (false, panicked, w)
  | asleep wake next =>
    if wake ≤ now then (true, next.advance now w) else (false, asleep wake next, w)
  | waiting x next =>
    match x.poll w.link.bus now with
    | (some replies, _, bus) => (true, (next replies).advance now { w with link := { w.link with bus } })
    | (none, x, bus) => (false, waiting x next, { w with link := { w.link with bus } })
  | surveying exchanges report next =>
    match w.pollSurvey now report exchanges with
    | ([], report, w) => (true, (next report).advance now w)
    | (left, report, w) => (left.length < exchanges.length, surveying left report next, w)

/-- When a stage goes on by itself. -/
def wake? : Stage α → Option Nat
  | finished _ | panicked => none
  | asleep wake _ => some wake
  | waiting x _ => some x.deadline
  | surveying exchanges _ _ => (exchanges.map (·.2.deadline)).min?

def isFinished : Stage α → Bool
  | finished _ => true
  | _ => false

/-- By its end, or by a panic. -/
def isOver : Stage α → Bool
  | finished _ | panicked => true
  | _ => false

end Stage

end AppFleet
