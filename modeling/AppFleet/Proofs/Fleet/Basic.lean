import AppFleet.ControlPlane
import AppFleet.Simulation.Stage

/-! Many activities at once. A fleet takes its turns in any order: one turn is one action of one
activity, or the end of one wait, so that every other activity may come in between. The list of events
is the order that was taken, and a statement about every list is one about every interleaving. -/

namespace AppFleet

/-- One action of an activity, or the beginning of a wait. What is asleep until a moment that has come
can go on. -/
def Activity.turn (now : Nat) : Activity α → World → Stage α × World
  | .done a, w => (.finished a, w)
  | .panic, w => (.panicked, w)
  | .act action next, w =>
    let (answer, w) := w.perform action
    (.asleep now (next answer), w)
  | .request r next, w =>
    match w.request now r with
    | (.ok (some x), w) => (.waiting x next, w)
    | (.ok none, w) => (.panicked, w)
    | (.error e, w) => (.asleep now (next (.error e)), w)
  | .sleep ms next, w => (.asleep (now + ms) next, w)
  | .survey records timeoutMs next, w =>
    match w.sendSurvey now timeoutMs records with
    | ([], w) => (.asleep now (next ⟨records.length, 0⟩), w)
    | (exchanges, w) => (.surveying exchanges ⟨records.length, 0⟩ next, w)

namespace Stage

def turn (now : Nat) (stage : Stage α) (w : World) : Stage α × World :=
  match stage with
  | finished a => (finished a, w)
  | panicked => (panicked, w)
  | asleep wake next => if wake ≤ now then next.turn now w else (asleep wake next, w)
  | waiting x next =>
    match x.poll w.link.bus now with
    | (some replies, _, bus) => (asleep now (next replies), { w with link := { w.link with bus } })
    | (none, x, bus) => (waiting x next, { w with link := { w.link with bus } })
  | surveying exchanges report next =>
    match w.pollSurvey now report exchanges with
    | ([], report, w) => (asleep now (next report), w)
    | (left, report, w) => (surveying left report next, w)

def action? (now : Nat) : Stage α → Option Action
  | asleep wake (.act action _) => if wake ≤ now then some action else none
  | _ => none

def request? (now : Nat) : Stage α → Option Request
  | asleep wake (.request r _) => if wake ≤ now then some r else none
  | _ => none

/-- The replies with which the next turn goes on, if a request is over with it. -/
def replies? (now : Nat) (w : World) : Stage α → Option Replies
  | asleep wake (.request r _) =>
    if wake ≤ now then
      match (w.request now r).1 with
      | .ok _ => none
      | .error e => some (.error e)
    else none
  | waiting x _ => (x.poll w.link.bus now).1
  | _ => none

def after (now : Nat) (w : World) : Stage α → World
  | asleep wake (.act action _) => if wake ≤ now then (w.perform action).2 else w
  | asleep wake (.request r _) => if wake ≤ now then (w.request now r).2 else w
  | asleep wake (.survey records timeoutMs _) =>
    if wake ≤ now then (w.sendSurvey now timeoutMs records).2 else w
  | waiting x _ => { w with link := { w.link with bus := (x.poll w.link.bus now).2.2 } }
  | surveying exchanges report _ => (w.pollSurvey now report exchanges).2.2
  | _ => w

theorem turn_snd (now : Nat) (stage : Stage α) (w : World) :
    (stage.turn now w).2 = stage.after now w := by
  cases stage with
  | finished a | panicked => rfl
  | waiting x next =>
    simp only [turn, after]
    split <;> simp [*]
  | surveying exchanges report next =>
    simp only [turn, after]
    split <;> simp [*]
  | asleep wake next =>
    by_cases hw : wake ≤ now
    · simp only [turn, hw, if_true]
      cases next with
      | done a | panic | sleep ms next => rfl
      | act action next => simp [Activity.turn, after, hw]
      | request r next =>
        simp only [Activity.turn, after, hw, if_true]
        split <;> simp [*]
      | survey records timeoutMs next =>
        simp only [Activity.turn, after, hw, if_true]
        split <;> simp [*]
    · cases next <;> simp [turn, after, hw]

/-- Some turns in a row, with nobody in between. -/
def turns (now : Nat) : Nat → Stage α × World → Stage α × World
  | 0, p => p
  | n + 1, p => turns now n (p.1.turn now p.2)

end Stage

/-- Running an activity until it waits is a row of turns. -/
theorem Activity.advance_eq_turns (now : Nat) (x : Activity α) (w : World) :
    ∃ n, Stage.turns now n (.asleep now x, w) = x.advance now w := by
  induction x generalizing w with
  | done a | panic => exact ⟨1, by simp [Stage.turns, Stage.turn, turn, advance]⟩
  | act action next ih =>
    obtain ⟨n, hn⟩ := ih (w.perform action).1 (w.perform action).2
    exact ⟨n + 1, by simpa [Stage.turns, Stage.turn, turn, advance] using hn⟩
  | request r next ih =>
    match hr : w.request now r with
    | (.ok (some x), w') | (.ok none, w') => exact ⟨1, by simp [Stage.turns, Stage.turn, turn, advance, hr]⟩
    | (.error e, w') =>
      obtain ⟨n, hn⟩ := ih (.error e) w'
      exact ⟨n + 1, by simpa [Stage.turns, Stage.turn, turn, advance, hr] using hn⟩
  | sleep ms next ih => exact ⟨1, by simp [Stage.turns, Stage.turn, turn, advance]⟩
  | survey records timeoutMs next ih =>
    match hs : w.sendSurvey now timeoutMs records with
    | ([], w') =>
      obtain ⟨n, hn⟩ := ih ⟨records.length, 0⟩ w'
      exact ⟨n + 1, by simpa [Stage.turns, Stage.turn, turn, advance, hs] using hn⟩
    | (x :: xs, w') => exact ⟨1, by simp [Stage.turns, Stage.turn, turn, advance, hs]⟩

/-- What sets the control plane going: a call of its own, a message on a subject it listens on, a
sweep that is due, or a node that has not said who it is. -/
inductive Call where
  | create (app : Application)
  | update (app : AppId) (update : Update)
  | delete (app : AppId)
  | message (e : Envelope)
  | sweep
  | identify (node : NodeId)

def Call.activity (config : Config) : Call → Activity Unit
  | create a => do
    let _ ← ControlPlane.create config a
  | update app u => do
    let _ ← ControlPlane.update config app u
  | delete app => do
    let _ ← ControlPlane.delete config app
  | message e =>
    match (ControlPlane.handlers config).lookup e.subject with
    | some handle => handle e
    | none => return
  | sweep => do
    let _ ← Ledger.sweep config.ledger.statsMs
  | identify node => do
    let _ ← Node.identify config.ledger.identifyMs node

structure Task where
  call : Call
  /-- The requests it has sent, the latest last. -/
  asked : List Request
  stage : Stage Unit

structure Fleet where
  /-- Milliseconds since the beginning. -/
  now : Nat
  world : World
  /-- In order of their calls; those that are over stay. -/
  tasks : List Task

namespace Fleet

inductive Event where
  | call (c : Call)
  /-- One of the tasks takes its next turn. -/
  | turn (task : Nat)
  | wait (ms : Nat)
  | setClocks (clock wallClock : UInt64) (horizon : Horizon)
  /-- Anyone on the bus sends something, as a stager does that replies. -/
  | deliver (e : Envelope)
  /-- From now on the bus refuses to send on these subjects. -/
  | refuse (subjects : List String)
  | closeBus

def start (w : World) : Fleet := ⟨0, w, []⟩

def takeTurn (s : Fleet) (i : Nat) : Fleet :=
  match s.tasks[i]? with
  | none => s
  | some t =>
    let (stage, world) := t.stage.turn s.now s.world
    let asked := t.asked ++ (t.stage.request? s.now).toList
    { s with world, tasks := s.tasks.set i { t with asked, stage } }

def withLink (s : Fleet) (link : Link) : Fleet := { s with world := { s.world with link } }

def step (config : Config) (s : Fleet) : Event → Fleet
  | .call c => { s with tasks := s.tasks ++ [⟨c, [], .asleep s.now (c.activity config)⟩] }
  | .turn i => s.takeTurn i
  | .wait ms => { s with now := s.now + ms }
  | .setClocks clock wallClock horizon =>
    { s with world := { s.world with clock, wallClock, horizon } }
  | .deliver e => s.withLink { s.world.link with bus := s.world.link.bus.deliver e }
  | .refuse subjects => s.withLink { s.world.link with refused := subjects }
  | .closeBus => s.withLink { s.world.link with bus := s.world.link.bus.close }

def run (config : Config) (s : Fleet) (es : List Event) : Fleet := es.foldl (step config) s

@[simp] theorem run_nil (config : Config) (s : Fleet) : run config s [] = s := rfl

@[simp] theorem run_snoc (config : Config) (s : Fleet) (es : List Event) (e : Event) :
    run config s (es ++ [e]) = step config (run config s es) e := by
  simp [run]

def log (adds : Fleet → Event → List β) (config : Config) (s : Fleet) : List Event → List β
  | [] => []
  | e :: es => adds s e ++ log adds config (step config s e) es

section

variable {adds : Fleet → Event → List β} {config : Config} {s : Fleet}

@[simp] theorem log_nil : log adds config s [] = [] := rfl

theorem log_append (es es' : List Event) :
    log adds config s (es ++ es') = log adds config s es ++ log adds config (run config s es) es' := by
  induction es generalizing s with
  | nil => rfl
  | cons e es ih => simp [log, run, ih]

@[simp] theorem log_snoc (es : List Event) (e : Event) :
    log adds config s (es ++ [e]) = log adds config s es ++ adds (run config s es) e := by
  simp [log_append, log]

theorem log_mono {past es : List Event} (h : past <+: es) :
    log adds config s past <+: log adds config s es := by
  obtain ⟨rest, rfl⟩ := h
  rw [log_append]
  exact List.prefix_append _ _

theorem exists_of_mem_log {es : List Event} {b : β} (h : b ∈ log adds config s es) :
    ∃ past e, past ++ [e] <+: es ∧ b ∈ adds (run config s past) e := by
  induction es generalizing s with
  | nil => simp at h
  | cons e es ih =>
    rcases List.mem_append.1 h with hb | hb
    · exact ⟨[], e, by simp, hb⟩
    · obtain ⟨past, e', hpast, hb⟩ := ih hb
      exact ⟨e :: past, e', by simpa using hpast, hb⟩

end

theorem at_of_past {past es : List Event} {e : Event} (h : past ++ [e] <+: es) :
    past.length < es.length ∧ es[past.length]? = some e ∧ es.take past.length = past ∧
      es.take (past.length + 1) = past ++ [e] := by
  obtain ⟨rest, rfl⟩ := h
  exact ⟨by simp, by simp, by simp, List.take_left' (by simp)⟩

def apps (s : Fleet) : Table Application := s.world.store.apps

def call? (s : Fleet) (i : Nat) : Option Call := s.tasks[i]?.map (·.call)

def next? (s : Fleet) (i : Nat) : Option Action := s.tasks[i]?.bind (·.stage.action? s.now)

/-- All that was begun is over. -/
def isIdle (s : Fleet) : Bool := s.tasks.all (·.stage.isOver)

/-- All that was begun has come to its end, with no panic. -/
def allReturned (s : Fleet) : Bool := s.tasks.all (·.stage.isFinished)

def asked? (s : Fleet) (i : Nat) : Option Request := s.tasks[i]?.bind (·.asked.getLast?)

end Fleet

end AppFleet
