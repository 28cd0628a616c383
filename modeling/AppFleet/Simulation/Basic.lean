import AppFleet.ControlPlane
import AppFleet.Health.Query
import AppFleet.Simulation.Responder
import AppFleet.Simulation.Stage

/-!
A fleet in simulated time. Waiting costs nothing: when every activity waits, the time moves to the next
moment at which something happens. At one moment, activities take turns in a fixed order until none
can go on.
-/

namespace AppFleet

/-- Handles the messages of one subscription, one after the other. -/
structure Listener where
  subscription : Nat
  handle : Envelope → Activity Unit
  /-- What it is at, if anything. -/
  stage : Option (Stage Unit)

/-- Something that is done again and again, with a pause before each time. -/
structure Cycle where
  pauseMs : Nat
  turn : Activity Unit
  stage : Stage Unit

structure Simulation where
  /-- Milliseconds since the beginning. -/
  now : Nat
  world : World
  /-- How long a node has to say who it is. -/
  identifyMs : UInt64
  listeners : List Listener
  cycles : List Cycle
  background : List (Stage Unit)
  responders : List Responder
  replies : List Reply

namespace Simulation

def initial (world : World) (identifyMs : UInt64) : Simulation :=
  ⟨0, world, identifyMs, [], [], [], [], []⟩

/-- What panics is lost with the message it was about. -/
def Listener.poll (now : Nat) (l : Listener) (w : World) : Bool × Listener × World :=
  match l.stage with
  | some stage =>
    let (moved, stage, w) := stage.poll now w
    if stage.isOver then (true, { l with stage := none }, w)
    else (moved, { l with stage := some stage }, w)
  | none =>
    match w.link.bus.take l.subscription 1 with
    | (e :: _, bus) =>
      let (stage, w) := (l.handle e).advance now { w with link := { w.link with bus } }
      (true, { l with stage := some stage }, w)
    | ([], _) => (false, l, w)

def Cycle.poll (now : Nat) (c : Cycle) (w : World) : Bool × Cycle × World :=
  let (moved, stage, w) := c.stage.poll now w
  if stage.isFinished then (true, { c with stage := .asleep (now + c.pauseMs) c.turn }, w)
  else (moved, { c with stage }, w)

/-- Polls all in order. -/
def pollAll (poll : β → World → Bool × β × World) : List β → World → Bool × List β × World
  | [], w => (false, [], w)
  | b :: rest, w =>
    let (moved, b, w) := poll b w
    let (movedLater, rest, w) := pollAll poll rest w
    (moved || movedLater, b :: rest, w)

/-- Sets about asking unknown nodes who they are. -/
def askUnknown (s : Simulation) : Simulation :=
  let asking := s.world.unknownNodes.map fun node => do
    let _ ← Node.identify s.identifyMs node
  { s with
    world := { s.world with unknownNodes := [] }
    background := s.background ++ asking.map fun a => .asleep s.now a }

/-- Delivers the replies that are due. -/
def deliverReplies (s : Simulation) : Bool × Simulation :=
  let (due, later) := s.replies.partition (·.moment ≤ s.now)
  let bus := due.foldl (fun bus r => bus.deliver r.envelope) s.world.link.bus
  (!due.isEmpty, { s with
    world := { s.world with link := { s.world.link with bus } }
    replies := later })

def pollResponders (now : Nat) : List Responder → Bus → List Responder × List Reply × Bus
  | [], bus => ([], [], bus)
  | r :: rest, bus =>
    let (messages, bus) := bus.drain r.subscription
    let (replies, r) := r.takeUp now messages
    let (rest, more, bus) := pollResponders now rest bus
    (r :: rest, replies ++ more, bus)

/-- Lets the responders take up what reached them. -/
def answerRequests (s : Simulation) : Bool × Simulation :=
  let (responders, replies, bus) := pollResponders s.now s.responders s.world.link.bus
  (!replies.isEmpty, { s with
    world := { s.world with link := { s.world.link with bus } }
    responders
    replies := s.replies ++ replies })

/-- One turn of everything but the activity in the foreground. -/
def round (s : Simulation) : Bool × Simulation :=
  let s := s.askUnknown
  let (moved1, background, w) := pollAll (Stage.poll s.now) s.background s.world
  let (moved2, listeners, w) := pollAll (Listener.poll s.now) s.listeners w
  let (moved3, cycles, w) := pollAll (Cycle.poll s.now) s.cycles w
  let s := { s with
    background := background.filter fun stage => !stage.isOver
    listeners
    cycles
    world := w }
  let (moved4, s) := s.deliverReplies
  let (moved5, s) := s.answerRequests
  (moved1 || moved2 || moved3 || moved4 || moved5, s)

/-- The next moment at which something happens by itself. -/
def nextMoment? (s : Simulation) (foreground : Stage α) : Option Nat :=
  (foreground.wake?.toList ++ s.background.filterMap Stage.wake?
    ++ s.listeners.filterMap (fun l => l.stage.bind Stage.wake?)
    ++ s.cycles.filterMap (fun c => c.stage.wake?)
    ++ s.replies.map (·.moment)).min?

/-- Runs until the activity in the foreground is over, and says how far it got; `fuel` bounds the
turns. -/
def run (fuel : Nat) (s : Simulation) (foreground : Stage α) : Stage α × Simulation :=
  match fuel with
  | 0 => (foreground, s)
  | fuel + 1 =>
    let (moved, foreground, world) := foreground.poll s.now s.world
    if foreground.isOver then (foreground, { s with world })
    else
      let (movedElse, s) := { s with world }.round
      if moved || movedElse then s.run fuel foreground
      else
        match s.nextMoment? foreground with
        | some moment => { s with now := moment }.run fuel foreground
        | none => (foreground, s)

/-- More turns than any run needs. -/
def patience : Nat := 1000000000

/-- Carries out one activity, and lets all others go on meanwhile. -/
def perform (s : Simulation) (a : Activity α) : Stage α × Simulation :=
  let (stage, world) := a.advance s.now s.world
  { s with world }.run patience stage

/-- Lets all activities go on until they wait. -/
def settle (s : Simulation) : Simulation := (s.perform (Activity.pause 1)).2

def withBus (s : Simulation) (bus : Bus) : Simulation :=
  { s with world := { s.world with link := { s.world.link with bus } } }

def bus (s : Simulation) : Bus := s.world.link.bus

/-- What was sent since this was last asked. -/
def takeSent (s : Simulation) : List Sent × Simulation :=
  (s.world.link.sent, { s with world := { s.world with link := { s.world.link with sent := [] } } })

def addResponder (s : Simulation) (subject : String) (rules : List Rule) : Simulation :=
  let (id, bus) := s.bus.subscribe subject
  { s.withBus bus with responders := s.responders ++ [⟨id, rules⟩] }

def addListener (s : Simulation) (handler : String × (Envelope → Activity Unit)) : Simulation :=
  let (id, bus) := s.bus.subscribe handler.1
  { s.withBus bus with listeners := s.listeners ++ [⟨id, handler.2, none⟩] }

/-- A control plane that has just started: it listens, it has asked all nodes to announce themselves,
and it will sweep. -/
def startPlane (config : Config) (clock wallClock : UInt64) : Simulation :=
  let s := initial (.initial clock wallClock config.ledger.ttlSecs) config.ledger.identifyMs
  let s := (ControlPlane.handlers config).foldl addListener s
  let (_, s) := s.perform Node.locate
  let sweep : Activity Unit := do
    let _ ← Ledger.sweep config.ledger.statsMs
  { s with cycles := [⟨config.ledger.sweepMs, sweep, .asleep (s.now + config.ledger.sweepMs) sweep⟩] }

end Simulation

end AppFleet
