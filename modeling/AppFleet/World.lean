import AppFleet.Activity
import AppFleet.Bus.Link

/-!
What activities work on: the store, the clocks, the cooldowns of the autoscaling policies and the bus.
`perform` says what each action does to it.
-/

namespace AppFleet

structure World where
  store : Store
  clock : UInt64
  wallClock : UInt64
  /-- Of the clock by which deadlines are set. -/
  horizon : Horizon
  /-- How long ledger and node records live without a refresh, in seconds. -/
  ttl : UInt64
  /-- When each policy last scaled up each application. -/
  scaleUps : PolicyId → Table UInt64
  /-- Nodes that were heard from for the first time and have not been asked who they are. -/
  unknownNodes : List NodeId
  link : Link

namespace World

def initial (clock wallClock ttl : UInt64) : World where
  store := .empty
  clock
  wallClock
  horizon := .full
  ttl
  scaleUps _ := .empty
  unknownNodes := []
  link := .empty

def touchNode (w : World) (node : NodeId) : Bool × World :=
  let (unseen, nodes) := w.store.nodes.touch w.clock w.ttl node
  (unseen, { w with store := { w.store with nodes } })

/-- A heartbeat refreshes its node and every slot it reports. An unseen node is to be asked who it
is. -/
def ingestHeartbeat (w : World) (heartbeat : Heartbeat) : World :=
  let (unseen, w) := w.touchNode heartbeat.nodeId
  { w with
    store := { w.store with ledger := w.store.ledger.ingest w.clock w.ttl heartbeat }
    unknownNodes := w.unknownNodes ++ if unseen then [heartbeat.nodeId] else [] }

def ingestStatus (w : World) (status : NodeStatus) : World :=
  { w with store := { w.store with nodes := w.store.nodes.ingest w.clock w.ttl status } }

def mergeStats (w : World) (requested : LedgerRecord) (reply : StatsReply) :
    Option LedgerRecord × World :=
  let (merged, ledger) := w.store.ledger.merge w.clock w.ttl requested reply
  (merged, { w with store := { w.store with ledger } })

def noteScaleUp (w : World) (policy : PolicyId) (app : AppId) : World :=
  { w with scaleUps := fun p =>
      if p = policy then (w.scaleUps p).put app w.clock else w.scaleUps p }

/-- What an action answers and leaves behind. -/
def perform (w : World) : (action : Action) → action.Answer × World
  | .clock => (w.clock, w)
  | .wallClock => (w.wallClock, w)
  | .findApp id => (w.store.apps.get? id, w)
  | .putApp a => ((), { w with store := w.store.putApp a })
  | .removeApp id =>
    let (removed, store) := w.store.removeApp id
    (removed, { w with store })
  | .changeApp id change =>
    let (outcome, store) := w.store.changeApp w.wallClock id change
    (outcome, { w with store })
  | .ingestHeartbeat heartbeat => ((), w.ingestHeartbeat heartbeat)
  | .mergeStats requested reply => w.mergeStats requested reply
  | .liveRecords => (w.store.ledger.live w.clock, w)
  | .touchNode node => w.touchNode node
  | .ingestStatus status => ((), w.ingestStatus status)
  | .lastScaleUp policy app => ((w.scaleUps policy).get? app, w)
  | .noteScaleUp policy app => ((), w.noteScaleUp policy app)
  | .publish subject payload =>
    let (outcome, link) := w.link.publish subject payload
    (outcome, { w with link })

end World

end AppFleet
