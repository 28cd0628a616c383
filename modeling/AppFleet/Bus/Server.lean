import AppFleet.Bus.Basic
import AppFleet.Bus.Frame

/-!
A bus that is served to peers in other processes. What a peer publishes is sent on the bus as if it
came from within. Every subject that a peer subscribes to has one forwarder, which moves messages from
a subscription of its own to the peer, at its own pace.
-/

namespace AppFleet

@[ext]
structure Forwarder where
  subject : String
  subscription : Nat
deriving DecidableEq

structure Peer where
  isOpen : Bool
  /-- At most one for each subject. -/
  forwarders : List Forwarder
  /-- What it sent of a line that has not ended yet. -/
  unread : List UInt8
  /-- What was sent to it, the latest last. -/
  sent : List Frame

namespace Peer

def connected : Peer := ⟨true, [], [], []⟩

def forwarder? (p : Peer) (subject : String) : Option Forwarder :=
  p.forwarders.find? (·.subject = subject)

/-- Subscribes a peer, unless it is subscribed. -/
def subscribe (p : Peer) (b : Bus) (subject : String) : Peer × Bus :=
  match p.forwarder? subject with
  | some _ => (p, b)
  | none =>
    let (id, b) := b.subscribe subject
    ({ p with forwarders := p.forwarders ++ [⟨subject, id⟩] }, b)

/-- Stops the forwarder of a subject at once; what it has not moved yet is lost. -/
def unsubscribe (p : Peer) (b : Bus) (subject : String) : Peer × Bus :=
  match p.forwarder? subject with
  | some f => ({ p with forwarders := p.forwarders.filter (·.subject ≠ subject) }, b.drop f.subscription)
  | none => (p, b)

/-- Carries out what a peer asks for. -/
def handle (p : Peer) (b : Bus) : Frame → Peer × Bus
  | .subscribe subject => p.subscribe b subject
  | .unsubscribe subject => p.unsubscribe b subject
  | .publish e => (p, b.deliver e)
  | .message _ => (p, b)

/-- Ends the connection, and all forwarding with it. -/
def close (p : Peer) (b : Bus) : Peer × Bus :=
  ({ p with isOpen := false, forwarders := [], unread := [] },
    p.forwarders.foldl (fun b f => b.drop f.subscription) b)

/-- Takes note of one line. A malformed one is dropped; one that is not text ends the connection. -/
def read (p : Peer) (b : Bus) : Frame.Reading → Peer × Bus
  | .frame f => p.handle b f
  | .malformed => (p, b)
  | .notText => p.close b

def readAll (p : Peer) (b : Bus) (readings : List Frame.Reading) : Peer × Bus :=
  readings.foldl (fun (p, b) r => if p.isOpen then p.read b r else (p, b)) (p, b)

/-- Takes in some bytes, and notes every line that ended. -/
def receive (p : Peer) (b : Bus) (bytes : List UInt8) : Peer × Bus :=
  let (lines, unread) := Text.ended (p.unread ++ bytes)
  { p with unread }.readAll b (Frame.readAll lines)

/-- The peer has hung up. Bytes after its last line feed are a line too. -/
def hangUp (p : Peer) (b : Bus) : Peer × Bus :=
  let (p, b) := p.readAll b (Frame.readAll p.unread)
  p.close b

/-- The forwarder of a subject moves up to `most` messages. -/
def forward (p : Peer) (b : Bus) (subject : String) (most : Nat) : Peer × Bus :=
  match p.forwarder? subject with
  | some f =>
    let (messages, b) := b.take f.subscription most
    ({ p with sent := p.sent ++ messages.map .message }, b)
  | none => (p, b)

/-- Lets every forwarder move all that waits. -/
def catchUp (p : Peer) (b : Bus) : Peer × Bus :=
  p.forwarders.foldl (fun (p, b) f =>
    p.forward b f.subject (((b.find? f.subscription).map (·.waiting.length)).getD 0)) (p, b)

end Peer

structure Server where
  bus : Bus
  /-- Everyone who ever connected, in that order. -/
  peers : List Peer
  /-- Whether new peers are let in. -/
  isOpen : Bool

namespace Server

def start (bus : Bus) : Server := ⟨bus, [], true⟩

/-- What the server goes through, in any order. -/
inductive Event where
  /-- Someone connects, and is numbered from zero on. -/
  | connect
  /-- A peer sends some bytes. -/
  | receive (peer : Nat) (bytes : List UInt8)
  | hangUp (peer : Nat)
  /-- A forwarder moves one message. -/
  | forward (peer : Nat) (subject : String)
  /-- Something is sent on the bus from within. -/
  | deliver (envelope : Envelope)
  | shutdown

/-- Lets one peer that is still connected go on. -/
def withPeer (s : Server) (peer : Nat) (go : Peer → Bus → Peer × Bus) : Server :=
  match s.peers[peer]? with
  | some p =>
    if p.isOpen then
      let (p, bus) := go p s.bus
      { s with bus, peers := s.peers.set peer p }
    else s
  | none => s

/-- Lets all connected peers go on, in order. -/
def withPeers (s : Server) (go : Peer → Bus → Peer × Bus) : Server :=
  (List.range s.peers.length).foldl (fun s peer => s.withPeer peer go) s

def step (s : Server) : Event → Server
  | .connect => if s.isOpen then { s with peers := s.peers ++ [.connected] } else s
  | .receive peer bytes => s.withPeer peer (·.receive · bytes)
  | .hangUp peer => s.withPeer peer Peer.hangUp
  | .forward peer subject => s.withPeer peer (·.forward · subject 1)
  | .deliver e => { s with bus := s.bus.deliver e }
  | .shutdown => { s.withPeers Peer.close with isOpen := false }

/-- Lets every forwarder catch up. -/
def catchUp (s : Server) : Server := s.withPeers Peer.catchUp

end Server

end AppFleet
