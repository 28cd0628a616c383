import AppFleet.Bus.Envelope
import AppFleet.Message.Subject
import AppFleet.Store.Table

/-!
The bus within a process. A table says to which subscriptions the messages on a subject are handed. A
subscription that was dropped stays in the table until the next message on its subject; one that the
table has let go can still be read until nothing waits for it.
-/

namespace AppFleet

inductive BusError where
  | closed
  | noReplySubject (subject : String)
  | connection (reason : String)
deriving DecidableEq, Repr

def BusError.message : BusError → String
  | closed => "bus is closed"
  | noReplySubject subject => s!"envelope on {subject} has no reply subject"
  | connection reason => s!"bus connection error: {reason}"

structure Subscription where
  id : Nat
  subject : String
  /-- What was delivered and not read yet, the oldest first. -/
  waiting : List Envelope
deriving DecidableEq

structure Bus where
  /-- Those that were not dropped, in order of creation. -/
  subscriptions : List Subscription
  /-- By subject whom its messages are handed to, in order of creation. -/
  table : Table (List Nat)
  nextId : Nat
  nextInbox : Nat

def Subscription.receive (e : Envelope) (s : Subscription) : Subscription :=
  { s with waiting := s.waiting ++ [e] }

namespace Bus

def empty : Bus := ⟨[], .empty, 0, 0⟩

def find? (b : Bus) (id : Nat) : Option Subscription := b.subscriptions.find? (·.id = id)

/-- Whether a subscription is there, and was not dropped. -/
def isHeld (b : Bus) (id : Nat) : Bool := b.subscriptions.any (·.id = id)

/-- Whom messages on a subject are handed to. -/
def registered (b : Bus) (subject : String) : List Nat := (b.table.get? subject).getD []

/-- Hands a message to every subscription on its subject. Those that turn out to have been dropped are
struck off the table. -/
def deliver (b : Bus) (e : Envelope) : Bus :=
  match b.table.get? e.subject with
  | none => b
  | some ids =>
    let reached := ids.filter b.isHeld
    { b with
      subscriptions := b.subscriptions.map fun s => if s.id ∈ reached then s.receive e else s
      table := if reached.isEmpty then b.table.erase e.subject else b.table.put e.subject reached }

def publish (b : Bus) (subject : String) (payload : Json) : Bus := b.deliver ⟨subject, payload, none⟩

/-- A new subscription, and its id. -/
def subscribe (b : Bus) (subject : String) : Nat × Bus :=
  (b.nextId, { b with
    subscriptions := b.subscriptions ++ [⟨b.nextId, subject, []⟩]
    table := b.table.put subject (b.registered subject ++ [b.nextId])
    nextId := b.nextId + 1 })

/-- The table does not notice. -/
def drop (b : Bus) (id : Nat) : Bus :=
  { b with subscriptions := b.subscriptions.filter (·.id ≠ id) }

/-- Lets every subscription on a subject go. -/
def forget (b : Bus) (subject : String) : Bus := { b with table := b.table.erase subject }

/-- Lets every subscription go. The bus can be used again. -/
def close (b : Bus) : Bus := { b with table := .empty }

def count (b : Bus) (subject : String) : Nat := (b.registered subject).countP b.isHeld

/-- Reads up to `most` of the messages that wait for a subscription. -/
def take (b : Bus) (id : Nat) (most : Nat) : List Envelope × Bus :=
  (((b.find? id).map (·.waiting.take most)).getD [],
    { b with subscriptions := b.subscriptions.map fun s =>
      if s.id = id then { s with waiting := s.waiting.drop most } else s })

/-- Reads everything that waits for a subscription. -/
def drain (b : Bus) (id : Nat) : List Envelope × Bus :=
  b.take id (((b.find? id).map (·.waiting.length)).getD 0)

/-- Whether nothing will be delivered to a subscription any more. -/
def isEnded (b : Bus) (id : Nat) : Bool := !((b.find? id).any fun s => id ∈ b.registered s.subject)

/-- Answers a message on its reply subject. -/
def respond (b : Bus) (asked : Envelope) (payload : Json) : Except BusError Bus :=
  match asked.replyTo with
  | some subject => .ok (b.publish subject payload)
  | none => .error (.noReplySubject asked.subject)

/-- A reply subject of its own for one request. -/
def openInbox (b : Bus) : String × Bus :=
  (Subject.inbox b.nextInbox, { b with nextInbox := b.nextInbox + 1 })

end Bus

end AppFleet
