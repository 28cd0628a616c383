import AppFleet.Bus.Frame
import AppFleet.Bus.Request

/-!
A bus that another process serves. What the server sends is fanned out on a bus of one's own; the
server is asked for each subject once. When the connection ends, all that wait for messages are told.
-/

namespace AppFleet

structure Remote where
  /-- Fans out what comes in. -/
  bus : Bus
  /-- Whether sending is over. -/
  isClosed : Bool
  /-- The subjects that the server was asked for. -/
  forwarded : List String
  /-- What was sent to the server, the latest last. -/
  sent : List Frame

namespace Remote

def connected : Remote := ⟨.empty, false, [], []⟩

def send (r : Remote) (f : Frame) : Except BusError Unit × Remote :=
  if r.isClosed then (.error .closed, r) else (.ok (), { r with sent := r.sent ++ [f] })

def publish (r : Remote) (subject : String) (payload : Json) : Except BusError Unit × Remote :=
  r.send (.publish ⟨subject, payload, none⟩)

/-- Answers a message on its reply subject. -/
def respond (r : Remote) (asked : Envelope) (payload : Json) : Except BusError Unit × Remote :=
  match asked.replyTo with
  | some subject => r.publish subject payload
  | none => (.error (.noReplySubject asked.subject), r)

/-- Subscribes, and asks the server for a subject that it was not asked for before. A subject counts as
asked for even if that failed. -/
def subscribe (r : Remote) (subject : String) : Except BusError Nat × Remote :=
  let (id, bus) := r.bus.subscribe subject
  if subject ∈ r.forwarded then (.ok id, { r with bus })
  else
    match { r with bus, forwarded := r.forwarded ++ [subject] }.send (.subscribe subject) with
    | (.ok (), r) => (.ok id, r)
    | (.error e, r) => (.error e, { r with bus := r.bus.drop id })

def drop (r : Remote) (id : Nat) : Remote := { r with bus := r.bus.drop id }

/-- Sends a request. There is nothing to wait for after a panic. -/
def startRequest (r : Remote) (now : Nat) (horizon : Horizon) (q : Request) :
    Except BusError (Option Exchange) × Remote :=
  let ((inbox, id), bus) := Exchange.listen r.bus
  match { r with bus }.send (.subscribe inbox) with
  | (.error e, r) => (.error e, r.drop id)
  | (.ok (), r) =>
    let (_, r) := r.send (.publish ⟨q.subject, q.payload, some inbox⟩)
    match Exchange.await? now horizon q inbox id with
    | some x => (.ok (some x), r)
    | none => (.ok none, r.drop id)

/-- Collects what has arrived for a request. One that is over lets its reply subject go. -/
def poll (r : Remote) (x : Exchange) (now : Nat) : Option Replies × Exchange × Remote :=
  let (outcome, x, bus) := x.poll r.bus now
  let r := { r with bus }
  match outcome with
  | some replies => (some replies, x, (r.send (.unsubscribe x.inbox)).2)
  | none => (none, x, r)

/-- Nothing can be sent any more; what the server still sends is read. -/
def stopSending (r : Remote) : Remote := { r with isClosed := true }

/-- The connection has ended. -/
def hangUp (r : Remote) : Remote := { r.stopSending with bus := r.bus.close }

/-- Takes note of one line from the server. Only messages count. -/
def read (r : Remote) : Frame.Reading → Remote
  | .frame (.message e) => { r with bus := r.bus.deliver e }
  | .frame _ | .malformed => r
  | .notText => r.hangUp

/-- Takes note of lines up to one that ends the connection. -/
def readAll (r : Remote) (readings : List Frame.Reading) : Remote := readings.foldl read r

end Remote

end AppFleet
