import AppFleet.Bus.Request

/-! The bus as a control plane sees it: sending can be refused, and what was sent is remembered. -/

namespace AppFleet

/-- Something a control plane sent, or tried to. -/
structure Sent where
  subject : String
  payload : Json
  /-- Of a request: how many replies it wants, and its timeout. -/
  request : Option (Option Nat × Nat)
  refused : Bool

structure Link where
  bus : Bus
  /-- The subjects on which the bus refuses to send. -/
  refused : List String
  /-- The latest last. -/
  sent : List Sent

namespace Link

def empty : Link := ⟨.empty, [], []⟩

def note (l : Link) (subject : String) (payload : Json) (request : Option (Option Nat × Nat)) : Link :=
  { l with sent := l.sent ++ [⟨subject, payload, request, subject ∈ l.refused⟩] }

def publish (l : Link) (subject : String) (payload : Json) : Except BusError Unit × Link :=
  let noted := l.note subject payload none
  if subject ∈ l.refused then (.error .closed, noted)
  else (.ok (), { noted with bus := l.bus.publish subject payload })

theorem publish_sent (l : Link) (subject : String) (payload : Json) :
    (l.publish subject payload).2.sent = l.sent ++ [⟨subject, payload, none, subject ∈ l.refused⟩] := by
  unfold publish
  split <;> rfl

/-- Sends a request, unless it is refused. There is nothing to wait for after a panic. -/
def request (l : Link) (now : Nat) (horizon : Horizon) (r : Request) :
    Except BusError (Option Exchange) × Link :=
  let noted := l.note r.subject r.payload (some (r.expected, r.timeoutMs))
  if r.subject ∈ l.refused then (.error .closed, noted)
  else
    let (exchange, bus) := Exchange.start l.bus now horizon r
    (.ok exchange, { noted with bus })

end Link

end AppFleet
