import AppFleet.Bus.Basic

/-!
Requests: a message with a reply subject of its own, and the replies that arrive there in time. A
request that is not answered is no failure; it just has no replies. Its deadline is a moment of a clock,
and clocks end: whoever sets a deadline that is further off panics.
-/

namespace AppFleet

structure Request where
  subject : String
  payload : Json
  /-- How many replies are enough. Without a number they are collected until the timeout. -/
  expected : Option Nat
  timeoutMs : Nat

/-- A request for one reply. -/
def Request.single (subject : String) (payload : Json) (timeoutMs : Nat) : Request :=
  ⟨subject, payload, some 1, timeoutMs⟩

abbrev Replies := Except BusError (List Json)

/-- How far ahead a clock can show a moment, in milliseconds. -/
structure Horizon where
  ms : Nat
  /-- No clock is so old that it cannot show what 64 bits of milliseconds reach. -/
  far : 0x10000000000000000 ≤ ms

/-- Of a clock that has just begun to count seconds in 63 bits. -/
def Horizon.full : Horizon := ⟨0x7fffffffffffffff * 1000, by decide⟩

theorem Horizon.reaches (h : Horizon) (ms : UInt64) : ms.toNat ≤ h.ms :=
  Nat.le_trans (Nat.le_of_lt (UInt64.toNat_lt ms)) h.far

/-- A request whose replies are being collected. -/
structure Exchange where
  inbox : String
  /-- The subscription on the inbox. -/
  subscription : Nat
  expected : Option Nat
  deadline : Nat
  /-- The payloads that arrived, the oldest first. -/
  collected : List Json

namespace Exchange

/-- Listens on a reply subject of its own, before anyone is asked. -/
def listen (b : Bus) : (String × Nat) × Bus :=
  let (inbox, b) := b.openInbox
  let (id, b) := b.subscribe inbox
  ((inbox, id), b)

/-- Begins to collect. From now on the time counts, if there is a deadline. -/
def await? (now : Nat) (horizon : Horizon) (r : Request) (inbox : String) (id : Nat) :
    Option Exchange :=
  if r.timeoutMs ≤ horizon.ms then some ⟨inbox, id, r.expected, now + r.timeoutMs, []⟩ else none

/-- Sends a request whose replies come to a subscription. Who panics over the deadline drops that. -/
def ask (b : Bus) (now : Nat) (horizon : Horizon) (r : Request) (inbox : String) (id : Nat) :
    Option Exchange × Bus :=
  let b := b.deliver ⟨r.subject, r.payload, some inbox⟩
  match await? now horizon r inbox id with
  | some x => (some x, b)
  | none => (none, b.drop id)

def start (b : Bus) (now : Nat) (horizon : Horizon) (r : Request) : Option Exchange × Bus :=
  let ((inbox, id), b) := listen b
  ask b now horizon r inbox id

def isComplete (x : Exchange) : Bool :=
  match x.expected with
  | some n => n ≤ x.collected.length
  | none => false

/-- How many more replies are wanted, of `available` ones. -/
def wanted (x : Exchange) (available : Nat) : Nat :=
  match x.expected with
  | some n => n - x.collected.length
  | none => available

/-- Collects what has arrived. -/
def collect (x : Exchange) (b : Bus) : Exchange × Bus :=
  let available := ((b.find? x.subscription).map (·.waiting.length)).getD 0
  let (messages, b) := b.take x.subscription (x.wanted available)
  ({ x with collected := x.collected ++ messages.map (·.payload) }, b)

/-- What a request comes to that has collected what there was: it is over when that is enough, when the
bus has closed, or when the time is up. -/
def outcome? (x : Exchange) (b : Bus) (now : Nat) : Option Replies :=
  if x.isComplete then some (.ok x.collected)
  else if b.isEnded x.subscription then some (.error .closed)
  else if x.deadline ≤ now then some (.ok x.collected)
  else none

/-- Ends a request. Late replies find no subscription. -/
def finish (x : Exchange) (b : Bus) : Bus := (b.drop x.subscription).forget x.inbox

/-- Collects what has arrived, and ends the request if it is over by that. -/
def poll (x : Exchange) (b : Bus) (now : Nat) : Option Replies × Exchange × Bus :=
  let (x, b) := x.collect b
  match x.outcome? b now with
  | some replies => (some replies, x, x.finish b)
  | none => (none, x, b)

end Exchange

end AppFleet
