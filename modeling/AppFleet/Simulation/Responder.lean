import AppFleet.Bus.Basic

/-!
Scripted peers. A responder answers the messages on its subject by rules: the first rule whose pattern
fits a payload gives its next round of replies.
-/

namespace AppFleet

/-- Equality of values, for which the two zeros among the doubles are one. -/
def Json.Number.same : Json.Number → Json.Number → Bool
  | .double x, .double y => x == y
  | x, y => x = y

mutual

def Json.same : Json → Json → Bool
  | .number x, .number y => x.same y
  | .array xs, .array ys => Json.sameItems xs ys
  | .object xs, .object ys => Json.sameEntries xs ys
  | x, y => x = y

def Json.sameItems : List Json → List Json → Bool
  | [], [] => true
  | x :: xs, y :: ys => Json.same x y && Json.sameItems xs ys
  | _, _ => false

def Json.sameEntries : List (String × Json) → List (String × Json) → Bool
  | [], [] => true
  | (k, x) :: xs, (l, y) :: ys => k = l && Json.same x y && Json.sameEntries xs ys
  | _, _ => false

end

mutual

/-- Whether a value holds a pattern: for an object what each of its keys asks, so that the empty one
asks nothing; all else is compared as a whole. -/
def Json.holds (value : Json) : (pattern : Json) → Bool
  | .object wanted => Json.holdsEntries value wanted
  | pattern => Json.same value pattern

def Json.holdsEntries (value : Json) : List (String × Json) → Bool
  | [] => true
  | (key, pattern) :: rest =>
    (match value.get? key with
      | some v => Json.holds v pattern
      | none => false) && Json.holdsEntries value rest

end

structure Rule where
  /-- Without a pattern any payload fits. -/
  pattern : Option Json
  /-- The replies of each round, each with its delay after the one before. -/
  rounds : List (List (Json × Nat))
  /-- Whether the last round is given again once all are used. -/
  again : Bool
  used : Nat

namespace Rule

def fits (r : Rule) (payload : Json) : Bool := r.pattern.all payload.holds

/-- The round that comes next. -/
def round (r : Rule) : List (Json × Nat) :=
  match r.rounds[r.used]? with
  | some round => round
  | none => if r.again then r.rounds.getLast?.getD [] else []

def next (r : Rule) : Rule := { r with used := r.used + 1 }

end Rule

/-- The round for a payload, and the rules after it. -/
def Rule.answer (payload : Json) : List Rule → List (Json × Nat) × List Rule
  | [] => ([], [])
  | r :: rest =>
    if r.fits payload then (r.round, r.next :: rest)
    else
      let (round, rest) := answer payload rest
      (round, r :: rest)

structure Responder where
  subscription : Nat
  rules : List Rule

/-- A reply on its way. -/
structure Reply where
  moment : Nat
  envelope : Envelope

/-- When the replies of a round go out, if the first is due after `now`. -/
def schedule (inbox : String) : (now : Nat) → List (Json × Nat) → List Reply
  | _, [] => []
  | now, (payload, delay) :: rest =>
    ⟨now + delay, ⟨inbox, payload, none⟩⟩ :: schedule inbox (now + delay) rest

/-- Takes up messages, each on a timeline of its own. -/
def Responder.takeUp (now : Nat) : List Envelope → Responder → List Reply × Responder
  | [], r => ([], r)
  | e :: rest, r =>
    let (round, rules) := Rule.answer e.payload r.rules
    let replies := (e.replyTo.map (schedule · now round)).getD []
    let (more, r) := takeUp now rest { r with rules }
    (replies ++ more, r)

end AppFleet
