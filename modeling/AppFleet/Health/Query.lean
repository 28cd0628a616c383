import AppFleet.Activity
import AppFleet.Message.Health

/-!
Questions to the health-signal subsystem. They never fail: whatever goes wrong, the answer is empty or
zero.
-/

namespace AppFleet.Health

/-- The replies to a request, none if it could not be sent. -/
def send (r : Request) : Activity (List Json) := do
  match ← Activity.ask r with
  | .ok replies => return replies
  | .error _ => return []

/-- Zero for every application. -/
def zeros (apps : List Application) : Table UInt32 := apps.foldl (fun counts a => counts.put a.id 0) .empty

/-- A reply counts if it is about the current generation of an application that was asked about. -/
def count (apps : List Application) (counts : Table UInt32) (reply : Json) : Table UInt32 :=
  match HealthReply.codec.read reply with
  | .ok r =>
    if apps.any fun a => a.id = r.droplet && a.version = r.version then
      counts.put r.droplet r.healthy
    else counts
  | .error _ => counts

/-- How many instances of the current generation of each application are healthy. -/
def healthyInstances (queryMs : UInt64) (apps : List Application) : Activity (Table UInt32) := do
  if apps.isEmpty then return zeros apps
  let query := HealthQuery.codec.write ⟨apps.map fun a => ⟨a.id, a.version⟩⟩
  let replies ← send ⟨Subject.hmHealth, query, some apps.length, queryMs.toNat⟩
  return replies.foldl (count apps) (zeros apps)

/-- The first reply to a question about the instances in one state. -/
def statusQuery (queryMs : UInt64) (codec : Codec α) (a : Application) (state : InstanceState) :
    Activity (Option α) := do
  let query := StatusQuery.codec.write ⟨a.id, some a.version, state⟩
  match ← send (.single Subject.hmStatus query queryMs.toNat) with
  | reply :: _ => return (codec.read reply).toOption
  | [] => return none

/-- The crashed instances of the application's current generation. -/
def findCrashes (queryMs : UInt64) (a : Application) : Activity (List CrashedInstance) := do
  return ((← statusQuery queryMs CrashesReply.codec a .crashed).map (·.instances)).getD []

/-- The indices that keep crashing. -/
def findFlapping (queryMs : UInt64) (a : Application) : Activity (List FlappingIndex) := do
  return ((← statusQuery queryMs FlappingReply.codec a .flapping).map (·.indices)).getD []

end AppFleet.Health
