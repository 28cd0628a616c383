import AppFleet.Message.Subject
import AppFleet.Json.Fields

/-!
Commands from the health-signal subsystem. A payload is read leniently first, every field optional,
and then checked for the fields its command needs, so that an error can still name the application.
-/

namespace AppFleet

/-- Start these indices of one generation. `running` counts the instances the sender saw. -/
structure StartInstances where
  droplet : AppId
  version : Version
  indices : List UInt32
  running : List (Version × UInt32)
deriving DecidableEq, Repr

/-- Stop these instances, each with the generation it belongs to. -/
structure StopInstances where
  droplet : AppId
  instances : List (String × Version)
  running : List (Version × UInt32)
deriving DecidableEq, Repr

/-- Move the desired number of instances from `before` to `after`. -/
structure AdjustInstances where
  before : UInt32
  after : UInt32
deriving DecidableEq, Repr

inductive Command where
  | start (start : StartInstances)
  | stop (stop : StopInstances)
  | adjust (appId : AppId) (counts : AdjustInstances)
  | queryAutoscaling (appId : AppId)
deriving DecidableEq, Repr

/-- A payload that is no command. `droplet` is the application it still named. -/
structure Malformed where
  subject : String
  droplet : Option AppId
  reason : String
deriving DecidableEq, Repr

def Malformed.message (m : Malformed) : String := s!"malformed message on {m.subject}: {m.reason}"

namespace Command

def appId : Command → AppId
  | start s => s.droplet
  | stop s => s.droplet
  | adjust app _ => app
  | queryAutoscaling app => app

structure RawStart where
  droplet : Option String
  version : Option String
  indices : Option (List UInt32)
  running : Option (List (String × UInt32))

def RawStart.codec : Codec RawStart :=
  Fields.record "RawStart" <|
    RawStart.mk
      <$> .lenient "droplet" .string (·.droplet)
      <*> .lenient "version" .string (·.version)
      <*> .lenient "indices" (.list .uint32) (·.indices)
      <*> .lenient "running" (.map .uint32) (·.running)

structure RawStop where
  droplet : Option String
  instances : Option (List (String × String))
  running : Option (List (String × UInt32))

def RawStop.codec : Codec RawStop :=
  Fields.record "RawStop" <|
    RawStop.mk
      <$> .lenient "droplet" .string (·.droplet)
      <*> .lenient "instances" (.map .string) (·.instances)
      <*> .lenient "running" (.map .uint32) (·.running)

structure RawAdjust where
  appId : Option String
  instances : Option (List UInt32)

def RawAdjust.codec : Codec RawAdjust :=
  Fields.record "RawAdjust" <|
    RawAdjust.mk
      <$> .lenient "app_id" .string (·.appId)
      <*> .lenient "instances" (.list .uint32) (·.instances)

structure RawAppQuery where
  appId : Option String

def RawAppQuery.codec : Codec RawAppQuery :=
  Fields.record "RawAppQuery" <| RawAppQuery.mk <$> .lenient "app_id" .string (·.appId)

/-- The application that a payload names: under `droplet` if it has that key, else under `app_id`. -/
def hint (payload : Json) : Option AppId :=
  ((payload.get? "droplet").or (payload.get? "app_id")).bind Json.text?

def decode (subject : String) (payload : Json) : Except Malformed Command :=
  let malformed (reason : String) : Malformed := ⟨subject, hint payload, reason⟩
  let raw {α : Type} (codec : Codec α) : Except Malformed α :=
    (codec.read payload).mapError fun e => malformed e.message
  let need {α : Type} (name : String) : Option α → Except Malformed α
    | some a => .ok a
    | none => .error (malformed (DecodeError.missingField name).message)
  if subject = Subject.hmStart then do
    let r ← raw RawStart.codec
    let droplet ← need "droplet" r.droplet
    let version ← need "version" r.version
    let indices ← need "indices" r.indices
    return .start ⟨droplet, version, indices, r.running.getD []⟩
  else if subject = Subject.hmStop then do
    let r ← raw RawStop.codec
    let droplet ← need "droplet" r.droplet
    let instances ← need "instances" r.instances
    return .stop ⟨droplet, instances, r.running.getD []⟩
  else if subject = Subject.hmAdjust then do
    let r ← raw RawAdjust.codec
    let app ← need "app_id" r.appId
    match r.instances with
    | some [before, after] => return .adjust app ⟨before, after⟩
    | some _ => throw ⟨subject, some app, "`instances` must be [before, after]"⟩
    | none => throw (malformed (DecodeError.missingField "instances").message)
  else if subject = Subject.hmAutoscalingRequest then do
    let r ← raw RawAppQuery.codec
    return .queryAutoscaling (← need "app_id" r.appId)
  else .error (malformed "not a command subject")

end Command

end AppFleet
