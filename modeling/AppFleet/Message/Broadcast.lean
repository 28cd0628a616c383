import AppFleet.Application.Basic
import AppFleet.Json.Fields

/-! Broadcasts about applications, and the signal that one needs more instances. -/

namespace AppFleet

structure AppUpdated where
  appId : AppId
  instances : UInt32
  version : Version
deriving DecidableEq, Repr

def AppUpdated.codec : Codec AppUpdated :=
  Fields.record "AppUpdated" <|
    AppUpdated.mk
      <$> .required "app_id" .string (·.appId)
      <*> .required "instances" .uint32 (·.instances)
      <*> .required "version" .string (·.version)

structure ScaleUpSignal where
  appId : AppId
  cpu : Float
deriving DecidableEq

def ScaleUpSignal.codec : Codec ScaleUpSignal :=
  Fields.record "ScaleUpSignal" <|
    ScaleUpSignal.mk
      <$> .required "app_id" .string (·.appId)
      <*> .required "cpu_percent" .float (·.cpu)

inductive AppEventKind where
  /-- A message about the application could not be processed. -/
  | error
  | stagingFailed
  /-- A stop was refused because it would have left too few instances. -/
  | stopRefused
deriving DecidableEq, Repr

def AppEventKind.codec : Codec AppEventKind :=
  .choice [("error", .error), ("staging_failed", .stagingFailed), ("stop_refused", .stopRefused)]

structure AppEvent where
  appId : AppId
  kind : AppEventKind
  message : String
  timestamp : UInt64
deriving DecidableEq, Repr

def AppEvent.codec : Codec AppEvent :=
  Fields.record "AppEvent" <|
    AppEvent.mk
      <$> .required "app_id" .string (·.appId)
      <*> .required "kind" AppEventKind.codec (·.kind)
      <*> .required "message" .string (·.message)
      <*> .required "timestamp" .uint64 (·.timestamp)

end AppFleet
