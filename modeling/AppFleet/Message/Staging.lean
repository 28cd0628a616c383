import AppFleet.Application.Wire

/-! Messages to the stager, the router and the artifact store. -/

namespace AppFleet

structure StageRequest where
  appId : AppId
  version : Version
  packageHash : Option String
  memoryMb : UInt32
  diskMb : UInt32
deriving DecidableEq, Repr

namespace StageRequest

def codec : Codec StageRequest :=
  Fields.record "StageRequest" <|
    StageRequest.mk
      <$> .required "app_id" .string (·.appId)
      <*> .required "version" .string (·.version)
      <*> .optional "package_hash" .string (·.packageHash)
      <*> .required "memory_mb" .uint32 (·.memoryMb)
      <*> .required "disk_mb" .uint32 (·.diskMb)

def ofApp (a : Application) : StageRequest := ⟨a.id, a.version, a.packageHash, a.memoryMb, a.diskMb⟩

end StageRequest

inductive StageReply where
  | staged (result : StagingResult)
  /-- No stager had the memory or the disk for the job. -/
  | noCapacity (message : String)
  | failed (message : String)
deriving DecidableEq, Repr

namespace StageReply

def result? : StageReply → Option StagingResult
  | staged r => some r
  | _ => none

def noCapacity? : StageReply → Option String
  | noCapacity m => some m
  | _ => none

def failed? : StageReply → Option String
  | failed m => some m
  | _ => none

def messageField : Fields String String := .required "message" .string id

def codec : Codec StageReply :=
  Variant.codec "StageReply" "status" [
    .of "staged" "struct StagingResponse" StagingResult.fields staged result?,
    .of "no_capacity" "struct variant StageReply::NoCapacity" messageField noCapacity noCapacity?,
    .of "failed" "struct variant StageReply::Failed" messageField failed failed?]

end StageReply

structure RouteUpdate where
  appId : AppId
  routes : List String
deriving DecidableEq, Repr

def RouteUpdate.codec : Codec RouteUpdate :=
  Fields.record "RouteUpdate" <|
    RouteUpdate.mk
      <$> .required "app_id" .string (·.appId)
      <*> .required "routes" (.list .string) (·.routes)

inductive ArtifactKind where
  | package
  | buildpackCache
deriving DecidableEq, Repr

def ArtifactKind.codec : Codec ArtifactKind :=
  .choice [("package", .package), ("buildpack_cache", .buildpackCache)]

structure ArtifactDeletion where
  kind : ArtifactKind
  appId : AppId
deriving DecidableEq, Repr

def ArtifactDeletion.codec : Codec ArtifactDeletion :=
  Fields.record "ArtifactDeletion" <|
    ArtifactDeletion.mk
      <$> .required "kind" ArtifactKind.codec (·.kind)
      <*> .required "app_id" .string (·.appId)

end AppFleet
