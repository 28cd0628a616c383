import AppFleet.Application.Basic
import AppFleet.Digest.Sha256
import AppFleet.Text.Hex

/-! Version tokens, and a freshly deployed application. -/

namespace AppFleet

/-- The first twelve bytes, in hexadecimal, of the digest of the id, a colon and the generation as
eight bytes. -/
def Version.token (id : AppId) (generation : UInt64) : Version :=
  Hex.ofBytes ((Sha256.digest
    (id.toUTF8.toList ++ 0x3a :: Sha256.bigEndian 8 generation.toNat)).take 12)

/-- Stopped, without bits, in generation 0. -/
def Application.new (id : AppId) (name : String) : Application where
  id
  name
  desired := .stopped
  instances := 1
  memoryMb := 256
  diskMb := 1024
  healthCheck := .port
  packageHash := none
  dropletHash := none
  package := .pending
  stagingFailure := none
  lastStaging := none
  version := Version.token id 0
  generation := 0
  scaling := .off
  routes := []
  routesPending := false
  updatedAt := 0

end AppFleet
