import AppFleet.Json.Value

/-! What travels on the bus. -/

namespace AppFleet

structure Envelope where
  subject : String
  payload : Json
  /-- Where an answer is expected, if one is. -/
  replyTo : Option String
deriving DecidableEq

end AppFleet
