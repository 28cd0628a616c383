import AppFleet.Application.Basic

/-! The subjects that messages travel on. -/

namespace AppFleet.Subject

def nodeHeartbeat : String := "node.heartbeat"
def nodeStatusResponse : String := "node.status.response"

def nodeLocate : String := "node.locate"
def nodeStart : String := "node.start"
def nodeStop : String := "node.stop"
def nodeScale : String := "node.scale"

/-- Where one node is asked who it is. -/
def nodeStatus (node : NodeId) : String := "node.status." ++ node

/-- Where one node is asked for the usage of an instance. -/
def nodeStats (node : NodeId) : String := "node.stats." ++ node

def hmHealth : String := "hm.health"
def hmStatus : String := "hm.status"
def hmAutoscalingUpdate : String := "hm.autoscaling.update"
def hmLiveVersion : String := "hm.live_version"

def hmStart : String := "hm.start"
def hmStop : String := "hm.stop"
def hmAdjust : String := "hm.adjust"
def hmAutoscalingRequest : String := "hm.autoscaling.request"

def appUpdated : String := "app.updated"
def appEvent : String := "app.event"

def autoscaleScaleUp : String := "autoscale.scale_up"

def stagerStage : String := "stager.stage"
def routerUpdate : String := "router.update"
def blobstoreDelete : String := "blobstore.delete"

/-- The private reply subject of the request with this number. -/
def inbox (n : Nat) : String := s!"_INBOX.{n}"

end AppFleet.Subject
