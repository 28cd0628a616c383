import AppFleet.Bus.Remote
import AppFleet.Bus.Server
import AppFleet.Config.Basic

/-! Opening the bus that a configuration asks for. -/

namespace AppFleet

/-- What the system of a process does with the addresses of bus servers. A failure says why. -/
structure Host where
  listen : String → Except String Unit
  dial : String → Except String Unit

inductive OpenBus where
  /-- Only for this process. -/
  | within (bus : Bus)
  | served (server : Server)
  | joined (remote : Remote)

inductive OpenError where
  | bind (address cause : String)
  | connect (address cause : String)
deriving DecidableEq, Repr

def OpenError.message : OpenError → String
  | bind address _ => s!"bind bus server on {address}"
  | connect address _ => s!"connect to bus server at {address}"

namespace OpenBus

def isServed : OpenBus → Bool
  | served _ => true
  | _ => false

/-- Opens the bus of a daemon on a host. -/
def ofConfig (host : Host) (daemon : DaemonConfig) : Except OpenError OpenBus :=
  match daemon.bus with
  | .local => .ok (within .empty)
  | .listen =>
    match host.listen daemon.busAddr with
    | .ok () => .ok (served (.start .empty))
    | .error e => .error (.bind daemon.busAddr e)
  | .connect =>
    match host.dial daemon.busAddr with
    | .ok () => .ok (joined .connected)
    | .error e => .error (.connect daemon.busAddr e)

end OpenBus

end AppFleet
