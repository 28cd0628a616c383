import AppFleet.Bus.Server
import AppFleet.Simulation.Basic

/-! A fleet in simulated time whose bus is served to peers. -/

namespace AppFleet

structure ServedFleet where
  sim : Simulation
  peers : List Peer
  /-- Whether new peers are let in. -/
  isOpen : Bool

namespace ServedFleet

def serve (sim : Simulation) : ServedFleet := ⟨sim, [], true⟩

def server (f : ServedFleet) : Server := ⟨f.sim.bus, f.peers, f.isOpen⟩

def withServer (f : ServedFleet) (s : Server) : ServedFleet := ⟨f.sim.withBus s.bus, s.peers, s.isOpen⟩

def step (f : ServedFleet) (e : Server.Event) : ServedFleet := f.withServer (f.server.step e)

/-- Lets all activities go on until they wait, and then every forwarder catch up. -/
def settle (f : ServedFleet) : ServedFleet :=
  let f := { f with sim := f.sim.settle }
  f.withServer f.server.catchUp

/-- What was sent to a peer since it had got `seen` frames. -/
def sentSince (f : ServedFleet) (peer seen : Nat) : List Frame :=
  ((f.peers[peer]?.map (·.sent)).getD []).drop seen

end ServedFleet

end AppFleet
