import SharedMailbox.Frame.Stream
import SharedMailbox.Network.Attach
import SharedMailbox.Network.Interrupt

namespace SharedMailbox

/-!
# Runs

All that endpoints, consumers and the doorbell do, as one type of actions, so that a run of a
network is a list of them.

* `Action`, `Outcome`: one thing done, and what came of it.
* `Network.perform`, `Network.run`: the network after one action, and after a list of them.
-/

/-- One thing that is done in a network. -/
inductive Action where
  | attach (peer : PeerId) (vectors : VectorTable) (config : EndpointConfig) (host : HostAnswer)
  | detach (peer : PeerId)
  | forget (peer : PeerId)
  | send (peer : PeerId) (mode : WaitMode) (dest : Destination) (message : List UInt8)
  | requestDump (peer : PeerId)
  | write (peer : PeerId) (request : List UInt8)
  /-- The ring at a place in the queue reaches its destination. -/
  | deliver (place : Nat)
  /-- A ring that nobody sent reaches its destination. -/
  | raise (w : DoorbellWord)
  | interrupt (peer : PeerId) (vector : UInt32)
  | await (peer : PeerId) (patience : Patience)
  | release (peer : PeerId)
  | read (peer : PeerId) (buffer : List UInt8)
  | setClass (peer : PeerId) (name : String)

/-- What came of an action. -/
inductive Outcome where
  /-- The peer has no endpoint, or no ring is at that place. -/
  | absent
  | done
  | attached (fault : Option SetupError)
  | answered (yes : Bool)
  | sent (result : Except MessageError Nat)
  | delivered (w : DoorbellWord) (result : RingResult)
  | raised (result : RingResult)
  | interrupted (result : Handling)
  | received (result : Except MessageError Incoming)
  | framed (result : Except MessageError Nat) (buffer : List UInt8)
  deriving DecidableEq

namespace Network

/-- Let the endpoint of a peer act, if it has one. -/
def actAs (net : Network) (peer : PeerId) (act : Endpoint → Outcome × Network) :
    Outcome × Network :=
  match net.endpoint? peer with
  | some e => act e
  | none => (.absent, net)

/-- Do one thing. -/
def perform (ring : Bell) (net : Network) : Action → Outcome × Network
  | .attach peer vectors config host =>
    match net.attach net.layout peer vectors config host with
    | .ok net => (.attached none, net)
    | .error fault => (.attached (some fault), net)
  | .detach peer => let (yes, net) := net.detach peer; (.answered yes, net)
  | .forget peer => let (yes, net) := net.forget peer; (.answered yes, net)
  | .send peer mode dest message =>
    net.actAs peer fun e =>
      let (result, net) := net.send ring [] e mode dest message
      (.sent result, net)
  | .requestDump peer =>
    net.actAs peer fun e => let (result, net) := net.requestDump ring e; (.sent result, net)
  | .write peer request =>
    net.actAs peer fun e => let (result, net) := net.write ring e request; (.sent result, net)
  | .deliver place =>
    match net.deliver? place with
    | some (w, result, net) => (.delivered w result, net)
    | none => (.absent, net)
  | .raise w => let (result, net) := net.raise ring [] w; (.raised result, net)
  | .interrupt peer vector =>
    net.actAs peer fun e =>
      let (result, net) := net.interrupt ring [] e vector
      (.interrupted result, net)
  | .await peer patience =>
    net.actAs peer fun e => let (result, net) := net.await e patience; (.received result, net)
  | .release peer =>
    net.actAs peer fun e => let (yes, net) := net.release e; (.answered yes, net)
  | .read peer buffer =>
    net.actAs peer fun e =>
      let (result, buffer, net) := net.read e buffer
      (.framed result buffer, net)
  | .setClass peer name => net.actAs peer fun e => (.done, net.setClass e name)

/-- Do a list of things, one after another. -/
def run (ring : Bell) (net : Network) (actions : List Action) : Network :=
  actions.foldl (fun net action => (net.perform ring action).2) net

end Network

end SharedMailbox
