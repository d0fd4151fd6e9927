import SharedMailbox.Network.Attach
import SharedMailbox.Network.Interrupt

namespace SharedMailbox

/-!
# Fabrics

A fabric is a network that looks after its own rings: every endpoint gets a run of vectors of its
own, and after each step all rings reach their destinations. The registered peers are those whose
endpoints listen.

* `Fabric.attach`, `Fabric.detach`, `Fabric.shutdown`: registration.
* `Fabric.bindClass`, `Fabric.unbindClass`: set the class of every registered endpoint and tell the
  coordinator.
-/

namespace Fabric

/-- The first vector that a fabric hands out. -/
def baseVector : Nat := 64

/-- The vectors of a peer, `none` if they do not fit in 32 bits. -/
def vectors? (l : Layout) (peer : PeerId) : Option VectorTable :=
  -- each peer has room for as many vectors as there are events
  let first := baseVector + peer.toNat * l.nEvents.toNat
  if first < UInt32.size then VectorTable.sequential l.nEvents (UInt32.ofNat first) else none

/-- The registered peers, ascending. -/
def registered (net : Network) : List PeerId :=
  (net.endpoints.toList.filter fun entry => entry.2.listening).map Prod.fst

/-- A peer is registered. -/
def IsRegistered (net : Network) (peer : PeerId) : Prop :=
  (net.endpoint? peer).map Endpoint.listening = some true

instance (net : Network) (peer : PeerId) : Decidable (IsRegistered net peer) :=
  inferInstanceAs (Decidable (_ = _))

/-- Attach and register an endpoint. -/
def attach (net : Network) (peer : PeerId) (config : EndpointConfig) (host : HostAnswer) :
    Except SetupError Network :=
  if IsRegistered net peer then .error (.alreadyAttached peer)
  else
    match vectors? net.layout peer with
    | none => .error (.vectorOverflow peer net.layout.nEvents)
    | some vectors => net.attach net.layout peer vectors config host

/-- Take a peer off the register; whether it was on it. The endpoint still works, but no ring
    reaches it any more. -/
def detach (net : Network) (peer : PeerId) : Bool × Network := net.detach peer

/-- Take every peer off the register. -/
def shutdown (net : Network) : Network :=
  (registered net).foldl (fun net peer => (detach net peer).2) net

/-- A ring goes off, and all rings reach their destinations. -/
def ring (net : Network) (w : DoorbellWord) : Network := (net.enqueue w).settle

/-- Set the class of an endpoint and, unless it is the coordinator, let it ask the coordinator for
    a dump. That the dump cannot be sent does not matter. -/
def bindEndpoint (name : String) (net : Network) (e : Endpoint) : Network :=
  let net := net.setClass e name
  if e.IsCoordinator then net else (net.requestDump .queue e).2.settle

/-- Set the class of every registered endpoint; how many there are. -/
def bindClass (name : String) (net : Network) : Nat × Network :=
  let peers := registered net
  -- ascending, so that the coordinator comes last
  (peers.length, peers.foldl (fun net peer =>
    match net.endpoint? peer with
    | some e => bindEndpoint name net e
    | none => net) net)

/-- Give the default class back to every registered endpoint that has another one; how many
    had. -/
def unbindClass (net : Network) : Nat × Network :=
  (registered net).foldl (fun (count, net) peer =>
    match net.endpoint? peer with
    | some e =>
      if e.identity.className = defaultClass then (count, net)
      else (count + 1, bindEndpoint defaultClass net e)
    | none => (count, net)) (0, net)

end Fabric

end SharedMailbox
