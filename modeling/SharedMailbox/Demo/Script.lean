import SharedMailbox.Fabric
import SharedMailbox.Network.Run

namespace SharedMailbox.Demo

/-!
# The demonstration

A coordinator and a number of clients on one fabric. The coordinator pings every client, asks for
its class and ids, and assigns it new ids; then all get a class; then the clients pass messages
around a ring.

* `Options`, `Host`: what a demonstration runs with, and what it runs on.
* `Script`: steps that act on a fabric and print lines, and may fail.
* `demonstration`: the script.
* `runWith`: the lines and the exit code for some options.
-/

open Numeral (decimal signedDecimal)

/-! ### Options and hosts -/

/-- What a demonstration runs with. -/
structure Options where
  clients : UInt64 := 4
  slotSize : UInt64 := 512
  rounds : Nat := 2
  /-- The file that holds the mailbox, which else is on the heap. -/
  file : Option String := none
  className : String := "demo_class"
  deriving DecidableEq, Repr

/-- What a demonstration asks its host for. -/
structure Host where
  /-- The answer for the name of the host. -/
  name : HostAnswer
  /-- The allocator has a block of so many bytes. -/
  allocates : Nat → Bool
  /-- What there is against a file at a path. -/
  refusal : String → FileRefusal

/-- Where the bytes of the mailbox are to be had. -/
def Host.storage (host : Host) : Option String → Storage
  | none => .heap host.allocates
  | some path => .file (host.refusal path)

/-! ### Scripts -/

/-- Why a demonstration stopped. -/
inductive Failure where
  | setup (error : SetupError)
  | message (error : MessageError)
  /-- An answer came from another peer than the one that was asked. -/
  | strangeSender (expected found : PeerId)
  /-- An answer does not have the form of one. -/
  | badReply (peer : PeerId)
  /-- A peer has no endpoint. -/
  | absent
  deriving DecidableEq

/-- The fabric and the lines printed so far. -/
structure Stage where
  net : Network
  lines : Array String

/-- Steps on a fabric. What was printed before a failure stays printed. -/
abbrev Script := ExceptT Failure (StateM Stage)

namespace Script

/-- Print a line. -/
def print (line : String) : Script Unit := modify fun s => { s with lines := s.lines.push line }

/-- Do one thing and let all rings reach their destinations. -/
def act (action : Action) : Script Outcome := do
  let s ← get
  let (outcome, net) := s.net.perform .queue action
  set { s with net := net.settle }
  return outcome

/-- Attach a peer. -/
def attach (host : HostAnswer) (config : EndpointConfig) (peer : PeerId) : Script Unit := do
  let s ← get
  match Fabric.attach s.net peer config host with
  | .ok net => set { s with net := net }
  | .error fault => throw (.setup fault)

/-- Send a message to a peer. -/
def send (sender receiver : PeerId) (message : List UInt8) : Script Unit := do
  match ← act (.send sender .sleep (.peer receiver) message) with
  | .sent (.ok _) => return
  | .sent (.error fault) => throw (.message fault)
  | _ => throw .absent

/-- Wait for a delivery; its sender and its message. -/
def await (peer : PeerId) : Script (PeerId × List UInt8) := do
  match ← act (.await peer .limited) with
  | .received (.ok incoming) => return (incoming.sender, incoming.payload (← get).net.memory)
  | .received (.error fault) => throw (.message fault)
  | _ => throw .absent

/-- Send a request and wait for the answer of the peer that was asked. -/
def exchange (coordinator peer : PeerId) (request : List UInt8) : Script (List UInt8) := do
  send coordinator peer request
  let (sender, answer) ← await coordinator
  -- released before the answer is looked at, so that a failure leaves nothing in hand
  let _ ← act (.release coordinator)
  if sender ≠ peer then throw (.strangeSender peer sender)
  return answer

/-- Ping a client, ask for its class and ids, and assign it new ids. -/
def negotiate (coordinator peer : PeerId) : Script Unit := do
  let name := "peer " ++ decimal peer.toNat
  let answer ← exchange coordinator peer Link.ping
  print (name ++ ": " ++ Utf8.decodeLossy answer)
  let answer ← exchange coordinator peer (Utf8.encode Link.peerAttribute)
  match Link.LinkAck.parse? answer with
  | none => throw (.badReply peer)
  | some ack =>
    print (name ++ ": class " ++ ack.className ++ " cid0 " ++ signedDecimal ack.cid0.toInt
      ++ " sid0 " ++ signedDecimal ack.sid0.toInt)
    let assignment : Link.CtlWrite :=
      { pfmcid := Int32.ofNat (coordinator.toNat * cidsPerPeer)
        pfmsid := defaultSid
        cid := Int32.ofNat (peer.toNat * cidsPerPeer)
        sid := defaultSid
        tag := Int32.ofNat peer.toNat }
    let answer ← exchange coordinator peer (Utf8.encode assignment.text)
    if Link.parseStandaloneAck? answer = some assignment.tag then
      print (name ++ ": assigned cid " ++ signedDecimal assignment.cid.toInt
        ++ " sid " ++ signedDecimal assignment.sid.toInt)
    else throw (.badReply peer)

/-- Release what is pending, and what is pending then, until nothing is, in at most so many rounds;
    how many deliveries there were. -/
def drain (peer : PeerId) : Nat → Script Nat
  | 0 => return 0
  | rounds + 1 => do
    match ← act (.await peer .limited) with
    | .received (.ok _) =>
      let _ ← act (.release peer)
      let others ← drain peer rounds
      return others + 1
    | _ => return 0

/-- Bytes that a buffer for a frame has beyond the longest message, for the address of the
    sender. -/
def addressRoom : Nat := 32

/-- A client writes to another, which reads the frame and prints it. -/
def pass (round : Nat) (sender receiver : PeerId) : Script Unit := do
  let request := decimal receiver.toNat ++ ":round " ++ decimal round ++ " from "
    ++ decimal sender.toNat
  match ← act (.write sender (Utf8.encode request)) with
  | .sent (.ok _) =>
    let _ ← await receiver
    -- the delivery is in hand but still pending, so that the read finds it too
    let buffer := List.replicate ((← get).net.layout.maxPayload + addressRoom) 0
    match ← act (.read receiver buffer) with
    | .framed (.ok len) buffer =>
      print ("peer " ++ decimal receiver.toNat ++ " <- " ++ Utf8.decodeLossy (buffer.take len))
    | .framed (.error fault) _ => throw (.message fault)
    | _ => throw .absent
  | .sent (.error fault) => throw (.message fault)
  | _ => throw .absent

end Script

/-- The peer ids of the clients. -/
def clientIds (n : Nat) : List PeerId := (List.range n).map fun i => UInt16.ofNat (i + 1)

/-- How everybody attaches in a demonstration. -/
def setup : EndpointConfig := { timings := SendTimings.fast }

/-- The client that gets the messages of a client. -/
def next (o : Options) (peer : PeerId) : PeerId :=
  UInt16.ofNat (peer.toNat % o.clients.toNat + 1)

/-- The script of a demonstration on a fresh fabric. -/
def demonstration (host : HostAnswer) (o : Options) : Script Unit := do
  let coordinator := (← get).net.layout.coordinator.toUInt16
  let clients := clientIds o.clients.toNat
  Script.attach host setup coordinator
  clients.forM fun peer => Script.attach host setup peer
  clients.forM fun peer => Script.negotiate coordinator peer
  -- every client now asks for a dump; each displaces the one before, and the last stays
  modify fun s => { s with net := (Fabric.bindClass o.className s.net).2 }
  let _ ← Script.drain coordinator (clients.length + 1)
  (List.range o.rounds).forM fun round =>
    clients.forM fun sender => Script.pass round sender (next o sender)

/-! ### Calls -/

/-- What a call of the program leaves behind: its exit code and the lines it prints. -/
structure Report where
  code : Nat
  lines : List String
  deriving DecidableEq, Repr

/-- Exit code of a demonstration that ran to its end. -/
def succeeded : Nat := 0

/-- Exit code of a demonstration that stopped. -/
def failed : Nat := 1

/-- Run a demonstration on a host. Without its mailbox it does not start. -/
def runWith (host : Host) (o : Options) : Report :=
  let config : MailboxConfig := { slotSize := o.slotSize, nClients := o.clients }
  match Mailbox.create (host.storage o.file) config.layout with
  | .error _ => { code := failed, lines := [] }
  | .ok b =>
    let (result, stage) := (demonstration host.name o).run.run ⟨Network.ofMailbox b, #[]⟩
    { code := match result with
        | .ok () => succeeded
        | .error _ => failed
      lines := stage.lines.toList }

end SharedMailbox.Demo
