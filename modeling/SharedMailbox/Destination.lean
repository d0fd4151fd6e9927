import SharedMailbox.Layout

namespace SharedMailbox

/-!
# Destinations

Where a message goes: a peer id, or the address of a component. All peers sit on one subnet, on
which peer `p` has the component ids from `100 * p` on; a reserved subnet id says that the
component id is a peer id itself.
-/

/-- Subnet id of the one subnet. -/
def defaultSid : Int32 := 27

/-- Subnet id that makes a component id a peer id. -/
def peerIdSid : Int32 := -42

/-- Component ids per peer. -/
def cidsPerPeer : Nat := 100

/-- The first component id of a peer. -/
def firstCid (peer : PeerId) : UInt64 := UInt64.ofNat (peer.toNat * cidsPerPeer)

/-- The subnet id that every peer has, as a word. -/
def subnetWord : UInt64 := 27

example : Int.ofNat subnetWord.toNat = defaultSid.toInt := by decide

/-- Where a message goes. -/
inductive Destination where
  | peer (id : PeerId)
  | component (cid sid : Int32)
  deriving DecidableEq

namespace Destination

/-- The coordinator, by its peer id. -/
def coordinator (l : Layout) : Destination := .component l.coordinator.toUInt32.toInt32 peerIdSid

/-- The peer id of a destination that has a slot, where `id` is the id asked for. -/
def check (l : Layout) (id : Int) : Except MessageError UInt64 :=
  if id < 1 ∨ l.coordinator.toNat < id.toNat ∨ ¬ l.HasSlot (UInt64.ofNat id.toNat) then
    .error (.addressOutOfRange id)
  else .ok (UInt64.ofNat id.toNat)

/-- The peer id that owns the slot of a destination. -/
def resolve (d : Destination) (l : Layout) : Except MessageError UInt64 :=
  match d with
  | .peer id => check l id.toNat
  | .component cid sid =>
    if sid = peerIdSid then check l cid.toInt
    -- the quotient is cut towards zero, as that of words is
    else if sid = defaultSid then check l (cid.toInt.tdiv cidsPerPeer)
    else .error (.unreachableDestination sid)

end Destination

end SharedMailbox
