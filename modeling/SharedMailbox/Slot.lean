import SharedMailbox.Layout
import SharedMailbox.Text.Utf8

namespace SharedMailbox

/-!
# Mailslots

A mailslot is a header of 128 bytes and a payload area behind it.

| offset | bytes | field                                                       |
|--------|-------|-------------------------------------------------------------|
| 0      | 32    | node name of the owner                                      |
| 32     | 32    | class of the owner                                          |
| 64     | 8     | length of the staged message, 0 when idle                   |
| 72     | 8     | peer id of the owner                                        |
| 80     | 8     | destination of the last send                                |
| 88     | 8     | subnet id of the owner, stamped by who reads its messages   |
| 96     | 8     | component id of the owner, stamped likewise                 |
| 104    | 24    | unused                                                      |
| 128    | ≥ 2   | payload                                                     |

* `BusyCell`: the length field. The owner publishes into an idle cell; a reader clears the
  length that it saw and nothing else.
* `Name`: the fixed-width text fields.
* `Slot`: where a mailslot lies, and its fields read from and written to a memory.
-/

/-! ### The busy cell -/

/-- Occupancy of a mailslot: 0 when idle, else the length of the staged message. -/
structure BusyCell where
  len : UInt64
  deriving DecidableEq, Repr

namespace BusyCell

/-- A cell with nothing staged. -/
def idle : BusyCell := ⟨0⟩

/-- The staged length, `none` when idle. -/
def occupied (c : BusyCell) : Option UInt64 := if c.len = 0 then none else some c.len

/-- Nothing is staged. -/
def IsIdle (c : BusyCell) : Prop := c.len = 0

instance (c : BusyCell) : Decidable c.IsIdle := inferInstanceAs (Decidable (c.len = 0))

/-- Announce a staged message of this length. -/
def publish (_ : BusyCell) (len : UInt64) : BusyCell := ⟨len⟩

/-- Clear the cell if it holds the expected length, else give the length it holds. -/
def compareAndClear (c : BusyCell) (expected : UInt64) : Except UInt64 BusyCell :=
  if c.len = expected then .ok idle else .error c.len

end BusyCell

/-! ### Names -/

namespace Name

/-- Bytes of a name field, the final NUL included. -/
def width : Nat := 32

/-- The field that stores a name: as many of its bytes as leave room for a NUL, filled up
    with NULs. -/
def toField (name : String) : List UInt8 :=
  let kept := (Utf8.encode name).take (width - 1)
  kept ++ List.replicate (width - kept.length) 0

/-- The name in a field: the text before the first NUL. -/
def ofField (field : List UInt8) : String := Utf8.decodeLossy (field.takeWhile (· ≠ 0))

/-- A name always fills its field. -/
theorem length_toField (name : String) : (toField name).length = width := by
  have : ((Utf8.encode name).take (width - 1)).length ≤ width := by
    rw [List.length_take, width]
    omega
  simp only [toField, List.length_append, List.length_replicate]
  omega

end Name

/-! ### Slots -/

/-- Where a mailslot lies: its first byte, and the bytes of its payload area. -/
structure Slot where
  base : Nat
  capacity : Nat
  deriving DecidableEq, Repr

/-- The slot of a peer, `none` if it has none. -/
def Layout.slot? (l : Layout) (peer : UInt64) : Option Slot :=
  (l.offset? peer).map fun base => ⟨base, l.maxPayload⟩

/-- The slot of a peer, or the error that it has none. -/
def Layout.slot (l : Layout) (peer : UInt64) : Except MessageError Slot :=
  match l.slot? peer with
  | some slot => .ok slot
  | none => .error (Layout.outOfRange peer)

namespace Slot

variable (s : Slot)

/-! ### Reading a slot -/

/-- The node name field. -/
def nodenameField (m : Memory) : List UInt8 := m.bytes s.base Name.width

/-- The class field. -/
def classField (m : Memory) : List UInt8 := m.bytes (s.base + 32) Name.width

/-- Node name of the owner. -/
def nodename (m : Memory) : String := Name.ofField (s.nodenameField m)

/-- Class of the owner. -/
def className (m : Memory) : String := Name.ofField (s.classField m)

/-- Occupancy. -/
def busy (m : Memory) : BusyCell := ⟨m.word (s.base + 64)⟩

/-- Peer id stamped into the slot. -/
def peerId (m : Memory) : UInt64 := m.word (s.base + 72)

/-- Destination of the last send. -/
def lastResponder (m : Memory) : UInt64 := m.word (s.base + 80)

/-- Subnet id stamped for the owner. -/
def peerSid (m : Memory) : UInt64 := m.word (s.base + 88)

/-- Component id stamped for the owner. -/
def peerCid (m : Memory) : UInt64 := m.word (s.base + 96)

/-- The first `len` bytes of the payload area, or all of it if it is shorter. -/
def payload (m : Memory) (len : Nat) : List UInt8 := m.bytes (s.base + 128) (min len s.capacity)

/-- A buffer after the payload was copied over its start, as far as both reach. -/
def copyOver (m : Memory) (buffer : List UInt8) : List UInt8 :=
  s.payload m buffer.length ++ buffer.drop s.capacity

/-! ### Writing a slot -/

/-- Set the node name. -/
def setNodename (name : String) (m : Memory) : Memory := m.store s.base (Name.toField name)

/-- Set the class. -/
def setClassName (name : String) (m : Memory) : Memory := m.store (s.base + 32) (Name.toField name)

/-- Set the occupancy. -/
def setBusy (cell : BusyCell) (m : Memory) : Memory := m.storeWord (s.base + 64) cell.len

/-- Set the stamped peer id. -/
def setPeerId (id : UInt64) (m : Memory) : Memory := m.storeWord (s.base + 72) id

/-- Set the destination of the last send. -/
def setLastResponder (id : UInt64) (m : Memory) : Memory := m.storeWord (s.base + 80) id

/-- Set the stamped subnet id. -/
def setPeerSid (id : UInt64) (m : Memory) : Memory := m.storeWord (s.base + 88) id

/-- Set the stamped component id. -/
def setPeerCid (id : UInt64) (m : Memory) : Memory := m.storeWord (s.base + 96) id

/-- Announce a staged message. -/
def publish (len : UInt64) (m : Memory) : Memory := s.setBusy ((s.busy m).publish len) m

/-- Mark the staged message consumed, if its length is still the one that was seen. -/
def clear (seen : UInt64) (m : Memory) : Memory :=
  match (s.busy m).compareAndClear seen with
  | .ok cell => s.setBusy cell m
  | .error _ => m

/-- Put a message and a final NUL into the payload area. -/
def stage (message : List UInt8) (m : Memory) : Memory := m.store (s.base + 128) (message ++ [0])

/-- Zero every field but the peer id, which is set, and zero the payload. The unused bytes of the
    header stay. -/
def wipe (peer : PeerId) (m : Memory) : Memory :=
  ((m.clear s.base 104).storeWord (s.base + 72) peer.toUInt64).clear (s.base + 128) s.capacity

end Slot

end SharedMailbox
