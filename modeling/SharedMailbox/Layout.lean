import SharedMailbox.Error
import SharedMailbox.Memory

namespace SharedMailbox

/-!
# Region layout

A region is divided into slots of one stride, one for each peer id. Slot 0 belongs to no peer: it
starts with the five parameters of the layout. The clients have the ids from 1 on, the
coordinator has an id above them.

* `Layout.validate`: whether the parameters divide a region.
* `Layout.HasSlot`, `Layout.offset?`: which peer ids own a slot, and where it starts.
* `Layout.peerIds`, `Layout.size?`: the ids that own one, and the bytes all slots take.
* `Layout.words`, `Layout.load`, `Layout.save`: the parameters as they stand in slot 0.

The parameters are 64-bit words; what is computed from them is computed in `Nat` and refused
when it does not fit a word.
-/

/-- The parameters of a region. -/
structure Layout where
  stride : UInt64
  headerSize : UInt64
  nClients : UInt64
  nEvents : UInt64
  coordinator : UInt64
  deriving DecidableEq, Repr

namespace Layout

/-- Bytes of a slot before its payload. -/
def slotHeaderSize : UInt64 := 128

/-- Bytes that the parameters take at the start of slot 0. -/
def globalsSize : Nat := 40

/-- Stride of a mailbox made without one. -/
def defaultStride : UInt64 := 512

/-- Clients of a mailbox made without a number. -/
def defaultClients : UInt64 := 4

/-- The usual layout: the coordinator right after the last client, one event per slot. -/
def conventional (stride nClients : UInt64) : Layout where
  stride := stride
  headerSize := slotHeaderSize
  nClients := nClients
  nEvents := nClients + 2
  coordinator := nClients + 1

instance : Inhabited Layout := ⟨conventional defaultStride defaultClients⟩

/-! ### Slots -/

/-- The highest peer id. -/
def maxPeer (l : Layout) : UInt64 :=
  if l.coordinator ≤ l.nClients then l.nClients else l.coordinator

/-- A peer id owns a slot: it is one of a client, or the coordinator. -/
def HasSlot (l : Layout) (peer : UInt64) : Prop :=
  (1 ≤ peer ∧ peer ≤ l.nClients) ∨ peer = l.coordinator

instance (l : Layout) (peer : UInt64) : Decidable (l.HasSlot peer) :=
  inferInstanceAs (Decidable (_ ∨ _))

/-- Bytes of a payload area. A message stays strictly below, to leave room for its final NUL. -/
def maxPayload (l : Layout) : Nat := l.stride.toNat - l.headerSize.toNat

/-- Where the slot of a peer starts, `none` if it has none or if the offset needs more than
    64 bits. -/
def offset? (l : Layout) (peer : UInt64) : Option Nat :=
  if l.HasSlot peer ∧ peer.toNat * l.stride.toNat < UInt64.size then
    some (peer.toNat * l.stride.toNat)
  else none

/-- The error for a peer id without a slot. It shows the id as a signed word. -/
def outOfRange (peer : UInt64) : MessageError := .addressOutOfRange peer.toInt64.toInt

/-- The peer ids that own a slot, ascending. -/
def peerIds (l : Layout) : List PeerId :=
  (((List.range l.maxPeer.toNat).map fun i => UInt64.ofNat (i + 1)).filter
    fun peer => decide (l.HasSlot peer)).map UInt64.toUInt16

/-- Bytes from slot 0 through the highest slot, `none` if that needs more than 64 bits. -/
def size? (l : Layout) : Option Nat :=
  let slots := l.maxPeer.toNat + 1
  if slots < UInt64.size ∧ slots * l.stride.toNat < UInt64.size then some (slots * l.stride.toNat)
  else none

/-- Bytes of the region, the largest 64-bit number if there is no such size. -/
def size (l : Layout) : Nat := l.size?.getD (UInt64.size - 1)

/-! ### Validation -/

/-- The first reason why the parameters do not divide a region. -/
def validate (l : Layout) : Except LayoutError Unit :=
  if l.headerSize ≠ slotHeaderSize then .error (.headerSizeMismatch slotHeaderSize l.headerSize)
  -- a payload area needs room for a byte and a NUL
  else if l.stride.toNat ≤ l.headerSize.toNat + 1 then
    .error (.strideTooSmall l.stride l.headerSize)
  else if l.nClients = 0 then .error .noClients
  else if l.coordinator ≤ l.nClients then
    .error (.coordinatorInClientRange l.coordinator l.nClients)
  -- a ring has 16 bits for an id
  else if 65535 < l.maxPeer then .error .peerIdsTooWide
  -- vectors are counted by id, from 0 on
  else if l.nEvents ≤ l.maxPeer then .error (.tooFewEvents l.nEvents l.maxPeer)
  else if l.size? = none then .error .regionOverflow
  else .ok ()

/-- The parameters divide a region. -/
def Valid (l : Layout) : Prop := l.validate = .ok ()

/-! ### Parameters in memory -/

/-- The parameters in the order in which slot 0 holds them. -/
def words (l : Layout) : List UInt64 :=
  [l.stride, l.headerSize, l.nClients, l.nEvents, l.coordinator]

/-- The layout with these parameters, if there are five of them. -/
def ofWords? : List UInt64 → Option Layout
  | [stride, headerSize, nClients, nEvents, coordinator] =>
    some ⟨stride, headerSize, nClients, nEvents, coordinator⟩
  | _ => none

/-- The five parameters are read back from their words. -/
@[simp] theorem ofWords?_words (l : Layout) : ofWords? l.words = some l := rfl

/-- The parameters at the start of a memory. -/
def load (m : Memory) : Layout where
  stride := m.word 0
  headerSize := m.word 8
  nClients := m.word 16
  nEvents := m.word 24
  coordinator := m.word 32

/-- A memory with the parameters at its start. -/
def save (l : Layout) (m : Memory) : Memory := m.store 0 (l.words.flatMap Word.encode)

end Layout

end SharedMailbox
