import SharedMailbox.Slot

namespace SharedMailbox

/-!
# Mailboxes

A mailbox is a region of memory divided by a layout. Making one writes the layout into slot 0 and
stamps every slot with the id of its peer; opening one reads the layout back and checks that the
region is large enough for it.

* `Storage`: where the bytes of a region are to be had, and which of them the host refuses.
* `Mailbox.create`: a new mailbox, on the heap or in a file.
* `Image`, `Mailbox.ofImage`, `Mailbox.openFile`: the bytes of a file, and the mailbox in them.
-/

/-! ### Storage -/

/-- What holds the bytes of a region. -/
inductive Backing where
  | heap
  | file
  deriving DecidableEq, Repr

/-- A heap region starts at a multiple of this many bytes. -/
def heapAlignment : Nat := 64

/-- The bytes of a heap region for `len` bytes: at least one. Sizes that do not fit a signed word
    once they are rounded up to the alignment are refused, and so are sizes for which the allocator
    has no block. -/
def heapSize (allocates : Nat → Bool) (len : Nat) : Except SetupError Nat :=
  let size := max len 1
  let rounded := (size + (heapAlignment - 1)) / heapAlignment * heapAlignment
  if 1 <<< 63 ≤ rounded then .error (.storage "invalid parameters to Layout::from_size_align")
  else if allocates size then .ok size
  else .error (.storage "cannot allocate mailbox region")

/-- An empty file cannot be mapped. -/
def emptyFile : SetupError := .storage "cannot map an empty mailbox file"

/-- What a host has against a file at some path. -/
structure FileRefusal where
  /-- Why the file cannot be opened for writing. -/
  opening : Option String := none
  /-- Why the file cannot get a size, or not be mapped with it. -/
  sizing : Nat → Option String := fun _ => none

/-- The bytes of a file region for `len` bytes. The file is opened before it gets its size, which
    has to fit a signed word, and an empty file is not mapped. -/
def fileSize (refusal : FileRefusal) (len : Nat) : Except SetupError Nat :=
  match refusal.opening with
  | some reason => .error (.storage reason)
  | none =>
    if 1 <<< 63 ≤ len then .error (.storage "out of range integral type conversion attempted")
    else
      match refusal.sizing len with
      | some reason => .error (.storage reason)
      | none =>
        if len = 0 then .error emptyFile else .ok len

/-- Where the bytes of a new region are to be had, and which of them the host refuses. -/
inductive Storage where
  /-- The heap, and the sizes for which its allocator has a block. -/
  | heap (allocates : Nat → Bool)
  | file (refusal : FileRefusal)

namespace Storage

/-- What holds the bytes in the end. -/
def backing : Storage → Backing
  | .heap _ => .heap
  | .file _ => .file

/-- The bytes of a region for `len` bytes. -/
def size : Storage → Nat → Except SetupError Nat
  | .heap allocates => heapSize allocates
  | .file refusal => fileSize refusal

end Storage

/-- The bytes of a file. Those from `size` on are zero. -/
structure Image where
  memory : Memory
  size : Nat

/-- A file that holds these bytes, cut or filled up with zeros to a size. -/
def Image.ofPrefix (bytes : List UInt8) (size : Nat) : Image :=
  ⟨Memory.zero.store 0 (bytes.take size), size⟩

/-- A file that holds exactly these bytes. -/
def Image.ofBytes (bytes : List UInt8) : Image := Image.ofPrefix bytes bytes.length

/-! ### Mailboxes -/

/-- A region and the layout that divides it. -/
structure Mailbox where
  layout : Layout
  memory : Memory
  size : Nat
  backing : Backing

namespace Mailbox

/-- The slot of a peer, or the error that it has none. -/
def slot (b : Mailbox) (peer : UInt64) : Except MessageError Slot := b.layout.slot peer

/-- Stamp the slot of a peer with its id. -/
def stampPeer (l : Layout) (m : Memory) (peer : PeerId) : Memory :=
  match l.slot? peer.toUInt64 with
  | some slot => slot.setPeerId peer.toUInt64 m
  | none => m

/-- The memory of a new mailbox. It was all zero before, so that a stamp is all that a slot
    needs to be an empty one. -/
def format (l : Layout) : Memory := l.peerIds.foldl (stampPeer l) (l.save Memory.zero)

/-- A new mailbox. -/
def create (storage : Storage) (l : Layout) : Except SetupError Mailbox :=
  match l.validate with
  | .error fault => .error (.layout fault)
  | .ok () =>
    match storage.size l.size with
    | .error fault => .error fault
    | .ok size => .ok ⟨l, format l, size, storage.backing⟩

/-- The mailbox in the bytes of a file. -/
def ofImage (image : Image) : Except SetupError Mailbox :=
  if image.size = 0 then .error emptyFile
  else if image.size < Layout.globalsSize then
    .error (.layout (.regionTooSmall Layout.globalsSize image.size))
  else
    -- what the file says of itself is checked like the parameters of a new mailbox
    let l := Layout.load image.memory
    match l.validate with
    | .error fault => .error (.layout fault)
    | .ok () =>
      if image.size < l.size then .error (.layout (.regionTooSmall l.size image.size))
      else .ok ⟨l, image.memory, image.size, .file⟩

/-- The mailbox in a file, which may be missing. -/
def openFile : Option Image → Except SetupError Mailbox
  | none => .error (.storage "No such file or directory (os error 2)")
  | some image => ofImage image

/-- The bytes of a mailbox as those of a file. -/
def image (b : Mailbox) : Image := ⟨b.memory, b.size⟩

/-- The five layout parameters as slot 0 holds them now. -/
def globals (b : Mailbox) : List UInt64 := (Layout.load b.memory).words

end Mailbox

end SharedMailbox
