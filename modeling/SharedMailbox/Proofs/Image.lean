import SharedMailbox.Proofs.Partition
import SharedMailbox.Proofs.Standing

namespace SharedMailbox

/-!
# Files that hold a mailbox

A file is opened if and only if it starts with the parameters of a valid layout and is long enough
for it. What a mailbox writes is such a file, and stays one whatever endpoints do with it.

* `Layout.load_eq_iff`: the parameters of a memory are those whose bytes it starts with.
* `Mailbox.Opens`: what comes of opening a file with given bytes, check by check.
* `Mailbox.openFile_eq_iff`: opening does this and nothing else.
* `Image.Holds`: an image is opened to a layout, and so are its bytes.
* `FileRefusal.Allows`: what it takes for a new file.
* `Mailbox.Written`, `Mailbox.written`: what a new mailbox in a file looks like, and that the file
  holds its layout in all that endpoints do.
* `Mailbox.openFile_images`: all of it together.
-/

/-! ### Words in a row -/

namespace Memory

variable (m : Memory)

/-- Bytes are read on from where others end. -/
theorem bytes_add (a n k : Nat) : m.bytes a (n + k) = m.bytes a n ++ m.bytes (a + n) k := by
  simp [bytes, List.range_add, Nat.add_assoc]

/-- The first of some bytes are those that are read alone. -/
theorem take_bytes (a : Nat) {n k : Nat} (h : k ≤ n) : (m.bytes a n).take k = m.bytes a k := by
  obtain ⟨rest, rfl⟩ := Nat.exists_eq_add_of_le h
  rw [bytes_add, List.take_left' (by simp)]

/-- The bytes of a word are those that it is read from. -/
theorem encode_word (a : Nat) : Word.encode (m.word a) = m.bytes a 8 :=
  Word.encode_decode _ (length_bytes m a 8)

end Memory

/-- Words that have the same bytes in a row are the same. -/
theorem Word.flatMap_encode_injective {ws vs : List UInt64}
    (h : ws.flatMap encode = vs.flatMap encode) : ws = vs := by
  induction ws generalizing vs with
  | nil =>
    cases vs with
    | nil => rfl
    | cons v vs =>
      have := congrArg List.length h
      simp at this
      omega
  | cons w ws ih =>
    cases vs with
    | nil =>
      have := congrArg List.length h
      simp at this
    | cons v vs =>
      -- each word takes the same number of bytes, so that the bytes split word by word
      rw [List.flatMap_cons, List.flatMap_cons] at h
      obtain ⟨head, tail⟩ := List.append_inj h (by simp)
      have same := congrArg decode head
      rw [decode_encode, decode_encode] at same
      rw [same, ih tail]

namespace Layout

variable {l : Layout} {m : Memory}

/-- The bytes of the parameters, as slot 0 starts with them. -/
def globals (l : Layout) : List UInt8 := l.words.flatMap Word.encode

/-- The globals fill their part of slot 0. -/
theorem length_globals (l : Layout) : l.globals.length = globalsSize := by
  simp [globals, words, globalsSize]

/-- Layouts with the same globals are equal. -/
theorem globals_injective {l' : Layout} (h : l.globals = l'.globals) : l = l' := by
  have words := congrArg ofWords? (Word.flatMap_encode_injective h)
  rw [ofWords?_words, ofWords?_words] at words
  exact Option.some.inj words

/-- The globals of the layout in memory are the bytes that it was read from. -/
theorem globals_load (m : Memory) : (load m).globals = m.bytes 0 globalsSize := by
  rw [show globalsSize = 8 + (8 + (8 + (8 + 8))) from rfl, Memory.bytes_add, Memory.bytes_add,
    Memory.bytes_add, Memory.bytes_add]
  simp [globals, words, load, Memory.encode_word]

/-- The parameters of a memory are those whose bytes it starts with. -/
theorem load_eq_iff : load m = l ↔ m.bytes 0 globalsSize = l.globals := by
  rw [← globals_load]
  exact ⟨congrArg globals, globals_injective⟩

/-- A layout is read back from where it was written. -/
theorem load_save (l : Layout) (m : Memory) : load (l.save m) = l := by
  rw [load_eq_iff, ← length_globals l]
  exact Memory.bytes_store_self m 0 l.globals

/-- The region is longer than the parameters. -/
theorem globalsSize_le_size (valid : l.Valid) : globalsSize ≤ l.size := by
  have stride := valid.stride_eq
  rw [(size_eq valid).1, Nat.succ_mul, globalsSize]
  omega

end Layout

/-! ### Opening a file -/

/-- The bytes of a file stand at the start of its memory. -/
theorem Image.bytes_ofBytes (bytes : List UInt8) {n : Nat} (h : n ≤ bytes.length) :
    (Image.ofBytes bytes).memory.bytes 0 n = bytes.take n := by
  have whole : (Image.ofBytes bytes).memory.bytes 0 bytes.length = bytes := by
    simp only [Image.ofBytes, Image.ofPrefix, List.take_length]
    exact Memory.bytes_store_self Memory.zero 0 bytes
  rw [← Memory.take_bytes _ 0 h, whole]

namespace Mailbox

open Layout (globalsSize)

/-- What comes of opening a file with these bytes. It is too short for the parameters; or they are
    those of a layout that is not valid; or it is too short for its slots; or it is opened. -/
inductive Opens (bytes : List UInt8) : Except SetupError Mailbox → Prop
  | short (few : bytes.length < globalsSize) :
      Opens bytes (.error (.layout (.regionTooSmall globalsSize bytes.length)))
  | invalid {l : Layout} {fault : LayoutError} (starts : bytes.take globalsSize = l.globals)
      (refused : l.validate = .error fault) : Opens bytes (.error (.layout fault))
  | small {l : Layout} (starts : bytes.take globalsSize = l.globals) (valid : l.Valid)
      (few : bytes.length < l.size) :
      Opens bytes (.error (.layout (.regionTooSmall l.size bytes.length)))
  | opened {l : Layout} (starts : bytes.take globalsSize = l.globals) (valid : l.Valid)
      (enough : l.size ≤ bytes.length) :
      Opens bytes (.ok ⟨l, (Image.ofBytes bytes).memory, bytes.length, .file⟩)

variable {bytes : List UInt8} {l : Layout} {b : Mailbox}

/-- A file that starts with parameters is long enough for them, and they are read. -/
theorem load_of_starts (starts : bytes.take globalsSize = l.globals) :
    globalsSize ≤ bytes.length ∧ Layout.load (Image.ofBytes bytes).memory = l := by
  have length := congrArg List.length starts
  rw [Layout.length_globals, List.length_take] at length
  have enough : globalsSize ≤ bytes.length := by omega
  exact ⟨enough, Layout.load_eq_iff.mpr ((Image.bytes_ofBytes bytes enough).trans starts)⟩

/-- Opening a file that is long enough for parameters, which are those of no valid layout. -/
theorem ofImage_of_invalid {image : Image} {fault : LayoutError}
    (enough : globalsSize ≤ image.size) (load : Layout.load image.memory = l)
    (refused : l.validate = .error fault) : ofImage image = .error (.layout fault) := by
  have some : image.size ≠ 0 := fun none => absurd (none ▸ enough) (by decide)
  rw [ofImage, if_neg some, if_neg (Nat.not_lt.mpr enough)]
  simp only [load, refused]

/-- Opening a file that is long enough for the parameters of a valid layout. -/
theorem ofImage_of_valid {image : Image} (enough : globalsSize ≤ image.size)
    (load : Layout.load image.memory = l) (valid : l.Valid) : ofImage image =
      if image.size < l.size then .error (.layout (.regionTooSmall l.size image.size))
      else .ok ⟨l, image.memory, image.size, .file⟩ := by
  have some : image.size ≠ 0 := fun none => absurd (none ▸ enough) (by decide)
  have checked : l.validate = .ok () := valid
  rw [ofImage, if_neg some, if_neg (Nat.not_lt.mpr enough)]
  simp only [load, checked]

/-- The file is opened in the way that its bytes say. -/
theorem openFile_of_opens (some : bytes ≠ []) {result : Except SetupError Mailbox}
    (opens : Opens bytes result) : openFile (.some (Image.ofBytes bytes)) = result := by
  change ofImage (Image.ofBytes bytes) = result
  have size : (Image.ofBytes bytes).size = bytes.length := rfl
  -- one case for each way in which a file is opened, in the order of the checks
  cases opens with
  | short few =>
    have some' : bytes.length ≠ 0 := fun none => some (List.length_eq_zero_iff.mp none)
    rw [ofImage, size, if_neg some', if_pos few]
  | invalid starts refused =>
    obtain ⟨long, load⟩ := load_of_starts starts
    exact ofImage_of_invalid long load refused
  | small starts valid few =>
    obtain ⟨long, load⟩ := load_of_starts starts
    rw [ofImage_of_valid long load valid, size, if_pos few]
  | opened starts valid enough =>
    obtain ⟨long, load⟩ := load_of_starts starts
    rw [ofImage_of_valid long load valid, size, if_neg (Nat.not_lt.mpr enough)]

/-- Every file has bytes of one of these kinds. -/
theorem exists_opens (bytes : List UInt8) : ∃ result, Opens bytes result := by
  by_cases few : bytes.length < globalsSize
  · exact ⟨_, .short few⟩
  · have starts : bytes.take globalsSize =
        (Layout.load (Image.ofBytes bytes).memory).globals := by
      rw [Layout.globals_load, Image.bytes_ofBytes bytes (Nat.not_lt.mp few)]
    rcases checked : (Layout.load (Image.ofBytes bytes).memory).validate with fault | ⟨⟩
    · exact ⟨_, .invalid starts checked⟩
    · by_cases room : bytes.length < (Layout.load (Image.ofBytes bytes).memory).size
      · exact ⟨_, .small starts checked room⟩
      · exact ⟨_, .opened starts checked (Nat.not_lt.mp room)⟩

/-- What comes of opening a file is what its bytes say. -/
theorem openFile_eq_iff (some : bytes ≠ []) {result : Except SetupError Mailbox} :
    openFile (.some (Image.ofBytes bytes)) = result ↔ Opens bytes result := by
  refine ⟨fun same => ?_, openFile_of_opens some⟩
  obtain ⟨other, opens⟩ := exists_opens bytes
  rwa [← same, openFile_of_opens some opens]

/-- A file is opened to a layout if and only if it starts with the parameters of that layout, which
    is valid, and is long enough for it. -/
theorem layout_openFile_iff (some : bytes ≠ []) :
    (openFile (.some (Image.ofBytes bytes))).map layout = .ok l ↔
      l.Valid ∧ bytes.take globalsSize = l.globals ∧ l.size ≤ bytes.length := by
  constructor
  · intro same
    rcases outcome : openFile (.some (Image.ofBytes bytes)) with fault | b
    · rw [outcome] at same
      cases same
    · rw [outcome] at same
      cases (openFile_eq_iff some).mp outcome with
      | opened starts valid enough =>
        cases same
        exact ⟨valid, starts, enough⟩
  · rintro ⟨valid, starts, enough⟩
    rw [openFile_of_opens some (.opened starts valid enough)]
    rfl

end Mailbox

/-! ### Images -/

namespace Image

open Layout (globalsSize)

variable {image : Image} {l : Layout}

/-- The bytes of an image. -/
def bytes (image : Image) : List UInt8 := image.memory.bytes 0 image.size

/-- A file has as many bytes as its size says. -/
theorem length_bytes (image : Image) : image.bytes.length = image.size :=
  Memory.length_bytes _ _ _

/-- An image that is zero behind its end is that of its bytes. -/
theorem ofBytes_bytes (zero : ∀ c, image.size ≤ c → image.memory.byte c = 0) :
    ofBytes image.bytes = image := by
  have memory : (ofBytes image.bytes).memory = image.memory := by
    ext c
    simp only [ofBytes, ofPrefix, List.take_length, Memory.byte_store, Nat.zero_le, if_true,
      Nat.sub_zero, Memory.byte_zero]
    -- what lies behind the size is zero in both
    by_cases within : c < image.size
    · simp [bytes, within]
    · rw [List.getElem?_eq_none (by rw [length_bytes]; omega), zero c (by omega)]
      rfl
  have size : (ofBytes image.bytes).size = image.size := length_bytes image
  calc ofBytes image.bytes
      = ⟨(ofBytes image.bytes).memory, (ofBytes image.bytes).size⟩ := rfl
    _ = image := by rw [memory, size]

/-- An image is opened to a layout, and so is a file with its bytes. -/
structure Holds (image : Image) (l : Layout) : Prop where
  opened : (Mailbox.openFile (some image)).map Mailbox.layout = .ok l
  copied : (Mailbox.openFile (some (ofBytes image.bytes))).map Mailbox.layout = .ok l

/-- An image with the parameters of a valid layout that is long enough for it. -/
theorem holds_of_load (valid : l.Valid) (load : Layout.load image.memory = l)
    (enough : l.size ≤ image.size) : image.Holds l where
  opened := by
    have long := Nat.le_trans (Layout.globalsSize_le_size valid) enough
    rw [Mailbox.openFile, Mailbox.ofImage_of_valid long load valid,
      if_neg (Nat.not_lt.mpr enough)]
    rfl
  copied := by
    have long := Nat.le_trans (Layout.globalsSize_le_size valid) enough
    -- a region is never empty, for it has its globals
    have some : image.bytes ≠ [] := fun none => by
      rw [← length_bytes, none] at long
      exact absurd long (by decide)
    have starts : image.bytes.take globalsSize = l.globals := by
      rw [bytes, Memory.take_bytes _ _ long, Layout.load_eq_iff.mp load]
    exact (Mailbox.layout_openFile_iff some).mpr
      ⟨valid, starts, (length_bytes image).symm ▸ enough⟩

end Image

/-! ### New files -/

namespace FileRefusal

variable {refusal : FileRefusal} {len : Nat}

/-- The host has nothing against a file of `len` bytes, which fits a signed word. -/
structure Allows (refusal : FileRefusal) (len : Nat) : Prop where
  opened : refusal.opening = none
  word : len < 1 <<< 63
  sized : refusal.sizing len = none

/-- A file that is not empty gets its size if and only if the host allows it. -/
theorem fileSize_of_ne_zero (refusal : FileRefusal) (some : len ≠ 0) :
    (refusal.Allows len → fileSize refusal len = .ok len) ∧
      (¬ refusal.Allows len → ∃ reason, fileSize refusal len = .error (.storage reason)) := by
  constructor
  · rintro ⟨opened, word, sized⟩
    simp only [fileSize, opened, if_neg (Nat.not_le.mpr word), sized, if_neg some]
  · intro forbids
    unfold fileSize
    -- the reasons in the order in which they are found
    rcases opened : refusal.opening with _ | reason
    · by_cases wide : 1 <<< 63 ≤ len
      · exact ⟨_, if_pos wide⟩
      · rcases sized : refusal.sizing len with _ | reason
        · exact absurd ⟨opened, Nat.lt_of_not_le wide, sized⟩ forbids
        · exact ⟨reason, if_neg wide⟩
    · exact ⟨reason, rfl⟩

end FileRefusal

/-! ### New mailboxes -/

namespace Mailbox

open Layout (globalsSize)

variable {l : Layout} {b : Mailbox} {p q : PeerId}

/-- Stamping a slot changes its peer id only. -/
theorem sameOutside_stampPeer (valid : l.Valid) (owner : l.HasSlot q.toUInt64) (m : Memory) :
    Memory.SameOutside ((l.slotAt q).base + 72) ((l.slotAt q).base + 80) m (stampPeer l m q) := by
  rw [stampPeer, Layout.slot?_of_hasSlot valid owner]
  exact Memory.sameOutside_storeWord _ _ _

/-- Stamping the own slot, or another one. -/
theorem peerId_stampPeer (valid : l.Valid) (owner : l.HasSlot q.toUInt64) (p : PeerId)
    (m : Memory) : (l.slotAt p).peerId (stampPeer l m q) =
      if p = q then p.toUInt64 else (l.slotAt p).peerId m := by
  split
  next same =>
    subst same
    rw [stampPeer, Layout.slot?_of_hasSlot valid owner]
    exact Memory.word_storeWord_self _ _ _
  next other =>
    have apart := Layout.slotAt_apart valid other
    simp only [Slot.limit] at apart
    exact (sameOutside_stampPeer valid owner m).word_eq (by omega)

/-- In a new mailbox every slot has the id of its peer. -/
theorem peerId_format (valid : l.Valid) (listed : p ∈ l.peerIds) :
    (l.slotAt p).peerId (format l) = p.toUInt64 := by
  obtain ⟨before, after, split⟩ := List.append_of_mem listed
  have owner : ∀ q ∈ p :: after, l.HasSlot q.toUInt64 := fun q hq =>
    (Layout.mem_peerIds valid).mp (split ▸ List.mem_append_right _ hq)
  rw [format, split, List.foldl_append, List.foldl_cons]
  -- the stamp is set for the peer, and stays while the peers behind it are stamped
  refine List.foldlRecOn after (stampPeer l)
    (motive := fun m => (l.slotAt p).peerId m = p.toUInt64) ?_ ?_
  · rw [peerId_stampPeer valid (owner p (by simp)), if_pos rfl]
  · intro m stamped q hq
    rw [peerId_stampPeer valid (owner q (by simp [hq])), stamped, ite_self]

/-- A new mailbox has the parameters. -/
theorem load_format (valid : l.Valid) : Layout.load (format l) = l := by
  refine List.foldlRecOn l.peerIds (stampPeer l) (motive := fun m => Layout.load m = l)
    (l.load_save _) fun m load q hq => ?_
  have owner := (Layout.mem_peerIds valid).mp hq
  exact ((sameOutside_stampPeer valid owner m).load_eq valid owner (by omega)).trans load

/-- A new mailbox is zero behind its end. -/
theorem byte_format (valid : l.Valid) {c : Nat} (behind : l.size ≤ c) :
    (format l).byte c = 0 := by
  refine List.foldlRecOn l.peerIds (stampPeer l) (motive := fun m => m.byte c = 0) ?_ ?_
  · have room := Layout.globalsSize_le_size valid
    rw [Layout.save, Memory.byte_store_of_le, Memory.byte_zero]
    have length : (l.words.flatMap Word.encode).length = globalsSize := l.length_globals
    omega
  · intro m zero q hq
    have owner := (Layout.mem_peerIds valid).mp hq
    have ends := Layout.limit_le_size valid owner
    simp only [Slot.limit] at ends
    exact (sameOutside_stampPeer valid owner m c (by omega)).trans zero

/-- A new mailbox with a layout, written to a file. -/
structure Written (l : Layout) (b : Mailbox) : Prop where
  layout : b.layout = l
  /-- Who opens a file with its bytes has this mailbox. -/
  opened : openFile (some (Image.ofBytes b.image.bytes)) = .ok b
  /-- Every peer has a slot, which is idle and has its id. -/
  slots : ∀ p ∈ l.peerIds, ∃ s, b.slot p.toUInt64 = .ok s ∧
    (s.busy b.memory).IsIdle ∧ s.peerId b.memory = p.toUInt64
  /-- Whatever is done with endpoints, the file holds the layout. -/
  kept : ∀ ring, ring = .queue ∨ ring = .nested → ∀ actions,
    ((Network.ofMailbox b).run ring actions).image.Holds l

/-- The network of a new mailbox. -/
theorem seated_ofMailbox (valid : l.Valid) (layout : b.layout = l) :
    (Network.ofMailbox b).Seated l where
  layout := layout
  valid := valid
  seats p e he := by simp [Network.ofMailbox, Network.endpoint?] at he

/-- For a valid layout there is a mailbox in a file if and only if the host allows such a file. -/
theorem create_file (valid : l.Valid) (refusal : FileRefusal) :
    (refusal.Allows l.size → create (.file refusal) l = .ok ⟨l, format l, l.size, .file⟩) ∧
      (¬ refusal.Allows l.size →
        ∃ reason, create (.file refusal) l = .error (.storage reason)) := by
  have checked : l.validate = .ok () := valid
  have some : l.size ≠ 0 := by
    have long := Layout.globalsSize_le_size valid
    rw [globalsSize] at long
    omega
  obtain ⟨allowed, refused⟩ := refusal.fileSize_of_ne_zero some
  refine ⟨fun allows => ?_, fun forbids => ?_⟩
  · simp only [create, checked, Storage.size, allowed allows, Storage.backing]
  · obtain ⟨reason, failed⟩ := refused forbids
    exact ⟨reason, by simp only [create, checked, Storage.size, failed]⟩

/-- A new mailbox in a file is written out as it should be. -/
theorem written (valid : l.Valid) (made : b = ⟨l, format l, l.size, .file⟩) : Written l b where
  layout := by rw [made]
  opened := by
    -- a new region is zero behind its slots, as a file is that was extended
    have behind : ∀ c, b.image.size ≤ c → b.image.memory.byte c = 0 := by
      subst made
      exact fun c behind => byte_format valid behind
    have load : Layout.load b.image.memory = l := by rw [made]; exact load_format valid
    have size : b.image.size = l.size := by rw [made]; rfl
    have long : globalsSize ≤ b.image.size := size ▸ Layout.globalsSize_le_size valid
    rw [Image.ofBytes_bytes behind, openFile, ofImage_of_valid long load valid, size,
      if_neg (Nat.lt_irrefl _), made]
    rfl
  slots p listed := by
    have owner := (Layout.mem_peerIds valid).mp listed
    subst made
    refine ⟨l.slotAt p, ?_, word_format valid p, peerId_format valid listed⟩
    simp only [slot, Layout.slot, Layout.slot?_of_hasSlot valid owner]
  kept ring bell actions := by
    have keeps : ring.Keeps l := by
      rcases bell with rfl | rfl
      · exact Bell.keeps_queue l
      · exact Bell.keeps_nested l
    -- no run touches the globals, whichever doorbell it rings
    have seated := seated_ofMailbox valid (b := b) (by rw [made])
    obtain ⟨-, size, load⟩ := seated.run keeps actions
    subst made
    exact Image.holds_of_load valid (load.trans (load_format valid)) (Nat.le_of_eq size.symm)

/-! ### Files -/

/-- **Files.** A file with bytes is opened as they say: to a layout if and only if it is valid, its
    parameters are at the start and its region fits; otherwise there is the error of the first check
    that fails. For a valid layout a file is written, unless the host refuses it, and what is
    written is opened to that layout, now and after whatever is done with endpoints. -/
theorem openFile_images :
    (∀ bytes : List UInt8, bytes ≠ [] →
      (∀ result, openFile (some (Image.ofBytes bytes)) = result ↔ Opens bytes result) ∧
      ∀ l, (openFile (some (Image.ofBytes bytes))).map layout = .ok l ↔
        l.Valid ∧ bytes.take globalsSize = l.globals ∧ l.size ≤ bytes.length) ∧
    ∀ l : Layout, l.Valid → ∀ refusal : FileRefusal,
      (refusal.Allows l.size → ∃ b, create (.file refusal) l = .ok b ∧ Written l b) ∧
      (¬ refusal.Allows l.size →
        ∃ reason, create (.file refusal) l = .error (.storage reason)) := by
  refine ⟨fun bytes some => ⟨fun result => openFile_eq_iff some, fun l => ?_⟩,
    fun l valid refusal => ?_⟩
  · exact layout_openFile_iff some
  · exact (create_file valid refusal).imp_left fun made allows =>
      ⟨_, made allows, written valid rfl⟩

/-- Three bytes are too few for parameters, and the small layout has a file where nothing is against
    it. -/
theorem openFile_images_small :
    openFile (some (Image.ofBytes [1, 2, 3])) =
      .error (.layout (.regionTooSmall 40 3)) ∧
    ∃ b, create (.file {}) smallLayout = .ok b ∧ Written smallLayout b := by
  refine ⟨?_, ?_⟩
  · exact ((openFile_images.1 [1, 2, 3] (by decide)).1 _).mpr (.short (by decide))
  · exact (openFile_images.2 smallLayout rfl {}).1 ⟨rfl, by decide, rfl⟩

end Mailbox

end SharedMailbox
