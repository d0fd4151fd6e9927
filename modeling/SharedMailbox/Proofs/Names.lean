import Mathlib.Data.List.Induction
import SharedMailbox.Proofs.Region
import SharedMailbox.Proofs.Texts

namespace SharedMailbox

/-!
# Names kept in fields of a fixed width

A text is cut at a byte to fit its field, and read back as characters. A cut inside a character
leaves some of its bytes, which are read as one U+FFFD.

* `Utf8.decodeLossy_take`: a text that is cut at any byte is read as its longest prefix of whole
  characters that fits, and U+FFFD behind it if the cut is inside a character.
* `Name.recalls`: what is read back of a text stored in a field, NULs within the text included.
* `Slot.named_relabel`: the names of a slot after any sequence of writes to them.
-/

/-! ### Texts cut at a byte -/

namespace Utf8

variable {state : State} {front part rest : List UInt8} {b : UInt8} {c : Char}

/-- The bytes of a character that breaks off are one ill-formed part. -/
theorem Begun.piecesFrom_of_broken (begun : Begun state front) (seen : front ++ part ≠ [])
    (whole : piecesFrom state (part ++ b :: rest) = [some c]) :
    piecesFrom state part = [none] := by
  -- Induction on the bytes that are there, each of which leaves the character begun.
  induction part generalizing state front with
  | nil =>
    cases state with
    | start =>
      rw [begun.eq_nil] at seen
      exact absurd rfl seen
    | inside => rfl
  | cons a part ih =>
    rw [List.cons_append, piecesFrom_cons] at whole
    have pieces : none ∉ (Utf8.step state a).2 := by
      intro there
      have : none ∈ [some c] := whole ▸ List.mem_append_left _ there
      simp at this
    rw [piecesFrom_cons]
    rcases begun.step a pieces with ⟨begun, nothing⟩ | ⟨d, completes, -⟩
    · rw [nothing, List.nil_append] at whole ⊢
      apply ih begun _ whole
      simp
    · -- a character that is complete before the last byte would leave that byte to another
      rw [completes] at whole
      have none_left : piecesFrom .start (part ++ b :: rest) = ([] : List Char).map some := by
        simpa using (List.cons.inj whole).2
      have := Begun.append_eq .start none_left
      simp at this

/-- A text that is followed by other bytes is read whole, and the bytes from where they start. -/
theorem piecesFrom_encode_append (text : String) (bytes : List UInt8) :
    piecesFrom .start (encode text ++ bytes) =
      text.toList.map some ++ piecesFrom .start bytes := by
  unfold encode
  induction text.toList with
  | nil => rfl
  | cons c text ih =>
    rw [List.flatMap_cons, List.append_assoc, piecesFrom_encodeChar, ih, List.map_cons,
      List.cons_append]

/-- A text that is followed by other bytes is read as it is. -/
theorem decodeLossy_encode_append (text : String) (bytes : List UInt8) :
    decodeLossy (encode text ++ bytes) = text ++ decodeLossy bytes := by
  apply String.toList_inj.mp
  simp only [decodeLossy, pieces, piecesFrom_encode_append, String.toList_ofList,
    String.toList_append, List.map_append, List.map_map]
  simp [Function.comp_def]

/-- Some but not all of the bytes of a character are read as U+FFFD. -/
theorem decodeLossy_of_broken (broken : String.utf8EncodeChar c = part ++ b :: rest)
    (seen : part ≠ []) : decodeLossy part = "\uFFFD" := by
  have whole : piecesFrom .start (part ++ b :: rest) = [some c] := by
    rw [← broken, ← List.append_nil (String.utf8EncodeChar c), piecesFrom_encodeChar]
    rfl
  have pieces := Begun.start.piecesFrom_of_broken seen whole
  rw [decodeLossy, Utf8.pieces, pieces]
  rfl

/-! #### Continuation bytes -/

/-- A byte that goes on with a character, and starts none. -/
def IsTail (b : UInt8) : Prop := 0x80 ≤ b ∧ b ≤ 0xBF

instance (b : UInt8) : Decidable (IsTail b) := inferInstanceAs (Decidable (0x80 ≤ b ∧ b ≤ 0xBF))

/-- A byte outside the middle range goes on with no character. -/
theorem not_isTail_ofNat {n : Nat} (outside : n < 128 ∨ 192 ≤ n ∧ n < 256) :
    ¬ IsTail (UInt8.ofNat n) := by
  simp only [IsTail, UInt8.le_iff_toNat_le, UInt8.toNat_ofNat', UInt8.reduceToNat]
  omega

/-- A character is a byte that starts it and bytes that go on with it. -/
theorem exists_encodeChar_eq (c : Char) :
    ∃ b tails, String.utf8EncodeChar c = b :: tails ∧ ¬ IsTail b ∧ ∀ t ∈ tails, IsTail t := by
  have valid : c.val.toNat < 0xD800 ∨ 0xDFFF < c.val.toNat ∧ c.val.toNat < 0x110000 := c.valid
  have tail : ∀ n, IsTail (UInt8.ofNat (n % 64 + 128)) := tail_within
  rw [String.utf8EncodeChar]
  generalize c.val.toNat = v at *
  -- as many cases as a character may have bytes
  split_ifs
  all_goals
    refine ⟨_, _, rfl, not_isTail_ofNat (by omega), ?_⟩
    simp only [List.forall_mem_cons, List.not_mem_nil, tail, true_and, false_imp_iff, implies_true]

/-- The bytes of a character go on with it, all but the first. -/
theorem isTail_iff_of_encodeChar {i : Nat} (at_i : (String.utf8EncodeChar c)[i]? = some b) :
    IsTail b ↔ 0 < i := by
  obtain ⟨lead, tails, bytes, starts, go_on⟩ := exists_encodeChar_eq c
  rw [bytes] at at_i
  cases i with
  | zero =>
    obtain rfl : lead = b := by simpa using at_i
    exact iff_of_false starts (Nat.lt_irrefl 0)
  | succ i =>
    rw [List.getElem?_cons_succ] at at_i
    exact iff_of_true (go_on b (List.mem_of_getElem? at_i)) (Nat.succ_pos i)

/-- A byte of a text is in the middle of a character. -/
def BreaksAt (text : String) (i : Nat) : Prop := ∃ b ∈ (encode text)[i]?, IsTail b

instance (text : String) (i : Nat) : Decidable (BreaksAt text i) :=
  Option.decidableExistsMem _

/-! #### The longest prefix that fits -/

/-- The longest prefix of whole characters of a text that needs at most so many bytes. -/
structure LongestFit (room : Nat) (text front : String) : Prop where
  begins : ∃ back, text = front ++ back
  fits : (encode front).length ≤ room
  longest : ∀ other back, text = other ++ back → (encode other).length ≤ room →
    ∃ more, front = other ++ more

/-- There is one longest prefix that fits. -/
theorem LongestFit.unique {room : Nat} {text front front' : String}
    (fit : LongestFit room text front) (fit' : LongestFit room text front') : front = front' := by
  obtain ⟨back, split⟩ := fit.begins
  obtain ⟨back', split'⟩ := fit'.begins
  obtain ⟨more, longer⟩ := fit.longest front' back' split' fit'.fits
  obtain ⟨more', longer'⟩ := fit'.longest front back split fit.fits
  -- each is a prefix of the other
  apply String.toList_inj.mp
  apply List.IsPrefix.eq_of_length_le
  · rw [longer', String.toList_append]
    exact List.prefix_append _ _
  · rw [longer, String.toList_append, List.length_append]
    exact Nat.le_add_right _ _

/-- A text fits, and the first character of the one behind it finds no room any more. -/
structure Fills (room : Nat) (front back : String) : Prop where
  fits : (encode front).length ≤ room
  full : ∀ c ∈ back.toList.head?,
    room < (encode front).length + (String.utf8EncodeChar c).length

/-- Every text can be split where it fills the room. -/
theorem exists_fills (room : Nat) (text : String) :
    ∃ front back : String, text = front ++ back ∧ Fills room front back := by
  obtain ⟨chars, rfl⟩ : ∃ chars, text = String.ofList chars :=
    ⟨text.toList, String.ofList_toList.symm⟩
  -- Induction on the text: a character that fits takes its bytes of the room, and the first one
  -- that does not fit ends what is written.
  induction chars generalizing room with
  | nil => exact ⟨"", "", by simp, by simp [encode], by simp⟩
  | cons c chars ih =>
    by_cases fits : (String.utf8EncodeChar c).length ≤ room
    · obtain ⟨front, back, same, fills⟩ := ih (room - (String.utf8EncodeChar c).length)
      have size : (encode (String.ofList (c :: front.toList))).length =
          (String.utf8EncodeChar c).length + (encode front).length := by simp [encode]
      refine ⟨String.ofList (c :: front.toList), back, ?_, ?_, ?_⟩
      · apply String.toList_inj.mp
        have := congrArg String.toList same
        simpa using this
      · have := fills.fits
        omega
      · intro d head
        have := fills.full d head
        omega
    · refine ⟨"", String.ofList (c :: chars), by simp, by simp [encode], ?_⟩
      intro d head
      obtain rfl : c = d := by simpa using head
      have empty : (encode "").length = 0 := by simp [encode]
      omega

/-- What fills the room is the longest prefix that fits it. -/
theorem Fills.longestFit {room : Nat} {front back : String} (fills : Fills room front back) :
    LongestFit room (front ++ back) front where
  begins := ⟨back, rfl⟩
  fits := fills.fits
  longest := by
    intro other back' same small
    have lists : front.toList ++ back.toList = other.toList ++ back'.toList := by
      rw [← String.toList_append, ← String.toList_append, same]
    rcases List.append_eq_append_iff.mp lists with ⟨more, longer, behind⟩ | ⟨more, longer, -⟩
    · cases more with
      | nil =>
        refine ⟨"", ?_⟩
        apply String.toList_inj.mp
        simpa using longer.symm
      | cons c more =>
        -- the longer prefix would hold the next character as well
        have := fills.full c (by simp [behind])
        have size : (encode other).length = (encode front).length +
            ((String.utf8EncodeChar c).length + (more.flatMap String.utf8EncodeChar).length) := by
          simp [encode, longer]
        omega
    · refine ⟨String.ofList more, ?_⟩
      apply String.toList_inj.mp
      simpa using longer

/-! #### What a reader makes of the cut -/

/-- A cut behind the first part of a text is one in the second. -/
theorem breaksAt_append {front back : String} {i : Nat} (h : (encode front).length ≤ i) :
    BreaksAt (front ++ back) i ↔ BreaksAt back (i - (encode front).length) := by
  rw [BreaksAt, BreaksAt, encode_append, List.getElem?_append_right h]

/-- The first bytes of a character. -/
theorem decodeLossy_take_encodeChar {i : Nat} (short : i < (String.utf8EncodeChar c).length) :
    decodeLossy ((String.utf8EncodeChar c).take i) = if 0 < i then "\uFFFD" else "" := by
  by_cases start : 0 < i
  · rw [if_pos start]
    have broken := (List.take_append_drop i (String.utf8EncodeChar c)).symm
    rw [List.drop_eq_getElem_cons short] at broken
    apply decodeLossy_of_broken broken
    intro nothing
    have := congrArg List.length nothing
    rw [List.length_take, List.length_nil] at this
    omega
  · rw [if_neg start, Nat.eq_zero_of_not_pos start, List.take_zero]
    rfl

/-- A text that is cut before its first character is complete. -/
theorem decodeLossy_take_of_lt {text : String} {i : Nat}
    (early : ∀ c ∈ text.toList.head?, i < (String.utf8EncodeChar c).length) :
    decodeLossy ((encode text).take i) = if BreaksAt text i then "\uFFFD" else "" := by
  rcases chars : text.toList with _ | ⟨c, others⟩
  · have bytes : encode text = [] := by rw [encode, chars, List.flatMap_nil]
    have whole : ¬ BreaksAt text i := by simp [BreaksAt, bytes]
    rw [if_neg whole, bytes, List.take_nil]
    rfl
  · have short : i < (String.utf8EncodeChar c).length := early c (by simp [chars])
    have bytes : encode text = String.utf8EncodeChar c ++ others.flatMap String.utf8EncodeChar := by
      rw [encode, chars, List.flatMap_cons]
    -- the cut is inside the first character, unless nothing at all is left of it
    have inside : BreaksAt text i ↔ 0 < i := by
      rw [BreaksAt, bytes, List.getElem?_append_left short, List.getElem?_eq_getElem short]
      simpa using isTail_iff_of_encodeChar (List.getElem?_eq_getElem short)
    rw [bytes, List.take_append_of_le_length (Nat.le_of_lt short),
      decodeLossy_take_encodeChar short]
    simp only [inside]

/-- A text that is cut at a byte is read as the characters that fit, with U+FFFD behind them if the
    cut is inside a character. -/
theorem decodeLossy_take (room : Nat) (text : String) : ∃ front, LongestFit room text front ∧
    decodeLossy ((encode text).take room) =
      if BreaksAt text room then front ++ "\uFFFD" else front := by
  obtain ⟨front, back, rfl, fills⟩ := exists_fills room text
  -- the room that is left is too little for the next character
  have early : ∀ c ∈ back.toList.head?,
      room - (encode front).length < (String.utf8EncodeChar c).length := by
    intro c head
    have := fills.fits
    have := fills.full c head
    omega
  refine ⟨front, fills.longestFit, ?_⟩
  rw [encode_append, List.take_append, List.take_of_length_le fills.fits,
    decodeLossy_encode_append, decodeLossy_take_of_lt early]
  simp only [breaksAt_append fills.fits]
  split
  · rfl
  · exact String.append_empty

end Utf8

/-! ### A text in a field -/

namespace Name

variable {text : String}

/-- The bytes of a text that a field keeps: as many as leave room for a NUL, 31 at most. -/
def kept (text : String) : List UInt8 := (Utf8.encode text).take (width - 1)

/-- What is read back of a text that was stored in a field. -/
structure Recalls (text value : String) : Prop where
  /-- A text without NUL that leaves room for one is read as it is. -/
  whole : '\x00' ∉ text.toList → (Utf8.encode text).length ≤ width - 1 → value = text
  /-- Of a longer text, with no NUL as far as it is kept, the longest prefix of whole characters
      that fits is read, and one U+FFFD behind it exactly if the first byte that is not kept is in
      the middle of a character. -/
  cut : 0 ∉ kept text → width - 1 < (Utf8.encode text).length →
    ∃ front, Utf8.LongestFit (width - 1) text front ∧
      value = if Utf8.BreaksAt text (width - 1) then front ++ "\uFFFD" else front
  /-- If a NUL is kept, what stands before the first is read. -/
  ended : 0 ∈ kept text → value = String.ofList (text.toList.takeWhile (· ≠ '\x00'))

/-- What is kept of a name leaves room for the final NUL. -/
theorem length_kept_lt (text : String) : (kept text).length < width := by
  rw [kept, List.length_take, width]
  omega

/-- Behind what it keeps of a text, a field holds NULs, and one at least. -/
theorem exists_toField_eq (text : String) :
    ∃ n, toField text = kept text ++ 0 :: List.replicate n 0 := by
  have := length_kept_lt text
  refine ⟨width - (kept text).length - 1, ?_⟩
  rw [← List.replicate_succ, Nat.sub_add_cancel (by omega)]
  rfl

/-- A field ends in a NUL. -/
theorem getLast?_toField (text : String) : (toField text).getLast? = some 0 := by
  obtain ⟨n, nuls⟩ := exists_toField_eq text
  rw [nuls, ← List.replicate_succ, List.getLast?_append, List.getLast?_replicate]
  rfl

/-- What stands before the first NUL of a field is read. -/
theorem ofField_append {front : List UInt8} (absent : 0 ∉ front) (back : List UInt8) :
    ofField (front ++ 0 :: back) = Utf8.decodeLossy front := by
  rw [ofField, takeWhile_ne_append absent]

/-- A text has a zero byte iff it has a NUL character. -/
theorem zero_mem_encode_iff : 0 ∈ Utf8.encode text ↔ '\x00' ∈ text.toList :=
  Utf8.mem_encode_iff (c := '\x00') (by decide) text

/-- What is kept of a text without a NUL has no zero byte. -/
theorem not_mem_kept (plain : '\x00' ∉ text.toList) : 0 ∉ kept text := by
  intro there
  exact plain (zero_mem_encode_iff.mp (List.mem_of_mem_take there))

/-- Where nothing kept is zero, a field is read as all that was kept. -/
theorem ofField_toField_of_not_mem (plain : 0 ∉ kept text) :
    ofField (toField text) = Utf8.decodeLossy (kept text) := by
  obtain ⟨n, nuls⟩ := exists_toField_eq text
  rw [nuls, ofField_append plain]

/-- Where something kept is zero, a field is read as the text before the first NUL. -/
theorem ofField_toField_of_mem (ends : 0 ∈ kept text) :
    ofField (toField text) = String.ofList (text.toList.takeWhile (· ≠ '\x00')) := by
  have there : '\x00' ∈ text.toList := zero_mem_encode_iff.mp (List.mem_of_mem_take ends)
  obtain ⟨front, back, split, absent⟩ := List.eq_append_cons_of_mem there
  have bytes : Utf8.encode text =
      Utf8.encode (String.ofList front) ++ 0 :: Utf8.encode (String.ofList back) := by
    simp [Utf8.encode, split, Utf8.encodeChar_of_ascii]
  have plain : 0 ∉ Utf8.encode (String.ofList front) := by
    rw [zero_mem_encode_iff, String.toList_ofList]
    exact absent
  -- the first NUL is kept, since some NUL is and there is none before it
  have short : (Utf8.encode (String.ofList front)).length < width - 1 := by
    refine Decidable.byContradiction fun long => plain ?_
    rw [kept, bytes, List.take_append_of_le_length (Nat.le_of_not_lt long)] at ends
    exact List.mem_of_mem_take ends
  obtain ⟨k, more⟩ : ∃ k, width - 1 - (Utf8.encode (String.ofList front)).length = k + 1 :=
    Nat.exists_eq_succ_of_ne_zero (by omega)
  have stored : kept text = Utf8.encode (String.ofList front) ++
      0 :: (Utf8.encode (String.ofList back)).take k := by
    rw [kept, bytes, List.take_append, List.take_of_length_le (Nat.le_of_lt short), more,
      List.take_succ_cons]
  obtain ⟨n, nuls⟩ := exists_toField_eq text
  rw [nuls, stored, List.append_assoc, List.cons_append, ofField_append plain,
    Utf8.decodeLossy_encode, split, takeWhile_ne_append absent]

/-- What is read back of a text. -/
theorem recalls (text : String) : Recalls text (ofField (toField text)) where
  whole := by
    intro plain short
    rw [ofField_toField_of_not_mem (not_mem_kept plain), kept, List.take_of_length_le short,
      Utf8.decodeLossy_encode]
  cut := by
    intro plain _
    rw [ofField_toField_of_not_mem plain]
    exact Utf8.decodeLossy_take _ text
  ended := ofField_toField_of_mem

end Name

/-! ### The names of a slot -/

namespace Slot

/-- The names that a slot bears: of its node and of its class. -/
inductive Label where
  | nodename
  | className
  deriving DecidableEq, Repr

/-- Where the field of a name starts in its slot. -/
def Label.offset : Label → Nat
  | .nodename => 0
  | .className => 32

variable (s : Slot) (m : Memory)

/-- The field of a name. -/
def labelField : Label → List UInt8
  | .nodename => s.nodenameField m
  | .className => s.classField m

/-- A name. -/
def label : Label → String
  | .nodename => s.nodename m
  | .className => s.className m

/-- Set a name. -/
def setLabel : Label → String → Memory
  | .nodename, text => s.setNodename text m
  | .className, text => s.setClassName text m

/-- Set names, one after the other. -/
def relabel (writes : List (Label × String)) : Memory :=
  writes.foldl (fun m write => s.setLabel m write.1 write.2) m

/-- A memory with a new header in it: zeros, and the id of the owner. -/
def newHeader (peer : PeerId) : Memory := s.setPeerId peer.toUInt64 Memory.zero

/-- The text that was written to a name last, `none` if none was. -/
def lastText? (l : Label) (writes : List (Label × String)) : Option String :=
  writes.reverse.lookup l

/-- What the names of a slot are after a sequence of writes to them. -/
structure Named (writes : List (Label × String)) : Prop where
  /-- The field of a name holds the last text written to it, as far as it is kept, and only NULs
      behind it. -/
  stored : ∀ l text, lastText? l writes = some text → s.labelField (s.relabel m writes) l =
    Name.kept text ++ List.replicate (Name.width - (Name.kept text).length) 0
  /-- That text is read from it, as far as it can be. -/
  recalled : ∀ l text, lastText? l writes = some text →
    Name.Recalls text (s.label (s.relabel m writes) l)
  /-- What is read depends on that text alone, whatever slot it is in and whatever was written to
      it. -/
  alone : ∀ l text, lastText? l writes = some text →
    ∀ (s' : Slot) (m' : Memory) (writes' : List (Label × String)) (l' : Label),
      lastText? l' writes' = some text →
        s'.label (s'.relabel m' writes') l' = s.label (s.relabel m writes) l
  /-- A name that has not been written is as it was. -/
  unwritten : ∀ l, lastText? l writes = none →
    s.labelField (s.relabel m writes) l = s.labelField m l
  /-- One more write leaves the other name alone. -/
  other : ∀ l l' text, l' ≠ l →
    s.labelField (s.relabel m (writes ++ [(l, text)])) l' = s.labelField (s.relabel m writes) l'
  /-- A field ends in a NUL once it has been written, or if it did so at first. -/
  terminated : ∀ l, (s.labelField m l).getLast? = some 0 ∨ lastText? l writes ≠ none →
    (s.labelField (s.relabel m writes) l).getLast? = some 0
  /-- In a new header both fields do so all the time. -/
  terminated_new : ∀ peer, m = s.newHeader peer →
    ∀ l, (s.labelField (s.relabel m writes) l).getLast? = some 0
  /-- Nothing but the two fields is written. -/
  within : Memory.SameOutside s.base (s.base + 64) m (s.relabel m writes)

variable {s m} {l l' : Label} {text : String} {writes : List (Label × String)}

/-- The fields of different names share no byte. -/
theorem Label.offset_apart (ne : l' ≠ l) :
    l.offset + Name.width ≤ l'.offset ∨ l'.offset + Name.width ≤ l.offset := by
  cases l with
  | nodename =>
    cases l' with
    | nodename => exact absurd rfl ne
    | className => exact .inl (by decide)
  | className =>
    cases l' with
    | nodename => exact .inr (by decide)
    | className => exact absurd rfl ne

/-- The field of a label is a run of bytes in the header. -/
theorem labelField_eq (m : Memory) (l : Label) :
    s.labelField m l = m.bytes (s.base + l.offset) Name.width := by
  cases l <;> rfl

/-- A label is read from its field. -/
theorem label_eq (m : Memory) (l : Label) : s.label m l = Name.ofField (s.labelField m l) := by
  cases l <;> rfl

/-- Setting a label writes its field. -/
theorem setLabel_eq (m : Memory) (l : Label) (text : String) :
    s.setLabel m l text = m.store (s.base + l.offset) (Name.toField text) := by
  cases l <;> rfl

/-! #### One write -/

/-- The field of a label that was set is the one of the text. -/
theorem labelField_setLabel_self (m : Memory) (l : Label) (text : String) :
    s.labelField (s.setLabel m l text) l = Name.toField text := by
  cases l with
  | nodename => exact s.nodenameField_setNodename m text
  | className => exact s.classField_setClassName m text

/-- Setting one label leaves the field of the other. -/
theorem labelField_setLabel_of_ne (m : Memory) (ne : l' ≠ l) (text : String) :
    s.labelField (s.setLabel m l text) l' = s.labelField m l' := by
  have apart := Label.offset_apart ne
  rw [labelField_eq, setLabel_eq, labelField_eq]
  apply Memory.bytes_store_of_disjoint
  rw [Name.length_toField]
  omega

/-- Setting a label writes to the names only. -/
theorem sameOutside_setLabel (m : Memory) (l : Label) (text : String) :
    Memory.SameOutside s.base (s.base + 64) m (s.setLabel m l text) := by
  cases l with
  | nodename => exact (s.sameOutside_setNodename m text).mono (Nat.le_refl _) (by omega)
  | className => exact (s.sameOutside_setClassName m text).mono (by omega) (Nat.le_refl _)

/-! #### Any number of writes -/

/-- The last of some writes comes after the others. -/
theorem relabel_append_singleton (m : Memory) (writes : List (Label × String)) (l : Label)
    (text : String) :
    s.relabel m (writes ++ [(l, text)]) = s.setLabel (s.relabel m writes) l text := by
  rw [relabel, List.foldl_append]
  rfl

/-- The last text of a label is the one that was written last. -/
theorem lastText?_append_self (l : Label) (writes : List (Label × String)) (text : String) :
    lastText? l (writes ++ [(l, text)]) = some text := by
  rw [lastText?, List.reverse_append]
  exact List.lookup_cons_self

/-- A write of one label is none of the other. -/
theorem lastText?_append_of_ne (ne : l' ≠ l) (writes : List (Label × String)) (text : String) :
    lastText? l' (writes ++ [(l, text)]) = lastText? l' writes := by
  rw [lastText?, List.reverse_append]
  show List.lookup l' ((l, text) :: writes.reverse) = _
  rw [List.lookup_cons, beq_false_of_ne ne]
  rfl

/-- The field of a name holds the last text written to it, or what it held at first. -/
theorem labelField_relabel (m : Memory) (writes : List (Label × String)) (l : Label) :
    s.labelField (s.relabel m writes) l =
      (lastText? l writes).elim (s.labelField m l) Name.toField := by
  induction writes using List.reverseRecOn with
  | nil => rfl
  | append_singleton writes write ih =>
    obtain ⟨l', text⟩ := write
    rw [relabel_append_singleton]
    by_cases same : l = l'
    · subst same
      rw [labelField_setLabel_self, lastText?_append_self]
      rfl
    · rw [labelField_setLabel_of_ne _ same, lastText?_append_of_ne same, ih]

/-- After some writes the field of a label is the one of its last text. -/
theorem labelField_relabel_of_last (m : Memory) (last : lastText? l writes = some text) :
    s.labelField (s.relabel m writes) l = Name.toField text := by
  rw [labelField_relabel, last]
  rfl

/-- Writes of labels stay within the names. -/
theorem sameOutside_relabel (m : Memory) (writes : List (Label × String)) :
    Memory.SameOutside s.base (s.base + 64) m (s.relabel m writes) := by
  induction writes using List.reverseRecOn with
  | nil => exact fun _ _ => rfl
  | append_singleton writes write ih =>
    rw [relabel_append_singleton]
    exact ih.trans (sameOutside_setLabel _ _ _)

/-- A new header has no names. -/
theorem labelField_newHeader (peer : PeerId) (l : Label) :
    s.labelField (s.newHeader peer) l = List.replicate Name.width 0 := by
  have low : l.offset + Name.width ≤ 64 := by cases l <;> decide
  have stamped := Memory.sameOutside_storeWord Memory.zero (s.base + 72) peer.toUInt64
  rw [labelField_eq, newHeader, setPeerId, stamped.bytes_eq (by omega)]
  apply List.ext_getElem
  · simp
  · intro i _ _
    simp

/-- After some writes the field of a label still ends with a NUL, if it did before or one of them
    was of it. -/
theorem getLast?_labelField_relabel
    (ends : (s.labelField m l).getLast? = some 0 ∨ lastText? l writes ≠ none) :
    (s.labelField (s.relabel m writes) l).getLast? = some 0 := by
  rw [labelField_relabel]
  cases last : lastText? l writes with
  | none => exact ends.resolve_right (not_not_intro last)
  | some text => exact Name.getLast?_toField text

/-- **Names.** After any sequence of writes to the names of a slot, each is read from the last text
    that was written to it. -/
theorem named_relabel (s : Slot) (m : Memory) (writes : List (Label × String)) :
    s.Named m writes where
  stored _ _ last := labelField_relabel_of_last m last
  recalled _ text last := by
    rw [label_eq, labelField_relabel_of_last m last]
    exact Name.recalls text
  alone _ _ last s' m' writes' _ last' := by
    rw [label_eq, label_eq, labelField_relabel_of_last m last, labelField_relabel_of_last m' last']
  unwritten _ none := by
    rw [labelField_relabel, none]
    rfl
  other _ _ text ne := by
    rw [relabel_append_singleton, labelField_setLabel_of_ne _ ne]
  terminated _ := getLast?_labelField_relabel
  -- a new header is zero, so that its names are terminated before anything is written
  terminated_new peer new l := by
    apply getLast?_labelField_relabel
    left
    rw [new, labelField_newHeader]
    rfl
  within := sameOutside_relabel m writes

/-- The names of a new header: the class is cut inside its last character, and of the longer node
    name that stood before the second nothing is left. -/
theorem named_relabel_new :
    let s : Slot := ⟨0, 128⟩
    let after := s.relabel (s.newHeader 3)
      [(.nodename, "a node name that finds no room at all"), (.className, "éééééééééééééééé"),
        (.nodename, "short")]
    s.label after .nodename = "short" ∧ s.label after .className = "ééééééééééééééé\uFFFD" ∧
      ∀ l, (s.labelField after l).getLast? = some 0 := by
  intro s after
  have named := named_relabel s (s.newHeader 3)
    [(.nodename, "a node name that finds no room at all"), (.className, "éééééééééééééééé"),
      (.nodename, "short")]
  refine ⟨(named.recalled .nodename "short" rfl).whole (by decide) (by decide), ?_,
    named.terminated_new 3 rfl⟩
  obtain ⟨front, fit, value⟩ := (named.recalled .className "éééééééééééééééé" rfl).cut
    (by decide +kernel) (by decide +kernel)
  have fills : Utf8.Fills 31 "ééééééééééééééé" "é" := by
    refine ⟨by decide +kernel, ?_⟩
    intro c head
    obtain rfl : 'é' = c := by simpa using head
    decide +kernel
  rw [value, if_pos (by decide +kernel), fit.unique fills.longestFit]
  rfl

end Slot

end SharedMailbox
