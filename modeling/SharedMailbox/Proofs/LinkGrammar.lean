import Mathlib.Data.List.TakeWhile
import SharedMailbox.Proofs.LinkTexts
import SharedMailbox.Proofs.Numerals

namespace SharedMailbox

/-!
# The grammar of link messages

Which messages a link parser accepts, as a language for each value that it may read. A product of
languages is the language of their texts one after another.

* `Scan.fixed`, `Scan.blanks`, `Scan.number`, `Scan.name`: the parts of a message.
* `Scan.mem_spaced_mul`, `Scan.mem_number_mul`, `Scan.mem_name_mul`: what a scanner takes from the
  front of a message is such a part, and it leaves the rest.
* `Link.CtlWrite.grammar`, `Link.LinkAck.grammar`, `Link.standaloneGrammar`: the messages.
* `Link.scans_exactly`: a parser accepts the messages of its grammar and no others.
* `Link.reads_back`: which messages are read back as what was written.
-/

namespace Scan

/-! ### Parts of messages -/

/-- Blanks in a row, or none: spaces, tabs, line feeds, form feeds and carriage returns. -/
def blanks : Language UInt8 := {text | ∀ b ∈ text, b ∈ [32, 9, 10, 12, 13]}

/-- A fixed text. -/
def fixed (text : String) : Language UInt8 := {Utf8.encode text}

/-- Decimal digits, as many as there are. -/
def digits (n : Nat) : Language UInt8 := {text | Numeral.Spells 10 (text.map UInt8.toNat) n}

/-- An integer: blanks, a sign or none, and digits. -/
def number (v : Int32) : Language UInt8 := blanks * Numeral.signed32 43 45 digits v

/-- A text without a comma, which decodes to a name. -/
def name (s : String) : Language UInt8 := {text | comma ∉ text ∧ Utf8.decodeLossy text = s}

/-- What does not begin with a digit. -/
def noDigit : Language UInt8 := {rest | Stops rest}

/-- Whatever there is. -/
def anything : Language UInt8 := {_rest | True}

variable {text input rest front : List UInt8} {M : Language UInt8} {v : Int32} {n : Nat}

/-! ### Fixed texts -/

/-- What begins with something visible, or is nothing. -/
def Visible (rest : List UInt8) : Prop := ∀ b ∈ rest.head?, isBlank b = false

/-- The blanks are the space, the tab, and three ends of lines or pages. -/
theorem isBlank_iff {b : UInt8} : isBlank b = true ↔ b ∈ [32, 9, 10, 12, 13] := by
  simp [isBlank, or_assoc]

/-- Skipping blanks takes all of them and nothing else. -/
theorem skipBlanks_append (blank : front ∈ blanks) (visible : Visible rest) :
    skipBlanks (front ++ rest) = rest := by
  rw [skipBlanks, List.dropWhile_append_of_pos fun b hb => isBlank_iff.mpr (blank b hb)]
  cases rest with
  | nil => rfl
  | cons b rest => exact skipBlanks_of_visible (visible b rfl) rest

/-- Blanks end where something visible begins. -/
theorem mem_blanks_mul (visible : ∀ rest ∈ M, Visible rest) :
    input ∈ blanks * M ↔ skipBlanks input ∈ M := by
  constructor
  · intro there
    obtain ⟨front, blank, rest, member, rfl⟩ := Language.mem_mul.mp there
    rwa [skipBlanks_append blank (visible rest member)]
  · intro there
    refine Language.mem_mul.mpr ⟨input.takeWhile isBlank, fun b hb => ?_, _, there,
      List.takeWhile_append_dropWhile⟩
    exact isBlank_iff.mp (List.mem_takeWhile_imp hb)

/-- A text in which each space stands for blanks in a row, or none. -/
def spaced : List UInt8 → Language UInt8
  | [] => 1
  | p :: text => (if p = 32 then blanks else {[p]}) * spaced text

/-- A text in two parts is read as the one and then the other. -/
theorem spaced_append (text text' : List UInt8) :
    spaced (text ++ text') = spaced text * spaced text' := by
  induction text with
  | nil => rw [List.nil_append, spaced, one_mul]
  | cons p text ih => rw [List.cons_append, spaced, spaced, ih, mul_assoc]

/-- The space between two words. -/
theorem spaced_gap (text text' : List UInt8) :
    spaced (text ++ 32 :: text') = spaced text * blanks * spaced text' := by
  rw [spaced_append, mul_assoc]
  rfl

/-- A word that begins with one byte is that byte and a word of the rest. -/
theorem mem_singleton_mul {p : UInt8} :
    input ∈ ({[p]} : Language UInt8) * M ↔ ∃ rest, input = p :: rest ∧ rest ∈ M := by
  rw [Language.mem_mul]
  constructor
  · rintro ⟨_, rfl, rest, member, rfl⟩
    exact ⟨rest, rfl, member⟩
  · rintro ⟨rest, rfl, member⟩
    exact ⟨[p], rfl, rest, member, rfl⟩

/-- Without a space a text stands for itself. -/
theorem spaced_of_visible (visible : 32 ∉ text) : spaced text = {text} := by
  induction text with
  | nil => rfl
  | cons p text ih =>
    obtain ⟨here, later⟩ := not_or.mp (mt List.mem_cons.mpr visible)
    rw [spaced, if_neg (Ne.symm here), ih later]
    ext input
    rw [mem_singleton_mul]
    exact ⟨fun ⟨_, begins, rfl⟩ => begins, fun same => ⟨text, same, rfl⟩⟩

/-- A text without a space needs no blanks. -/
theorem isSpaced_of_visible (visible : 32 ∉ text) : isSpaced text = true := by
  induction text with
  | nil => rfl
  | cons p text ih =>
    obtain ⟨here, later⟩ := not_or.mp (mt List.mem_cons.mpr visible)
    simp [isSpaced, Ne.symm here, ih later]

/-- A fixed text without a space is read as it stands. -/
theorem fixed_eq_spaced {s : String} (visible : 32 ∉ Utf8.encode s) :
    fixed s = spaced (Utf8.encode s) :=
  (spaced_of_visible visible).symm

/-- What begins with a visible byte is visible. -/
theorem visible_of_mem {q : UInt8} (visible : isBlank q = false)
    (there : rest ∈ spaced (q :: text) * M) : Visible rest := by
  have byte : q ≠ 32 := by
    rintro rfl
    cases visible
  rw [spaced, if_neg byte, mul_assoc, mem_singleton_mul] at there
  obtain ⟨rest, rfl, -⟩ := there
  intro b head
  rwa [← Option.mem_some.mp head]

/-- A literal takes its text from the front, and leaves the rest. -/
theorem mem_spaced_mul (gaps : isSpaced text = true) :
    input ∈ spaced text * M ↔ ∃ rest, literal text input = some rest ∧ rest ∈ M := by
  induction text generalizing input with
  | nil => simp [spaced, literal]
  | cons p text ih =>
    simp only [isSpaced, Bool.and_eq_true, Bool.or_eq_true] at gaps
    obtain ⟨front, gaps⟩ := gaps
    rw [spaced, mul_assoc]
    unfold literal
    split
    next space =>
      -- what stands behind the space is visible
      subst space
      have next : text.head?.any (fun q => !isBlank q) = true := by simpa using front
      obtain ⟨q, head, visible⟩ := (Option.any_eq_true _ _).mp next
      obtain ⟨text', rfl⟩ := List.head?_eq_some_iff.mp head
      rw [mem_blanks_mul fun rest => visible_of_mem (by simpa using visible), ih gaps]
    next =>
      rw [mem_singleton_mul]
      constructor
      · rintro ⟨rest, rfl, there⟩
        simpa using (ih gaps).mp there
      · intro found
        cases input with
        | nil => simp at found
        | cons b rest =>
          by_cases same : b = p
          · exact ⟨rest, by rw [same], (ih gaps).mpr (by simpa [same] using found)⟩
          · simp [same] at found

/-! ### Integers -/

/-- The digits are the codes from 48 to 57. -/
theorem isDigit_iff {b : UInt8} : isDigit b = true ↔ 48 ≤ b.toNat ∧ b.toNat ≤ 57 := by
  simp [isDigit, UInt8.le_iff_toNat_le]

/-- What spells a number are digits. -/
theorem isDigit_of_mem (spells : text ∈ digits n) {b : UInt8} (there : b ∈ text) :
    isDigit b = true :=
  isDigit_iff.mpr (Numeral.Spells.decimal spells (by decide) (List.mem_map_of_mem there))

/-- Digits stop before any other byte. -/
theorem stops_of_head {b : UInt8} (head : rest.head? = some b)
    (other : isDigit b = false := by rfl) : Stops rest := by
  intro c there
  rw [head] at there
  cases there
  exact other

/-- What spells a number begins with a digit. -/
theorem exists_cons_of_mem (spells : text ∈ digits n) :
    ∃ b more, text = b :: more ∧ isDigit b = true := by
  obtain ⟨b, more, rfl⟩ := List.exists_cons_of_ne_nil (mt List.map_eq_nil_iff.mpr spells.1)
  exact ⟨b, more, rfl, isDigit_of_mem spells List.mem_cons_self⟩

/-- Once all digits are dropped they stop. -/
theorem stops_dropWhile (input : List UInt8) : Stops (input.dropWhile isDigit) := by
  intro b head
  have stop := List.head?_dropWhile_not isDigit input
  rwa [Option.mem_def.mp head] at stop

/-- The sign at the front of an input. -/
theorem exists_sign (input : List UInt8) : ∃ front, Numeral.IsSign 43 45 (sign input).1 front ∧
    front ++ (sign input).2 = input := by
  unfold sign
  split
  next => exact ⟨[45], .minus, rfl⟩
  next => exact ⟨[43], .plus, rfl⟩
  next => exact ⟨[], .none, rfl⟩

/-- A sign is taken from before digits, and nothing is skipped there. -/
theorem sign_of_digits {negative : Bool} (signs : Numeral.IsSign 43 45 negative front)
    (spells : text ∈ digits n) (rest : List UInt8) : Visible (front ++ text ++ rest) ∧
      sign (front ++ text ++ rest) = (negative, text ++ rest) := by
  obtain ⟨b, more, rfl, digit⟩ := exists_cons_of_mem spells
  cases signs with
  | none =>
    refine ⟨?_, sign_of_isDigit digit _⟩
    rintro _ ⟨rfl⟩
    exact isBlank_of_isDigit digit
  | plus => exact ⟨by rintro _ ⟨rfl⟩; rfl, rfl⟩
  | minus => exact ⟨by rintro _ ⟨rfl⟩; rfl, rfl⟩

/-- An integer is taken from the front with all digits in a row. -/
theorem int_eq_some_iff : int input = some (v, rest) ↔
    ∃ front ∈ number v, front ++ rest = input ∧ Stops rest := by
  constructor
  · intro read
    obtain ⟨front, signs, whole⟩ := exists_sign (skipBlanks input)
    rcases parts : sign (skipBlanks input) with ⟨negative, unsigned⟩
    rw [parts] at signs whole
    simp only [int, parts] at read
    split at read
    next => cases read
    next magnitude value =>
      obtain ⟨_, range, same⟩ := Option.map_eq_some_iff.mp read
      cases same
      have spells : unsigned.takeWhile isDigit ∈ digits magnitude :=
        Numeral.value?_eq_some_iff.mp value
      have skipped : input.takeWhile isBlank ∈ blanks :=
        fun b hb => isBlank_iff.mp (List.mem_takeWhile_imp hb)
      -- blanks, a sign and the digits in a row, after which no digit follows
      refine ⟨_, Language.mem_mul.mpr ⟨_, skipped, _, ⟨negative, front, magnitude, _, signs, spells,
        rfl, Numeral.int32?_eq_some_iff.mp range⟩, rfl⟩, ?_, ?_⟩
      · rw [List.append_assoc, List.append_assoc, List.takeWhile_append_dropWhile, whole,
          skipBlanks, List.takeWhile_append_dropWhile]
      · exact stops_dropWhile unsigned
  · rintro ⟨_, there, rfl, stops⟩
    obtain ⟨blank, skipped, _, ⟨negative, front, n, text, signs, spells, rfl, value⟩, rfl⟩ :=
      Language.mem_mul.mp there
    obtain ⟨visible, signed⟩ := sign_of_digits signs spells rest
    -- the scan takes all digits of the numeral, and stops where the rest begins
    have all : ∀ b ∈ text, isDigit b = true := fun b => isDigit_of_mem spells
    have magnitude : Numeral.value? 10 (text.map UInt8.toNat) = some n :=
      Numeral.value?_eq_some_iff.mpr spells
    have range : Numeral.int32? (Numeral.signed negative n) = some v :=
      Numeral.int32?_eq_some_iff.mpr value
    rw [int, List.append_assoc blank, skipBlanks_append skipped visible, signed]
    simp only [List.takeWhile_append_of_pos all, List.dropWhile_append_of_pos all,
      takeWhile_of_stops stops, dropWhile_of_stops stops, List.append_nil, magnitude, range,
      Option.map_some]

/-- The name of a field begins with a comma, and there is no space in it. -/
def IsField (s : String) : Prop := (Utf8.encode s).head? = some comma ∧ 32 ∉ Utf8.encode s

instance (s : String) : Decidable (IsField s) := inferInstanceAs (Decidable (_ ∧ _))

/-- What begins with a field begins with a comma. -/
theorem head_of_field {s : String} (field : IsField s) (there : rest ∈ fixed s * M) :
    rest.head? = some comma := by
  obtain ⟨_, rfl, rest, -, rfl⟩ := Language.mem_mul.mp there
  obtain ⟨more, begins⟩ := List.head?_eq_some_iff.mp field.1
  rw [begins]
  rfl

/-- What begins with a field is read by its literal. -/
theorem mem_field_mul {s : String} (field : IsField s) :
    input ∈ fixed s * M ↔ ∃ rest, literal (Utf8.encode s) input = some rest ∧ rest ∈ M := by
  rw [fixed_eq_spaced field.2, mem_spaced_mul (isSpaced_of_visible field.2)]

/-- The integer before something that does not go on with a digit. -/
theorem mem_number_mul (stops : ∀ rest ∈ M, Stops rest) :
    input ∈ number v * M ↔ ∃ rest, int input = some (v, rest) ∧ rest ∈ M := by
  simp only [int_eq_some_iff, Language.mem_mul]
  constructor
  · rintro ⟨front, number, rest, there, whole⟩
    exact ⟨rest, ⟨front, number, whole, stops rest there⟩, there⟩
  · rintro ⟨rest, ⟨front, number, whole, -⟩, there⟩
    exact ⟨front, number, rest, there, whole⟩

/-- The integer before a field. -/
theorem mem_number_field {s : String} (field : IsField s) : input ∈ number v * (fixed s * M) ↔
    ∃ rest, int input = some (v, rest) ∧ ∃ rest', literal (Utf8.encode s) rest = some rest' ∧
      rest' ∈ M := by
  simp only [mem_number_mul fun rest there => stops_of_head (head_of_field field there),
    mem_field_mul field]

/-- The last integer of a message. -/
theorem mem_number_last : input ∈ number v * noDigit ↔ ∃ rest, int input = some (v, rest) := by
  rw [mem_number_mul (M := noDigit) fun rest stops => stops]
  constructor
  · rintro ⟨rest, read, -⟩
    exact ⟨rest, read⟩
  · rintro ⟨rest, read⟩
    obtain ⟨-, -, -, stops⟩ := int_eq_some_iff.mp read
    exact ⟨rest, read, stops⟩

/-! ### Names -/

/-- A text up to a stop is what is before the first one. -/
theorem upTo_eq_some_iff {stop : UInt8} : upTo stop input = some (front, rest) ↔
    stop ∉ front ∧ front ++ rest = input ∧ rest.head? = some stop := by
  constructor
  · intro found
    obtain ⟨there, same⟩ := Option.ite_none_right_eq_some.mp found
    cases same
    refine ⟨fun early => by simpa using List.mem_takeWhile_imp early,
      List.takeWhile_append_dropWhile, ?_⟩
    -- the stop is somewhere, so that something is left where the scan ends
    have more : input.dropWhile (· ≠ stop) ≠ [] := by
      rw [ne_eq, List.dropWhile_eq_nil_iff]
      exact fun others => of_decide_eq_true (others stop there) rfl
    obtain ⟨b, rest, same⟩ := List.exists_cons_of_ne_nil more
    have first := List.head?_dropWhile_not (· ≠ stop) input
    rw [same] at first ⊢
    simpa using first
  · rintro ⟨absent, rfl, head⟩
    obtain ⟨rest, rfl⟩ := List.head?_eq_some_iff.mp head
    exact upTo_append absent rest

/-- The name before a field. -/
theorem mem_name_field {t s : String} (field : IsField s) : input ∈ name t * (fixed s * M) ↔
    ∃ front rest, upTo comma input = some (front, rest) ∧ Utf8.decodeLossy front = t ∧
      ∃ rest', literal (Utf8.encode s) rest = some rest' ∧ rest' ∈ M := by
  simp only [upTo_eq_some_iff, ← mem_field_mul field, Language.mem_mul (l := name t)]
  constructor
  · rintro ⟨front, ⟨plain, same⟩, rest, there, whole⟩
    exact ⟨front, rest, ⟨plain, whole, head_of_field field there⟩, same, there⟩
  · rintro ⟨front, rest, ⟨plain, whole, -⟩, same, there⟩
    exact ⟨front, ⟨plain, same⟩, rest, there, whole⟩

end Scan

/-! ### Messages -/

namespace Link

open Scan

/-- The messages that assign these ids. -/
def CtlWrite.grammar (w : CtlWrite) : Language UInt8 :=
  fixed "CTL-Write" * blanks * fixed "Space=0,PFMCID=" * number w.pfmcid *
    fixed ",PFMSID=" * number w.pfmsid * fixed ",CID=" * number w.cid *
    fixed ",SID=" * number w.sid * fixed ",Tag=" * number w.tag * noDigit

/-- The messages that tell this class and these ids. -/
def LinkAck.grammar (a : LinkAck) : Language UInt8 :=
  fixed "Link" * blanks * fixed "CTL" * blanks * fixed "ACK" * blanks * fixed "C-Class=" *
    name a.className * fixed ",CID0=" * number a.cid0 * fixed ",SID0=" * number a.sid0 * noDigit

/-- The messages that repeat this tag. -/
def standaloneGrammar (tag : Int32) : Language UInt8 :=
  fixed "Standalone" * blanks * fixed "Acknowledgment" * blanks * fixed "Tag=" * number tag *
    fixed ",Reason=OK" * anything

/-- An assignment is read iff the message is one of its spellings. -/
theorem CtlWrite.parse?_eq_some_iff {message : List UInt8} {w : CtlWrite} :
    CtlWrite.parse? message = some w ↔ message ∈ w.grammar := by
  have opening : fixed "CTL-Write" * blanks * fixed "Space=0,PFMCID=" =
      spaced (Utf8.encode "CTL-Write Space=0,PFMCID=") := by
    rw [fixed_eq_spaced (by decide), fixed_eq_spaced (by decide), ← spaced_gap]
    rfl
  have gaps : isSpaced (Utf8.encode "CTL-Write Space=0,PFMCID=") = true := rfl
  -- each part of the grammar is what one step of the parser takes
  simp only [CtlWrite.grammar, opening, mul_assoc, mem_spaced_mul gaps,
    mem_number_field (show IsField ",PFMSID=" by decide),
    mem_number_field (show IsField ",CID=" by decide),
    mem_number_field (show IsField ",SID=" by decide),
    mem_number_field (show IsField ",Tag=" by decide), mem_number_last]
  simp only [CtlWrite.parse?, Option.bind_eq_bind, Option.bind_eq_some_iff, Option.pure_def,
    Prod.exists, Option.some.injEq]
  constructor
  · rintro ⟨_, opens, a, _, first, _, toB, b, _, second, _, toC, c, _, third, _, toD, d, _, fourth,
      _, toE, e, _, fifth, rfl⟩
    exact ⟨_, opens, _, first, _, toB, _, second, _, toC, _, third, _, toD, _, fourth, _, toE, _,
      fifth⟩
  · rintro ⟨_, opens, _, first, _, toB, _, second, _, toC, _, third, _, toD, _, fourth, _, toE, _,
      fifth⟩
    exact ⟨_, opens, _, _, first, _, toB, _, _, second, _, toC, _, _, third, _, toD, _, _, fourth,
      _, toE, _, _, fifth, rfl⟩

/-- A tag is read iff the message is one of its spellings. -/
theorem parseStandaloneAck?_eq_some_iff {message : List UInt8} {tag : Int32} :
    parseStandaloneAck? message = some tag ↔ message ∈ standaloneGrammar tag := by
  -- the words of the opening with blanks between them are one pattern for the scan
  have opening : fixed "Standalone" * blanks * fixed "Acknowledgment" * blanks * fixed "Tag=" =
      spaced (Utf8.encode "Standalone Acknowledgment Tag=") := by
    rw [fixed_eq_spaced (by decide), fixed_eq_spaced (by decide), fixed_eq_spaced (by decide),
      ← spaced_gap, ← spaced_gap]
    rfl
  have gaps : isSpaced (Utf8.encode "Standalone Acknowledgment Tag=") = true := rfl
  have all : ∀ rest, rest ∈ anything := fun _ => trivial
  rw [standaloneGrammar, opening]
  simp only [mul_assoc, mem_spaced_mul gaps, mem_number_field (show IsField ",Reason=OK" by decide),
    all, and_true]
  simp only [parseStandaloneAck?, Option.bind_eq_bind, Option.bind_eq_some_iff, Option.pure_def,
    Prod.exists, Option.some.injEq]
  constructor
  · rintro ⟨_, opens, _, _, number, _, closes, rfl⟩
    exact ⟨_, opens, _, number, _, closes⟩
  · rintro ⟨_, opens, _, number, _, closes⟩
    exact ⟨_, opens, _, _, number, _, closes, rfl⟩

/-- An acknowledgment is read iff the message is one of its spellings. -/
theorem LinkAck.parse?_eq_some_iff {message : List UInt8} {a : LinkAck} :
    LinkAck.parse? message = some a ↔ message ∈ a.grammar := by
  -- the words of the opening with blanks between them are one pattern for the scan
  have opening : fixed "Link" * blanks * fixed "CTL" * blanks * fixed "ACK" * blanks *
      fixed "C-Class=" = spaced (Utf8.encode "Link CTL ACK C-Class=") := by
    rw [fixed_eq_spaced (by decide), fixed_eq_spaced (by decide), fixed_eq_spaced (by decide),
      fixed_eq_spaced (by decide), ← spaced_gap, ← spaced_gap, ← spaced_gap]
    rfl
  have gaps : isSpaced (Utf8.encode "Link CTL ACK C-Class=") = true := rfl
  rw [LinkAck.grammar, opening]
  simp only [mul_assoc, mem_spaced_mul gaps, mem_name_field (show IsField ",CID0=" by decide),
    mem_number_field (show IsField ",SID0=" by decide), mem_number_last]
  simp only [LinkAck.parse?, Option.bind_eq_bind, Option.bind_eq_some_iff, Option.pure_def,
    Prod.exists, Option.some.injEq]
  constructor
  · rintro ⟨_, opens, _, _, named, _, toCid, _, _, cid, _, toSid, _, _, sid, rfl⟩
    exact ⟨_, opens, _, _, named, rfl, _, toCid, _, cid, _, toSid, _, sid⟩
  · rintro ⟨_, opens, _, _, named, same, _, toCid, _, cid, _, toSid, _, sid⟩
    exact ⟨_, opens, _, _, named, _, toCid, _, _, cid, _, toSid, _, _, sid, by rw [same]⟩

/-- A parser accepts a message if and only if it is one of the language of some value, and then it
    reads that value. -/
structure Accepts {α : Type} (parse? : List UInt8 → Option α) (grammar : α → Language UInt8) :
    Prop where
  reads : ∀ message value, parse? message = some value ↔ message ∈ grammar value
  refuses : ∀ message, parse? message = none ↔ ∀ value, message ∉ grammar value

/-- Where every value is read from its spellings, nothing is read from anything else. -/
theorem accepts_of_reads {α : Type} {parse? : List UInt8 → Option α}
    {grammar : α → Language UInt8}
    (reads : ∀ message value, parse? message = some value ↔ message ∈ grammar value) :
    Accepts parse? grammar where
  reads := reads
  refuses message := by
    rw [Option.eq_none_iff_forall_ne_some]
    exact forall_congr' fun value => not_congr (reads message value)

/-- **Link grammars.** Each parser of link messages accepts the messages of its grammar and no
    others. -/
theorem scans_exactly : Accepts CtlWrite.parse? CtlWrite.grammar ∧
    Accepts parseStandaloneAck? standaloneGrammar ∧ Accepts LinkAck.parse? LinkAck.grammar :=
  ⟨accepts_of_reads fun _ _ => CtlWrite.parse?_eq_some_iff,
    accepts_of_reads fun _ _ => parseStandaloneAck?_eq_some_iff,
    accepts_of_reads fun _ _ => LinkAck.parse?_eq_some_iff⟩

/-! ### What is written and what is read -/

/-- A text with a comma behind it goes up to its first comma. -/
theorem exists_encode_append_comma (text : String) (rest : List UInt8) : ∃ more,
    Utf8.encode text ++ comma :: rest =
      Utf8.encode (String.ofList (text.toList.takeWhile (· ≠ ','))) ++ comma :: more := by
  by_cases there : ',' ∈ text.toList
  · obtain ⟨front, back, split, plain⟩ := List.eq_append_cons_of_mem there
    have cut : text.toList.takeWhile (· ≠ ',') = front := by
      rw [split, takeWhile_ne_append plain]
    refine ⟨back.flatMap String.utf8EncodeChar ++ comma :: rest, ?_⟩
    rw [cut, Utf8.encode, Utf8.encode, split, String.toList_ofList, List.flatMap_append,
      List.flatMap_cons, List.append_assoc, List.append_assoc]
    rfl
  · have whole : text.toList.takeWhile (· ≠ ',') = text.toList :=
      List.takeWhile_eq_self_iff.mpr (all_ne_of_not_mem there)
    exact ⟨rest, by rw [whole, String.ofList_toList]⟩

/-- The class in a message ends at the first comma, also if that is one of its own. -/
theorem LinkAck.className_of_parse? {a a' : LinkAck} {rest : List UInt8}
    (read : LinkAck.parse? (Utf8.encode a.text ++ rest) = some a') :
    a'.className.toList = a.className.toList.takeWhile (· ≠ ',') := by
  have opening := Scan.literal_append
    (show Scan.isSpaced (Utf8.encode "Link CTL ACK C-Class=") = true from rfl)
  obtain ⟨field, begins⟩ : ∃ field, Utf8.encode ",CID0=" = comma :: field := ⟨_, rfl⟩
  have absent : comma ∉ Utf8.encode (String.ofList (a.className.toList.takeWhile (· ≠ ','))) := by
    rw [show comma = UInt8.ofNat ','.toNat from rfl, Utf8.mem_encode_iff (by decide),
      String.toList_ofList]
    exact fun there => by simpa using List.mem_takeWhile_imp there
  unfold text parse? at read
  simp only [Utf8.encode_append, List.append_assoc, opening, begins, List.cons_append,
    Option.bind_eq_bind, Option.bind_some] at read
  -- the message goes on after the class as it would after the class up to that comma
  obtain ⟨more, same⟩ := exists_encode_append_comma a.className (field ++ (Utf8.encode
    (Numeral.signedDecimal a.cid0.toInt) ++ (Utf8.encode ",SID0=" ++ (Utf8.encode
      (Numeral.signedDecimal a.sid0.toInt) ++ rest))))
  rw [same, Scan.upTo_append absent, Option.bind_some] at read
  simp only [Option.bind_eq_some_iff, Option.pure_def, Option.some.injEq] at read
  obtain ⟨_, -, _, -, _, -, _, -, rfl⟩ := read
  rw [Utf8.decodeLossy_encode, String.toList_ofList]

/-- **Round trips.** What is written is read back, whatever follows it, unless that goes on with a
    digit where a number stands last; but a class is read back if and only if it has no comma. -/
theorem reads_back :
    (∀ (w : CtlWrite) rest, Stops rest →
      CtlWrite.parse? (Utf8.encode w.text ++ rest) = some w) ∧
    (∀ tag rest, parseStandaloneAck? (Utf8.encode (standaloneAck tag) ++ rest) = some tag) ∧
    (∀ (a : LinkAck) rest, Stops rest →
      (LinkAck.parse? (Utf8.encode a.text ++ rest) = some a ↔ ',' ∉ a.className.toList)) ∧
    ∀ (a a' : LinkAck) rest, LinkAck.parse? (Utf8.encode a.text ++ rest) = some a' →
      ',' ∈ a.className.toList → a'.className ≠ a.className := by
  have other : ∀ (a a' : LinkAck) rest, LinkAck.parse? (Utf8.encode a.text ++ rest) = some a' →
      ',' ∈ a.className.toList → a'.className ≠ a.className := by
    intro a a' rest read there same
    have cut := LinkAck.className_of_parse? read
    rw [same] at cut
    rw [cut] at there
    simpa using List.mem_takeWhile_imp there
  refine ⟨fun w rest stops => w.parse?_text stops, parseStandaloneAck?_text,
    fun a rest stops => ⟨fun read there => other a a rest read there rfl, fun plain =>
      a.parse?_text plain stops⟩, other⟩

/-- Extreme integers are read back; of a class that looks like an answer a part is read back, with
    other integers. -/
theorem reads_back_small :
    CtlWrite.parse? (Utf8.encode (CtlWrite.text ⟨-2147483648, 2147483647, -1, 0, 7⟩) ++ [10]) =
        some ⟨-2147483648, 2147483647, -1, 0, 7⟩ ∧
      LinkAck.parse? (Utf8.encode (LinkAck.text ⟨"a b", -2147483648, 3⟩) ++ []) =
        some ⟨"a b", -2147483648, 3⟩ ∧
      LinkAck.parse? (Utf8.encode (LinkAck.text ⟨"a,CID0=1,SID0=2", 5, 6⟩) ++ []) =
        some ⟨"a", 1, 2⟩ ∧ "a" ≠ "a,CID0=1,SID0=2" := by
  have cut : LinkAck.parse? (Utf8.encode (LinkAck.text ⟨"a,CID0=1,SID0=2", 5, 6⟩) ++ []) =
      some ⟨"a", 1, 2⟩ := by decide +kernel
  exact ⟨reads_back.1 _ _ (Scan.stops_cons (by decide) _),
    (reads_back.2.2.1 _ _ Scan.stops_nil).mpr (by decide), cut,
    reads_back.2.2.2 _ _ _ cut (by decide)⟩

end Link

end SharedMailbox
