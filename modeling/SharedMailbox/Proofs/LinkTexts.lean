import Mathlib.Data.Nat.Digits.Defs
import SharedMailbox.Link.Reply
import SharedMailbox.Proofs.Texts

namespace SharedMailbox

/-!
# Link messages read back

What the builders of link messages write, the scanners take apart again, whatever follows it.

* `Scan.literal_append`, `Scan.int_append`, `Scan.upTo_append`: each part of a message is matched by
  what stands for it.
* `Link.CtlWrite.parse?_text`, `Link.LinkAck.parse?_text`, `Link.parseStandaloneAck?_text`: so is
  the message.
* `Link.respond_ping`, `Link.respond_query`, `Link.respond_assignment`: what is answered to which
  request.
-/

/-! ### Parts of messages -/

namespace Scan

variable {text rest : List UInt8}

/-- The input does not go on with a digit. -/
def Stops (rest : List UInt8) : Prop := ∀ b ∈ rest.head?, isDigit b = false

/-- Digits stop at the end. -/
theorem stops_nil : Stops [] := by simp [Stops]

/-- Digits stop before a byte that is none. -/
theorem stops_cons {b : UInt8} (h : isDigit b = false) (rest : List UInt8) : Stops (b :: rest) := by
  simpa [Stops] using h

/-- Every space of a text stands before something visible. -/
def isSpaced : List UInt8 → Bool
  | [] => true
  | p :: text => (p ≠ 32 || text.head?.any fun q => !isBlank q) && isSpaced text

/-- Before a visible byte there is no blank to skip. -/
theorem skipBlanks_of_visible {b : UInt8} (visible : isBlank b = false) (rest : List UInt8) :
    skipBlanks (b :: rest) = b :: rest := by
  simp [skipBlanks, visible]

/-- A text matches itself. -/
theorem literal_append (spaced : isSpaced text = true) (rest : List UInt8) :
    literal text (text ++ rest) = some rest := by
  induction text with
  | nil => rfl
  | cons p text ih =>
    simp only [isSpaced, Bool.and_eq_true, Bool.or_eq_true] at spaced
    obtain ⟨front, spaced⟩ := spaced
    rw [List.cons_append, literal]
    split
    next space =>
      -- the space is skipped, and what stands behind it is not
      subst space
      have next : text.head?.any (fun q => !isBlank q) = true := by simpa using front
      obtain ⟨q, head, visible⟩ := (Option.any_eq_true _ _).mp next
      obtain ⟨text', rfl⟩ := List.head?_eq_some_iff.mp head
      have skipped : skipBlanks (32 :: (q :: text' ++ rest)) = q :: text' ++ rest := by
        rw [List.cons_append]
        show skipBlanks (q :: (text' ++ rest)) = _
        exact skipBlanks_of_visible (by simpa using visible) _
      rw [skipped]
      exact ih spaced
    next => simpa using ih spaced

/-- What stands before the first stop byte. -/
theorem upTo_append {stop : UInt8} (absent : stop ∉ text) (rest : List UInt8) :
    upTo stop (text ++ stop :: rest) = some (text, stop :: rest) := by
  rw [upTo, if_pos (by simp), takeWhile_ne_append absent, dropWhile_ne_append absent]

end Scan

/-! ### Integers -/

namespace Utf8

/-- The bytes of a decimal text are the codes of its digits. -/
theorem encode_decimal (n : Nat) : encode (Numeral.decimal n) =
    (Nat.toDigits 10 n).map fun c => UInt8.ofNat c.toNat := by
  rw [encode_of_ascii, Numeral.toList_decimal]
  intro c hc
  rw [Numeral.toList_decimal] at hc
  have := Numeral.code_of_mem_toDigits hc
  omega

/-- A number below a power of ten has as many digits at most. -/
theorem length_encode_decimal_le {n k : Nat} (pos : 0 < k) (lt : n < 10 ^ k) :
    (encode (Numeral.decimal n)).length ≤ k := by
  rw [encode_decimal, List.length_map]
  exact Nat.toDigits_length 10 n k pos lt

/-- Every number has a digit. -/
theorem encode_decimal_ne_nil (n : Nat) : encode (Numeral.decimal n) ≠ [] := by
  rw [encode_decimal]
  simp [Nat.toDigits_ne_nil]

/-- The bytes of a decimal text are digits. -/
theorem isDigit_of_mem_decimal {n : Nat} {b : UInt8} (h : b ∈ encode (Numeral.decimal n)) :
    Scan.isDigit b = true := by
  rw [encode_decimal, List.mem_map] at h
  obtain ⟨c, hc, rfl⟩ := h
  obtain ⟨low, high⟩ := Numeral.code_of_mem_toDigits hc
  have code : (UInt8.ofNat c.toNat).toNat = c.toNat := by
    rw [UInt8.toNat_ofNat']
    omega
  simp only [Scan.isDigit, Bool.and_eq_true, decide_eq_true_eq, UInt8.le_iff_toNat_le, code]
  exact ⟨low, high⟩

/-- They have the value of the number. -/
theorem value?_decimal (n : Nat) :
    Numeral.value? 10 ((encode (Numeral.decimal n)).map UInt8.toNat) = some n := by
  have codes : (encode (Numeral.decimal n)).map UInt8.toNat =
      (Nat.toDigits 10 n).map Char.toNat := by
    rw [encode_decimal, List.map_map]
    apply List.map_congr_left
    intro c hc
    have := Numeral.code_of_mem_toDigits hc
    show (UInt8.ofNat c.toNat).toNat = c.toNat
    rw [UInt8.toNat_ofNat']
    omega
  rw [codes, Numeral.value?_toDigits (by decide) (by decide)]

end Utf8

namespace Scan

variable {rest : List UInt8}

/-- Where digits stop none is taken. -/
theorem takeWhile_of_stops (stops : Stops rest) : rest.takeWhile isDigit = [] := by
  cases rest with
  | nil => rfl
  | cons b rest => simp [stops b rfl]

/-- Where digits stop none is dropped. -/
theorem dropWhile_of_stops (stops : Stops rest) : rest.dropWhile isDigit = rest := by
  cases rest with
  | nil => rfl
  | cons b rest => simp [stops b rfl]

/-- A digit is no blank. -/
theorem isBlank_of_isDigit {b : UInt8} (digit : isDigit b = true) : isBlank b = false := by
  simp only [isDigit, Bool.and_eq_true, decide_eq_true_eq, UInt8.le_iff_toNat_le] at digit
  simp only [isBlank, Bool.or_eq_false_iff, beq_eq_false_iff_ne, ne_eq, ← UInt8.toNat_inj]
  simp only [UInt8.reduceToNat] at digit ⊢
  omega

/-- Before a digit there is no sign. -/
theorem sign_of_isDigit {b : UInt8} (digit : isDigit b = true) (rest : List UInt8) :
    sign (b :: rest) = (false, b :: rest) := by
  unfold sign
  split
  next h =>
    rw [(List.cons.inj h).1] at digit
    cases digit
  next h =>
    rw [(List.cons.inj h).1] at digit
    cases digit
  next => rfl

/-- The sign of an integer, and its digits. -/
theorem sign_append (n : Int) (rest : List UInt8) :
    sign (skipBlanks (Utf8.encode (Numeral.signedDecimal n) ++ rest)) =
      (decide (n < 0), Utf8.encode (Numeral.decimal n.natAbs) ++ rest) := by
  unfold Numeral.signedDecimal
  split
  next negative =>
    have minus : Utf8.encode "-" = [45] := by rfl
    rw [Utf8.encode_append, minus, List.cons_append, List.nil_append, List.cons_append,
      skipBlanks_of_visible (by decide), sign, decide_eq_true negative]
  next positive =>
    obtain ⟨b, digits, text⟩ := List.exists_cons_of_ne_nil (Utf8.encode_decimal_ne_nil n.natAbs)
    have digit : isDigit b = true := Utf8.isDigit_of_mem_decimal (n := n.natAbs) (by simp [text])
    rw [text, List.cons_append, skipBlanks_of_visible (isBlank_of_isDigit digit),
      sign_of_isDigit digit, decide_eq_false positive]

/-- An integer is read up to its last digit. -/
theorem int_append (v : Int32) (stops : Stops rest) :
    int (Utf8.encode (Numeral.signedDecimal v.toInt) ++ rest) = some (v, rest) := by
  have digits : ∀ b ∈ Utf8.encode (Numeral.decimal v.toInt.natAbs), isDigit b = true :=
    fun b hb => Utf8.isDigit_of_mem_decimal hb
  have value : Numeral.signed (decide (v.toInt < 0)) v.toInt.natAbs = v.toInt := by
    unfold Numeral.signed
    split
    next negative =>
      rw [decide_eq_true_eq] at negative
      omega
    next positive =>
      rw [decide_eq_true_eq] at positive
      omega
  have read : Numeral.int32? v.toInt = some v := Numeral.int32?_eq_some_iff.mpr rfl
  rw [int, sign_append]
  simp only [List.takeWhile_append_of_pos digits, List.dropWhile_append_of_pos digits,
    takeWhile_of_stops stops, dropWhile_of_stops stops, List.append_nil, Utf8.value?_decimal, value,
    read, Option.map_some]

end Scan

/-! ### Messages -/

namespace Link

open Numeral (signedDecimal)
open Scan (Stops)

variable {rest : List UInt8}

/-- A field begins with a comma, at which a number before it ends. -/
theorem stops_field {name : String} (comma : (Utf8.encode name).head? = some 44)
    (rest : List UInt8) : Stops (Utf8.encode name ++ rest) := by
  obtain ⟨more, begins⟩ := List.head?_eq_some_iff.mp comma
  rw [begins]
  exact Scan.stops_cons (by decide) _

/-- An assignment is read back. -/
theorem CtlWrite.parse?_text (w : CtlWrite) (stops : Stops rest) :
    CtlWrite.parse? (Utf8.encode w.text ++ rest) = some w := by
  have opening := Scan.literal_append
    (show Scan.isSpaced (Utf8.encode "CTL-Write Space=0,PFMCID=") = true from rfl)
  have pfmsid := Scan.literal_append (show Scan.isSpaced (Utf8.encode ",PFMSID=") = true from rfl)
  have cid := Scan.literal_append (show Scan.isSpaced (Utf8.encode ",CID=") = true from rfl)
  have sid := Scan.literal_append (show Scan.isSpaced (Utf8.encode ",SID=") = true from rfl)
  have tag := Scan.literal_append (show Scan.isSpaced (Utf8.encode ",Tag=") = true from rfl)
  unfold text parse?
  simp only [Utf8.encode_append, List.append_assoc, Option.bind_eq_bind, Option.bind_some,
    Option.pure_def, opening, pfmsid, cid, sid, tag, Scan.int_append _ stops,
    Scan.int_append _ (stops_field (show (Utf8.encode ",PFMSID=").head? = _ from rfl) _),
    Scan.int_append _ (stops_field (show (Utf8.encode ",CID=").head? = _ from rfl) _),
    Scan.int_append _ (stops_field (show (Utf8.encode ",SID=").head? = _ from rfl) _),
    Scan.int_append _ (stops_field (show (Utf8.encode ",Tag=").head? = _ from rfl) _)]

/-- An answer to a query is read back, if its class has no comma in it. -/
theorem LinkAck.parse?_text (a : LinkAck) (plain : ',' ∉ a.className.toList)
    (stops : Stops rest) : LinkAck.parse? (Utf8.encode a.text ++ rest) = some a := by
  have opening := Scan.literal_append
    (show Scan.isSpaced (Utf8.encode "Link CTL ACK C-Class=") = true from rfl)
  have cid := Scan.literal_append (show Scan.isSpaced (Utf8.encode ",CID0=") = true from rfl)
  have sid := Scan.literal_append (show Scan.isSpaced (Utf8.encode ",SID0=") = true from rfl)
  have absent : Scan.comma ∉ Utf8.encode a.className := by
    rw [show Scan.comma = UInt8.ofNat ','.toNat from rfl, Utf8.mem_encode_iff (by decide)]
    exact plain
  -- the class ends at the comma of the next field
  obtain ⟨field, begins⟩ : ∃ field, Utf8.encode ",CID0=" = Scan.comma :: field := ⟨_, rfl⟩
  have named := fun more => Scan.upTo_append absent (field ++ more)
  simp only [← List.cons_append, ← begins] at named
  unfold text parse?
  simp only [Utf8.encode_append, List.append_assoc, Option.bind_eq_bind, Option.bind_some,
    Option.pure_def, opening, named, cid, sid, Scan.int_append _ stops,
    Scan.int_append _ (stops_field (show (Utf8.encode ",SID0=").head? = _ from rfl) _),
    Utf8.decodeLossy_encode]

/-- A tag is read back. -/
theorem parseStandaloneAck?_text (tag : Int32) (rest : List UInt8) :
    parseStandaloneAck? (Utf8.encode (standaloneAck tag) ++ rest) = some tag := by
  have opening := Scan.literal_append
    (show Scan.isSpaced (Utf8.encode "Standalone Acknowledgment Tag=") = true from rfl)
  have reason := Scan.literal_append
    (show Scan.isSpaced (Utf8.encode ",Reason=OK") = true from rfl)
  unfold standaloneAck parseStandaloneAck?
  simp only [Utf8.encode_append, List.append_assoc, Option.bind_eq_bind, Option.bind_some,
    Option.pure_def, opening, reason,
    Scan.int_append _ (stops_field (show (Utf8.encode ",Reason=OK").head? = _ from rfl) _)]

/-! ### Lengths -/

/-- An assignment is as long as its numbers and 48 bytes of text between them. -/
theorem CtlWrite.length_text (w : CtlWrite) : (Utf8.encode w.text).length =
    48 + (Utf8.encode (signedDecimal w.pfmcid.toInt)).length +
      (Utf8.encode (signedDecimal w.pfmsid.toInt)).length +
      (Utf8.encode (signedDecimal w.cid.toInt)).length +
      (Utf8.encode (signedDecimal w.sid.toInt)).length +
      (Utf8.encode (signedDecimal w.tag.toInt)).length := by
  have names : (Utf8.encode "CTL-Write Space=0,PFMCID=").length = 25 ∧
      (Utf8.encode ",PFMSID=").length = 8 ∧ (Utf8.encode ",CID=").length = 5 ∧
      (Utf8.encode ",SID=").length = 5 ∧ (Utf8.encode ",Tag=").length = 5 := by decide +kernel
  unfold text
  generalize signedDecimal w.pfmcid.toInt = a, signedDecimal w.pfmsid.toInt = b,
    signedDecimal w.cid.toInt = c, signedDecimal w.sid.toInt = d, signedDecimal w.tag.toInt = e
  simp only [Utf8.encode_append, List.length_append, names]
  omega

/-- A standalone acknowledgment is as long as its tag and 40 bytes of text before it. -/
theorem length_standaloneAck (tag : Int32) : (Utf8.encode (standaloneAck tag)).length =
    40 + (Utf8.encode (signedDecimal tag.toInt)).length := by
  have names : (Utf8.encode "Standalone Acknowledgment Tag=").length = 30 ∧
      (Utf8.encode ",Reason=OK").length = 10 := by decide +kernel
  unfold standaloneAck
  generalize signedDecimal tag.toInt = a
  simp only [Utf8.encode_append, List.length_append, names]
  omega

/-! ### Answers -/

/-- A ping is answered by a pong, and changes nothing. -/
theorem respond_ping (id : Identity) : respond id ping = some (id, pong) := by
  rw [respond, if_pos rfl]

/-- Who is asked for its class and ids tells them, which changes nothing. -/
theorem respond_query (id : Identity) : respond id (Utf8.encode peerAttribute) =
    some (id, Utf8.encode (LinkAck.text ⟨id.className, id.cid0, id.sid0⟩)) := by
  have noPing : Utf8.encode peerAttribute ≠ ping := by decide +kernel
  rw [respond, if_neg noPing, if_pos (by simp)]

/-- Who is assigned ids takes them, and answers with the tag. -/
theorem respond_assignment (id : Identity) (w : CtlWrite) : respond id (Utf8.encode w.text) =
    some (id.assign w, Utf8.encode (standaloneAck w.tag)) := by
  have read := w.parse?_text Scan.stops_nil
  rw [List.append_nil] at read
  -- its first letter tells an assignment from a ping and from a query
  obtain ⟨rest, begins⟩ : ∃ rest, Utf8.encode w.text = 67 :: rest := by
    unfold CtlWrite.text
    simp only [Utf8.encode_append, List.append_assoc]
    exact ⟨_, rfl⟩
  have noPing : Utf8.encode w.text ≠ ping := by
    rw [begins]
    rintro h
    exact absurd (List.cons.inj h).1 (by decide)
  have noQuery : ¬ (Utf8.encode peerAttribute).isPrefixOf (Utf8.encode w.text) = true := by
    have link : Utf8.encode peerAttribute = 76 :: Utf8.encode "ink CTL Peer-Attribute" := rfl
    rw [begins, link]
    simp [List.isPrefixOf]
  rw [respond, if_neg noPing, if_neg noQuery, read]

end Link

end SharedMailbox
