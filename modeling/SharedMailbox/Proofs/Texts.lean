import Mathlib.Data.List.Basic
import Mathlib.Tactic.IntervalCases
import SharedMailbox.Frame.Request
import SharedMailbox.Link.Message

namespace SharedMailbox

/-!
# Texts read back

What is written as decimal text or as UTF-8 is read back, by the readers of the library, as what it
was.

* `Numeral.value?_toDigits`: the digits of a number have its value.
* `Utf8.decode?_encode`, `Utf8.decodeLossy_encode`: a string is what its bytes encode.
* `Utf8.Begun`, `Utf8.decode?_eq_some_iff`: a decoder in the middle of a character; a string is read
  from its own bytes and from no others.
* `Utf8.mem_encode_iff`: an ASCII byte stands for its character only.
* `takeWhile_ne_append`, `dropWhile_ne_append`: a text that is split at the first of its stops.
-/

/-! ### Splitting -/

section Splitting

variable {α : Type*} [DecidableEq α] {stop : α} {front : List α}

/-- No symbol of a text without a stop is one. -/
theorem all_ne_of_not_mem (absent : stop ∉ front) : ∀ a ∈ front, decide (a ≠ stop) = true := by
  intro a ha
  rw [decide_eq_true_eq]
  rintro rfl
  exact absent ha

/-- What stands before the first stop. -/
theorem takeWhile_ne_append (absent : stop ∉ front) (back : List α) :
    (front ++ stop :: back).takeWhile (· ≠ stop) = front := by
  rw [List.takeWhile_append_of_pos (all_ne_of_not_mem absent)]
  simp

/-- What begins with the first stop. -/
theorem dropWhile_ne_append (absent : stop ∉ front) (back : List α) :
    (front ++ stop :: back).dropWhile (· ≠ stop) = stop :: back := by
  rw [List.dropWhile_append_of_pos (all_ne_of_not_mem absent)]
  simp

end Splitting

/-! ### Numerals -/

namespace Numeral

/-- Digits stand for themselves. -/
theorem digit?_digitChar {radix d : Nat} (lt : d < radix) (le : radix ≤ 16) :
    digit? radix (Nat.digitChar d).toNat = some d := by
  have all : ∀ d < 16, ∀ radix, d < radix → digit? radix (Nat.digitChar d).toNat = some d := by
    intro d small radix lt
    interval_cases d <;> exact if_pos ⟨lt, by decide⟩
  exact all d (Nat.lt_of_lt_of_le lt le) radix lt

/-- Digits in two parts are read on from the value of the first. -/
theorem valueFrom?_append (radix : Nat) (codes codes' : List Nat) (n : Nat) :
    valueFrom? radix n (codes ++ codes') =
      (valueFrom? radix n codes).bind fun m => valueFrom? radix m codes' := by
  induction codes generalizing n with
  | nil => rfl
  | cons code codes ih =>
    rw [List.cons_append, valueFrom?, valueFrom?]
    split
    · exact ih _
    · rfl

/-- The digits of a number have its value. -/
theorem valueFrom?_toDigits {radix : Nat} (low : 1 < radix) (high : radix ≤ 16) (n : Nat) :
    valueFrom? radix 0 ((Nat.toDigits radix n).map Char.toNat) = some n := by
  induction n using Nat.strongRecOn with
  | ind n ih =>
    by_cases small : n < radix
    · rw [Nat.toDigits_of_lt_base small]
      simp [valueFrom?, digit?_digitChar small high]
    · -- the last digit is read on from the value of those before it
      have last : digit? radix (Nat.digitChar (n % radix)).toNat = some (n % radix) :=
        digit?_digitChar (Nat.mod_lt _ (by omega)) high
      have less : n / radix < n := Nat.div_lt_self (by omega) low
      rw [Nat.toDigits_of_base_le low (Nat.le_of_not_lt small), List.map_append,
        valueFrom?_append, ih (n / radix) less]
      simp only [List.map_cons, List.map_nil, Option.bind_some, valueFrom?, last]
      rw [Nat.div_add_mod]

/-- The digits of a number have its value. -/
theorem value?_toDigits {radix : Nat} (low : 1 < radix) (high : radix ≤ 16) (n : Nat) :
    value? radix ((Nat.toDigits radix n).map Char.toNat) = some n := by
  have some : (Nat.toDigits radix n).map Char.toNat ≠ [] := by simp [Nat.toDigits_ne_nil]
  rw [value?, if_neg some, valueFrom?_toDigits low high]

/-- The decimal text of a number is that of its digits. -/
theorem toList_decimal (n : Nat) : (decimal n).toList = Nat.toDigits 10 n := by
  simp [decimal]

/-- Digits have codes from 48 to 57. -/
theorem code_of_mem_toDigits {n : Nat} {c : Char} (h : c ∈ Nat.toDigits 10 n) :
    48 ≤ c.toNat ∧ c.toNat ≤ 57 := by
  have digit := Nat.isDigit_of_mem_toDigits (by decide) (by decide) h
  simpa [Char.isDigit, UInt32.le_iff_toNat_le] using digit

/-- Only the digits of zero begin with a zero. -/
theorem eq_zero_of_toDigits {n : Nat} {rest : List Char} (h : Nat.toDigits 10 n = '0' :: rest) :
    n = 0 := by
  induction n using Nat.strongRecOn generalizing rest with
  | ind n ih =>
    by_cases small : n < 10
    · rw [Nat.toDigits_of_lt_base small] at h
      interval_cases n <;> first | rfl | cases h
    · rw [Nat.toDigits_of_base_le (by decide) (Nat.le_of_not_lt small)] at h
      -- the first digit is that of the number without its last digit
      have some : Nat.toDigits 10 (n / 10) ≠ [] := Nat.toDigits_ne_nil
      obtain ⟨first, others, front⟩ := List.exists_cons_of_ne_nil some
      rw [front, List.cons_append] at h
      have zero := (List.cons.inj h).1
      rw [zero] at front
      have := ih (n / 10) (by omega) front
      omega

end Numeral

/-! ### UTF-8 -/

namespace Utf8

/-- The bytes of a text in two parts are those of both. -/
theorem encode_append (s t : String) : encode (s ++ t) = encode s ++ encode t := by
  simp [encode]

/-- Pieces are read byte by byte. -/
theorem piecesFrom_cons (state : State) (b : UInt8) (bs : List UInt8) :
    piecesFrom state (b :: bs) = (step state b).2 ++ piecesFrom (step state b).1 bs := by
  cases state <;> rfl

/-- A byte that leads the bytes of a character. -/
theorem step_lead {b : UInt8} {state : State} (h : lead b = some state) :
    step .start b = (state, []) := by
  have big : ¬ b < 0x80 := by
    intro small
    rw [UInt8.lt_iff_toNat_lt] at small
    unfold lead at h
    simp only [UInt8.le_iff_toNat_le, ← UInt8.toNat_inj, UInt8.reduceToNat] at h small
    split_ifs at h <;> omega
  simp only [step, first, if_neg big, h]

/-- A byte that goes on with a character. -/
theorem step_inside {left : Nat} {lo hi b : UInt8} {code : Nat} (within : lo ≤ b ∧ b ≤ hi)
    (more : 1 < left) : step (.inside left lo hi code) b =
      (.inside (left - 1) 0x80 0xBF (code * 64 + (b.toNat - 0x80)), []) := by
  simp only [step, if_pos within, if_neg (Nat.not_le_of_lt more)]

/-- A byte that completes a character. -/
theorem step_last {lo hi b : UInt8} {code : Nat} (within : lo ≤ b ∧ b ≤ hi) :
    step (.inside 1 lo hi code) b =
      (.start, [some (Char.ofNat (code * 64 + (b.toNat - 0x80)))]) := by
  simp only [step, if_pos within, Nat.le_refl, if_true]

/-- The byte that goes on with a character by six bits. -/
theorem toNat_tail (n : Nat) : (UInt8.ofNat (n % 64 + 128)).toNat = n % 64 + 128 := by
  rw [UInt8.toNat_ofNat']
  omega

/-- The last six bits of a number make a byte that goes on with a character. -/
theorem tail_within (n : Nat) :
    (0x80 : UInt8) ≤ UInt8.ofNat (n % 64 + 128) ∧ UInt8.ofNat (n % 64 + 128) ≤ 0xBF := by
  simp only [UInt8.le_iff_toNat_le, toNat_tail, UInt8.reduceToNat]
  omega

/-- The first byte of a character of two. -/
theorem lead_two : ∀ n < 32, 2 ≤ n →
    lead (UInt8.ofNat (n + 192)) = some (.inside 1 0x80 0xBF n) := by decide

/-- The first byte of a character of three, with the bounds that exclude long forms and
    surrogates. -/
theorem lead_three : ∀ n < 16, lead (UInt8.ofNat (n + 224)) =
    some (.inside 2 (if n = 0 then 0xA0 else 0x80) (if n = 13 then 0x9F else 0xBF) n) := by decide

/-- The first byte of a character of four, with the bounds that exclude long forms and codes that
    are too high. -/
theorem lead_four : ∀ n < 5, lead (UInt8.ofNat (n + 240)) =
    some (.inside 3 (if n = 0 then 0x90 else 0x80) (if n = 4 then 0x8F else 0xBF) n) := by decide

/-- The bytes of a character are one piece. -/
theorem piecesFrom_encodeChar (c : Char) (bs : List UInt8) :
    piecesFrom .start (String.utf8EncodeChar c ++ bs) = some c :: piecesFrom .start bs := by
  have valid : c.val.toNat < 0xD800 ∨ 0xDFFF < c.val.toNat ∧ c.val.toNat < 0x110000 := c.valid
  have same : Char.ofNat c.val.toNat = c := Char.ofNat_toNat c
  rw [String.utf8EncodeChar]
  generalize c.val.toNat = v at *
  -- as many cases as a character may have bytes
  split_ifs with one two three
  · have small : UInt8.ofNat v < 0x80 := by
      rw [UInt8.lt_iff_toNat_lt, UInt8.toNat_ofNat']
      simp only [UInt8.reduceToNat]
      omega
    have code : (UInt8.ofNat v).toNat = v := by
      rw [UInt8.toNat_ofNat']
      omega
    rw [List.cons_append, List.nil_append, piecesFrom_cons]
    simp only [step, first, if_pos small, code, same, List.singleton_append]
  · have lead := lead_two (v / 64 % 32) (by omega) (by omega)
    have value : v / 64 % 32 * 64 + v % 64 = v := by omega
    simp only [List.cons_append, List.nil_append, piecesFrom_cons, step_lead lead,
      step_last (tail_within v), toNat_tail, Nat.add_sub_cancel, value, same]
  · have lead := lead_three (v / 4096 % 16) (by omega)
    have within : (if v / 4096 % 16 = 0 then 0xA0 else 0x80 : UInt8) ≤
          UInt8.ofNat (v / 64 % 64 + 128) ∧
        UInt8.ofNat (v / 64 % 64 + 128) ≤ (if v / 4096 % 16 = 13 then 0x9F else 0xBF : UInt8) := by
      simp only [UInt8.le_iff_toNat_le, toNat_tail]
      constructor <;> split_ifs <;> simp only [UInt8.reduceToNat] <;> omega
    have value : (v / 4096 % 16 * 64 + v / 64 % 64) * 64 + v % 64 = v := by omega
    simp only [List.cons_append, List.nil_append, piecesFrom_cons, step_lead lead,
      step_inside within (show 1 < 2 by decide), step_last (tail_within v), toNat_tail,
      Nat.add_sub_cancel, value, same]
  · have lead := lead_four (v / 262144 % 8) (by omega)
    have within : (if v / 262144 % 8 = 0 then 0x90 else 0x80 : UInt8) ≤
          UInt8.ofNat (v / 4096 % 64 + 128) ∧
        UInt8.ofNat (v / 4096 % 64 + 128) ≤
          (if v / 262144 % 8 = 4 then 0x8F else 0xBF : UInt8) := by
      simp only [UInt8.le_iff_toNat_le, toNat_tail]
      constructor <;> split_ifs <;> simp only [UInt8.reduceToNat] <;> omega
    have value : ((v / 262144 % 8 * 64 + v / 4096 % 64) * 64 + v / 64 % 64) * 64 + v % 64 = v := by
      omega
    simp only [List.cons_append, List.nil_append, piecesFrom_cons, step_lead lead,
      step_inside within (show 1 < 3 by decide),
      step_inside (tail_within (v / 64)) (show 1 < 2 by decide), step_last (tail_within v),
      toNat_tail, Nat.add_sub_cancel, value, same]

/-- The pieces of what was encoded are its characters. -/
theorem pieces_encode (s : String) : pieces (encode s) = s.toList.map some := by
  unfold pieces encode
  induction s.toList with
  | nil => rfl
  | cons c text ih => rw [List.flatMap_cons, piecesFrom_encodeChar, ih, List.map_cons]

/-- All pieces are characters. -/
theorem all_eq_some_iff {pieces : List (Option Char)} {text : List Char} :
    pieces.mapM (id : Option Char → Option Char) = some text ↔ pieces = text.map some := by
  induction pieces generalizing text with
  | nil => cases text <;> simp
  | cons piece pieces ih =>
    rw [List.mapM_cons]
    cases piece with
    | none => cases text <;> simp
    | some c => cases text <;> simp [Option.bind_eq_some_iff, ih, and_comm]

/-- A string is what its bytes encode. -/
theorem decode?_encode (s : String) : decode? (encode s) = some s := by
  rw [decode?, pieces_encode, all_eq_some_iff.mpr rfl, Option.map_some, String.ofList_toList]

/-- A text is read back from its bytes. -/
theorem decodeLossy_encode (s : String) : decodeLossy (encode s) = s := by
  rw [decodeLossy, pieces_encode, List.map_map]
  simp [Function.comp_def]

/-! ### Well-formed bytes -/

/-- The bytes that a decoder has seen of the character it stands in. -/
inductive Begun : State → List UInt8 → Prop
  | start : Begun .start []
  | lead {b : UInt8} {state : State} (leads : lead b = some state) : Begun state [b]
  | more {left : Nat} {lo hi b : UInt8} {code : Nat} {front : List UInt8}
      (begun : Begun (.inside (left + 1) lo hi code) front) (within : lo ≤ b ∧ b ≤ hi)
      (wants : 0 < left) :
      Begun (.inside left 0x80 0xBF (code * 64 + (b.toNat - 0x80))) (front ++ [b])

/-- What a byte leads: a character of two, three or four bytes, the bits so far, and the bounds of
    the next byte, within which the character is one that needs as many bytes. -/
inductive Leads (b : UInt8) : Nat → UInt8 → UInt8 → Nat → Prop
  | two {lo hi : UInt8} {code : Nat} (byte : b.toNat = code + 0xC0) (bits : 2 ≤ code ∧ code < 32)
      (bounds : 0x80 ≤ lo.toNat ∧ hi.toNat ≤ 0xBF) : Leads b 1 lo hi code
  | three {lo hi : UInt8} {code : Nat} (byte : b.toNat = code + 0xE0) (bits : code < 16)
      (bounds : 0x80 ≤ lo.toNat ∧ hi.toNat ≤ 0xBF) (long : 0 < code ∨ 0xA0 ≤ lo.toNat)
      (scalar : code ≠ 13 ∨ hi.toNat ≤ 0x9F) : Leads b 2 lo hi code
  | four {lo hi : UInt8} {code : Nat} (byte : b.toNat = code + 0xF0) (bits : code < 5)
      (bounds : 0x80 ≤ lo.toNat ∧ hi.toNat ≤ 0xBF) (long : 0 < code ∨ 0x90 ≤ lo.toNat)
      (scalar : code < 4 ∨ hi.toNat ≤ 0x8F) : Leads b 3 lo hi code

/-- What is read as a first byte leads such a character. -/
theorem leads_of_lead {b : UInt8} {left : Nat} {lo hi : UInt8} {code : Nat}
    (leads : lead b = some (.inside left lo hi code)) : Leads b left lo hi code := by
  unfold lead at leads
  simp only [UInt8.le_iff_toNat_le, ← UInt8.toNat_inj, UInt8.reduceToNat] at leads
  split_ifs at leads <;> cases leads
  · exact .two (by omega) (by omega) (by decide)
  · exact .three (by omega) (by omega) (by decide) (by decide) (by decide)
  · exact .three (by omega) (by omega) (by decide) (by decide) (by decide)
  · exact .three (by omega) (by omega) (by decide) (by omega) (by omega)
  · exact .four (by omega) (by omega) (by decide) (by decide) (by decide)
  · exact .four (by omega) (by omega) (by decide) (by omega) (by omega)
  · exact .four (by omega) (by omega) (by decide) (by decide) (by decide)

/-- The code of a character is what it was made from. -/
theorem toNat_val_ofNat {v : Nat} (valid : v.isValidChar) : (Char.ofNat v).val.toNat = v := by
  rw [Char.ofNat, dif_pos valid]
  rfl

/-- Between characters nothing has begun. -/
theorem Begun.eq_nil {front : List UInt8} (begun : Begun .start front) : front = [] := by
  generalize same : State.start = state at begun
  cases begun with
  | start => rfl
  | lead leads =>
    subst same
    unfold Utf8.lead at leads
    split_ifs at leads <;> cases leads
  | more => cases same

/-- A character that has begun wants at least one byte more. -/
theorem Begun.pos {left : Nat} {lo hi : UInt8} {code : Nat} {front : List UInt8}
    (begun : Begun (.inside left lo hi code) front) : 0 < left := by
  cases begun with
  | lead leads => cases leads_of_lead leads <;> decide
  | more _ _ wants => exact wants

/-- A character that has begun wants at most three bytes more. -/
theorem Begun.left_le {left : Nat} {lo hi : UInt8} {code : Nat} {front : List UInt8}
    (begun : Begun (.inside left lo hi code) front) : left ≤ 3 := by
  generalize same : State.inside left lo hi code = state at begun
  induction begun generalizing left lo hi code with
  | start => cases same
  | lead leads =>
    subst same
    cases leads_of_lead leads <;> decide
  | more _ _ _ ih =>
    cases same
    exact Nat.le_of_succ_le (ih rfl)

/-- A byte is the one with a number, if that is its own. -/
theorem ofNat_eq {b : UInt8} {n : Nat} (h : n = b.toNat) : UInt8.ofNat n = b := by
  rw [h, UInt8.ofNat_toNat]

/-- The bytes of a character that a byte completes. -/
theorem Begun.encodeChar {lo hi b : UInt8} {code : Nat} {front : List UInt8}
    (begun : Begun (.inside 1 lo hi code) front) (within : lo ≤ b ∧ b ≤ hi) :
    String.utf8EncodeChar (Char.ofNat (code * 64 + (b.toNat - 0x80))) = front ++ [b] := by
  rw [UInt8.le_iff_toNat_le, UInt8.le_iff_toNat_le] at within
  generalize value : code * 64 + (b.toNat - 0x80) = v
  -- as many cases as a character of more than one byte may have bytes
  cases begun with
  | @lead b₁ _ leads =>
    cases leads_of_lead leads with
    | two byte bits bounds =>
      have valid : v.isValidChar := .inl (by omega)
      rw [String.utf8EncodeChar, toNat_val_ofNat valid, if_neg (by omega), if_pos (by omega),
        ofNat_eq (b := b₁) (by omega), ofNat_eq (b := b) (by omega)]
      rfl
  | @more _ _ _ b₁ _ _ begun within₁ =>
    rw [UInt8.le_iff_toNat_le, UInt8.le_iff_toNat_le] at within₁
    simp only [UInt8.reduceToNat] at within
    cases begun with
    | @lead b₂ _ leads =>
      cases leads_of_lead leads with
      | three byte bits bounds long scalar =>
        have valid : v.isValidChar := by
          unfold Nat.isValidChar
          omega
        rw [String.utf8EncodeChar, toNat_val_ofNat valid, if_neg (by omega), if_neg (by omega),
          if_pos (by omega), ofNat_eq (b := b₂) (by omega), ofNat_eq (b := b₁) (by omega),
          ofNat_eq (b := b) (by omega)]
        rfl
    | @more _ _ _ b₂ _ _ begun within₂ =>
      rw [UInt8.le_iff_toNat_le, UInt8.le_iff_toNat_le] at within₂
      simp only [UInt8.reduceToNat] at within₁
      cases begun with
      | @lead b₃ _ leads =>
        cases leads_of_lead leads with
        | four byte bits bounds long scalar =>
          have valid : v.isValidChar := .inr (by omega)
          rw [String.utf8EncodeChar, toNat_val_ofNat valid, if_neg (by omega), if_neg (by omega),
            if_neg (by omega), ofNat_eq (b := b₃) (by omega), ofNat_eq (b := b₂) (by omega),
            ofNat_eq (b := b₁) (by omega), ofNat_eq (b := b) (by omega)]
          rfl
      | more begun => exact absurd begun.left_le (by decide)

/-- What a byte does where nothing is ill-formed: the character goes on, or it is completed. -/
theorem Begun.step {state : State} {front : List UInt8} (begun : Begun state front) (b : UInt8)
    (whole : none ∉ (step state b).2) :
    (Begun (Utf8.step state b).1 (front ++ [b]) ∧ (Utf8.step state b).2 = []) ∨
      ∃ c, Utf8.step state b = (.start, [some c]) ∧ String.utf8EncodeChar c = front ++ [b] := by
  cases state with
  | start =>
    obtain rfl := begun.eq_nil
    by_cases ascii : b < 0x80
    · have code : b.toNat < 128 := UInt8.lt_iff_toNat_lt.mp ascii
      refine .inr ⟨_, by simp only [Utf8.step, first, if_pos ascii]; rfl, ?_⟩
      rw [String.utf8EncodeChar, toNat_val_ofNat (.inl (by omega)), if_pos (by omega),
        UInt8.ofNat_toNat, List.nil_append]
    · rcases leads : Utf8.lead b with _ | state
      · simp [Utf8.step, first, ascii, leads] at whole
      · rw [step_lead leads]
        exact .inl ⟨.lead leads, rfl⟩
  | inside left lo hi code =>
    by_cases within : lo ≤ b ∧ b ≤ hi
    · -- the last byte that is left completes the character, any other only goes on
      by_cases more : 1 < left
      · rw [step_inside within more]
        obtain ⟨left, rfl⟩ : ∃ rest, left = rest + 1 := ⟨left - 1, by omega⟩
        exact .inl ⟨begun.more within (by omega), rfl⟩
      · obtain rfl : left = 1 := Nat.le_antisymm (Nat.le_of_not_lt more) begun.pos
        rw [step_last within]
        exact .inr ⟨_, rfl, begun.encodeChar within⟩
    · simp only [Utf8.step, if_neg within] at whole
      exact absurd List.mem_cons_self whole

/-- Where all pieces are characters, the bytes are theirs. -/
theorem Begun.append_eq {bs : List UInt8} {state : State} {front : List UInt8} {text : List Char}
    (begun : Begun state front) (whole : piecesFrom state bs = text.map some) :
    front ++ bs = text.flatMap String.utf8EncodeChar := by
  -- Induction on the bytes, with the state of the decoder and the bytes it has taken of a
  -- character generalized; `piecesFrom_cons` makes a step of it.
  induction bs generalizing state front text with
  | nil =>
    cases state with
    | start =>
      have nothing : text = [] := List.map_eq_nil_iff.mp whole.symm
      rw [begun.eq_nil, nothing]
      rfl
    | inside => cases text <;> simp [piecesFrom] at whole
  | cons b bs ih =>
    rw [piecesFrom_cons] at whole
    have pieces : none ∉ (Utf8.step state b).2 := by
      intro there
      have : none ∈ text.map some := whole ▸ List.mem_append_left _ there
      simp at this
    rcases begun.step b pieces with ⟨begun, nothing⟩ | ⟨c, completes, bytes⟩
    · rw [nothing, List.nil_append] at whole
      rw [← ih begun whole, List.append_assoc, List.singleton_append]
    · rw [completes] at whole
      cases text with
      | nil => cases whole
      | cons c' text =>
        obtain ⟨rfl, rest⟩ : c = c' ∧ piecesFrom .start bs = text.map some := by
          simpa using whole
        rw [List.flatMap_cons, ← ih .start rest, bytes]
        simp

/-- A string is read from its own bytes and from no others. -/
theorem decode?_eq_some_iff {bytes : List UInt8} {s : String} :
    decode? bytes = some s ↔ bytes = encode s := by
  constructor
  · intro read
    obtain ⟨text, all, rfl⟩ := Option.map_eq_some_iff.mp read
    have whole := all_eq_some_iff.mp all
    have := Begun.append_eq .start whole
    simpa [encode] using this
  · rintro rfl
    exact decode?_encode s

/-! ### ASCII -/

/-- An ASCII character is one byte. -/
theorem encodeChar_of_ascii {c : Char} (ascii : c.toNat < 128) :
    String.utf8EncodeChar c = [UInt8.ofNat c.toNat] := by
  rw [String.utf8EncodeChar]
  exact if_pos (Nat.le_of_lt_succ ascii)

/-- The bytes of another character are none of ASCII. -/
theorem le_of_mem_encodeChar {c : Char} (other : 128 ≤ c.toNat) {b : UInt8}
    (h : b ∈ String.utf8EncodeChar c) : 128 ≤ b.toNat := by
  have big : ¬ c.val.toNat ≤ 127 := Nat.not_le_of_lt other
  have valid : c.val.toNat < 0xD800 ∨ 0xDFFF < c.val.toNat ∧ c.val.toNat < 0x110000 := c.valid
  rw [String.utf8EncodeChar, if_neg big] at h
  generalize c.val.toNat = v at *
  split_ifs at h <;> simp only [List.mem_cons, List.not_mem_nil, or_false] at h <;>
    rcases h with rfl | rfl | rfl | rfl <;> rw [UInt8.toNat_ofNat'] <;> omega

/-- The bytes of an ASCII text are the codes of its characters. -/
theorem encode_of_ascii {s : String} (ascii : ∀ c ∈ s.toList, c.toNat < 128) :
    encode s = s.toList.map fun c => UInt8.ofNat c.toNat := by
  rw [encode, List.map_eq_flatMap]
  exact List.flatMap_congr fun c hc => encodeChar_of_ascii (ascii c hc)

/-- An ASCII byte stands for its character only. -/
theorem mem_encode_iff {c : Char} (ascii : c.toNat < 128) (s : String) :
    UInt8.ofNat c.toNat ∈ encode s ↔ c ∈ s.toList := by
  rw [encode, List.mem_flatMap]
  constructor
  · rintro ⟨d, hd, h⟩
    -- the bytes of any other character are all above those of ASCII
    by_cases plain : d.toNat < 128
    · rw [encodeChar_of_ascii plain, List.mem_singleton, ← UInt8.toNat_inj, UInt8.toNat_ofNat',
        UInt8.toNat_ofNat', Nat.mod_eq_of_lt (by omega), Nat.mod_eq_of_lt (by omega)] at h
      rwa [Char.toNat_inj.mp h]
    · have big := le_of_mem_encodeChar (Nat.le_of_not_lt plain) h
      rw [UInt8.toNat_ofNat'] at big
      omega
  · intro h
    exact ⟨c, h, by simp [encodeChar_of_ascii ascii]⟩

end Utf8

end SharedMailbox
