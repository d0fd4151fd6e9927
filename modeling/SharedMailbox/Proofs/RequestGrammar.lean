import SharedMailbox.Frame.Stream
import SharedMailbox.Proofs.Numerals
import SharedMailbox.Proofs.Orderly
import SharedMailbox.Proofs.Routing

namespace SharedMailbox

/-!
# The grammar of requests

Which requests are accepted, with the destination and the body that they have, and why any other is
refused.

* `Selector.IsNumeral`, `Selector.integer`: the integers of a selector.
* `Selector.int?_eq_some_iff`: an integer is read if and only if it is one, and with its value.
* `Selector.IsSelector`: the selectors of a destination. `Selector.parse_eq_ok_iff`,
  `Selector.parse_eq_error_iff`: they are read as that destination, and any other text is refused.
* `Selector.spellings`: the texts that an integer is recovered from.
* `Request.Outcome`: what is made of a request. `Request.parses_exactly`: that is its outcome.
-/

namespace Selector

/-! ### Integers -/

/-- The text of a natural number: hexadecimal digits behind `0x` or `0X`, octal digits behind a
    zero, a single zero, or decimal digits that begin with another one. -/
inductive IsNumeral : Nat → List Char → Prop
  | hexadecimal {n : Nat} {x : Char} {digits : List Char} (mark : x = 'x' ∨ x = 'X')
      (spells : Numeral.Spells 16 (digits.map Char.toNat) n) : IsNumeral n ('0' :: x :: digits)
  | octal {n : Nat} {digits : List Char} (spells : Numeral.Spells 8 (digits.map Char.toNat) n) :
      IsNumeral n ('0' :: digits)
  | zero : IsNumeral 0 ['0']
  | decimal {n : Nat} {digits : List Char} (spells : Numeral.Spells 10 (digits.map Char.toNat) n)
      (leading : digits.head? ≠ some '0') : IsNumeral n digits

/-- The texts of a natural number. -/
def numeral (n : Nat) : Language Char := {text | IsNumeral n text}

/-- The texts of an integer: a numeral behind a sign or none, and at most one line feed. -/
def integer (v : Int32) : Language Char :=
  Numeral.signed32 '+' '-' numeral v * (1 + {['\n']})

variable {text front digits : List Char} {n : Nat} {v : Int32}

/-- Behind a zero the digits are octal, unless an x comes first. -/
theorem radix_octal {d : Char} (other : d ≠ 'x' ∧ d ≠ 'X') (digits : List Char) :
    radix ('0' :: d :: digits) = (8, d :: digits) := by
  unfold radix
  split <;> simp_all

/-- Without a zero in front the digits are decimal. -/
theorem radix_decimal (leading : text.head? ≠ some '0') : radix text = (10, text) := by
  unfold radix
  split <;> simp_all

/-- A numeral is read in the radix that it announces. -/
theorem value?_radix_iff :
    Numeral.value? (radix text).1 ((radix text).2.map Char.toNat) = some n ↔ IsNumeral n text := by
  constructor
  · intro read
    unfold radix at read
    split at read
    next => exact .hexadecimal (.inl rfl) (Numeral.value?_eq_some_iff.mp read)
    next => exact .hexadecimal (.inr rfl) (Numeral.value?_eq_some_iff.mp read)
    next => exact .octal (Numeral.value?_eq_some_iff.mp read)
    next other =>
      -- a zero alone announces no radix, for no digit follows it
      by_cases single : text = ['0']
      · subst single
        obtain rfl : 0 = n := by
          simpa [Numeral.value?, Numeral.valueFrom?, Numeral.digit?] using read
        exact .zero
      · refine .decimal (Numeral.value?_eq_some_iff.mp read) fun leading => ?_
        obtain ⟨rest, rfl⟩ := List.head?_eq_some_iff.mp leading
        cases rest with
        | nil => exact single rfl
        | cons d rest => exact other d rest rfl
  · intro numeral
    rw [Numeral.value?_eq_some_iff]
    cases numeral with
    | hexadecimal mark spells => rcases mark with rfl | rfl <;> exact spells
    | @octal _ digits spells =>
      obtain ⟨d, rest, rfl⟩ := List.exists_cons_of_ne_nil (mt List.map_eq_nil_iff.mpr spells.1)
      -- an octal digit is no radix mark
      have code := spells.decimal (by decide) (List.mem_map_of_mem List.mem_cons_self)
      have other : d ≠ 'x' ∧ d ≠ 'X' := by
        constructor <;> rintro rfl <;> simp at code
      rwa [radix_octal other]
    | zero => exact Numeral.value?_eq_some_iff.mp rfl
    | decimal spells leading => rwa [radix_decimal leading]

/-- The characters of a numeral are none that stand before or behind one. -/
theorem IsNumeral.le (numeral : IsNumeral n text) {c : Char} (there : c ∈ text) : 48 ≤ c.toNat := by
  -- what spells a number in any radix are digits and letters
  have digit : ∀ {radix n : Nat} {digits : List Char},
      Numeral.Spells radix (digits.map Char.toNat) n → c ∈ digits → 48 ≤ c.toNat := by
    intro radix n digits spells there
    obtain ⟨d, shows, -⟩ := spells.exists_shows (List.mem_map_of_mem there)
    exact shows.le
  cases numeral with
  | hexadecimal mark spells =>
    obtain rfl | there := List.mem_cons.mp there
    · decide
    · obtain rfl | there := List.mem_cons.mp there
      · rcases mark with rfl | rfl <;> decide
      · exact digit spells there
  | octal spells =>
    obtain rfl | there := List.mem_cons.mp there
    · decide
    · exact digit spells there
  | zero =>
    obtain rfl := List.mem_singleton.mp there
    decide
  | decimal spells _ => exact digit spells there

/-- The sign at the front of a text. -/
theorem exists_sign (text : List Char) : ∃ front, Numeral.IsSign '+' '-' (sign text).1 front ∧
    front ++ (sign text).2 = text := by
  unfold sign
  split
  next => exact ⟨['-'], .minus, rfl⟩
  next => exact ⟨['+'], .plus, rfl⟩
  next => exact ⟨[], .none, rfl⟩

/-- A sign is taken from before a numeral. -/
theorem sign_of_numeral {negative : Bool} (signs : Numeral.IsSign '+' '-' negative front)
    (numeral : IsNumeral n digits) : sign (front ++ digits) = (negative, digits) := by
  cases signs with
  | none =>
    rw [List.nil_append]
    unfold sign
    split
    next => exact absurd (numeral.le List.mem_cons_self) (by decide)
    next => exact absurd (numeral.le List.mem_cons_self) (by decide)
    next => rfl
  | plus => rfl
  | minus => rfl

/-- Characters that stand for no digit and no sign are in no numeral behind a sign. -/
theorem not_mem_of_signed {negative : Bool} (signs : Numeral.IsSign '+' '-' negative front)
    (numeral : IsNumeral n digits) {c : Char} (low : c.toNat < 48) (plus : c ≠ '+')
    (minus : c ≠ '-') : c ∉ front ++ digits := by
  intro there
  obtain before | there := List.mem_append.mp there
  · cases signs with
    | none => cases before
    | plus => exact plus (List.mem_singleton.mp before)
    | minus => exact minus (List.mem_singleton.mp before)
  · exact Nat.not_le_of_lt low (numeral.le there)

/-- At most one newline is dropped, and only at the end. -/
theorem exists_newline (text : List Char) :
    ∃ tail ∈ (1 + {['\n']} : Language Char), dropNewline text ++ tail = text := by
  unfold dropNewline
  split
  next last => exact ⟨['\n'], .inr rfl, by simpa using List.dropLast_append_getLast? _ last⟩
  next => exact ⟨[], .inl rfl, List.append_nil text⟩

/-- A newline at the end is dropped from a text that has no other. -/
theorem dropNewline_append (plain : '\n' ∉ text) {tail : List Char}
    (there : tail ∈ (1 + {['\n']} : Language Char)) : dropNewline (text ++ tail) = text := by
  obtain rfl | rfl := there
  · rw [List.append_nil, dropNewline, if_neg fun last => plain (List.mem_of_getLast? last)]
  · simp [dropNewline]

/-- An integer is read if and only if it is one, and with its value. -/
theorem int?_eq_some_iff : int? text = some v ↔ text ∈ integer v := by
  constructor
  · intro read
    obtain ⟨tail, ends, whole⟩ := exists_newline text
    obtain ⟨front, signs, signed⟩ := exists_sign (dropNewline text)
    rw [int?] at read
    simp only at read
    split at read
    next magnitude value =>
      exact Language.mem_mul.mpr ⟨_, ⟨_, front, magnitude, _, signs, value?_radix_iff.mp value,
        signed.symm, Numeral.int32?_eq_some_iff.mp read⟩, tail, ends, whole⟩
    next => cases read
  · intro there
    obtain ⟨_, ⟨negative, front, n, digits, signs, numeral, rfl, value⟩, tail, ends, rfl⟩ :=
      Language.mem_mul.mp there
    -- no part of the numeral is a newline, so that only the one at the end is dropped
    have plain := not_mem_of_signed (c := '\n') signs numeral (by decide) (by decide) (by decide)
    rw [int?, dropNewline_append plain ends, sign_of_numeral signs numeral]
    simp only [value?_radix_iff.mpr numeral]
    exact Numeral.int32?_eq_some_iff.mpr value

/-- There is no comma in an integer. -/
theorem comma_not_mem (there : text ∈ integer v) : ',' ∉ text := by
  obtain ⟨_, ⟨negative, front, n, digits, signs, numeral, rfl, -⟩, tail, ends, rfl⟩ :=
    Language.mem_mul.mp there
  rw [List.mem_append]
  rintro (inside | inside)
  · exact not_mem_of_signed signs numeral (by decide) (by decide) (by decide) inside
  · obtain rfl | rfl := ends
    · cases inside
    · exact absurd (List.mem_singleton.mp inside) (by decide)

/-! ### Selectors -/

/-- The selectors of a destination: a name of the coordinator, the number of a peer, or a component
    and a subnet. -/
inductive IsSelector (l : Layout) : Destination → List Char → Prop
  | name {s : String} (known : s ∈ ["server", "switch", "link", "interface"]) :
      IsSelector l (Destination.coordinator l) s.toList
  | number {v : Int32} {text : List Char} (number : text ∈ integer v) :
      IsSelector l (.component v peerIdSid) text
  | address {cid sid : Int32} {first second : List Char} (component : first ∈ integer cid)
      (subnet : second ∈ integer sid) :
      IsSelector l (.component cid sid) (first ++ ',' :: second)

variable {l : Layout} {s : String} {dest : Destination}

/-- No name is an integer. -/
theorem not_integer_of_name (known : s ∈ coordinatorNames) (v : Int32) : s.toList ∉ integer v := by
  have none : ∀ s ∈ coordinatorNames, int? s.toList = none := by decide
  rw [← int?_eq_some_iff, none s known]
  exact nofun

/-- An address is split at its comma, which is the first one. -/
theorem parse_address {cid sid : Int32} {first second : List Char}
    (component : first ∈ integer cid) (subnet : second ∈ integer sid)
    (whole : s.toList = first ++ ',' :: second) : parse l s = .ok (.component cid sid) := by
  have comma : ',' ∈ s.toList := by simp [whole]
  -- no name of the coordinator has a comma in it
  have other : s ∉ coordinatorNames := by
    intro known
    have none : ∀ s ∈ coordinatorNames, ',' ∉ s.toList := by decide
    exact none s known comma
  have plain := comma_not_mem component
  have cidText : int? (s.toList.takeWhile (· ≠ ',')) = some cid := by
    rw [whole, takeWhile_ne_append plain, int?_eq_some_iff.mpr component]
  have sidText : int? ((s.toList.dropWhile (· ≠ ',')).drop 1) = some sid := by
    rw [whole, dropWhile_ne_append plain, List.drop_one, List.tail_cons,
      int?_eq_some_iff.mpr subnet]
  rw [parse, if_neg other]
  simp only [if_pos comma, cidText, sidText]

/-- The destination that a selector names is the one that it is a selector of. -/
theorem parse_of_isSelector (names : IsSelector l dest s.toList) : parse l s = .ok dest := by
  generalize same : s.toList = text at names
  cases names with
  | @name s' known =>
    obtain rfl := String.toList_injective same
    exact if_pos known
  | number number =>
    subst same
    have other : s ∉ coordinatorNames := fun known => not_integer_of_name known _ number
    rw [parse, if_neg other]
    simp only [if_neg (comma_not_mem number), int?_eq_some_iff.mpr number]
  | address component subnet => exact parse_address component subnet same

/-- Nothing else is a selector, and what is refused is told. -/
theorem isSelector_or_refused (l : Layout) (s : String) :
    (∃ dest, IsSelector l dest s.toList) ∨ parse l s = .error (.badSelector s) := by
  by_cases known : s ∈ coordinatorNames
  · exact .inl ⟨_, .name known⟩
  rw [parse, if_neg known]
  -- a comma decides between an address and a plain number
  by_cases comma : ',' ∈ s.toList
  · simp only [if_pos comma]
    split
    next cid sid component subnet =>
      obtain ⟨first, second, whole, plain⟩ := List.eq_append_cons_of_mem comma
      rw [whole, takeWhile_ne_append plain, int?_eq_some_iff] at component
      rw [whole, dropWhile_ne_append plain, List.drop_one, List.tail_cons,
        int?_eq_some_iff] at subnet
      rw [whole]
      exact .inl ⟨_, .address component subnet⟩
    next => exact .inr rfl
  · simp only [if_neg comma]
    split
    next number => exact .inl ⟨_, .number (int?_eq_some_iff.mp number)⟩
    next => exact .inr rfl

/-- A selector is read if and only if it is one, and as its destination. -/
theorem parse_eq_ok_iff : parse l s = .ok dest ↔ IsSelector l dest s.toList := by
  constructor
  · intro read
    rcases isSelector_or_refused l s with ⟨dest', names⟩ | refused
    · rw [parse_of_isSelector names, Except.ok.injEq] at read
      exact read ▸ names
    · rw [refused] at read
      cases read
  · exact parse_of_isSelector

/-- Any other text is refused, and repeated. -/
theorem parse_eq_error_iff {fault : RequestFault} : parse l s = .error fault ↔
    fault = .badSelector s ∧ ∀ dest, ¬ IsSelector l dest s.toList := by
  constructor
  · intro failed
    have other : ∀ dest, ¬ IsSelector l dest s.toList := by
      intro dest names
      rw [parse_of_isSelector names] at failed
      cases failed
    rcases isSelector_or_refused l s with ⟨dest, names⟩ | refused
    · exact absurd names (other dest)
    · rw [refused, Except.error.injEq] at failed
      exact ⟨failed.symm, other⟩
  · rintro ⟨rfl, other⟩
    rcases isSelector_or_refused l s with ⟨dest, names⟩ | refused
    · exact absurd names (other dest)
    · exact refused

/-! ### Spellings -/

/-- The texts of a number in decimal, in hexadecimal and in octal, as they are written. -/
def spellings (n : Nat) : Language Char :=
  {Nat.toDigits 10 n, '0' :: 'x' :: Nat.toDigits 16 n, '0' :: 'X' :: Nat.toDigits 16 n,
    '0' :: Nat.toDigits 8 n}

/-- Each spelling of a number is a numeral of it. -/
theorem numeral_of_spellings (there : text ∈ spellings n) : IsNumeral n text := by
  obtain rfl | rfl | rfl | rfl := there
  · by_cases leading : (Nat.toDigits 10 n).head? = some '0'
    · obtain ⟨rest, digits⟩ := List.head?_eq_some_iff.mp leading
      obtain rfl := Numeral.eq_zero_of_toDigits digits
      exact .zero
    · exact .decimal (Numeral.spells_toDigits (by decide) (by decide) n) leading
  · exact .hexadecimal (.inl rfl) (Numeral.spells_toDigits (by decide) (by decide) n)
  · exact .hexadecimal (.inr rfl) (Numeral.spells_toDigits (by decide) (by decide) n)
  · exact .octal (Numeral.spells_toDigits (by decide) (by decide) n)

/-- Each spelling of a signed word is an integer of it. -/
theorem integer_of_spelling (there : text ∈ Numeral.signed32 '+' '-' spellings v) :
    text ∈ integer v := by
  obtain ⟨negative, front, n, digits, signs, spelling, whole, value⟩ := there
  refine Language.mem_mul.mpr ⟨_, ?_, [], .inl rfl, List.append_nil _⟩
  exact ⟨negative, front, n, digits, signs, numeral_of_spellings spelling, whole, value⟩

/-- An integer is recovered from each of its spellings. -/
theorem parse_spelling (there : s.toList ∈ Numeral.signed32 '+' '-' spellings v) :
    parse l s = .ok (.component v peerIdSid) :=
  parse_of_isSelector (.number (integer_of_spelling there))

/-- The decimal text of a natural number is a spelling of it. -/
theorem decimal_mem (value : v.toInt = n) :
    (Numeral.decimal n).toList ∈ Numeral.signed32 '+' '-' spellings v :=
  ⟨false, [], n, _, .none, .inl rfl, Numeral.toList_decimal n, value⟩

/-- The decimal text of an integer is one of its spellings. -/
theorem signedDecimal_mem (v : Int32) :
    (Numeral.signedDecimal v.toInt).toList ∈ Numeral.signed32 '+' '-' spellings v := by
  unfold Numeral.signedDecimal
  split
  next negative =>
    refine ⟨true, ['-'], v.toInt.natAbs, _, .minus, .inl rfl, ?_, ?_⟩
    · rw [String.toList_append, Numeral.toList_decimal]
      rfl
    · rw [if_pos rfl]
      omega
  next => exact decimal_mem (by omega)

end Selector

/-! ### Requests -/

namespace Request

variable {l : Layout} {request front body : List UInt8} {s : String}
  {result : Except RequestFault (Destination × List UInt8)}

/-- What is made of a request: it is split at its first colon into the text of a selector and the
    body, or there is a reason against it. -/
inductive Outcome (l : Layout) : List UInt8 → Except RequestFault (Destination × List UInt8) → Prop
  | accepted {selector : String} {dest : Destination} {body : List UInt8}
      (plain : ':' ∉ selector.toList) (names : Selector.IsSelector l dest selector.toList) :
      Outcome l (Utf8.encode selector ++ colon :: body) (.ok (dest, body))
  | noColon {request : List UInt8} (absent : colon ∉ request) :
      Outcome l request (.error .noColon)
  | selectorNotUtf8 {front body : List UInt8} (plain : colon ∉ front)
      (bytes : ∀ selector, front ≠ Utf8.encode selector) :
      Outcome l (front ++ colon :: body) (.error .selectorNotUtf8)
  | badSelector {selector : String} {body : List UInt8} (plain : ':' ∉ selector.toList)
      (other : ∀ dest, ¬ Selector.IsSelector l dest selector.toList) :
      Outcome l (Utf8.encode selector ++ colon :: body) (.error (.badSelector selector))

/-- A text has the byte of a colon iff it has a colon. -/
theorem colon_mem_encode_iff : colon ∈ Utf8.encode s ↔ ':' ∈ s.toList :=
  Utf8.mem_encode_iff (c := ':') (by decide) s

/-- A selector stands before the first colon. -/
theorem parse_selector_append (plain : ':' ∉ s.toList) (body : List UInt8) :
    parse l (Utf8.encode s ++ colon :: body) = (Selector.parse l s).map (·, body) := by
  have absent : colon ∉ Utf8.encode s := mt colon_mem_encode_iff.mp plain
  rw [parse, if_pos (by simp), takeWhile_ne_append absent, dropWhile_ne_append absent,
    Utf8.decode?_encode, List.drop_one, List.tail_cons]
  simp only
  cases Selector.parse l s <;> rfl

/-- What stands before the first colon has to be a text. -/
theorem parse_of_not_utf8 (plain : colon ∉ front) (bytes : ∀ selector, front ≠ Utf8.encode selector)
    (body : List UInt8) : parse l (front ++ colon :: body) = .error .selectorNotUtf8 := by
  have refused : Utf8.decode? front = none :=
    Option.eq_none_iff_forall_ne_some.mpr fun s => mt Utf8.decode?_eq_some_iff.mp (bytes s)
  rw [parse, if_pos (by simp), takeWhile_ne_append plain, refused]

/-- What is made of a request is its outcome. -/
theorem outcome_parse (l : Layout) (request : List UInt8) :
    Outcome l request (parse l request) := by
  -- a colon, then a text before it, then a selector in that text: each has its own error
  by_cases there : colon ∈ request
  · obtain ⟨front, body, rfl, plain⟩ := List.eq_append_cons_of_mem there
    by_cases text : ∃ s, front = Utf8.encode s
    · obtain ⟨s, rfl⟩ := text
      have plain := mt colon_mem_encode_iff.mpr plain
      rw [parse_selector_append plain]
      rcases read : Selector.parse l s with fault | dest
      · obtain ⟨rfl, other⟩ := Selector.parse_eq_error_iff.mp read
        exact .badSelector plain other
      · exact .accepted plain (Selector.parse_eq_ok_iff.mp read)
    · have bytes := not_exists.mp text
      rw [parse_of_not_utf8 plain bytes]
      exact .selectorNotUtf8 plain bytes
  · rw [parse, if_neg there]
    exact .noColon there

/-- What comes of reading a request is its outcome, and nothing else is. -/
theorem parse_eq_iff : parse l request = result ↔ Outcome l request result := by
  constructor
  · rintro rfl
    exact outcome_parse l request
  · intro outcome
    cases outcome with
    | accepted plain names =>
      rw [parse_selector_append plain, Selector.parse_of_isSelector names]
      rfl
    | noColon absent => exact if_neg absent
    | selectorNotUtf8 plain bytes => exact parse_of_not_utf8 plain bytes _
    | badSelector plain other =>
      rw [parse_selector_append plain, Selector.parse_eq_error_iff.mpr ⟨rfl, other⟩]
      rfl

/-- A request with a reason against it is malformed, and nothing is sent. -/
theorem write_of_error {fault : RequestFault} (refused : parse l request = .error fault)
    (ring : Bell) (net : Network) {e : Endpoint} (layout : e.layout = l)
    (fits : request.length ≤ l.maxPayload - 2) :
    net.write ring e request = (.error (.malformedRequest fault), net) := by
  subst layout
  simp only [Network.write, if_neg (Nat.not_lt_of_le fits), refused]

/-- **The grammar of requests.** A request is accepted exactly if a selector stands before its first
    colon, and then with what the selector names and the body behind that colon; any other one is
    malformed, for its own reason. A name of the coordinator reaches it, and an integer is recovered
    from each of its spellings. -/
theorem parses_exactly (valid : l.Valid) :
    (∀ request result, parse l request = result ↔ Outcome l request result) ∧
    (∀ request fault, Outcome l request (.error fault) → ∀ ring (net : Network) e,
      e.layout = l → request.length ≤ l.maxPayload - 2 →
        net.write ring e request = (.error (.malformedRequest fault), net)) ∧
    (Destination.coordinator l).resolve l = .ok l.coordinator ∧
    ∀ v, Selector.parse l (Numeral.signedDecimal v.toInt) = .ok (.component v peerIdSid) ∧
      ∀ s : String, s.toList ∈ Numeral.signed32 '+' '-' Selector.spellings v →
        Selector.parse l s = .ok (.component v peerIdSid) := by
  refine ⟨fun _ _ => parse_eq_iff, fun _ _ outcome ring net e layout fits =>
    write_of_error (parse_eq_iff.mpr outcome) ring net layout fits,
    Destination.resolve_coordinator valid, fun v =>
      ⟨Selector.parse_spelling (Selector.signedDecimal_mem v), fun _ => Selector.parse_spelling⟩⟩

/-- An address in two radixes with a line feed inside, two signs in a row, and the least integer. -/
theorem parses_exactly_small :
    let e := Network.newEndpoint smallLayout 1 (.run 0 5) {}
    Outcome smallLayout (Utf8.encode "-0x1\n,033:a:b")
        (.ok (.component (-1) 27, Utf8.encode "a:b")) ∧
      Network.write .queue (.ofMailbox smallMailbox) e (Utf8.encode "+-5:a") =
        (.error (.malformedRequest (.badSelector "+-5")),
          .ofMailbox smallMailbox) ∧
      (Destination.coordinator smallLayout).resolve smallLayout = .ok 4 ∧
      Selector.parse smallLayout (Numeral.signedDecimal (-2147483648)) =
        .ok (.component (-2147483648) peerIdSid) := by
  obtain ⟨reads, refuses, coordinator, recovers⟩ :=
    parses_exactly (Mailbox.valid_of_create create_small)
  have twoSigns : Outcome smallLayout (Utf8.encode "+-5:a") (.error (.badSelector "+-5")) :=
    (reads _ _).mp (by decide +kernel)
  exact ⟨(reads _ _).mp (by decide +kernel), refuses _ _ twoSigns _ _ _ rfl (by decide),
    coordinator, (recovers (-2147483648)).1⟩

end Request

end SharedMailbox
