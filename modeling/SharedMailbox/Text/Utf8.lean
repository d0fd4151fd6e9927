namespace SharedMailbox.Utf8

/-!
# UTF-8

* `encode`: the bytes of a string.
* `pieces`: a byte list cut into characters and maximal ill-formed parts.
* `decode?`: the string, if nothing is ill-formed.
* `decodeLossy`: the string in which U+FFFD stands for each ill-formed part.

An ill-formed part is maximal: a lead byte is taken together with all the bytes after it that
could still continue it, and the first byte that cannot is looked at afresh.
-/

/-- The bytes of a string. -/
def encode (s : String) : List UInt8 := s.toList.flatMap String.utf8EncodeChar

/-- Where a decoder stands between two bytes: at the start of a character, or inside one that
    wants `left` more bytes, the next of them between `lo` and `hi`, with `code` so far. -/
inductive State where
  | start
  | inside (left : Nat) (lo hi : UInt8) (code : Nat)
  deriving DecidableEq, Repr

/-- The state after a lead byte, `none` for a byte that leads nothing. The bounds on the second
    byte keep out overlong forms, surrogates and everything above U+10FFFF. -/
def lead (b : UInt8) : Option State :=
  if 0xC2 ≤ b ∧ b ≤ 0xDF then some (.inside 1 0x80 0xBF (b.toNat - 0xC0))
  else if b = 0xE0 then some (.inside 2 0xA0 0xBF 0)
  else if b = 0xED then some (.inside 2 0x80 0x9F 0xD)
  else if 0xE1 ≤ b ∧ b ≤ 0xEF then some (.inside 2 0x80 0xBF (b.toNat - 0xE0))
  else if b = 0xF0 then some (.inside 3 0x90 0xBF 0)
  else if 0xF1 ≤ b ∧ b ≤ 0xF3 then some (.inside 3 0x80 0xBF (b.toNat - 0xF0))
  else if b = 0xF4 then some (.inside 3 0x80 0x8F 4)
  else none

/-- The state after a byte at the start of a character, and what that byte completes:
    a character, or an ill-formed part (`none`). -/
def first (b : UInt8) : State × List (Option Char) :=
  if b < 0x80 then (.start, [some (Char.ofNat b.toNat)])
  else match lead b with
    | some state => (state, [])
    | none => (.start, [none])

/-- The state after any byte, and what that byte completes. -/
def step : State → UInt8 → State × List (Option Char)
  | .start, b => first b
  | .inside left lo hi code, b =>
    if lo ≤ b ∧ b ≤ hi then
      let code := code * 64 + (b.toNat - 0x80)
      if left ≤ 1 then (.start, [some (Char.ofNat code)])
      else (.inside (left - 1) 0x80 0xBF code, [])
    else
      -- the character breaks off here, and the byte is looked at afresh
      let (state, done) := first b
      (state, none :: done)

/-- The characters and ill-formed parts of a byte list, from a given state on. -/
def piecesFrom : State → List UInt8 → List (Option Char)
  | .start, [] => []
  | .inside .., [] => [none]
  | state, b :: bs =>
    let (state, done) := step state b
    done ++ piecesFrom state bs

/-- The characters and ill-formed parts of a byte list. -/
def pieces (bytes : List UInt8) : List (Option Char) := piecesFrom .start bytes

/-- The string that the bytes encode, if they are well-formed. -/
def decode? (bytes : List UInt8) : Option String := ((pieces bytes).mapM id).map String.ofList

/-- The string that the bytes encode, with U+FFFD for each ill-formed part. -/
def decodeLossy (bytes : List UInt8) : String :=
  String.ofList ((pieces bytes).map fun piece => piece.getD '\uFFFD')

end SharedMailbox.Utf8
