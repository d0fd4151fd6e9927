import SharedMailbox.Destination
import SharedMailbox.Text.Utf8

namespace SharedMailbox

/-!
# Framed requests

A request is a selector, a colon and a payload. The selector is a name of the coordinator, a
component and a subnet id with a comma between them, or a peer id.

* `Selector.int?`: an integer in decimal, octal or hexadecimal.
* `Selector.parse`: the destination that a selector names.
* `Request.parse`: the destination and the payload of a request.
-/

namespace Selector

/-! ### Integers -/

/-- The text without one final line feed. -/
def dropNewline (text : List Char) : List Char :=
  if text.getLast? = some '\n' then text.dropLast else text

/-- The sign at the front of a text, `true` for a minus, and what follows it. -/
def sign : List Char → Bool × List Char
  | '-' :: rest => (true, rest)
  | '+' :: rest => (false, rest)
  | text => (false, text)

/-- The radix that a numeral announces, and its digits: sixteen after `0x` or `0X`, eight after a
    zero that something follows, else ten. -/
def radix : List Char → Nat × List Char
  | '0' :: 'x' :: digits => (16, digits)
  | '0' :: 'X' :: digits => (16, digits)
  | '0' :: d :: digits => (8, d :: digits)
  | digits => (10, digits)

/-- The 32-bit integer that a text stands for. -/
def int? (text : List Char) : Option Int32 :=
  let (negative, numeral) := sign (dropNewline text)
  let (base, digits) := radix numeral
  match Numeral.value? base (digits.map Char.toNat) with
  | some magnitude => Numeral.int32? (Numeral.signed negative magnitude)
  | none => none

/-! ### Selectors -/

/-- The names of the coordinator. -/
def coordinatorNames : List String := ["server", "switch", "link", "interface"]

/-- The destination that a selector names. -/
def parse (l : Layout) (selector : String) : Except RequestFault Destination :=
  if selector ∈ coordinatorNames then .ok (Destination.coordinator l)
  else
    let text := selector.toList
    if ',' ∈ text then
      match int? (text.takeWhile (· ≠ ',')), int? ((text.dropWhile (· ≠ ',')).drop 1) with
      | some cid, some sid => .ok (.component cid sid)
      | _, _ => .error (.badSelector selector)
    else
      match int? text with
      | some id => .ok (.component id peerIdSid)
      | none => .error (.badSelector selector)

end Selector

/-! ### Requests -/

/-- The code of a colon. -/
def Request.colon : UInt8 := 58

/-- The destination and the payload of a request, which is split at its first colon. -/
def Request.parse (l : Layout) (request : List UInt8) :
    Except RequestFault (Destination × List UInt8) :=
  if colon ∈ request then
    match Utf8.decode? (request.takeWhile (· ≠ colon)) with
    | none => .error .selectorNotUtf8
    | some selector =>
      match Selector.parse l selector with
      | .ok dest => .ok (dest, (request.dropWhile (· ≠ colon)).drop 1)
      | .error fault => .error fault
  else .error .noColon

end SharedMailbox
