import SharedMailbox.Text.Numeral

namespace SharedMailbox.Quoted

/-!
# Quoted text

A string between double quotes, as it appears in an error message. The quote, the backslash and
the usual control characters have short escapes; every other character that does not show by
itself is written as its code in hexadecimal. Which characters these are is for the tables of
Unicode to say, of which there is a new version every year: `hidden` stands for them.
-/

/-- The text of one character between quotes. -/
def escape (hidden : Char → Bool) (c : Char) : List Char :=
  if c = '"' then ['\\', '"']
  else if c = '\\' then ['\\', '\\']
  else if c = '\n' then ['\\', 'n']
  else if c = '\r' then ['\\', 'r']
  else if c = '\t' then ['\\', 't']
  else if c = '\x00' then ['\\', '0']
  else if hidden c then ['\\', 'u', '\x7b'] ++ Nat.toDigits 16 c.toNat ++ ['\x7d']
  else [c]

/-- A string between double quotes. -/
def quote (hidden : Char → Bool) (s : String) : String :=
  String.ofList ('"' :: s.toList.flatMap (escape hidden) ++ ['"'])

end SharedMailbox.Quoted
