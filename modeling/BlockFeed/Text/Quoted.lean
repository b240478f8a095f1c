import BlockFeed.Text.Printable

/-!
# Quoted text

Offending input is repeated in messages between quotation marks. The mark in use, the backslash
and the characters of the line (tab, newline, carriage return, NUL) are written with a backslash;
a character that is not printable is written by its code point; every other one stands for
itself.
-/

namespace BlockFeed.Quoted

/-- The escaped form of one character between quotation marks of the given kind. -/
def escape (mark : Char) (c : Char) : List Char :=
  if c = '\x00' then ['\\', '0']
  else if c = '\t' then ['\\', 't']
  else if c = '\r' then ['\\', 'r']
  else if c = '\n' then ['\\', 'n']
  else if c = '\\' || c = mark then ['\\', c]
  else if Printable.isPrintable c then [c]
  else ['\\', 'u', '\x7b'] ++ Nat.toDigits 16 c.toNat ++ ['\x7d']

/-- A text between quotation marks. -/
def text (s : String) : String :=
  String.ofList ('"' :: s.toList.flatMap (escape '"') ++ ['"'])

/-- A character between apostrophes. -/
def char (c : Char) : String :=
  String.ofList ('\'' :: escape '\'' c ++ ['\''])

end BlockFeed.Quoted
