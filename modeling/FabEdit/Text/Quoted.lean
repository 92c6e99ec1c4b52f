import FabEdit.Text.Printable

/-!
# Quoted text

Text as a message shows it: between quotes, with everything that cannot be seen written as an
escape.

Single quotes are used, unless the text holds a single quote and no double quote. The quote in use
and the backslash get a backslash in front. Newline, carriage return and tab have letters of their
own; every other unprintable character is written with its code point in hexadecimal, in two, four
or eight digits.
-/

namespace FabEdit.Text

/-- The quote that suits a text. -/
def quoteFor (t : Text) : Char := if '\x27' ∈ t ∧ '"' ∉ t then '"' else '\x27'

/-- A number in lower-case hexadecimal, padded to a number of digits. -/
def hex (width n : Nat) : Text :=
  let digits := Nat.toDigits 16 n
  List.replicate (width - digits.length) '0' ++ digits

/-- A code point as an escape of the shortest of the three forms. -/
def codeEscape (n : Nat) : Text :=
  if n < 0x100 then '\\' :: 'x' :: hex 2 n
  else if n < 0x10000 then '\\' :: 'u' :: hex 4 n
  else '\\' :: 'U' :: hex 8 n

/-- One character between the given quotes. -/
def quoteChar (quote c : Char) : Text :=
  if c = quote ∨ c = '\\' then ['\\', c]
  else if c = '\n' then ['\\', 'n']
  else if c = '\r' then ['\\', 'r']
  else if c = '\t' then ['\\', 't']
  else if isPrintable c then [c]
  else codeEscape c.toNat

/-- A text between quotes. -/
def quoted (t : Text) : Text :=
  quoteFor t :: t.flatMap (quoteChar (quoteFor t)) ++ [quoteFor t]

end FabEdit.Text
