import FabEdit.Text.Blank
import FabEdit.Limits

/-!
# Integers in text

An integer may be written with a sign, with single underscores between its digits, and with blanks
around it. It must not have too many digits.
-/

namespace FabEdit

namespace Text

/-- The value of digits, single underscores between them allowed. -/
def natOfDigits? : Text → Nat → Option Nat
  | [], n => some n
  | '_' :: c :: t, n => if c.isDigit then natOfDigits? t (10 * n + (c.toNat - 48)) else none
  | c :: t, n => if c.isDigit then natOfDigits? t (10 * n + (c.toNat - 48)) else none

/-- The value of a text that starts with a digit. -/
def toNat? : Text → Option Nat
  | [] => none
  | c :: t =>
    if c.isDigit ∧ (t.filter Char.isDigit).length < longestNumeral then natOfDigits? (c :: t) 0
    else none

/-- The integer that a text stands for. -/
def toInt? (t : Text) : Option Int :=
  match t.trim isBlank with
  | '+' :: t => (toNat? t).map Int.ofNat
  | '-' :: t => (toNat? t).map fun n => -(n : Int)
  | t => (toNat? t).map Int.ofNat

end Text

end FabEdit
