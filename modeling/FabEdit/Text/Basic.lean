/-!
# Text

Source text is a list of characters, and so are its lines and its words: every offset, column and
length in this library counts characters.

Shape of the module:

* `Text.lines` and `Text.ofLines` cut a text at its newlines and put it together again;
* `Text.dropEnd` and `Text.trim` take a class of characters off the ends of a text;
* `Ranges` is a character class given by ranges of code points.
-/

namespace FabEdit

/-- Source text, one line of it, or a word. -/
abbrev Text := List Char

namespace Text

/-- The pieces between the newlines. There is always at least one, and no piece holds a newline. -/
def lines (t : Text) : List Text := List.splitOn '\n' t

/-- Lines joined by newlines. -/
def ofLines (ls : List Text) : Text := List.intercalate ['\n'] ls

/-- A text without the run of `p` characters at its end. -/
def dropEnd (p : Char → Bool) (t : Text) : Text := (t.reverse.dropWhile p).reverse

/-- A text without the runs of `p` characters at both its ends. -/
def trim (p : Char → Bool) (t : Text) : Text := dropEnd p (t.dropWhile p)

@[simp] theorem lines_nil : lines [] = [[]] := rfl

@[simp] theorem ofLines_nil : ofLines [] = [] := rfl

@[simp] theorem ofLines_singleton (l : Text) : ofLines [l] = l := by
  simp [ofLines, List.intercalate]

theorem ofLines_cons_cons (l m : Text) (ls : List Text) :
    ofLines (l :: m :: ls) = l ++ '\n' :: ofLines (m :: ls) := by
  simp [ofLines, List.intercalate]

end Text

/-- A character class: closed ranges of code points, in ascending order. -/
abbrev Ranges := List (Nat × Nat)

/-- Whether a character lies in one of the ranges. -/
def Ranges.holds (rs : Ranges) (c : Char) : Bool :=
  rs.any fun r => decide (r.1 ≤ c.toNat) && decide (c.toNat ≤ r.2)

end FabEdit
