import FabEdit.Text.Basic

/-!
# Blank characters

The characters that count as white space at the start of a line, between words and at the ends of a
text, and the two ways in which they cut a text into words: at all of them (`Text.words`), or one
word after the other from the front (`Text.pieces`).

The class is that of the bidirectional types B, S and WS together with the separators Zs, so the
four information separators U+001C to U+001F are in it, while zero width characters such as U+200B
and U+FEFF are not.
-/

namespace FabEdit

/-- The 29 blank characters. -/
def blankRanges : Ranges :=
  [(0x09, 0x0D), (0x1C, 0x20), (0x85, 0x85), (0xA0, 0xA0), (0x1680, 0x1680), (0x2000, 0x200A),
   (0x2028, 0x2029), (0x202F, 0x202F), (0x205F, 0x205F), (0x3000, 0x3000)]

/-- Whether a character is white space. -/
def isBlank (c : Char) : Bool := blankRanges.holds c

namespace Text

/-- The words of a text: its maximal non-blank runs. -/
def words (t : Text) : List Text := (t.splitOnP isBlank).filter fun w => !w.isEmpty

/-- What stands behind the first word of a text. -/
def behindFirst (t : Text) : Text := (t.dropWhile isBlank).dropWhile fun c => !isBlank c

/-- A text cut at its blanks at most `n` times, without blanks in front of a piece. The first `n`
pieces are words; what is left of the text is one more piece. -/
def pieces : Nat → Text → List Text
  | 0, t => if t.dropWhile isBlank = [] then [] else [t.dropWhile isBlank]
  | n + 1, t =>
    if t.dropWhile isBlank = [] then []
    else (t.dropWhile isBlank).takeWhile (fun c => !isBlank c) :: pieces n t.behindFirst

end Text

end FabEdit
