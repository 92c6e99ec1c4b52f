import FabEdit.Vocabulary
import FabEdit.Text.WordChar

/-!
# Lexical patterns

A pattern looks at the character before a point of the source and at the source from that point on,
and says how many characters it takes, if any. The character before matters in two ways: labels
stand at the start of a line only, and words must not continue a word.

Patterns are greedy and never take back what they took: wherever one has a choice, the longest run
is the only one that can succeed.
-/

namespace FabEdit

/-- How many characters are taken here, given the character before. -/
abbrev Pattern := Option Char → Text → Option Nat

/-- The length of the run of `p` characters at the start of a text. -/
def runLength (p : Char → Bool) (t : Text) : Nat := (t.takeWhile p).length

/-- A length, unless it is zero. -/
def positive? (n : Nat) : Option Nat := if n = 0 then none else some n

namespace Pattern

/-! ## Characters and fixed texts -/

/-- A run of one or more `p` characters. -/
def run (p : Char → Bool) : Pattern := fun _ t => positive? (runLength p t)

/-- One `p` character. -/
def one (p : Char → Bool) : Pattern := fun _ t =>
  match t with
  | [] => none
  | c :: _ => if p c then some 1 else none

/-- One of some fixed texts, the first that fits. -/
def oneOf (ws : List Text) : Pattern := fun _ t =>
  (ws.find? fun w => w.isPrefixOf t).map List.length

/-- A fixed text and everything after it on the line. -/
def restOfLine (mark : Text) : Pattern := fun _ t =>
  if mark.isPrefixOf t then some (mark.length + runLength (· != '\n') (t.drop mark.length))
  else none

/-- A backslash with the character after it, which must be on the same line. -/
def escaped : Pattern := fun _ t =>
  match t with
  | '\\' :: c :: _ => if c = '\n' then none else some 2
  | _ => none

/-! ## Words -/

/-- A word starts or ends between two characters exactly if just one of them is a word character. -/
def boundary (before after : Option Char) : Bool := before.any isWordChar != after.any isWordChar

/-- Whether a word stands at the start of a text and ends there. -/
def standsWhole (t w : Text) : Bool :=
  w.isPrefixOf t && boundary w.getLast? (t.drop w.length).head?

/-- One of the words of a vocabulary, as a whole word. -/
def wordOf (ws : WordSet) : Pattern := fun before t =>
  if boundary before t.head? then (ws.words.find? (standsWhole t)).map List.length else none

/-- The length of a fixed-point suffix such as `.FF` after a type name. It counts only if no word
goes on behind it. -/
def fixedPointLength : Text → Nat
  | '.' :: t =>
    let n := runLength (· == 'F') t
    if n = 0 ∨ (t.drop n).head?.any isWordChar then 0 else n + 1
  | _ => 0

/-- A type name as a whole word, with its fixed-point suffix. -/
def typeName (ws : WordSet) : Pattern := fun before t =>
  (wordOf ws before t).map fun n => n + fixedPointLength (t.drop n)

/-- An identifier: a letter or an underscore and then word characters. -/
def identifier : Pattern := fun _ t =>
  match t with
  | [] => none
  | c :: t => if isIdentStart c then some (1 + runLength isWordChar t) else none

/-- A character and an identifier directly after it. -/
def marked (mark : Char) : Pattern := fun _ t =>
  match t with
  | [] => none
  | c :: t => if c = mark then (identifier (some c) t).map (1 + ·) else none

/-- A space or a tab. -/
def isSpaceOrTab (c : Char) : Bool := c == ' ' || c == '\t'

/-- A label: at the start of a line, a colon and an identifier, spaces and tabs before either. -/
def label : Pattern := fun before t =>
  if before.all (· == '\n') then
    let indent := runLength isSpaceOrTab t
    match t.drop indent with
    | ':' :: t =>
      let gap := runLength isSpaceOrTab t
      (identifier none (t.drop gap)).map fun n => indent + 1 + gap + n
    | _ => none
  else none

/-! ## Numbers -/

/-- A hexadecimal digit. -/
def isHexDigit (c : Char) : Bool :=
  c.isDigit || ('a' ≤ c && c ≤ 'f') || ('A' ≤ c && c ≤ 'F')

/-- A binary digit. -/
def isBinaryDigit (c : Char) : Bool := c == '0' || c == '1'

/-- The length of a point with digits behind it. -/
def fractionLength (p : Char → Bool) : Text → Nat
  | '.' :: t => if runLength p t = 0 then 0 else runLength p t + 1
  | _ => 0

/-- Digits, perhaps with a fraction. -/
def digits (p : Char → Bool) : Pattern := fun _ t =>
  (positive? (runLength p t)).map fun n => n + fractionLength p (t.drop n)

/-- Digits behind a mark. -/
def markedDigits (mark : Char) (p : Char → Bool) : Pattern := fun _ t =>
  match t with
  | [] => none
  | c :: t => if c = mark then (digits p none t).map (1 + ·) else none

/-- Digits behind a zero and a letter, in either case. -/
def zeroDigits (lower upper : Char) (p : Char → Bool) : Pattern := fun _ t =>
  match t with
  | '0' :: c :: t => if c = lower ∨ c = upper then (digits p none t).map (2 + ·) else none
  | _ => none

/-- Decimal digits with a fraction. -/
def decimalFraction : Pattern := fun _ t =>
  match positive? (runLength Char.isDigit t) with
  | none => none
  | some n => (positive? (fractionLength Char.isDigit (t.drop n))).map (n + ·)

end Pattern

end FabEdit
