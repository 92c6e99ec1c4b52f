import FabEdit.Buffer
import FabEdit.Vocabulary
import FabEdit.Comment.Spans

/-!
# Finding comments

One pass from left to right over a text finds its comments. The pass has to know about strings,
since a comment mark inside a string means nothing.

Shape of the pass: an automaton reads one character at a time. `Scan.step` is its transition,
`Scan.closed` the comment that a character completes, and `Scan.spansFrom` runs both over a text;
`Scan.modeAfter` is where the pass ends up, so that a pass can be cut anywhere and resumed.

* In `code` it looks for the start of a comment or a string; `slash` is code with a slash just read.
* In a `line` comment it runs to the next newline, which is not part of the comment.
* In a `block` comment it counts: comments nest, and only the mark that closes the outermost one
  ends the comment. `blockSlash` and `blockStar` remember the first half of a mark; the halves of
  two marks never overlap.
* In a `quoted` string it looks for the same quote or a newline. A backslash (`escaped`) takes the
  next character literally, but never a newline.

A comment still open at the end of the text reaches to the end. Spans include the marks.
-/

namespace FabEdit

namespace Scan

/-- What the pass is inside of. -/
inductive Mode where
  | code
  /-- Code, after a slash at position `start`. -/
  | slash (start : Nat)
  /-- A line comment that starts at `start`. -/
  | line (start : Nat)
  /-- A block comment that starts at `start`, with `depth` further ones open inside it. -/
  | block (start depth : Nat)
  /-- A block comment, after a slash that may open another one. -/
  | blockSlash (start depth : Nat)
  /-- A block comment, after a star that may close one. -/
  | blockStar (start depth : Nat)
  /-- A string that ends with `quote`. -/
  | quoted (quote : Char)
  /-- A string, after a backslash. -/
  | escaped (quote : Char)
  deriving DecidableEq, Repr

/-- From plain code, a character at position `p` may start a string or be the first half of a
comment mark. -/
def enter (p : Nat) (c : Char) : Mode :=
  if c = '/' then .slash p else if c ∈ Vocabulary.quotes then .quoted c else .code

/-- Inside a block comment, a character may be the first half of a mark. -/
def dig (start depth : Nat) (c : Char) : Mode :=
  if c = '/' then .blockSlash start depth
  else if c = '*' then .blockStar start depth
  else .block start depth

/-- The mode after the character at position `p`. -/
def step (p : Nat) (c : Char) : Mode → Mode
  | .code => enter p c
  | .slash s => if c = '/' then .line s else if c = '*' then .block s 0 else enter p c
  | .line s => if c = '\n' then .code else .line s
  | .block s d => dig s d c
  | .blockSlash s d => if c = '*' then .block s (d + 1) else dig s d c
  | .blockStar s 0 => if c = '/' then .code else dig s 0 c
  | .blockStar s (d + 1) => if c = '/' then .block s d else dig s (d + 1) c
  | .quoted q =>
    if c = Vocabulary.escape then .escaped q else if c = q ∨ c = '\n' then .code else .quoted q
  | .escaped q => if c = '\n' then .code else .quoted q

/-- The comment that the character at position `p` completes. -/
def closed (p : Nat) (c : Char) : Mode → Option Span
  | .line s => if c = '\n' then some ⟨s, p⟩ else none
  | .blockStar s 0 => if c = '/' then some ⟨s, p + 1⟩ else none
  | _ => none

/-- Where the comment starts that the pass is inside of. -/
def Mode.openSince : Mode → Option Nat
  | .line s | .block s _ | .blockSlash s _ | .blockStar s _ => some s
  | .code | .slash _ | .quoted _ | .escaped _ => none

/-- The spans of the comments that end in the rest of a text, where the rest starts at position `p`
in the given mode. -/
def spansFrom : Mode → Nat → Text → List Span
  | m, p, [] => (m.openSince.map fun s => ⟨s, p⟩).toList
  | m, p, c :: t => (closed p c m).toList ++ spansFrom (step p c m) (p + 1) t

/-- The mode after the rest of a text. -/
def modeAfter : Mode → Nat → Text → Mode
  | m, _, [] => m
  | m, p, c :: t => modeAfter (step p c m) (p + 1) t

theorem modeAfter_append (m : Mode) (p : Nat) (t u : Text) :
    modeAfter m p (t ++ u) = modeAfter (modeAfter m p t) (p + t.length) u := by
  induction t generalizing m p with
  | nil => rfl
  | cons c t ih =>
    rw [List.cons_append, modeAfter, ih, modeAfter, List.length_cons]
    congr 1
    omega

end Scan

/-- The comments of a text. -/
def Comments.ofText (t : Text) : Comments := ⟨(Scan.spansFrom .code 0 t).toArray⟩

/-- The comments of a buffer, by position in its text. -/
def Comments.ofBuffer (b : Buffer) : Comments := .ofText b.text

end FabEdit
