import FabEdit.Token.Source

/-!
# Marked up source

Source as hypertext: each token stands in a `span` element with the class of its kind.

Shape of the writing: spans never cross a newline. A line collects pieces until the next newline; a
token that starts where another of the same class ended goes on in the same span, so a span is
closed only when the class changes or the line ends. Empty pieces of a token, as between two
newlines, leave no span behind.
-/

namespace FabEdit

namespace Markup

/-- A character that would be taken for markup is written as an entity. -/
def escapeChar (c : Char) : Text :=
  if c = '&' then "&amp;".toList
  else if c = '<' then "&lt;".toList
  else if c = '>' then "&gt;".toList
  else if c = '"' then "&quot;".toList
  else if c = '\x27' then "&#39;".toList
  else [c]

/-- Text inside an element. -/
def escape (t : Text) : Text := t.flatMap escapeChar

/-- Opens the span of a class; text without a class needs none. -/
def opening : Option String → Text
  | none => []
  | some c => s!"<span class=\"{c}\">".toList

/-- Closes the span of a class. -/
def closing : Option String → Text
  | none => []
  | some _ => "</span>".toList

/-- The lines written so far, the line being written, and the class of its last span. -/
structure Writer where
  done : List Text
  line : Text
  span : Option String

namespace Writer

/-- Nothing written. -/
def empty : Writer := ⟨[], [], none⟩

/-- Write a piece and end the line. -/
def endLine (w : Writer) (span : Option String) (piece : Text) : Writer :=
  let last :=
    if w.line = [] then
      if piece = [] then [] else opening span ++ piece ++ closing span
    else if w.span ≠ span ∧ piece ≠ [] then
      w.line ++ closing w.span ++ opening span ++ piece ++ closing span
    else
      w.line ++ piece ++ closing w.span
  { w with done := w.done ++ [last ++ ['\n']], line := [] }

/-- Write a piece and stay on the line. -/
def write (w : Writer) (span : Option String) (piece : Text) : Writer :=
  if piece = [] then w
  else if w.line = [] then { w with line := opening span ++ piece, span }
  else if w.span = span then { w with line := w.line ++ piece }
  else { w with line := w.line ++ closing w.span ++ opening span ++ piece, span }

/-- Write the pieces of a token, which newlines separate. -/
def pieces (w : Writer) (span : Option String) : List Text → Writer
  | [] => w
  | [piece] => w.write span piece
  | piece :: rest => (w.endLine span piece).pieces span rest

/-- Write a token. -/
def token (w : Writer) (t : Token) : Writer :=
  w.pieces t.kind.styleClass (escape t.text).lines

/-- All lines; a line not yet ended is ended. -/
def lines (w : Writer) : List Text :=
  if w.line = [] then w.done else w.done ++ [w.line ++ closing w.span ++ ['\n']]

end Writer

/-- The marked up lines of some tokens. -/
def linesOf (ts : List Token) : List Text := (ts.foldl Writer.token .empty).lines

/-- The form of the output. -/
inductive Form where
  /-- The marked up lines inside a block of their own. -/
  | block
  /-- The marked up lines alone. -/
  | bare
  /-- The text of the tokens without any markup. -/
  | plain
  deriving DecidableEq, Repr

/-- Tokens in a form. -/
def render (form : Form) (ts : List Token) : Text :=
  match form with
  | .block =>
    "<div class=\"highlight nesfab\"><pre><span></span>".toList ++ (linesOf ts).flatten
      ++ "</pre></div>\n".toList
  | .bare => (linesOf ts).flatten
  | .plain => ts.flatMap Token.text

end Markup

/-- Marked up source. -/
def highlight (form : Markup.Form) (code : Text) : Text :=
  Markup.render form (Token.ofSource .usual code)

end FabEdit
