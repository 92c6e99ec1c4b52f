import FabEdit.Token.Lexer
import FabEdit.Text.Blank
import FabEdit.Text.Tabs

/-!
# Preparing source for the lexer

Before source is coloured its line ends are made uniform, and by choice its ends are trimmed, its
tabs are expanded and a last newline is added.
-/

namespace FabEdit

/-- How source is prepared. -/
structure Preparation where
  /-- Take newlines off both ends. -/
  trimNewlines : Bool
  /-- Take all blanks off both ends, newlines among them. -/
  trimBlanks : Bool
  /-- End the source with a newline. -/
  finalNewline : Bool
  /-- Expand tabs to stops at this distance, if it is positive. -/
  tabSize : Int
  deriving DecidableEq, Repr

namespace Preparation

/-- The usual preparation: no newlines at the ends but one at the last line. -/
def usual : Preparation := ⟨true, false, true, 0⟩

/-- The preparation that keeps blank lines at the ends. -/
def keepingLines : Preparation := ⟨false, false, true, 0⟩

/-- A text without the byte order mark it may start with. -/
def dropMark : Text → Text
  | [] => []
  | c :: t => if c = '\ufeff' then t else c :: t

/-- A carriage return, with the newline that may follow it, is a newline. -/
def uniformNewlines : Text → Text
  | [] => []
  | '\r' :: '\n' :: t => '\n' :: uniformNewlines t
  | c :: t => (if c = '\r' then '\n' else c) :: uniformNewlines t

/-- A text that ends with a newline. -/
def endLine (t : Text) : Text := if t.getLast? = some '\n' then t else t ++ ['\n']

/-- The trimming that is asked for; taking all blanks includes taking newlines. -/
def trimmed (p : Preparation) (t : Text) : Text :=
  if p.trimBlanks then t.trim isBlank
  else if p.trimNewlines then t.trim (· == '\n')
  else t

/-- The expansion that is asked for. -/
def expanded (p : Preparation) (t : Text) : Text :=
  if 0 < p.tabSize then t.expandTabs p.tabSize.toNat else t

/-- Source as the lexer gets it. -/
def apply (p : Preparation) (t : Text) : Text :=
  let t := p.expanded (p.trimmed (uniformNewlines (dropMark t)))
  if p.finalNewline then endLine t else t

end Preparation

/-- The tokens of source after a preparation. -/
def Token.ofSource (p : Preparation) (code : Text) : List Token := Token.ofText (p.apply code)

end FabEdit
