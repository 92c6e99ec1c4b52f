import FabEdit.Text.Blank
import FabEdit.Limits

/-!
# Indentation

A line's indentation is measured as a column and written as white space.

Shape of the module:

* `measure` walks over the white space that a line starts with, a tab going to the next tab stop. It
  finds the column and the offset at which the content of the line starts, and so cuts the line in
  two: what it has walked over (`Text.lead`) and the rest (`Text.content`);
* `padding` writes a column as spaces, or as tabs followed by spaces, and `reindent` puts it in
  front of a line's content;
* `measure?` and `reindent?` are the same two for arguments that nobody has checked: with tab width
  zero there are no tab stops, and whoever needs one gets no answer, nor does whoever asks for more
  white space than can be written (`paddingFault?`).

Columns are integers. With a positive tab width they are never negative; with a negative one the
distance to the next stop is negative too (`Int.fmod` has the sign of the width), so a tab can move
to the left.
-/

namespace FabEdit

/-! ## Measuring -/

/-- Where the content of a line starts: its column, and its offset in the line. -/
structure Measure where
  column : Int
  start : Nat
  deriving DecidableEq, Repr

/-- Walk on over the white space in front of a content. A space takes one column, and a tab goes to
the next multiple of the tab width; form feeds, vertical tabs and carriage returns take no room; any
other blank takes one column. -/
def measureFrom (tab : Int) (m : Measure) : Text → Measure
  | [] => m
  | c :: l =>
    if c = ' ' then measureFrom tab ⟨m.column + 1, m.start + 1⟩ l
    else if c = '\t' then measureFrom tab ⟨m.column + (tab - m.column.fmod tab), m.start + 1⟩ l
    else if c = '\x0c' ∨ c = '\x0b' ∨ c = '\r' then measureFrom tab ⟨m.column, m.start + 1⟩ l
    else if isBlank c then measureFrom tab ⟨m.column + 1, m.start + 1⟩ l
    else m

/-- Where the content of a line starts. -/
def measure (tab : Int) (l : Text) : Measure := measureFrom tab ⟨0, 0⟩ l

/-- The column at which the content of a line starts. -/
def column (tab : Int) (l : Text) : Int := (measure tab l).column

/-- The usual distance of the tab stops. -/
def usualTab : Int := 8

namespace Text

/-- The offset at which the content of a line starts. -/
def start (l : Text) : Nat := (measure usualTab l).start

/-- The white space that a line starts with. -/
def lead (l : Text) : Text := l.take l.start

/-- What follows the leading white space: empty exactly when the line is blank. -/
def content (l : Text) : Text := l.drop l.start

/-- The first word of a line: the run of non-blank characters its content starts with. -/
def firstWord (l : Text) : Text := l.content.takeWhile fun c => !isBlank c

/-- A line is cut in two and nothing is lost. -/
theorem lead_append_content (l : Text) : l.lead ++ l.content = l := List.take_append_drop l.start l

end Text

/-- The measure of a line under a tab width that may be zero; none if a tab needs a stop then. -/
def measure? (tab : Int) (l : Text) : Option Measure :=
  if tab = 0 ∧ '\t' ∈ l.lead then none
  else some (measure tab l)

/-- A positive tab width is always good enough. -/
theorem measure?_of_pos {tab : Int} (h : 0 < tab) (l : Text) :
    measure? tab l = some (measure tab l) := by
  have hne : tab ≠ 0 := by omega
  simp [measure?, hne]

/-! ## Writing -/

/-- White space that reaches a column: tabs as far as they go and then spaces, or spaces alone. -/
def padding (tabs : Bool) (tab col : Int) : Text :=
  if tabs then
    List.replicate (col.fdiv tab).toNat '\t' ++ List.replicate (col.fmod tab).toNat ' '
  else
    List.replicate col.toNat ' '

/-- A line with its content moved to a column; left of column 0 there is no room. -/
def reindent (tabs : Bool) (tab col : Int) (l : Text) : Text :=
  padding tabs tab (max col 0) ++ l.drop (measure tab l).start

/-- Why the white space that reaches a column cannot be written. Tabs come before spaces. -/
def paddingFault? (room : Nat) (tabs : Bool) (tab col : Int) : Option RunFault :=
  if tabs then (runFault? room (col.fdiv tab)).or (runFault? room (col.fmod tab))
  else runFault? room col

/-- Why a line cannot be moved to a column. -/
inductive ReindentFault where
  /-- A tab needs a stop, but there is none. -/
  | noTabStops
  | padding (e : RunFault)
  deriving DecidableEq, Repr

/-- `reindent` for arguments that nobody has checked. The present indentation is measured before it
is replaced, so without tab stops a tab in it is as bad as a tab to be written. -/
def reindent? (room : Nat) (tabs : Bool) (tab col : Int) (l : Text) : Except ReindentFault Text :=
  if tab = 0 ∧ ('\t' ∈ l.lead ∨ tabs = true) then .error .noTabStops
  else
    match paddingFault? room tabs tab (max col 0) with
    | some e => .error (.padding e)
    | none => .ok (reindent tabs tab col l)

end FabEdit
