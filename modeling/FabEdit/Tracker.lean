import FabEdit.Placement

/-!
# Repeated requests

A request repeats the one before it if it is for the same line and the line still holds the text
that was left there. The `Tracker` is a host's memory of that.
-/

namespace FabEdit

/-- The line last indented and the text left there. -/
structure Tracker where
  last : Option (Int × Text)
  deriving DecidableEq, Repr

namespace Tracker

/-- Nothing remembered: the next request is a fresh one. -/
def empty : Tracker := ⟨none⟩

/-- The line at an index, if there is one. -/
def lineOf (lines : List Text) (i : Int) : Option Text :=
  if 0 ≤ i then lines[i.toNat]? else none

/-- The kind of a request for the line at an index. -/
def kindFor (t : Tracker) (lines : List Text) (i : Int) : RequestKind :=
  match t.last with
  | none => .fresh
  | some (index, text) => if index = i ∧ lineOf lines i = some text then .again else .fresh

/-- Remember the line at an index as it stands; without such a line, remember nothing. -/
def record (lines : List Text) (i : Int) : Tracker := ⟨(lineOf lines i).map fun l => (i, l)⟩

end Tracker

end FabEdit
