import FabEdit.Text.Basic

/-!
# Comment spans

The comments of a text as a sorted list of half-open intervals, and the question whether a position
lies inside one of them.

The question is answered by binary search: `firstAfter` finds the first span that starts after the
position, and the span before that one is the only candidate. With overlapping spans, which no scan
produces, an earlier span is therefore not looked at.
-/

namespace FabEdit

/-- The positions from `start` to before `stop`. -/
structure Span where
  start : Int
  stop : Int
  deriving DecidableEq, Repr, Inhabited

/-- A position inside a span. -/
def Span.holds (s : Span) (p : Int) : Bool := decide (s.start ≤ p) && decide (p < s.stop)

/-- The comments of a text, by ascending start. -/
structure Comments where
  spans : Array Span
  deriving DecidableEq, Repr

namespace Comments

/-- No comments at all. -/
def none : Comments := ⟨#[]⟩

/-- Between `lo` and `hi`, the index of the first span that starts after `p`, provided that the
spans are sorted; `hi` if there is none. -/
def firstAfter (c : Comments) (p : Int) (lo hi : Nat) : Nat :=
  if lo < hi then
    let mid := (lo + hi) / 2
    if p < (c.spans.getD mid default).start then c.firstAfter p lo mid
    else c.firstAfter p (mid + 1) hi
  else lo
termination_by hi - lo

/-- Whether a position lies inside a comment. No position before the text does. -/
def covers (c : Comments) (p : Int) : Bool :=
  if p < 0 then false
  else
    match c.firstAfter p 0 c.spans.size with
    | 0 => false
    | k + 1 => (c.spans.getD k default).holds p

end Comments

end FabEdit
