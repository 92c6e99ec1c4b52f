import FabEdit.LineKind

/-!
# Looking up through a buffer

Indentation is decided by the lines above, nearest first. A `Trail` is what such a look upwards
meets: rows, and possibly the failure of an oracle after some of them. It is data, so a search that
stops early never meets a failure that lies further up.

Shape of the module:

* `Buffer.sourcesAbove` is the trail of the source lines above a line;
* `Trail.filter` keeps some of its rows, and `Buffer.openersAbove` keeps those that open a block;
* `Trail.first?` and `Trail.toList` read a trail, in part or as a whole.
-/

namespace FabEdit

/-- A line with its index. -/
structure Row where
  index : Nat
  line : Text
  deriving DecidableEq, Repr

/-- Rows met on the way up, nearest first. -/
inductive Trail where
  /-- The top of the buffer is reached. -/
  | done
  /-- The oracle failed. -/
  | fault (e : LineFault)
  /-- A row, and the rows above it. -/
  | row (r : Row) (above : Trail)
  deriving DecidableEq, Repr

namespace Trail

/-- The rows that satisfy `p`. -/
def filter (p : Row → Bool) : Trail → Trail
  | .done => .done
  | .fault e => .fault e
  | .row r above => if p r then .row r (above.filter p) else above.filter p

/-- The nearest row. -/
def first? : Trail → Except LineFault (Option Row)
  | .done => .ok none
  | .fault e => .error e
  | .row r _ => .ok (some r)

/-- All rows, if no failure is among them. -/
def toList : Trail → Except LineFault (List Row)
  | .done => .ok []
  | .fault e => .error e
  | .row r above => above.toList.map (r :: ·)

end Trail

namespace Buffer

/-- The source lines above line `k`. -/
def sourcesAbove (b : Buffer) (o : Oracle) : Nat → Trail
  | 0 => .done
  | k + 1 =>
    match b.kindAt o k with
    | .error e => .fault e
    | .ok .source => .row ⟨k, b.lineAt k⟩ (b.sourcesAbove o k)
    | .ok _ => b.sourcesAbove o k

/-- The source lines above line `k` whose first word opens a block. -/
def openersAbove (b : Buffer) (o : Oracle) (openers : WordSet) (k : Nat) : Trail :=
  (b.sourcesAbove o k).filter fun r => decide (r.line.firstWord ∈ openers)

/-- How many lines lie above an index, which may be outside the buffer. -/
def linesAbove (b : Buffer) (i : Int) : Nat := min i.toNat b.count

end Buffer

end FabEdit
