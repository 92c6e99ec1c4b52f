import FabEdit.Trail

/-!
# Where a line belongs

The column of a line follows from the block openers above it.

Shape of the decision (`structuralColumn`):

* without an opener above, the line belongs at column 0;
* an annotation lines up with the nearest opener;
* a continuation keyword lines up with its peer, if `findPeer` finds one;
* anything else goes one level deeper than the nearest opener.

A request for the same line right after another one (`RequestKind.again`) steps one level to the
left instead, until there is no more room (`place`). A line that the buffer does not have, or that
the oracle cannot judge, is put at column 0; the `Placement` keeps the reason.
-/

namespace FabEdit

/-- Whether a request repeats the one before it. -/
inductive RequestKind where
  | fresh
  | again
  deriving DecidableEq, Repr

/-- What governs the answers besides the buffer: which words open blocks, which continue them, and
how wide a tab is. -/
structure Layout where
  openers : WordSet
  continuations : Continuations
  tab : Int
  deriving DecidableEq

/-! ## Peers -/

/-- Whether an opener line can take another branch under a rule. A terminal word has closed its
chain, unless a peer follows it on the same line. -/
def Continuation.continues (rule : Continuation) (l : Text) : Bool :=
  decide (l.firstWord ∈ rule.peers) &&
    (!decide (l.firstWord ∈ rule.terminal) ||
      match l.pieces 2 with
      | _ :: second :: _ => decide (second ∈ rule.peers)
      | _ => false)

/-- A column is open if it lies left of every column passed so far. -/
def isOutside (ceiling : Option Int) (col : Int) : Bool :=
  match ceiling with
  | none => true
  | some c => decide (col < c)

/-- The least column passed so far. -/
def lowerCeiling (ceiling : Option Int) (col : Int) : Int :=
  match ceiling with
  | none => col
  | some c => min c col

/-- The line a continuation lines up with. The search moves outward only: a row that does not lie
left of all rows passed belongs to a block beside the line, not around it. -/
def Continuation.findPeer (rule : Continuation) (tab : Int) :
    Option Int → Trail → Except LineFault (Option Row)
  | _, .done => .ok none
  | _, .fault e => .error e
  | ceiling, .row r above =>
    if rule.continues r.line && isOutside ceiling (column tab r.line) then .ok (some r)
    else if r.line.firstWord ∈ rule.stops then .ok none
    else rule.findPeer tab (some (lowerCeiling ceiling (column tab r.line))) above

/-! ## Columns -/

/-- The column of a line by its place in the block structure, given the openers above it. -/
def columnBelow (layout : Layout) (width : Int) (openers : Trail) (l : Text) :
    Except LineFault Int :=
  match openers with
  | .done => .ok 0
  | .fault e => .error e
  | .row r _ =>
    if isAnnotationLine l then .ok (column layout.tab r.line)
    else
      match layout.continuations.get? l.firstWord with
      | none => .ok (column layout.tab r.line + width)
      | some rule =>
        (rule.findPeer layout.tab none openers).map fun
          | none => column layout.tab r.line + width
          | some peer => column layout.tab peer.line

/-- The column of line `k` by its place in the block structure. -/
def structuralColumn (layout : Layout) (b : Buffer) (o : Oracle) (width : Int) (k : Nat) :
    Except LineFault Int :=
  columnBelow layout width (b.openersAbove o layout.openers k) (b.lineAt k)

/-- Where a line belongs, and why if there is no telling. -/
inductive Placement where
  | found (column : Int)
  /-- The buffer has no such line. -/
  | outside (index : Int) (count : Nat)
  /-- The oracle could not judge a line above. -/
  | unjudged (e : LineFault)
  deriving DecidableEq, Repr

/-- The column of a placement: 0 if there is no telling. -/
def Placement.column : Placement → Int
  | .found c => c
  | .outside _ _ => 0
  | .unjudged _ => 0

/-- The placement of a column that may have failed. -/
def Placement.ofExcept : Except LineFault Int → Placement
  | .ok c => .found c
  | .error e => .unjudged e

/-- Where the line at an index belongs. A repeated request goes one level left of the line's present
column if there is room for that. -/
def place (layout : Layout) (b : Buffer) (o : Oracle) (width : Int) (kind : RequestKind) (i : Int) :
    Placement :=
  if b.InRange i then
    let left := column layout.tab (b.lineAt i.toNat) - width
    if kind = .again ∧ 0 ≤ left then .found left
    else .ofExcept (structuralColumn layout b o width i.toNat)
  else .outside i b.count

end FabEdit
