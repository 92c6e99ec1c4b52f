import FabEdit.Comment.Scan

/-!
# Kinds of lines

A line is blank, holds nothing but the start of a comment at its content, or is source. Whether the
content starts inside a comment opened on an earlier line is not visible on the line itself, so it
is asked of an `Oracle`.

Oracles answer positions in the text of the buffer. The usual one is made from the buffer's own
comments (`Oracle.ofComments`), but a host may have its own, and that one may fail; its failure is
passed on unchanged.
-/

namespace FabEdit

/-- A line index that a buffer of `count` lines does not have. -/
structure LineFault where
  index : Int
  count : Int
  deriving DecidableEq, Repr

/-- What the fault says. -/
def LineFault.message (e : LineFault) : String :=
  s!"line index {e.index} out of range for buffer of {e.count} lines"

/-- Answers whether a position of the text lies inside a comment. -/
abbrev Oracle := Nat → Except LineFault Bool

namespace Oracle

/-- The oracle of some comments. -/
def ofComments (c : Comments) : Oracle := fun p => .ok (c.covers p)

/-- The oracle of a buffer's own comments. -/
def ofBuffer (b : Buffer) : Oracle := ofComments (.ofBuffer b)

/-- The oracle to which everything is a comment. -/
def everywhere : Oracle := fun _ => .ok true

/-- The oracle that always fails. -/
def failing (e : LineFault) : Oracle := fun _ => .error e

end Oracle

/-- What a line holds after its leading blanks. -/
inductive LineKind where
  /-- Nothing. -/
  | blank
  /-- Comment text. -/
  | comment
  /-- Code. -/
  | source
  deriving DecidableEq, Repr

/-- A line whose content starts with a comment mark. -/
def startsComment (l : Text) : Bool :=
  Vocabulary.lineMark.isPrefixOf l.content || Vocabulary.blockOpen.isPrefixOf l.content

/-- A line whose content starts with the annotation mark. -/
def isAnnotationLine (l : Text) : Bool := l.content.head? == some Vocabulary.annotationMark

namespace Buffer

/-- The position at which the content of line `k` starts. -/
def contentAt (b : Buffer) (k : Nat) : Nat := b.offsetAt k + (b.lineAt k).lead.length

/-- The kind of line `k`. The oracle is asked only if the line itself does not decide. -/
def kindAt (b : Buffer) (o : Oracle) (k : Nat) : Except LineFault LineKind :=
  if (b.lineAt k).content.all isBlank then .ok .blank
  else if startsComment (b.lineAt k) then .ok .comment
  else (o (b.contentAt k)).map fun inside => if inside then .comment else .source

/-- The kind of the line at an index. What lies before the buffer counts as blank. -/
def kind (b : Buffer) (o : Oracle) (i : Int) : Except LineFault LineKind :=
  if i < 0 then .ok .blank
  else if i < b.count then b.kindAt o i.toNat
  else .error ⟨i, b.count⟩

/-- The line at an index, which must be in range. -/
def lineOrFault (b : Buffer) (i : Int) : Except LineFault Text :=
  if b.InRange i then .ok (b.lineAt i.toNat) else .error ⟨i, b.count⟩

/-- The first word of the line at an index, empty for a blank line. -/
def firstWord (b : Buffer) (i : Int) : Except LineFault Text :=
  (b.lineOrFault i).map Text.firstWord

/-- Whether the line at an index is an annotation. -/
def isAnnotationLine (b : Buffer) (i : Int) : Except LineFault Bool :=
  (b.lineOrFault i).map FabEdit.isAnnotationLine

end Buffer

end FabEdit
