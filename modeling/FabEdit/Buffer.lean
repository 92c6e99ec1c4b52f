import FabEdit.Indentation

/-!
# Buffers

A buffer is a snapshot of source text as a list of lines. It knows the offset of each line in the
joined text, and it is edited by replacing whole lines.

Lines are addressed in two ways. The editor's requests carry an arbitrary integer, which `get`,
`offset`, `column` and `replace` check against the buffer; a negative index never counts from the
end. The engine itself walks over indices it knows to be in range and uses `lineAt`, `offsetAt` and
`set`, which are total.
-/

namespace FabEdit

/-- A snapshot of source text. Lines carry no line ends of their own, unless the caller put some
there. -/
structure Buffer where
  lines : List Text
  deriving DecidableEq, Repr

namespace Buffer

/-- The buffer of a text: one line for each piece between newlines. -/
def ofText (t : Text) : Buffer := ⟨t.lines⟩

/-- Whether a character belongs to a line end. -/
def isLineEnd (c : Char) : Bool := c == '\r' || c == '\n'

/-- The buffer of lines that may still carry their line ends, which are dropped. -/
def ofLines (ls : List Text) : Buffer := ⟨ls.map (Text.dropEnd isLineEnd)⟩

/-- The whole text. -/
def text (b : Buffer) : Text := Text.ofLines b.lines

/-- The number of lines. -/
def count (b : Buffer) : Nat := b.lines.length

/-- The lines a buffer has are those from 0 to below `count`. -/
def InRange (b : Buffer) (i : Int) : Prop := 0 ≤ i ∧ i < b.count

instance (b : Buffer) (i : Int) : Decidable (b.InRange i) :=
  inferInstanceAs (Decidable (0 ≤ i ∧ i < b.count))

/-- Line `k`, empty past the end. -/
def lineAt (b : Buffer) (k : Nat) : Text := b.lines.getD k []

/-- The offset of line `k` in the text: every line above it takes its length and a newline. -/
def offsetAt (b : Buffer) (k : Nat) : Nat :=
  (b.lines.take k).foldr (fun l below => l.length + 1 + below) 0

/-- The buffer with another line `k`; past the end there is nothing to replace. -/
def set (b : Buffer) (k : Nat) (l : Text) : Buffer := ⟨b.lines.set k l⟩

/-! ## Checked access -/

/-- Why a request to a buffer fails. -/
inductive Fault where
  /-- The buffer has no such line. -/
  | noLine (index : Int)
  /-- A tab needs a tab stop and the tab width is zero. -/
  | noTabStops
  deriving DecidableEq, Repr

/-- The line at an index. -/
def get (b : Buffer) (i : Int) : Except Fault Text :=
  if b.InRange i then .ok (b.lineAt i.toNat) else .error (.noLine i)

/-- The offset of the line at an index. -/
def offset (b : Buffer) (i : Int) : Except Fault Nat :=
  if b.InRange i then .ok (b.offsetAt i.toNat) else .error (.noLine i)

/-- The column of the line at an index. -/
def column (b : Buffer) (tab i : Int) : Except Fault Int :=
  match b.get i with
  | .error e => .error e
  | .ok l =>
    match measure? tab l with
    | none => .error .noTabStops
    | some m => .ok m.column

/-- The buffer with another line at an index. -/
def replace (b : Buffer) (i : Int) (l : Text) : Except Fault Buffer :=
  if b.InRange i then .ok (b.set i.toNat l) else .error (.noLine i)

/-! ## Lines after a replacement -/

@[simp] theorem count_set (b : Buffer) (k : Nat) (l : Text) : (b.set k l).count = b.count := by
  simp [count, set]

theorem lineAt_set_self {b : Buffer} {k : Nat} (h : k < b.count) (l : Text) :
    (b.set k l).lineAt k = l := by
  simp [lineAt, set, List.getD, count] at h ⊢
  simp [h]

theorem lineAt_set_of_ne {b : Buffer} {k j : Nat} (h : k ≠ j) (l : Text) :
    (b.set k l).lineAt j = b.lineAt j := by
  simp [lineAt, set, List.getD, h]

end Buffer

end FabEdit
