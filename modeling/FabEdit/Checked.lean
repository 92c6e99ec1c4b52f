import FabEdit.Indenter

/-!
# The checked engine

The engine walks over line numbers that it has found itself and takes what it reads there for
granted: that the line exists, that a tab has a stop to go to, that a line can be judged. Here the
same walks are done without taking anything for granted. In `Checked`, every access to a line, every
measure and every judgement can fail, and nothing recovers but a request (`Checked.recover`), and
that only from lines that cannot be judged.

Shape of the module: searches, columns, and then lines and regions, each like its namesake in the
engine but with an `EngineFault` in the place of what was granted there.
-/

namespace FabEdit

/-- Why a step of the engine can fail. -/
inductive EngineFault where
  /-- A line is not there, or a tab has no stop. -/
  | buffer (e : Buffer.Fault)
  /-- A line cannot be judged. -/
  | line (e : LineFault)
  | config (e : Config.Fault)
  /-- White space is too long to be written. -/
  | run (e : RunFault)

namespace Checked

/-! ## Searches -/

/-- The kind of the line at an index, judged by what is read there. -/
def kind (b : Buffer) (o : Oracle) (i : Int) : Except EngineFault LineKind :=
  if i < 0 then .ok .blank
  else if b.count ≤ i then .error (.line ⟨i, b.count⟩)
  else do
    let l ← (b.lineOrFault i).mapError .line
    if l.content.all isBlank then return .blank
    if startsComment l then return .comment
    let start ← (b.offset i).mapError .buffer
    let inside ← (o (start + l.lead.length)).mapError .line
    return if inside then .comment else .source

/-- Whether the line at an index opens a block. -/
def opens (b : Buffer) (o : Oracle) (openers : WordSet) (i : Int) : Except EngineFault Bool := do
  match ← kind b o i with
  | .source =>
    let word ← (b.firstWord i).mapError .line
    return decide (word ∈ openers)
  | _ => return false

/-- The nearest opener among the first `k` lines. -/
def opener (b : Buffer) (o : Oracle) (openers : WordSet) : Nat → Except EngineFault (Option Nat)
  | 0 => return none
  | k + 1 => do
    if ← opens b o openers k then return some k
    else opener b o openers k

/-- The opener among the first `k` lines that a continuation lines up with. -/
def peer (b : Buffer) (o : Oracle) (openers : WordSet) (tab : Int) (rule : Continuation) :
    Option Int → Nat → Except EngineFault (Option Nat)
  | _, 0 => return none
  | ceiling, k + 1 => do
    if ← opens b o openers k then
      let word ← (b.firstWord k).mapError .line
      let col ← (b.column tab k).mapError .buffer
      let l ← (b.get k).mapError .buffer
      if rule.continues l && isOutside ceiling col then return some k
      else if word ∈ rule.stops then return none
      else peer b o openers tab rule (some (lowerCeiling ceiling col)) k
    else peer b o openers tab rule ceiling k

/-! ## Columns -/

/-- The column of the opener that a continuation lines up with, or else another one. -/
def peerColumn (layout : Layout) (b : Buffer) (o : Oracle) (rule : Continuation) (i : Int)
    (otherwise : Int) : Except EngineFault Int := do
  match ← peer b o layout.openers layout.tab rule none (b.linesAbove i) with
  | none => return otherwise
  | some p => (b.column layout.tab p).mapError .buffer

/-- The column of the line at an index by its place in the block structure. -/
def structuralColumn (layout : Layout) (b : Buffer) (o : Oracle) (width i : Int) :
    Except EngineFault Int := do
  match ← opener b o layout.openers (b.linesAbove i) with
  | none => return 0
  | some p =>
    let col ← (b.column layout.tab p).mapError .buffer
    if ← (b.isAnnotationLine i).mapError .line then return col
    else
      let word ← (b.firstWord i).mapError .line
      match layout.continuations.get? word with
      | none => return col + width
      | some rule => peerColumn layout b o rule i (col + width)

/-- A line that cannot be judged is put at column 0; no other fault is held up. -/
def recover : Except EngineFault Int → Except EngineFault Int
  | .error (.line _) => .ok 0
  | r => r

/-- The column of a line of the buffer, or one level left of its present column. -/
def column (layout : Layout) (b : Buffer) (o : Oracle) (width : Int) (kind : RequestKind)
    (i : Int) : Except EngineFault Int := do
  match kind with
  | .fresh => structuralColumn layout b o width i
  | .again =>
    let present ← (b.column layout.tab i).mapError .buffer
    if 0 ≤ present - width then return present - width
    else structuralColumn layout b o width i

/-- Where a line belongs, for widths that may be anything. -/
def request (layout : Layout) (b : Buffer) (o : Oracle) (width : Int) (kind : RequestKind)
    (i : Int) : Except EngineFault Int :=
  if width < 1 then .error (.config (.ofWidth .indentWidth (.int width)))
  else if layout.tab < 1 then .error (.config (.ofWidth .tabWidth (.int layout.tab)))
  else if b.InRange i then recover (column layout b o width kind i)
  else .ok 0

/-! ## Lines and regions -/

/-- The column at which the line at an index belongs. -/
def columnFor (c : Config) (b : Buffer) (o : Oracle) (kind : RequestKind) (i : Int) :
    Except EngineFault Int :=
  request c.layout b o c.indentWidth.toInt kind i

variable (room : Nat) (c : Config)

/-- A line with its content moved to a column. -/
def reindent (col : Int) (l : Text) : Except EngineFault Text :=
  (reindent? room c.tabs c.tabWidth.toInt col l).mapError fun
    | .noTabStops => .buffer .noTabStops
    | .padding e => .run e

/-- The line at an index where it belongs; a line that the buffer does not have is empty. -/
def indentLine (b : Buffer) (kind : RequestKind) (i : Int) : Except EngineFault Text := do
  let col ← columnFor c b (.ofBuffer b) kind i
  if b.InRange i then
    let l ← (b.get i).mapError .buffer
    reindent room c col l
  else return []

/-- The buffer with the line at an index where it belongs. -/
def indentRow (b : Buffer) (i : Int) : Except EngineFault Buffer := do
  let l ← (b.get i).mapError .buffer
  if l.trim isBlank = [] then (b.replace i []).mapError .buffer
  else
    let col ← columnFor c b (.ofBuffer b) .fresh i
    let moved ← reindent room c col l
    if moved = l then return b
    else (b.replace i moved).mapError .buffer

/-- The buffer with the lines of a region where they belong. -/
def indentRegion (b : Buffer) (start : Int) (stop : Option Int) : Except EngineFault Buffer :=
  (Config.regionRows b.count start stop).foldlM (fun b (k : Nat) => indentRow room c b k) b

end Checked

end FabEdit
