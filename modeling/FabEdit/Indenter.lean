import FabEdit.Config
import FabEdit.Log

/-!
# Indenting lines and regions

The configured engine: it answers where a line belongs, moves one line there, or a region from
top to bottom.

Shape of the module:

* `request` answers with parameters that nobody has checked, and refuses widths below one;
* `Config.place`, `Config.columnFor` and `Config.indentLine` answer under a configuration, whose
  widths are positive by construction, so nothing is refused;
* `Config.indentRegion` moves line after line, each against the lines already moved above it;
  blank lines are emptied;
* whether the lines can be written at all is asked beside the answers (`Config.lineFault?`,
  `Config.regionFault?`): an indent width has no upper bound, but a run of spaces has one, which
  depends on the room there is;
* what is reported on the way is computed beside the answers too (`Config.placeEvents`,
  `Config.regionEvents`).
-/

namespace FabEdit

/-- Where a line belongs, for widths that may be anything. The indent width is checked first. -/
def request (layout : Layout) (b : Buffer) (o : Oracle) (width : Int) (kind : RequestKind)
    (i : Int) : Except Config.Fault Placement :=
  if width < 1 then .error (.ofWidth .indentWidth (.int width))
  else if layout.tab < 1 then .error (.ofWidth .tabWidth (.int layout.tab))
  else .ok (place layout b o width kind i)

namespace Config

/-! ## One line -/

/-- Where the line at an index belongs. -/
def place (c : Config) (b : Buffer) (o : Oracle) (kind : RequestKind) (i : Int) : Placement :=
  FabEdit.place c.layout b o c.indentWidth.toInt kind i

/-- The column at which the line at an index belongs, by the buffer's own comments. -/
def columnFor (c : Config) (b : Buffer) (kind : RequestKind) (i : Int) : Int :=
  (c.place b (.ofBuffer b) kind i).column

/-- A line with its content moved to a column. -/
def reindent (c : Config) (col : Int) (l : Text) : Text :=
  FabEdit.reindent c.tabs c.tabWidth.toInt col l

/-- The line at an index where it belongs; a line that the buffer does not have is empty. -/
def indentLine (c : Config) (b : Buffer) (kind : RequestKind) (i : Int) : Text :=
  if b.InRange i then c.reindent (c.columnFor b kind i) (b.lineAt i.toNat) else []

/-- Why no line can be moved to a column. -/
def columnFault? (room : Nat) (c : Config) (col : Int) : Option RunFault :=
  paddingFault? room c.tabs c.tabWidth.toInt (max col 0)

/-- Why the line at an index cannot be moved to where it belongs. -/
def lineFault? (room : Nat) (c : Config) (b : Buffer) (kind : RequestKind) (i : Int) :
    Option RunFault :=
  if b.InRange i then c.columnFault? room (c.columnFor b kind i) else none

/-- What the answer to a request reports: first whether there was no telling, then the answer. -/
def placeEvents (c : Config) (b : Buffer) (o : Oracle) (kind : RequestKind) (i : Int) :
    List Event :=
  let p := c.place b o kind i
  p.events ++ [.placed i kind p.column]

/-! ## Regions -/

/-- The buffer with line `k` where it belongs. Nothing is left of a blank line. -/
def indentRow (c : Config) (b : Buffer) (k : Nat) : Buffer :=
  if (b.lineAt k).trim isBlank = [] then b.set k []
  else b.set k (c.reindent (c.columnFor b .fresh k) (b.lineAt k))

/-- The lines of a region that a buffer of `count` lines has, from top to bottom. Without an end the
region reaches to the last line. -/
def regionRows (count : Nat) (start : Int) (stop : Option Int) : List Nat :=
  let last := min (stop.getD count) count
  List.range' start.toNat (last.toNat - start.toNat)

/-- The buffer with the lines of a region where they belong. -/
def indentRegion (c : Config) (b : Buffer) (start : Int) (stop : Option Int) : Buffer :=
  (regionRows b.count start stop).foldl c.indentRow b

/-- Why line `k` cannot be moved to where it belongs. A blank line can always be emptied. -/
def rowFault? (room : Nat) (c : Config) (b : Buffer) (k : Nat) : Option RunFault :=
  if (b.lineAt k).trim isBlank = [] then none else c.lineFault? room b .fresh k

/-- The first fault met when some rows are moved one after the other. -/
def rowsFault? (room : Nat) (c : Config) : Buffer → List Nat → Option RunFault
  | _, [] => none
  | b, k :: rows =>
    match c.rowFault? room b k with
    | some e => some e
    | none => c.rowsFault? room (c.indentRow b k) rows

/-- Why a region cannot be moved to where it belongs. -/
def regionFault? (room : Nat) (c : Config) (b : Buffer) (start : Int) (stop : Option Int) :
    Option RunFault :=
  c.rowsFault? room b (regionRows b.count start stop)

/-- What moving some rows reports: nothing for blank lines, and nothing after a row that cannot be
moved. -/
def rowEvents (room : Nat) (c : Config) : Buffer → List Nat → List Event
  | _, [] => []
  | b, k :: rows =>
    (if (b.lineAt k).trim isBlank = [] then [] else c.placeEvents b (.ofBuffer b) .fresh k)
      ++ match c.rowFault? room b k with
        | some _ => []
        | none => c.rowEvents room (c.indentRow b k) rows

/-- What moving a region reports. -/
def regionEvents (room : Nat) (c : Config) (b : Buffer) (start : Int) (stop : Option Int) :
    List Event :=
  c.rowEvents room b (regionRows b.count start stop)

end Config

end FabEdit
