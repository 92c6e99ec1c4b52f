import FabEdit.Indenter
import FabEdit.Tracker

/-!
# Editing sessions

An editor at work: its lines, its memory of the last request, and the configurations in force.

Shape of the module:

* `Session` is the state. Its indenter has a configuration of its own or follows the active one; the
  active one can be exchanged, or replaced for a while and restored (`Step.enter`, `Step.leave`).
* The indenter sees the lines as a buffer (`Session.view`): either exactly as they are, or without
  the line ends they may carry. The tracker always sees them exactly as they are.
* `Session.step` performs one step and gives the reply, or the fault of a step that cannot be
  performed and changes nothing. `Session.events` is what the step reports. Whether white space can
  be written depends on the room that the machine has.
-/

namespace FabEdit

/-- The state of an editing session. -/
structure Session where
  lines : List Text
  tracker : Tracker
  /-- The indenter's own configuration; without one it follows the active one. -/
  own : Option Config
  /-- The active configuration. -/
  active : Config
  /-- The configurations to be restored, innermost first. -/
  saved : List Config
  /-- Whether the indenter takes the lines exactly as they are. -/
  verbatim : Bool

/-- One step of a session. -/
inductive Step where
  /-- Indent a line, and a level less on every repetition. -/
  | tab (index : Int)
  | kindFor (index : Int)
  | record (index : Int)
  | reset
  /-- Ask for a column, possibly with an oracle of the host's. -/
  | columnFor (index : Int) (kind : RequestKind) (oracle : Option Oracle)
  /-- Ask for an indented line without storing it. -/
  | indentLine (index : Int) (kind : RequestKind)
  /-- Indent a region; only with `commit` the lines are stored. -/
  | region (start : Int) (stop : Option Int) (commit : Bool)
  | setLine (index : Int) (line : Text)
  | insert (index : Int) (line : Text)
  | delete (index : Int)
  | viewAs (verbatim : Bool)
  /-- A new indenter with a configuration of its own, or without. -/
  | indenter (config : Option Setting)
  | setConfig (config : Setting)
  | resetConfig
  | enter (config : Setting)
  | leave
  | activeConfig
  | indenterConfig
  | lines

/-- What a step gives. -/
inductive Reply where
  | done
  | kind (k : RequestKind)
  | column (c : Int)
  | line (l : Text)
  | lines (ls : List Text)
  | tabbed (k : RequestKind) (l : Text)
  | config (c : Config)
  /-- A configuration was left; a fault that crosses it is not held up. -/
  | left

namespace Session

/-- Why a step cannot be performed. -/
inductive Fault where
  | config (e : Config.Fault)
  /-- A line cannot be written where it belongs. -/
  | run (e : RunFault)
  /-- There is no line to edit at the index. -/
  | noLine (index : Int)
  /-- The index of a line to edit does not fit a word. -/
  | noIndex (index : Int)
  /-- The index of a line to insert does not fit a word. -/
  | noPlace (index : Int)
  /-- No configuration was entered. -/
  | nothingToLeave

/-- A new session. -/
def start (lines : List Text) (own : Option Config) (verbatim : Bool) : Session :=
  ⟨lines, .empty, own, .default, [], verbatim⟩

/-- The configuration that the indenter uses. -/
def config (s : Session) : Config := s.own.getD s.active

/-- The lines as the indenter sees them. -/
def view (s : Session) : Buffer := if s.verbatim then ⟨s.lines⟩ else .ofLines s.lines

/-- The session with one line exchanged; a line that is not there stays away. -/
def store (s : Session) (i : Int) (l : Text) : Session :=
  if 0 ≤ i then { s with lines := s.lines.set i.toNat l } else s

/-! ## Edits -/

/-- The line that an edit means: negative indices count from the end. -/
def target? (count : Nat) (i : Int) : Option Nat :=
  if 0 ≤ i ∧ i < count then some i.toNat
  else if i < 0 ∧ 0 ≤ count + i then some (count + i).toNat
  else none

/-- The place where an insertion goes, which is never outside. -/
def insertionPoint (count : Nat) (i : Int) : Nat :=
  if i < 0 then (count + i).toNat else min i.toNat count

/-- The lines after an edit, as a session and a reply. -/
def edited (s : Session) (ls : List Text) : Session × Except Fault Reply :=
  ({ s with lines := ls }, .ok (.lines ls))

/-- Edit the line that an index means, if there is one. -/
def editLine (s : Session) (i : Int) (f : Nat → List Text) : Session × Except Fault Reply :=
  if FitsWord i then
    match target? s.lines.length i with
    | none => (s, .error (.noLine i))
    | some k => s.edited (f k)
  else (s, .error (.noIndex i))

/-- Use a configuration, if the settings make one. -/
def withConfig (s : Session) (setting : Setting) (f : Config → Session × Reply) :
    Session × Except Fault Reply :=
  match Config.ofSetting setting with
  | .error e => (s, .error (.config e))
  | .ok c => ((f c).1, .ok (f c).2)

/-! ## Steps -/

/-- The line at an index as a press of the tab key leaves it. -/
def tabbedLine (s : Session) (i : Int) : Text :=
  s.config.indentLine s.view (s.tracker.kindFor s.lines i) i

/-- Indent a line, store it and remember it as it then stands. -/
def tab (s : Session) (i : Int) : Session × Reply :=
  let s' := s.store i (s.tabbedLine i)
  ({ s' with tracker := .record s'.lines i },
   .tabbed (s.tracker.kindFor s.lines i) (s.tabbedLine i))

/-- Perform a step. -/
def step (room : Nat) (s : Session) : Step → Session × Except Fault Reply
  | .tab i =>
    match s.config.lineFault? room s.view (s.tracker.kindFor s.lines i) i with
    | some e => (s, .error (.run e))
    | none => ((s.tab i).1, .ok (s.tab i).2)
  | .kindFor i => (s, .ok (.kind (s.tracker.kindFor s.lines i)))
  | .record i => ({ s with tracker := .record s.lines i }, .ok .done)
  | .reset => ({ s with tracker := .empty }, .ok .done)
  | .columnFor i kind oracle =>
    (s, .ok (.column (s.config.place s.view (oracle.getD (.ofBuffer s.view)) kind i).column))
  | .indentLine i kind =>
    match s.config.lineFault? room s.view kind i with
    | some e => (s, .error (.run e))
    | none => (s, .ok (.line (s.config.indentLine s.view kind i)))
  | .region start stop commit =>
    match s.config.regionFault? room s.view start stop with
    | some e => (s, .error (.run e))
    | none =>
      let ls := (s.config.indentRegion s.view start stop).lines
      (if commit then { s with lines := ls } else s, .ok (.lines ls))
  | .setLine i l => s.editLine i fun k => s.lines.set k l
  | .insert i l =>
    if FitsWord i then s.edited (s.lines.insertIdx (insertionPoint s.lines.length i) l)
    else (s, .error (.noPlace i))
  | .delete i => s.editLine i s.lines.eraseIdx
  | .viewAs verbatim => ({ s with verbatim }, .ok .done)
  | .indenter none => ({ s with own := none }, .ok (.config s.active))
  | .indenter (some setting) => s.withConfig setting fun c => ({ s with own := some c }, .config c)
  | .setConfig setting => s.withConfig setting fun c => ({ s with active := c }, .done)
  | .resetConfig => ({ s with active := .default }, .ok .done)
  | .enter setting =>
    s.withConfig setting fun c => ({ s with active := c, saved := s.active :: s.saved }, .done)
  | .leave =>
    match s.saved with
    | [] => (s, .error .nothingToLeave)
    | c :: saved => ({ s with active := c, saved }, .ok .left)
  | .activeConfig => (s, .ok (.config s.active))
  | .indenterConfig => (s, .ok (.config s.config))
  | .lines => (s, .ok (.lines s.lines))

/-- What a step reports: the answers of the indenter and nothing else. -/
def events (room : Nat) (s : Session) : Step → List Event
  | .tab i => s.config.placeEvents s.view (.ofBuffer s.view) (s.tracker.kindFor s.lines i) i
  | .columnFor i kind oracle =>
    s.config.placeEvents s.view (oracle.getD (.ofBuffer s.view)) kind i
  | .indentLine i kind => s.config.placeEvents s.view (.ofBuffer s.view) kind i
  | .region start stop _ => s.config.regionEvents room s.view start stop
  | _ => []

/-- The outcome of one step of a run. -/
structure Outcome where
  reply : Except Fault Reply
  events : List Event

/-- Perform steps one after the other. A fault does not end the run. -/
def run (room : Nat) (s : Session) : List Step → Session × List Outcome
  | [] => (s, [])
  | st :: steps =>
    let rest := (s.step room st).1.run room steps
    (rest.1, ⟨(s.step room st).2, s.events room st⟩ :: rest.2)

end Session

end FabEdit
