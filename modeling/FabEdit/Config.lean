import FabEdit.Setting
import FabEdit.Placement

/-!
# Configuration

How a host wants its source indented. A configuration is read from settings (`Config.ofSetting`);
fields that are missing have their defaults, and names that mean nothing are passed over.

Shape of the reading: the words that open blocks come first, then the continuation rules in the
order given, then the indent width and the tab width. Of several faults the first one in this order
is reported. Whether tabs are written is not checked; the setting is kept and its truth value
counts.
-/

namespace FabEdit

/-! ## Widths -/

/-- A positive number of columns. The setting `true` is accepted as one column and shown again as it
was given. -/
inductive Width where
  | columns (n : Int) (positive : 0 < n)
  | yes
  deriving DecidableEq, Repr

namespace Width

/-- The number of columns. -/
def toInt : Width → Int
  | .columns n _ => n
  | .yes => 1

/-- The width as a setting. -/
def toSetting : Width → Setting
  | .columns n _ => .int n
  | .yes => .flag true

/-- A width is given by a positive integer. -/
def ofSetting? : Setting → Option Width
  | .int n => if h : 0 < n then some (.columns n h) else none
  | .flag true => some .yes
  | _ => none

theorem toInt_pos (w : Width) : 0 < w.toInt := by
  cases w with
  | columns n h => exact h
  | yes => decide

/-- A width is read back from its setting. -/
theorem ofSetting?_toSetting (w : Width) : ofSetting? w.toSetting = some w := by
  cases w with
  | columns n h => simp [toSetting, ofSetting?, h]
  | yes => rfl

end Width

/-! ## Configurations -/

/-- An indentation configuration. -/
structure Config where
  /-- Columns added by each level of nesting. -/
  indentWidth : Width
  /-- Distance of the tab stops. -/
  tabWidth : Width
  /-- Whether tabs are written, as given. -/
  useTabs : Setting
  /-- First words of lines that open a block. -/
  openers : Listing
  /-- Rules of the continuation keywords. -/
  continuations : Continuations

namespace Config

/-- The two widths of a configuration. -/
inductive WidthField where
  | indentWidth
  | tabWidth
  deriving DecidableEq, Repr

/-- Why settings do not make a configuration. -/
inductive Fault where
  /-- A width is not a positive integer. -/
  | badWidth (field : WidthField) (got : Setting)
  /-- A continuation rule is neither a table nor ready made. -/
  | badRule (keyword : Text) (got : Setting)
  /-- A setting is no good, but it is too long to be named in a complaint. -/
  | unwritable
  /-- Words were expected. -/
  | notWords
  /-- A table was expected. -/
  | notTable

/-- The name of a width among the settings. -/
def WidthField.name : WidthField → String
  | .indentWidth => "indent_width"
  | .tabWidth => "tab_width"

/-- A complaint about a field of the configuration. -/
def complaint (field detail : String) : String := s!"Config '{field}': {detail}"

/-- The fault of a setting that is no good for a width. -/
def Fault.ofWidth (field : WidthField) (got : Setting) : Fault :=
  if got.isWritable then .badWidth field got else .unwritable

/-- The fault of a setting that is no good for a continuation rule. -/
def Fault.ofRule (keyword : Text) (got : Setting) : Fault :=
  if got.isWritable then .badRule keyword got else .unwritable

/-- What a fault says. There are no words for a setting that is too long, nor for one of the wrong
shape altogether. -/
def Fault.message? : Fault → Option String
  | .badWidth field got =>
    some (complaint field.name s!"must be a positive integer, got {String.ofList got.render}")
  | .badRule keyword got =>
    some (complaint "continuations"
      s!"rule for {String.ofList keyword.quoted} must be a mapping, got {String.ofList got.render}")
  | .unwritable => none
  | .notWords => none
  | .notTable => none

/-- The configuration of a host that sets nothing: levels of four columns, tab stops every eight,
and spaces only. -/
def default : Config where
  indentWidth := .columns 4 (by decide)
  tabWidth := .columns 8 (by decide)
  useTabs := .flag false
  openers := .ofWords Vocabulary.blockOpeners
  continuations := Vocabulary.continuations

/-- The layout that a configuration prescribes. -/
def layout (c : Config) : Layout := ⟨c.openers.words, c.continuations, c.tabWidth.toInt⟩

/-- Whether tabs are written. -/
def tabs (c : Config) : Bool := c.useTabs.isTrue

/-! ## Reading settings -/

/-- What a field of a table gives: a value read from the setting, or another one if the field is
missing. -/
def fieldIn {α : Type} (fields : List (Text × Setting)) (name : String) (missing : α)
    (read : Setting → Except Fault α) : Except Fault α :=
  match Setting.lookup? fields name with
  | none => .ok missing
  | some s => read s

/-- A listing of words. -/
def listingOf (s : Setting) : Except Fault Listing :=
  match s.listing? with
  | none => .error .notWords
  | some l => .ok l

/-- The listing in a field of a table, empty if the field is missing. -/
def listingIn (fields : List (Text × Setting)) (name : String) : Except Fault Listing :=
  fieldIn fields name .empty listingOf

/-- The continuation rule of a keyword. -/
def ruleOf (keyword : Text) : Setting → Except Fault Continuation
  | .rule r => .ok r
  | .table fields => do
    let peers ← listingIn fields "peers"
    let stops ← listingIn fields "stops"
    let terminal ← listingIn fields "terminal"
    return ⟨peers, stops, terminal⟩
  | s => .error (.ofRule keyword s)

/-- The continuation rules in a table, in the order given. -/
def rulesOf : Setting → Except Fault Continuations
  | .table fields => do
    let rules ← fields.mapM fun f => (ruleOf f.1 f.2).map fun r => (f.1, r)
    return .ofList rules
  | _ => .error .notTable

/-- The width that a setting gives. -/
def widthOf (field : WidthField) (s : Setting) : Except Fault Width :=
  match Width.ofSetting? s with
  | none => .error (.ofWidth field s)
  | some w => .ok w

/-- A width in a field of a table. -/
def widthIn (fields : List (Text × Setting)) (field : WidthField) (missing : Width) :
    Except Fault Width :=
  fieldIn fields field.name missing (widthOf field)

/-- The configuration that the settings in a table describe. -/
def ofFields (fields : List (Text × Setting)) : Except Fault Config := do
  let openers ← fieldIn fields "block_openers" default.openers listingOf
  let continuations ← fieldIn fields "continuations" default.continuations rulesOf
  let indentWidth ← widthIn fields .indentWidth default.indentWidth
  let tabWidth ← widthIn fields .tabWidth default.tabWidth
  let useTabs ← fieldIn fields "use_tabs" default.useTabs .ok
  return ⟨indentWidth, tabWidth, useTabs, openers, continuations⟩

/-- The configuration that some settings describe. -/
def ofSetting : Setting → Except Fault Config
  | .table fields => ofFields fields
  | _ => .error .notTable

/-- The continuation rules of a configuration as a setting, each rule ready made. -/
def rulesSetting (c : Config) : Setting :=
  .table (c.continuations.entries.map fun e => (e.1, .rule e.2))

/-- Settings that take over the continuation rules of a configuration unless they have their own. -/
def inheritRules (c : Config) (fields : List (Text × Setting)) : Setting :=
  .table (fields ++ [("continuations".toList, c.rulesSetting)])

end Config

end FabEdit
