import FabEdit.Vocabulary
import FabEdit.Text.Blank
import FabEdit.Text.Quoted
import FabEdit.Decimal.Layout

/-!
# Settings

A host hands over its configuration as untyped data: numbers, texts, lists and tables, in whatever
form its own settings have. `Setting` is that data. This module reads the typed pieces out of it and
writes it into messages.

Shape of the module:

* `Setting.field?` looks a name up in a table;
* `Setting.listing?` reads a listing of words, which may be given as one text or as a list;
* `Setting.isTrue` is the truth value of any setting;
* `Setting.render` is the text of a setting in a message, and `Setting.isWritable` says whether it
  has one.
-/

namespace FabEdit

/-- Untyped configuration data. A continuation rule may occur ready made. -/
inductive Setting where
  | null
  | flag (b : Bool)
  | int (n : Int)
  | real (x : Binary64)
  | text (t : Text)
  | list (items : List Setting)
  /-- Named settings in the order given. -/
  | table (fields : List (Text × Setting))
  | rule (r : Continuation)
  deriving Inhabited

namespace Setting

/-- The setting of a name; the first one counts. -/
def lookup? (fields : List (Text × Setting)) (name : String) : Option Setting :=
  (fields.find? fun f => decide (f.1 = name.toList)).map Prod.snd

/-- The member of a listing that a setting stands for. Lists and tables cannot be members. -/
def item? : Setting → Option Item
  | .text t => some (.word t)
  | .flag b => some (.number (.flag b))
  | .int n => some (.number (.int n))
  | .real x => some (.number (.real x))
  | .null => some .nothing
  | .list _ | .table _ | .rule _ => none

/-- The members that a setting lists: the words of a text, separated by blanks, the items of a list,
or the names in a table. Anything else lists nothing. -/
def items? : Setting → Option (List Item)
  | .text t => some (t.words.map .word)
  | .list items => items.mapM item?
  | .table fields => some (fields.map fun f => .word f.1)
  | .null | .flag _ | .int _ | .real _ | .rule _ => none

/-- The listing that a setting describes. -/
def listing? (s : Setting) : Option Listing := s.items?.map .ofList

/-- The truth value of a setting: zero and whatever is empty are false. -/
def isTrue : Setting → Bool
  | .null => false
  | .flag b => b
  | .int n => decide (n ≠ 0)
  | .real x => !x.isZero
  | .text t => !t.isEmpty
  | .list items => !items.isEmpty
  | .table fields => !fields.isEmpty
  | .rule _ => true

/-! ## The text of a setting -/

/-- The text of a set of words: its words between quotes. -/
def renderWords (s : WordSet) : Text :=
  '\x7b' :: List.intercalate [',', ' '] (s.words.map Text.quoted) ++ ['\x7d']

mutual

/-- The text of a setting in a message. -/
def render : Setting → Text
  | .null => "None".toList
  | .flag true => "True".toList
  | .flag false => "False".toList
  | .int n => (toString n).toList
  | .real x => x.render
  | .text t => t.quoted
  | .list items => '[' :: List.intercalate [',', ' '] (renderItems items) ++ [']']
  | .table fields => '\x7b' :: List.intercalate [',', ' '] (renderFields fields) ++ ['\x7d']
  | .rule r =>
    renderWords r.peers.words ++ renderWords r.stops.words ++ renderWords r.terminal.words

/-- The texts of the items of a list. -/
def renderItems : List Setting → List Text
  | [] => []
  | s :: items => render s :: renderItems items

/-- The texts of the fields of a table: a quoted name, a colon and the setting. -/
def renderFields : List (Text × Setting) → List Text
  | [] => []
  | (name, s) :: fields => (name.quoted ++ ':' :: ' ' :: render s) :: renderFields fields

end

mutual

/-- Whether a setting can be written into a message: it cannot if it holds a number that is too
long. -/
def isWritable : Setting → Bool
  | .int n => decide (FitsNumeral n)
  | .list items => itemsWritable items
  | .table fields => fieldsWritable fields
  | .rule r => r.peers.isWritable && r.stops.isWritable && r.terminal.isWritable
  | .null | .flag _ | .real _ | .text _ => true

/-- Whether the items of a list can be written. -/
def itemsWritable : List Setting → Bool
  | [] => true
  | s :: items => isWritable s && itemsWritable items

/-- Whether the fields of a table can be written. -/
def fieldsWritable : List (Text × Setting) → Bool
  | [] => true
  | (_, s) :: fields => isWritable s && fieldsWritable fields

end

end Setting

end FabEdit
