import FabEdit.Token.Source
import FabEdit.Text.Integer
import FabEdit.Setting

/-!
# Choosing a preparation by settings

A host chooses how its source is prepared by settings of its own. They are read less strictly than a
configuration: a switch may be a number or a word such as `yes` or `off`, and a tab size may be
given as text.

Tab sizes have to fit a signed word of 32 bits; `Preparation.fault?` says whether one does.
-/

namespace FabEdit

namespace Preparation

/-- Why source cannot be prepared as the settings say. -/
inductive Fault where
  /-- A setting has no meaning for its option. -/
  | badOption (name : String)
  /-- A tab size is beyond counting. -/
  | uncountable
  deriving DecidableEq, Repr

/-- Words that turn an option on. -/
def onWords : List String := ["1", "yes", "true", "on"]

/-- Words that turn an option off. -/
def offWords : List String := ["0", "no", "false", "off"]

/-- The state of a switch. Words count without regard to case. -/
def switch? : Setting → Option Bool
  | .flag b => some b
  | .int n => some (decide (n ≠ 0))
  | .text t =>
    let word := String.ofList (t.map Char.toLower)
    if word ∈ onWords then some true else if word ∈ offWords then some false else none
  | _ => none

/-- The switch in a field of a table. -/
def switchIn (fields : List (Text × Setting)) (name : String) (missing : Bool) :
    Except Fault Bool :=
  match Setting.lookup? fields name with
  | none => .ok missing
  | some s =>
    match switch? s with
    | none => .error (.badOption name)
    | some b => .ok b

/-- The integer in a field of a table. The part of a number behind its point is dropped. -/
def integerIn (fields : List (Text × Setting)) (name : String) (missing : Int) :
    Except Fault Int :=
  match Setting.lookup? fields name with
  | none => .ok missing
  | some (.flag b) => .ok (if b then 1 else 0)
  | some (.int n) => .ok n
  | some (.real x) =>
    if x.isFinite then .ok (x.units.tdiv Binary64.unitsInOne)
    else if x.fraction = 0 then .error .uncountable
    else .error (.badOption name)
  | some (.text t) =>
    match t.toInt? with
    | none => .error (.badOption name)
    | some n => .ok n
  | some _ => .error (.badOption name)

/-- The preparation that the settings in a table describe. Of several faults the first one in the
order of the fields here is reported. -/
def ofFields (fields : List (Text × Setting)) : Except Fault Preparation := do
  let trimNewlines ← switchIn fields "stripnl" usual.trimNewlines
  let trimBlanks ← switchIn fields "stripall" usual.trimBlanks
  let finalNewline ← switchIn fields "ensurenl" usual.finalNewline
  let tabSize ← integerIn fields "tabsize" usual.tabSize
  return ⟨trimNewlines, trimBlanks, finalNewline, tabSize⟩

/-- Why source cannot be prepared: the tab size is too large, whether or not there are tabs. -/
def fault? (p : Preparation) : Option Fault :=
  if 0x7FFFFFFF < p.tabSize then some .uncountable else none

end Preparation

end FabEdit
