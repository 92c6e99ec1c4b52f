import FabEdit.Text.Uppercase

/-!
# Places in the hierarchy of token kinds

The hierarchy of token kinds is open: below every kind there is one for every capitalised name. A
dotted name such as `Keyword.Type` leads from the root down to a place in it.

Shape of the walk (`Place.next?`):

* a capitalised name leads one level down. At the root, strings and numbers may be named without the
  literals they lie in, and the root answers to a name of its own;
* `parent` leads one level up, and above the root out of the hierarchy;
* every place has a few properties of its own that are not places, and names in double underscores
  are kept for such properties everywhere;
* any other name leads nowhere.
-/

namespace FabEdit

/-- What a dotted name leads to. -/
inductive Place where
  /-- A place in the hierarchy, by its path from the root. -/
  | inside (path : List String)
  /-- Something that does not belong to the hierarchy. -/
  | outside
  deriving DecidableEq, Repr

namespace Place

/-- The root of the hierarchy. -/
def root : Place := .inside []

/-- The properties of a place that are not places. -/
def properties : List String := ["count", "index", "split", "subtypes"]

/-- Whether a name stands in double underscores. -/
def isReserved (name : Text) : Bool :=
  ['_', '_'].isPrefixOf name && ['_', '_'].isPrefixOf name.reverse && decide (4 < name.length)

/-- The path of the place of a name below a path. -/
def below (path : List String) (name : String) : List String :=
  if path = [] ∧ name = "Token" then []
  else if path = [] ∧ (name = "String" ∨ name = "Number") then ["Literal", name]
  else path ++ [name]

/-- Whether a name is capitalised. -/
def isCapitalised : Text → Bool
  | [] => false
  | c :: _ => isUppercase c

/-- One step of a walk. -/
def next? : Place → Text → Option Place
  | .inside path, name =>
    if isCapitalised name then some (.inside (below path (String.ofList name)))
    else if name = "parent".toList then
      some (if path = [] then .outside else .inside path.dropLast)
    else if String.ofList name ∈ properties ∨ isReserved name then some .outside
    else none
  | .outside, name => if isReserved name then some .outside else none

/-- The place of a dotted name. The empty name stands for the root. -/
def ofName? (dotted : Text) : Option Place :=
  if dotted = [] then some root else (dotted.splitOn '.').foldlM next? root

end Place

end FabEdit
