import FabEdit.Token.Source
import FabEdit.Token.Place

/-!
# Display categories

An editor colours source by a dozen categories. `Category.ofPath` finds the category of any place in
the hierarchy of token kinds, `Category.ofName?` that of a dotted name, and `Category.runs` the
coloured runs of a source: neighbouring tokens of one category are one run.
-/

namespace FabEdit

/-- What an editor colours alike. -/
inductive Category where
  | comment
  | string
  | typeName
  | constant
  | keyword
  | number
  | group
  | label
  | identifier
  | operator
  | punctuation
  | whitespace
  | text
  deriving DecidableEq, Repr

namespace Category

/-- The name of a category. -/
def name : Category → String
  | .comment => "comment"
  | .string => "string"
  | .typeName => "type"
  | .constant => "constant"
  | .keyword => "keyword"
  | .number => "number"
  | .group => "group"
  | .label => "label"
  | .identifier => "identifier"
  | .operator => "operator"
  | .punctuation => "punctuation"
  | .whitespace => "whitespace"
  | .text => "text"

/-- The parts of the hierarchy with a category of their own, a part inside another before it. -/
def parts : List (List String × Category) :=
  [(["Comment"], .comment),
   (["Literal", "String"], .string),
   (["Keyword", "Type"], .typeName),
   (["Keyword", "Constant"], .constant),
   (["Keyword"], .keyword),
   (["Literal", "Number"], .number),
   (["Name", "Namespace"], .group),
   (["Name", "Label"], .label),
   (["Name"], .identifier),
   (["Operator"], .operator),
   (["Punctuation"], .punctuation),
   (["Text", "Whitespace"], .whitespace)]

/-- The category of a place in the hierarchy: that of the first part it lies in. -/
def ofPath (path : List String) : Category :=
  ((parts.find? fun p => p.1.isPrefixOf path).map Prod.snd).getD .text

/-- The category of what a dotted name leads to: plain text outside the hierarchy. -/
def ofPlace : Place → Category
  | .inside path => ofPath path
  | .outside => .text

/-- The category of a dotted name, if it leads anywhere. -/
def ofName? (dotted : Text) : Option Category := (Place.ofName? dotted).map ofPlace

/-- The category of a kind of token. -/
def ofKind (k : TokenKind) : Category := ofPath k.path

/-- Put a piece of text in front of coloured runs; a run of the same category takes it in. -/
def prepend (c : Category) (t : Text) : List (Category × Text) → List (Category × Text)
  | [] => [(c, t)]
  | (d, u) :: runs => if c = d then (c, t ++ u) :: runs else (c, t) :: (d, u) :: runs

/-- The coloured runs of some tokens. -/
def runsOf (ts : List Token) : List (Category × Text) :=
  ts.foldr (fun t runs => if t.text.isEmpty then runs else prepend (ofKind t.kind) t.text runs) []

/-- The coloured runs of a source, blank lines at its ends included. -/
def runs (code : Text) : List (Category × Text) :=
  runsOf (Token.ofSource .keepingLines code)

end Category

end FabEdit
