import FabEdit.Text.Basic

/-!
# Kinds of tokens

What a piece of source is, for the purpose of colouring it. Kinds form a hierarchy: each has a path
of names, and a kind lies inside every kind whose path its own path starts with. A style sheet knows
a kind by a short class name.
-/

namespace FabEdit

/-- The three kinds of strings, by their quotes. -/
inductive Quote where
  | double
  | single
  | backtick
  deriving DecidableEq, Repr

/-- The character that starts and ends a string. -/
def Quote.char : Quote → Char
  | .double => '"'
  | .single => '\x27'
  | .backtick => '\x60'

/-- What a token is. -/
inductive TokenKind where
  /-- Plain text without a meaning of its own. -/
  | plain
  | whitespace
  /-- A character that no rule takes. -/
  | error
  | keyword
  | typeName
  | constant
  | name
  /-- A path of a group of variables or constants. -/
  | group
  | label
  | hexNumber
  | binaryNumber
  | floatNumber
  | integerNumber
  | operator
  | punctuation
  | lineComment
  | blockComment
  /-- A string, but for its escapes. -/
  | string (q : Quote)
  | escape
  deriving DecidableEq, Repr

namespace TokenKind

/-- The place of a kind in the hierarchy, from the most general name to the most special. -/
def path : TokenKind → List String
  | .plain => ["Text"]
  | .whitespace => ["Text", "Whitespace"]
  | .error => ["Error"]
  | .keyword => ["Keyword"]
  | .typeName => ["Keyword", "Type"]
  | .constant => ["Keyword", "Constant"]
  | .name => ["Name"]
  | .group => ["Name", "Namespace"]
  | .label => ["Name", "Label"]
  | .hexNumber => ["Literal", "Number", "Hex"]
  | .binaryNumber => ["Literal", "Number", "Bin"]
  | .floatNumber => ["Literal", "Number", "Float"]
  | .integerNumber => ["Literal", "Number", "Integer"]
  | .operator => ["Operator"]
  | .punctuation => ["Punctuation"]
  | .lineComment => ["Comment", "Single"]
  | .blockComment => ["Comment", "Multiline"]
  | .string .double => ["Literal", "String", "Double"]
  | .string .single => ["Literal", "String", "Single"]
  | .string .backtick => ["Literal", "String", "Backtick"]
  | .escape => ["Literal", "String", "Escape"]

/-- The full name of a kind. -/
def fullName (k : TokenKind) : String := ".".intercalate ("Token" :: k.path)

/-- The class of a kind in a style sheet. Plain text has none. -/
def styleClass : TokenKind → Option String
  | .plain => none
  | .whitespace => some "w"
  | .error => some "err"
  | .keyword => some "k"
  | .typeName => some "kt"
  | .constant => some "kc"
  | .name => some "n"
  | .group => some "nn"
  | .label => some "nl"
  | .hexNumber => some "mh"
  | .binaryNumber => some "mb"
  | .floatNumber => some "mf"
  | .integerNumber => some "mi"
  | .operator => some "o"
  | .punctuation => some "p"
  | .lineComment => some "c1"
  | .blockComment => some "cm"
  | .string .double => some "s2"
  | .string .single => some "s1"
  | .string .backtick => some "sb"
  | .escape => some "se"

end TokenKind

/-- A piece of source and what it is. -/
structure Token where
  kind : TokenKind
  text : Text
  deriving DecidableEq, Repr

end FabEdit
