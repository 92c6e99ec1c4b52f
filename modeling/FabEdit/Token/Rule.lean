import FabEdit.Token.Kind
import FabEdit.Token.Pattern

/-!
# The lexical rules of NESFab

A rule takes some source by its pattern, cuts it into tokens and says in which mode to go on. At any
point the first rule of the current mode whose pattern fits is the one that counts, so the order of
the rules matters: a comment mark comes before the slash operator, and a keyword before a name.

There are three modes. Comments nest, so the mode inside a comment carries a depth; strings do not.
-/

namespace FabEdit

/-- What the lexer is inside of. -/
inductive LexMode where
  | root
  /-- A block comment, with `depth` further ones around it. -/
  | comment (depth : Nat)
  | string (q : Quote)
  deriving DecidableEq, Repr

/-- A lexical rule. -/
structure Rule where
  pattern : Pattern
  /-- The tokens of what was taken. -/
  cut : Text → List Token
  /-- The mode to go on in. -/
  next : LexMode

namespace Rule

/-- The rule that makes one token of what it takes. -/
def single (pattern : Pattern) (kind : TokenKind) (next : LexMode) : Rule :=
  ⟨pattern, fun t => [⟨kind, t⟩], next⟩

/-- Tokens without the empty ones. -/
def nonEmpty (ts : List Token) : List Token := ts.filter fun t => !t.text.isEmpty

/-- A label as its four pieces, of which the white space may be missing. -/
def cutLabel (t : Text) : List Token :=
  let rest := (t.dropWhile Pattern.isSpaceOrTab).drop 1
  nonEmpty
    [⟨.whitespace, t.takeWhile Pattern.isSpaceOrTab⟩,
     ⟨.punctuation, (t.dropWhile Pattern.isSpaceOrTab).take 1⟩,
     ⟨.whitespace, rest.takeWhile Pattern.isSpaceOrTab⟩,
     ⟨.label, rest.dropWhile Pattern.isSpaceOrTab⟩]

/-- White space inside a line. -/
def isGap (c : Char) : Bool :=
  c == ' ' || c == '\t' || c == '\x0c' || c == '\x0b' || c == '\r'

/-- The operators of two and three characters; one that starts with another comes before it. -/
def longOperators : List Text :=
  ["->", "<<=", ">>=", "==", "!=", "<=", ">=", "&&", "||", "<<", ">>", "+=", "-=", "&=", "|=", "^=",
    "++", "--"].map String.toList

/-- The operators of one character. -/
def isOperator (c : Char) : Bool := c ∈ "-+*/%&|^~!<>=@.".toList

/-- Brackets and separators. -/
def isPunctuation (c : Char) : Bool := c ∈ "()[]\x7b\x7d,;:".toList

/-- The rules outside comments and strings. -/
def root : List Rule :=
  [⟨.label, cutLabel, .root⟩,
   single (.one (· == '\n')) .whitespace .root,
   single (.run isGap) .whitespace .root,
   single (.restOfLine Vocabulary.lineMark) .lineComment .root,
   single (.oneOf [Vocabulary.blockOpen]) .blockComment (.comment 0),
   single (.one (· == Quote.double.char)) (.string .double) (.string .double),
   single (.one (· == Quote.single.char)) (.string .single) (.string .single),
   single (.one (· == Quote.backtick.char)) (.string .backtick) (.string .backtick),
   single (.wordOf Vocabulary.blockOpeners) .keyword .root,
   single (.wordOf Vocabulary.keywords) .keyword .root,
   single (.wordOf Vocabulary.constants) .constant .root,
   single (.typeName Vocabulary.types) .typeName .root,
   single (.marked '/') .group .root,
   single (.markedDigits '$' Pattern.isHexDigit) .hexNumber .root,
   single (.zeroDigits 'x' 'X' Pattern.isHexDigit) .hexNumber .root,
   single (.markedDigits '%' Pattern.isBinaryDigit) .binaryNumber .root,
   single (.zeroDigits 'b' 'B' Pattern.isBinaryDigit) .binaryNumber .root,
   single .decimalFraction .floatNumber .root,
   single (.run Char.isDigit) .integerNumber .root,
   single .identifier .name .root,
   single (.oneOf longOperators) .operator .root,
   single (.one isOperator) .operator .root,
   single (.one isPunctuation) .punctuation .root,
   single (.one (· != '\n')) .plain .root]

/-- The mode outside a comment at a depth. -/
def outside : Nat → LexMode
  | 0 => .root
  | depth + 1 => .comment depth

/-- The rules inside a block comment. -/
def comment (depth : Nat) : List Rule :=
  [single (.run fun c => c != '*' && c != '/') .blockComment (.comment depth),
   single (.oneOf [Vocabulary.blockOpen]) .blockComment (.comment (depth + 1)),
   single (.oneOf [Vocabulary.blockClose]) .blockComment (outside depth),
   single (.one fun c => c == '*' || c == '/') .blockComment (.comment depth)]

/-- The rules inside a string. A string ends with its line. -/
def string (q : Quote) : List Rule :=
  [single .escaped .escape (.string q),
   single (.one (· == q.char)) (.string q) .root,
   single (.one (· == '\n')) .whitespace .root,
   single (.run fun c => c != q.char && c != Vocabulary.escape && c != '\n') (.string q)
     (.string q)]

end Rule

/-- The rules of a mode. -/
def LexMode.rules : LexMode → List Rule
  | .root => Rule.root
  | .comment depth => Rule.comment depth
  | .string q => Rule.string q

end FabEdit
