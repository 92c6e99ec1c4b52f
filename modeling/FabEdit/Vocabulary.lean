import FabEdit.Listing

/-!
# The vocabulary of NESFab

The words and marks of the language that an editor has to know: what opens an indented block, what
is a keyword, a type or a constant, how comments and strings are delimited, and which openers a
continuation keyword such as `else` lines up with.
-/

namespace FabEdit

/-- How a continuation keyword finds the line it lines up with. -/
structure Continuation where
  /-- First words of the opener lines it can line up with. -/
  peers : Listing
  /-- First words of the opener lines that end the search. -/
  stops : Listing
  /-- Peers that close their chain, as a plain `else` does, unless another peer follows on the same
  line, as in `else if`. -/
  terminal : Listing
  deriving DecidableEq

/-- Continuation rules by keyword. -/
abbrev Continuations := WordMap Continuation

namespace Vocabulary

/-- The set of some words. -/
def wordSet (ws : List String) : WordSet := WordSet.ofList (ws.map String.toList)

/-- The listing of some words. -/
def listing (ws : List String) : Listing := .ofWords (wordSet ws)

/-- First words of lines that open an indented block. -/
def blockOpeners : WordSet :=
  wordSet ["asm", "case", "data", "default", "do", "else", "fn", "for", "if", "irq", "label",
    "mode", "nmi", "omni", "struct", "switch", "vars", "while"]

/-- The other keywords. -/
def keywords : WordSet :=
  wordSet ["audio", "break", "charmap", "chrrom", "continue", "ct", "employs", "fence", "file",
    "goto", "len", "nmi_counter", "preserves", "read", "ready", "return", "sizeof", "state",
    "stows", "swap", "system", "write"]

/-- Names of types. -/
def types : WordSet :=
  wordSet ["AA", "Bool", "CC", "F", "FF", "FFF", "Fn", "Int", "MM", "PP", "Real", "S", "SS", "SSS",
    "SSSS", "U", "UU", "UUU", "UUUU", "Void"]

/-- Names of constants. -/
def constants : WordSet := wordSet ["false", "nullptr", "true"]

/-- What `case` and `default` line up with: the branches of the same `switch`. -/
def branchRule : Continuation :=
  ⟨listing ["case", "default"], listing ["switch"], .empty⟩

/-- What `else` lines up with: the `if` or `else if` whose chain is still open. -/
def elseRule : Continuation :=
  ⟨listing ["if", "else"],
   listing ["fn", "mode", "nmi", "irq", "struct", "vars", "data", "omni", "asm"],
   listing ["else"]⟩

/-- The continuation keywords of the language. -/
def continuations : Continuations :=
  WordMap.ofList [("else".toList, elseRule), ("case".toList, branchRule),
    ("default".toList, branchRule)]

/-- Starts a comment that ends with its line. -/
def lineMark : Text := ['/', '/']

/-- Opens a block comment. Block comments nest. -/
def blockOpen : Text := ['/', '*']

/-- Closes a block comment. -/
def blockClose : Text := ['*', '/']

/-- The three characters that delimit strings. -/
def quotes : List Char := ['"', '\x27', '\x60']

/-- Takes the next character of a string literally. -/
def escape : Char := '\\'

/-- Starts an annotation line. -/
def annotationMark : Char := ':'

end Vocabulary

end FabEdit
