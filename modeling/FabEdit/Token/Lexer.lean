import FabEdit.Token.Rule

/-!
# Tokens of a text

The lexer cuts a whole text into tokens, from left to right, without leaving anything out. A
character that no rule takes is a token of its own, of kind `error`.
-/

namespace FabEdit

namespace Lexer

/-- The first rule whose pattern fits, and how many characters it takes. -/
def firstRule? (rules : List Rule) (before : Option Char) (t : Text) : Option (Rule × Nat) :=
  rules.findSome? fun r => (r.pattern before t).map fun n => (r, n)

/-- The tokens of the rest of a text, in a mode and after a character. -/
def tokensFrom (mode : LexMode) (before : Option Char) : Text → List Token
  | [] => []
  | c :: t =>
    match firstRule? mode.rules before (c :: t) with
    | none => ⟨.error, [c]⟩ :: tokensFrom mode (some c) t
    | some (rule, n) =>
      let taken := c :: t.take (n - 1)
      rule.cut taken ++ tokensFrom rule.next taken.getLast? (t.drop (n - 1))
termination_by t => t.length
decreasing_by
  · simp
  · simp only [List.length_drop, List.length_cons]
    omega

end Lexer

/-- The tokens of a text. -/
def Token.ofText (t : Text) : List Token := Lexer.tokensFrom .root none t

/-- Tokens with the positions at which they start, the first one at `p`. -/
def Token.positionsFrom (p : Nat) : List Token → List (Nat × Token)
  | [] => []
  | t :: ts => (p, t) :: positionsFrom (p + t.text.length) ts

/-- The tokens of a text with their positions. -/
def Token.placedOfText (t : Text) : List (Nat × Token) := Token.positionsFrom 0 (Token.ofText t)

end FabEdit
