import FabEdit.Text.Basic

/-!
# Tab stops

`Text.expandTabs` writes every tab as the spaces that lead to the next tab stop. Stops lie at the
multiples of the tab width, counted from the start of the line.
-/

namespace FabEdit.Text

/-- Expansion of a text that starts at column `col`. A newline or a carriage return starts a new
line; every other character takes one column. -/
def expandTabsFrom (width : Nat) : Nat → Text → Text
  | _, [] => []
  | col, c :: t =>
    if c = '\t' then
      let gap := width - col % width
      List.replicate gap ' ' ++ expandTabsFrom width (col + gap) t
    else if c = '\n' ∨ c = '\r' then
      c :: expandTabsFrom width 0 t
    else
      c :: expandTabsFrom width (col + 1) t

/-- A text with every tab expanded, for a positive tab width. -/
def expandTabs (width : Nat) (t : Text) : Text := expandTabsFrom width 0 t

end FabEdit.Text
