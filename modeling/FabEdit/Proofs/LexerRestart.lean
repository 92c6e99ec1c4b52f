import Mathlib.Data.List.TakeWhile
import FabEdit.Proofs.LexerTiling

/-!
# Lexing can start again at any line

Behind a newline that belongs to no comment the lexer stands as it does at the start of a text. So
the tokens of a text are those of the text down to the newline and those of the rest, and an editor
that colours a changed line need not look at the lines above it, if they leave no comment open.

Shape of the argument:

* Outside block comments no rule looks past a newline, so a rule that applies in front of a newline
  is the one that applies when the text ends there (`Lexer.firstRule?_append_newline`). Inside a
  block comment that holds unless the comment goes on over the newline
  (`Lexer.marks_comment_newline`).
* By induction over the moves of the lexer the tokens in front of the newline are those of the text
  in front of it, and the newline is a token of its own, even inside a string
  (`Lexer.tokensFrom_append_newline`).
* A newline before a text makes no difference to its first rule (`Lexer.tokensFrom_newline`).
-/

namespace FabEdit

/-! ## Rules in front of a newline -/

namespace Rule

open Pattern in
theorem lineBound_of_mem_root {r : Rule} (h : r ∈ root) : r.pattern.LineBound := by
  revert r
  simp only [root, List.forall_mem_cons]
  exact ⟨lineBound_label, lineBound_one _, lineBound_run rfl, lineBound_restOfLine rfl,
    lineBound_oneOf rfl, lineBound_one _, lineBound_one _, lineBound_one _,
    lineBound_of_endsAtNewline (endsAtNewline_wordOf (by decide +kernel)),
    lineBound_of_endsAtNewline (endsAtNewline_wordOf (by decide +kernel)),
    lineBound_of_endsAtNewline (endsAtNewline_wordOf (by decide +kernel)),
    lineBound_typeName (by decide +kernel) (by decide +kernel), lineBound_marked _,
    lineBound_markedDigits _ rfl, lineBound_zeroDigits (by simp) (by simp) rfl,
    lineBound_markedDigits _ rfl, lineBound_zeroDigits (by simp) (by simp) rfl,
    lineBound_decimalFraction, lineBound_run rfl,
    lineBound_of_endsAtNewline endsAtNewline_identifier, lineBound_oneOf (by decide),
    lineBound_one _, lineBound_one _, lineBound_one _, by simp⟩

open Pattern in
theorem lineBound_of_mem_string {q : Quote} {r : Rule} (h : r ∈ string q) :
    r.pattern.LineBound := by
  revert r
  simp only [string, List.forall_mem_cons]
  exact ⟨lineBound_escaped, lineBound_one _, lineBound_one _, lineBound_run (by simp), by simp⟩

end Rule

namespace Lexer

theorem firstRule?_congr {rules : List Rule} {before before' : Option Char} {t t' : Text}
    (h : ∀ r ∈ rules, r.pattern before t = r.pattern before' t') :
    firstRule? rules before t = firstRule? rules before' t' := by
  induction rules with
  | nil => rfl
  | cons r rules ih =>
    have hhead := h r List.mem_cons_self
    cases hr : r.pattern before' t' with
    | none =>
      rw [firstRule?_cons_of_none (hhead.trans hr), firstRule?_cons_of_none hr]
      exact ih fun r' hr' => h r' (List.mem_cons_of_mem r hr')
    | some n => rw [firstRule?_cons_of_some (hhead.trans hr), firstRule?_cons_of_some hr]

/-- Inside a comment, text without a half of a mark takes the newline behind it along. -/
theorem marks_comment_newline {u : Text} (hu : ∀ c ∈ u, (c != '*' && c != '/') = true) (d : Nat)
    (before : Option Char) (v : Text) :
    (Token.marks (tokensFrom (.comment d) before (u ++ '\n' :: v)))[u.length]? = some true := by
  have hstays : ∀ c ∈ u, (∀ p, Scan.step p c (.block 0 d) = .block 0 d) ∧
      ∀ next, (Scan.Mode.block 0 d).inComment c next = true := by
    intro c hc
    have hne : c ≠ '*' ∧ c ≠ '/' := by simpa using hu c hc
    exact ⟨fun _ => by simp [Scan.step, Scan.dig, hne], fun _ => rfl⟩
  rw [marks_tokensFrom (.comment 0 d) before 0, Scan.marks_append_of_stays hstays,
    List.getElem?_append_right (by simp), List.length_replicate, Nat.sub_self]
  rfl

/-- A rule that applies in front of a newline does not look past it. Inside a comment that needs a
half of a mark before the newline, at which text without one ends. -/
theorem firstRule?_append_newline {mode : LexMode} {before : Option Char} {u v : Text} (hu : u ≠ [])
    (h : ∀ d, mode = .comment d → ¬ ∀ c ∈ u, (c != '*' && c != '/') = true) :
    firstRule? mode.rules before (u ++ '\n' :: v) = firstRule? mode.rules before u := by
  apply firstRule?_congr
  cases mode with
  | root => exact fun r hr => Rule.lineBound_of_mem_root hr before u v hu
  | string q => exact fun r hr => Rule.lineBound_of_mem_string hr before u v hu
  | comment d =>
    have hrun : runLength (fun c => c != '*' && c != '/') (u ++ '\n' :: v) =
        runLength (fun c => c != '*' && c != '/') u := by
      have hne : (u.takeWhile fun c => c != '*' && c != '/').length ≠ u.length := by
        intro hlength
        have hall := (List.takeWhile_prefix fun c => c != '*' && c != '/').eq_of_length hlength
        exact h d rfl (List.takeWhile_eq_self_iff.1 hall)
      rw [runLength, runLength, List.takeWhile_append, if_neg hne]
    simp only [LexMode.rules, Rule.comment, List.forall_mem_cons]
    refine ⟨?_, Pattern.lineBound_oneOf rfl before u v hu,
      Pattern.lineBound_oneOf rfl before u v hu, Pattern.lineBound_one _ before u v hu, by simp⟩
    exact congrArg positive? hrun

/-- In front of a newline that belongs to no comment, text inside a comment has a half of a mark. -/
theorem exists_half_of_marks {mode : LexMode} {before : Option Char} {u v : Text}
    (h : (Token.marks (tokensFrom mode before (u ++ '\n' :: v)))[u.length]? = some false) (d : Nat)
    (hmode : mode = .comment d) : ¬ ∀ c ∈ u, (c != '*' && c != '/') = true := by
  intro hplain
  rw [hmode, marks_comment_newline hplain] at h
  cases h

/-! ## Behind a newline -/

/-- A newline before a text and no character before it are the same to every rule. -/
theorem tokensFrom_newline (t : Text) :
    tokensFrom .root (some '\n') t = tokensFrom .root none t := by
  have hpattern : ∀ r ∈ Rule.root, r.pattern (some '\n') t = r.pattern none t := by
    simp only [Rule.root, List.forall_mem_cons]
    repeat refine ⟨rfl, ?_⟩
    simp
  have hrule : firstRule? LexMode.root.rules (some '\n') t = firstRule? LexMode.root.rules none t :=
    firstRule?_congr hpattern
  cases t with
  | nil => rw [tokensFrom_nil, tokensFrom_nil]
  | cons c t => rw [tokensFrom, tokensFrom, hrule]

/-- Outside comments a newline is a token of its own, and the lexer starts afresh behind it. -/
theorem tokensFrom_cons_newline {mode : LexMode} (hmode : ∀ d, mode ≠ .comment d)
    (before : Option Char) (t : Text) :
    tokensFrom mode before ('\n' :: t) = ⟨.whitespace, ['\n']⟩ :: tokensFrom .root none t := by
  have hrule : firstRule? mode.rules before ('\n' :: t) =
      some (.single (.one (· == '\n')) .whitespace .root, 1) := by
    cases mode with
    | root =>
      have hlabel : Pattern.label before ('\n' :: t) = none := by
        simp [Pattern.label, runLength, Pattern.isSpaceOrTab]
      rw [LexMode.rules, Rule.root, firstRule?_cons_of_none hlabel]
      exact firstRule?_cons_of_some rfl
    | comment d => exact absurd rfl (hmode d)
    | string q => cases q <;> rfl
  rw [tokensFrom_of_rule hrule, ← tokensFrom_newline]
  rfl

end Lexer

/-! ## Texts cut at a newline -/

theorem Token.length_marks (ts : List Token) :
    (Token.marks ts).length = (ts.flatMap Token.text).length := by
  induction ts with
  | nil => rfl
  | cons tok ts ih =>
    have hmarks : Token.marks (tok :: ts) =
        List.replicate tok.text.length tok.kind.isComment ++ Token.marks ts := rfl
    rw [hmarks, List.flatMap_cons, List.length_append, List.length_append, List.length_replicate,
      ih]

namespace Lexer

/-- In front of a newline that belongs to no comment stand the tokens of the text in front of it. -/
theorem tokensFrom_append_newline {mode : LexMode} {before : Option Char} {u v : Text}
    (h : (Token.marks (tokensFrom mode before (u ++ '\n' :: v)))[u.length]? = some false) :
    tokensFrom mode before (u ++ '\n' :: v) =
      tokensFrom mode before u ++ ⟨.whitespace, ['\n']⟩ :: tokensFrom .root none v := by
  induction mode, before, u using Lexer.induction with
  | nil mode before =>
    have hmode : ∀ d, mode ≠ .comment d := by
      intro d hd
      exact exists_half_of_marks (u := []) h d hd (by simp)
    rw [tokensFrom_nil]
    exact tokensFrom_cons_newline hmode before v
  | rule mode before u r n hrule ih =>
    obtain ⟨hpos, hle⟩ := bounds_of_firstRule? hrule
    have hu : u ≠ [] := List.length_pos_iff.1 (Nat.lt_of_lt_of_le hpos hle)
    -- The move in front of the newline is the one at the end of `u`.
    have hmove : tokensFrom mode before (u ++ '\n' :: v) =
        r.cut (u.take n) ++ tokensFrom r.next (u.take n).getLast? (u.drop n ++ '\n' :: v) := by
      rw [tokensFrom_of_rule ((firstRule?_append_newline hu (exists_half_of_marks h)).trans hrule),
        List.take_append_of_le_length hle, List.drop_append_of_le_length hle]
    have hlength : (Token.marks (r.cut (u.take n))).length = n := by
      rw [Token.length_marks, (cuts_of_firstRule? hrule).flatMap_text, List.length_take_of_le hle]
    rw [hmove, Token.marks_append, List.getElem?_append_right (by omega), hlength,
      ← List.length_drop] at h
    rw [hmove, ih h, tokensFrom_of_rule hrule, List.append_assoc]
  | error mode before c u hnone ih =>
    have hmove : tokensFrom mode before (c :: u ++ '\n' :: v) =
        ⟨.error, [c]⟩ :: tokensFrom mode (some c) (u ++ '\n' :: v) :=
      tokensFrom_of_none ((firstRule?_append_newline (List.cons_ne_nil c u)
        (exists_half_of_marks h)).trans hnone)
    rw [hmove] at h
    rw [hmove, ih h, tokensFrom_of_none hnone]
    rfl

end Lexer

namespace Token

theorem positionsFrom_add (p q : Nat) (ts : List Token) :
    positionsFrom (p + q) ts = (positionsFrom p ts).map fun e => (e.1 + q, e.2) := by
  induction ts generalizing p with
  | nil => rfl
  | cons tok ts ih =>
    have hnext : p + q + tok.text.length = p + tok.text.length + q := by omega
    rw [positionsFrom, positionsFrom, hnext, ih]
    rfl

/-- Whether a newline belongs to a comment is decided by the text before it. -/
theorem getElem?_marks_newline (t₁ t₂ : Text) :
    (marks (ofText (t₁ ++ '\n' :: t₂)))[t₁.length]? =
      some ((Scan.modeAfter .code 0 t₁).inComment '\n' none) := by
  have hnext : ∀ (m : Scan.Mode) (next : Option Char),
      m.inComment '\n' next = m.inComment '\n' none := by
    intro m next
    cases m <;> rfl
  rw [ofText, Lexer.marks_tokensFrom .root none 0, Scan.getElem?_marks, hnext]

/-- A token that covers a newline is a comment exactly if the newline belongs to one. -/
theorem isComment_eq_of_coversAt_newline {t₁ t₂ : Text} {e : Nat × Token}
    (hmem : e ∈ placedOfText (t₁ ++ '\n' :: t₂)) (hcovers : CoversAt e t₁.length) :
    e.2.kind.isComment = (Scan.modeAfter .code 0 t₁).inComment '\n' none := by
  have htoken : (marks (ofText (t₁ ++ '\n' :: t₂)))[t₁.length]? = some e.2.kind.isComment :=
    getElem?_marks_of_coversAt hmem ((Nat.zero_add t₁.length).symm ▸ hcovers)
  rw [getElem?_marks_newline, Option.some.injEq] at htoken
  exact htoken.symm

theorem exists_coversAt_newline (t₁ t₂ : Text) :
    ∃ e ∈ placedOfText (t₁ ++ '\n' :: t₂), CoversAt e t₁.length := by
  have hlt : t₁.length < (marks (ofText (t₁ ++ '\n' :: t₂))).length :=
    (List.getElem?_eq_some_iff.1 (getElem?_marks_newline t₁ t₂)).1
  obtain ⟨e, ⟨hmem, hcovers⟩, -⟩ := existsUnique_coversAt (q := 0) hlt
  rw [Nat.zero_add] at hcovers
  exact ⟨e, hmem, hcovers⟩

/-- A text divides at a newline that belongs to no comment. -/
theorem ofText_append_newline {t₁ : Text}
    (h : (Scan.modeAfter .code 0 t₁).inComment '\n' none = false) (t₂ : Text) :
    ofText (t₁ ++ '\n' :: t₂) = ofText (t₁ ++ ['\n']) ++ ofText t₂ := by
  have hdivide : ∀ t : Text, ofText (t₁ ++ '\n' :: t) =
      ofText t₁ ++ ⟨.whitespace, ['\n']⟩ :: ofText t := by
    intro t
    apply Lexer.tokensFrom_append_newline
    have hmark := getElem?_marks_newline t₁ t
    rwa [h] at hmark
  have hnil : ofText [] = [] := Lexer.tokensFrom_nil .root none
  rw [hdivide, hdivide, hnil, List.append_assoc]
  rfl

end Token

/-- Lexing can start again behind any newline that is not covered by a comment: the tokens of the
whole text are those of the text down to the newline, followed by those of the rest, moved by the
length of what comes before it. -/
theorem placedOfText_append_newline (t₁ t₂ : Text)
    (h : ∀ e ∈ Token.placedOfText (t₁ ++ '\n' :: t₂), Token.CoversAt e t₁.length →
      ¬ ["Comment"] <+: e.2.kind.path) :
    Token.placedOfText (t₁ ++ '\n' :: t₂) =
      Token.placedOfText (t₁ ++ ['\n']) ++
        (Token.placedOfText t₂).map fun e => (e.1 + (t₁.length + 1), e.2) := by
  have hcode : (Scan.modeAfter .code 0 t₁).inComment '\n' none = false := by
    obtain ⟨e, hmem, hcovers⟩ := Token.exists_coversAt_newline t₁ t₂
    have hnot := h e hmem hcovers
    rw [← Token.isComment_eq_of_coversAt_newline hmem hcovers, TokenKind.isComment,
      ← Bool.not_eq_true, List.isPrefixOf_iff_prefix]
    exact hnot
  have htext : (Token.ofText (t₁ ++ ['\n'])).flatMap Token.text = t₁ ++ ['\n'] :=
    Lexer.flatMap_text_tokensFrom .root none _
  rw [Token.placedOfText, Token.ofText_append_newline hcode, Token.positionsFrom_append, htext,
    List.length_append, List.length_singleton, Token.positionsFrom_add]
  rfl

/-- A comment over a line end, then a string that breaks off after a backslash. -/
private def ragged : Text := "/* a\n b */ 'c\\".toList

/-- The line below `ragged`, which starts with a name and a colon, is lexed as if it stood alone. -/
theorem placedOfText_below_ragged :
    (∀ e ∈ Token.placedOfText (ragged ++ '\n' :: "d: '".toList), Token.CoversAt e ragged.length →
      ¬ ["Comment"] <+: e.2.kind.path) ∧
    Token.placedOfText (ragged ++ '\n' :: "d: '".toList) =
      Token.placedOfText (ragged ++ ['\n']) ++
        (Token.placedOfText "d: '".toList).map fun e => (e.1 + (ragged.length + 1), e.2) := by
  have hcode : (Scan.modeAfter .code 0 ragged).inComment '\n' none = false := by decide +kernel
  have hcovers : ∀ e ∈ Token.placedOfText (ragged ++ '\n' :: "d: '".toList),
      Token.CoversAt e ragged.length → ¬ ["Comment"] <+: e.2.kind.path := by
    intro e hmem he
    rw [← List.isPrefixOf_iff_prefix, Bool.not_eq_true]
    exact (Token.isComment_eq_of_coversAt_newline hmem he).trans hcode
  exact ⟨hcovers, placedOfText_append_newline ragged "d: '".toList hcovers⟩

end FabEdit
