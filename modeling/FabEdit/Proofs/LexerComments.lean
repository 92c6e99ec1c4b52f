import FabEdit.Token.Lexer
import FabEdit.Proofs.Scanner
import FabEdit.Proofs.InertPatterns
import Mathlib.Logic.ExistsUnique

/-!
# The lexer and the scanner find the same comments

Comments are found in two ways: by the pass over the text that answers positions, and by the lexer
that colours it. The pass reads one character at a time and remembers halves of marks; the lexer
takes as much as a rule can and knows neither halves nor positions.

Shape of the argument:

* Both are reduced to one mark per character, whether it belongs to a comment: `Scan.marks` for the
  pass, `Token.marks` for tokens.
* `Tracks` relates the modes in which the two stand between tokens. From related modes, one rule of
  the lexer and as many steps of the pass as it takes characters set the same marks and end in
  related modes again (`MovesAlike`). This is shown for each mode of the lexer.
* By induction over the text all marks agree (`Lexer.marks_tokensFrom`).

Within a token the pass may stand in a mode that has no counterpart, such as after a slash. When the
token ends there, the pass treats what follows as if it had never seen the half mark
(`Scan.marks_slash` and its like).
-/

namespace FabEdit

/-! ## Marks of a pass -/

namespace Scan

/-- For each character of the rest of a text, whether it lies in a comment. -/
def marks : Mode → Nat → Text → List Bool
  | _, _, [] => []
  | m, p, c :: t => m.inComment c t.head? :: marks (step p c m) (p + 1) t

theorem getElem?_marks (m : Mode) (p : Nat) (u : Text) (c : Char) (v : Text) :
    (marks m p (u ++ c :: v))[u.length]? = some ((modeAfter m p u).inComment c v.head?) := by
  induction u generalizing m p with
  | nil => rfl
  | cons x u ih => exact ih (step p x m) (p + 1)

@[simp] theorem length_marks (m : Mode) (p : Nat) (t : Text) : (marks m p t).length = t.length := by
  induction t generalizing m p with
  | nil => rfl
  | cons c t ih => rw [marks, List.length_cons, ih, List.length_cons]

/-- Characters that leave the mode as it is are all marked alike. -/
theorem marks_append_of_stays {m : Mode} {b : Bool} {u : Text}
    (h : ∀ c ∈ u, (∀ p, step p c m = m) ∧ ∀ next, m.inComment c next = b) (p : Nat) (v : Text) :
    marks m p (u ++ v) = List.replicate u.length b ++ marks m (p + u.length) v := by
  induction u generalizing p with
  | nil => rfl
  | cons c u ih =>
    obtain ⟨hstep, hin⟩ := h c (by simp)
    have hlength : p + (c :: u).length = p + 1 + u.length := by
      rw [List.length_cons]
      omega
    rw [List.cons_append, marks, hstep, hin, ih (fun d hd => h d (List.mem_cons_of_mem c hd)),
      hlength]
    rfl

/-- Two modes that treat the next character alike set the same marks. -/
theorem marks_congr {m m' : Mode} {p : Nat} {t : Text}
    (h : ∀ c, t.head? = some c →
      (∀ next, m.inComment c next = m'.inComment c next) ∧ step p c m = step p c m') :
    marks m p t = marks m' p t := by
  cases t with
  | nil => rfl
  | cons c t =>
    obtain ⟨hin, hstep⟩ := h c rfl
    rw [marks, marks, hin, hstep]

/-- A slash that opens no comment is forgotten. -/
theorem marks_slash {t : Text} (h : opensComment '/' t.head? = false) (s p : Nat) :
    marks (.slash s) p t = marks .code p t := by
  apply marks_congr
  intro c hc
  obtain ⟨hslash, hstar⟩ : c ≠ '/' ∧ c ≠ '*' := by simpa [opensComment, hc] using h
  refine ⟨fun next => ?_, by simp [step, hslash, hstar]⟩
  rw [Mode.inComment, Mode.inComment, opensComment, beq_false_of_ne hslash, beq_false_of_ne hstar]
  rfl

/-- Where neither a comment nor a string starts, inert characters keep the pass in code. -/
theorem marks_code {c : Char} {u v : Text} (hquote : c ∉ Vocabulary.quotes)
    (hopens : opensComment c (u ++ v).head? = false) (hu : ∀ d ∈ u, isInert d = true) (p : Nat) :
    marks .code p (c :: (u ++ v)) =
      List.replicate (u.length + 1) false ++ marks .code (p + 1 + u.length) v := by
  have hstays : ∀ d ∈ u, (∀ p, step p d .code = .code) ∧
      ∀ next, Mode.code.inComment d next = false := by
    intro d hd
    have hne : d ≠ '/' ∧ d ∉ Vocabulary.quotes := by
      simpa [isInert, not_or] using hu d hd
    refine ⟨fun _ => ?_, fun _ => ?_⟩
    · rw [step, enter, if_neg hne.1, if_neg hne.2]
    · simp [Mode.inComment, opensComment, hne.1]
  -- A slash at the start, as in a division or a group, is forgotten at once.
  have hafter : marks (step p c .code) (p + 1) (u ++ v) = marks .code (p + 1) (u ++ v) := by
    by_cases hslash : c = '/'
    · subst hslash
      exact marks_slash hopens p (p + 1)
    · rw [step, enter, if_neg hslash, if_neg hquote]
  rw [marks, hafter, marks_append_of_stays hstays, Mode.inComment, hopens]
  rfl

/-- A line comment ends where its line does. -/
theorem marks_line {t : Text} (h : ∀ c, t.head? = some c → c = '\n') (s p : Nat) :
    marks (.line s) p t = marks .code p t := by
  apply marks_congr
  intro c hc
  rw [h c hc]
  exact ⟨fun _ => rfl, rfl⟩

theorem marks_blockSlash {t : Text} (h : t.head? ≠ some '*') (s d p : Nat) :
    marks (.blockSlash s d) p t = marks (.block s d) p t := by
  apply marks_congr
  intro c hc
  have hne : c ≠ '*' := by
    rintro rfl
    exact h hc
  exact ⟨fun _ => rfl, by simp [step, hne]⟩

theorem marks_blockStar {t : Text} (h : t.head? ≠ some '/') (s d p : Nat) :
    marks (.blockStar s d) p t = marks (.block s d) p t := by
  apply marks_congr
  intro c hc
  have hne : c ≠ '/' := by
    rintro rfl
    exact h hc
  exact ⟨fun _ => rfl, by cases d <;> simp [step, hne]⟩

/-- A backslash at the end of a line takes nothing literally. -/
theorem marks_escaped {t : Text} (h : ∀ c, t.head? = some c → c = '\n') (q : Quote) (p : Nat) :
    marks (.escaped q.char) p t = marks (.quoted q.char) p t := by
  apply marks_congr
  intro c hc
  rw [h c hc]
  exact ⟨fun _ => rfl, by cases q <;> rfl⟩

end Scan

/-! ## Marks of tokens -/

/-- Whether a kind of token is inside the kind of comments. -/
def TokenKind.isComment (k : TokenKind) : Bool := ["Comment"].isPrefixOf k.path

namespace Token

/-- For each character of some tokens, whether its token is a comment. -/
def marks (ts : List Token) : List Bool :=
  ts.flatMap fun tok => List.replicate tok.text.length tok.kind.isComment

@[simp] theorem marks_append (ts us : List Token) : marks (ts ++ us) = marks ts ++ marks us :=
  List.flatMap_append

@[simp] theorem marks_singleton (k : TokenKind) (u : Text) :
    marks [⟨k, u⟩] = List.replicate u.length k.isComment := by
  simp [marks]

theorem marks_nonEmpty (ts : List Token) : marks (Rule.nonEmpty ts) = marks ts := by
  induction ts with
  | nil => rfl
  | cons tok ts ih =>
    rw [Rule.nonEmpty, List.filter_cons]
    cases htext : tok.text with
    | nil => simpa [marks, Rule.nonEmpty, htext] using ih
    | cons c u => simpa [marks, Rule.nonEmpty, htext] using ih

theorem marks_cutLabel (u : Text) : marks (Rule.cutLabel u) = List.replicate u.length false := by
  have hkinds : TokenKind.whitespace.isComment = false ∧ TokenKind.punctuation.isComment = false ∧
      TokenKind.label.isComment = false := by decide
  rw [Rule.cutLabel, marks_nonEmpty]
  simp only [marks, List.flatMap_cons, List.flatMap_nil, List.append_nil, hkinds,
    List.replicate_append_replicate]
  congr 1
  -- The four pieces are the two halves of the text and the two halves of its second half.
  have hhalves : ∀ v : Text, (v.takeWhile Pattern.isSpaceOrTab).length +
      (v.dropWhile Pattern.isSpaceOrTab).length = v.length := by
    intro v
    rw [← List.length_append, List.takeWhile_append_dropWhile]
  have hfirst := hhalves u
  have hsecond := hhalves ((u.dropWhile Pattern.isSpaceOrTab).drop 1)
  rw [List.length_drop] at hsecond
  rw [List.length_take]
  omega

end Token

/-! ## Marks of two characters -/

theorem isPrefixOf_mark {a b c : Char} {t : Text} :
    [a, b].isPrefixOf (c :: t) = true ↔ c = a ∧ t.head? = some b := by
  cases t with
  | nil => simp [List.isPrefixOf]
  | cons d t =>
    simp only [List.isPrefixOf, Bool.and_true, Bool.and_eq_true, beq_iff_eq, List.head?_cons,
      Option.some.injEq]
    exact and_congr eq_comm eq_comm

theorem Pattern.oneOf_mark_eq_none {a b c : Char} {t : Text} (h : ¬ (c = a ∧ t.head? = some b))
    (before : Option Char) : oneOf [[a, b]] before (c :: t) = none := by
  rw [← isPrefixOf_mark, Bool.not_eq_true] at h
  simp [oneOf, h]

/-! ## Rules outside comments and strings -/

/-- Where no comment and no string starts, a rule does not start one either: it stays outside, and
what it takes is inert but for the first character. -/
def Rule.Calm (r : Rule) : Prop :=
  ∀ before c t n, c ∉ Vocabulary.quotes → Scan.opensComment c t.head? = false →
    r.pattern before (c :: t) = some n →
    r.next = .root ∧ InertFor t (n - 1) ∧ ∀ u, Token.marks (r.cut u) = List.replicate u.length false

namespace Rule

theorem calm_single {pat : Pattern} {kind : TokenKind} (hpat : pat.InertTail)
    (hkind : kind.isComment = false) : (single pat kind .root).Calm := by
  intro before c t n _ _ hn
  refine ⟨rfl, hpat before c t n hn, fun u => ?_⟩
  rw [single, Token.marks_singleton, hkind]

/-- A rule that does not apply there is calm. -/
theorem calm_of_forall_none {r : Rule}
    (h : ∀ before c t, c ∉ Vocabulary.quotes → Scan.opensComment c t.head? = false →
      r.pattern before (c :: t) = none) : r.Calm := by
  intro before c t n hquote hopens hn
  rw [h before c t hquote hopens] at hn
  cases hn

theorem calm_quote (q : Quote) :
    (single (.one (· == q.char)) (.string q) (.string q)).Calm := by
  refine calm_of_forall_none fun before c t hquote _ => ?_
  have hne : c ≠ q.char := by
    rintro rfl
    exact hquote (by cases q <;> decide)
  simp [single, Pattern.one, hne]

theorem calm_lineComment :
    (single (.restOfLine Vocabulary.lineMark) .lineComment .root).Calm := by
  refine calm_of_forall_none fun before c t _ hopens => if_neg ?_
  rw [Vocabulary.lineMark, isPrefixOf_mark]
  rintro ⟨rfl, hnext⟩
  simp [Scan.opensComment, hnext] at hopens

theorem calm_blockComment :
    (single (.oneOf [Vocabulary.blockOpen]) .blockComment (.comment 0)).Calm := by
  refine calm_of_forall_none fun before c t _ hopens => Pattern.oneOf_mark_eq_none ?_ before
  rintro ⟨rfl, hnext⟩
  simp [Scan.opensComment, hnext] at hopens

theorem calm_word {ws : WordSet} (hws : ws.words.all (·.all isInert) = true)
    {kind : TokenKind} (hkind : kind.isComment = false) :
    (single (.wordOf ws) kind .root).Calm :=
  calm_single (Pattern.inert_wordOf hws).inertTail hkind

theorem calm_of_mem_root {r : Rule} (h : r ∈ root) : r.Calm := by
  revert r
  simp only [root, List.forall_mem_cons]
  refine ⟨?label, calm_single (Pattern.inertTail_one _) rfl,
    calm_single (Pattern.inert_run (by decide)).inertTail rfl, calm_lineComment, calm_blockComment,
    calm_quote .double, calm_quote .single, calm_quote .backtick,
    calm_word (by decide +kernel) rfl, calm_word (by decide +kernel) rfl,
    calm_word (by decide +kernel) rfl,
    calm_single (Pattern.inert_typeName (by decide +kernel)).inertTail rfl,
    calm_single (Pattern.inertTail_marked _) rfl,
    calm_single (Pattern.inertTail_markedDigits (by decide) _) rfl,
    calm_single (Pattern.inertTail_zeroDigits (by decide) (by decide) (by decide)) rfl,
    calm_single (Pattern.inertTail_markedDigits (by decide) _) rfl,
    calm_single (Pattern.inertTail_zeroDigits (by decide) (by decide) (by decide)) rfl,
    calm_single Pattern.inert_decimalFraction.inertTail rfl,
    calm_single (Pattern.inert_run (by decide)).inertTail rfl,
    calm_single Pattern.inert_identifier.inertTail rfl,
    calm_single (Pattern.inert_oneOf (by decide)).inertTail rfl,
    calm_single (Pattern.inertTail_one _) rfl, calm_single (Pattern.inertTail_one _) rfl,
    calm_single (Pattern.inertTail_one _) rfl, by simp⟩
  case label =>
    intro before c t n _ _ hn
    exact ⟨rfl, Pattern.inert_label.inertTail before c t n hn, Token.marks_cutLabel⟩

end Rule

/-! ## Moving alike -/

/-- The modes in which the lexer and the pass stand between two tokens. -/
inductive Tracks : LexMode → Scan.Mode → Prop where
  | root : Tracks .root .code
  | comment (s d : Nat) : Tracks (.comment d) (.block s d)
  | string (q : Quote) : Tracks (.string q) (.quoted q.char)

theorem tracks_outside (s d : Nat) :
    ∃ m, Tracks (Rule.outside d) m ∧ ∀ p, Scan.step p '/' (.blockStar s d) = m := by
  cases d with
  | zero => exact ⟨.code, .root, fun _ => rfl⟩
  | succ d => exact ⟨.block s d, .comment s d, fun _ => rfl⟩

/-- The lexer cuts some tokens off a text, the pass reads their characters, both set the same marks,
and the modes are related again. -/
def MovesAlike (mode : LexMode) (before : Option Char) (m : Scan.Mode) (p : Nat) (c : Char)
    (t : Text) : Prop :=
  ∃ (ts : List Token) (mode' : LexMode) (before' : Option Char) (m' : Scan.Mode) (p' : Nat)
    (rest : Text),
    Lexer.tokensFrom mode before (c :: t) = ts ++ Lexer.tokensFrom mode' before' rest ∧
    rest.length ≤ t.length ∧ Tracks mode' m' ∧
    Scan.marks m p (c :: t) = Token.marks ts ++ Scan.marks m' p' rest

namespace MovesAlike

variable {mode : LexMode} {before : Option Char} {m m' : Scan.Mode} {p : Nat} {c : Char} {t : Text}

theorem of_rule {r : Rule} {n : Nat} (p' : Nat)
    (hrule : Lexer.firstRule? mode.rules before (c :: t) = some (r, n)) (htracks : Tracks r.next m')
    (hmarks : Scan.marks m p (c :: t) =
      Token.marks (r.cut (c :: t.take (n - 1))) ++ Scan.marks m' p' (t.drop (n - 1))) :
    MovesAlike mode before m p c t := by
  refine ⟨_, r.next, (c :: t.take (n - 1)).getLast?, m', p', t.drop (n - 1), ?_, by simp, htracks,
    hmarks⟩
  rw [Lexer.tokensFrom, hrule]

theorem of_error (p' : Nat) (hrule : Lexer.firstRule? mode.rules before (c :: t) = none)
    (htracks : Tracks mode m')
    (hmarks : Scan.marks m p (c :: t) = false :: Scan.marks m' p' t) :
    MovesAlike mode before m p c t := by
  refine ⟨[⟨.error, [c]⟩], mode, some c, m', p', t, ?_, Nat.le_refl _, htracks, hmarks⟩
  rw [Lexer.tokensFrom, hrule]
  rfl

/-- A rule that takes a run of characters which leave the pass where it is. -/
theorem of_run {f : Char → Bool} {k : TokenKind}
    (hrule : Lexer.firstRule? mode.rules before (c :: t) =
      some (Rule.single (.run f) k mode, runLength f (c :: t)))
    (hc : f c = true) (htracks : Tracks mode m)
    (hstays : ∀ d, f d = true →
      (∀ p, Scan.step p d m = m) ∧ ∀ next, m.inComment d next = k.isComment) :
    MovesAlike mode before m p c t := by
  have hall : ∀ d ∈ c :: t.takeWhile f, f d = true := by
    intro d hd
    rcases List.mem_cons.1 hd with rfl | hmem
    · exact hc
    · exact List.all_eq_true.1 List.all_takeWhile d hmem
  have hmarks := Scan.marks_append_of_stays (fun d hd => hstays d (hall d hd)) p (t.dropWhile f)
  rw [List.cons_append, List.takeWhile_append_dropWhile] at hmarks
  refine of_rule (p + (c :: t.takeWhile f).length) hrule htracks (hmarks.trans ?_)
  rw [runLength_cons hc, Nat.add_sub_cancel, take_runLength, drop_runLength, Rule.single,
    Token.marks_singleton]

end MovesAlike

namespace Lexer

theorem firstRule?_cons_of_none {r : Rule} {rs : List Rule} {before : Option Char} {t : Text}
    (h : r.pattern before t = none) : firstRule? (r :: rs) before t = firstRule? rs before t := by
  rw [firstRule?, List.findSome?_cons, h]
  rfl

theorem firstRule?_cons_of_some {r : Rule} {rs : List Rule} {before : Option Char} {t : Text}
    {n : Nat} (h : r.pattern before t = some n) : firstRule? (r :: rs) before t = some (r, n) := by
  rw [firstRule?, List.findSome?_cons, h]
  rfl

theorem of_firstRule? {rules : List Rule} {before : Option Char} {t : Text} {r : Rule} {n : Nat}
    (h : firstRule? rules before t = some (r, n)) : r ∈ rules ∧ r.pattern before t = some n := by
  obtain ⟨r', hmem, hr'⟩ := List.exists_of_findSome?_eq_some h
  obtain ⟨n', hn', heq⟩ := Option.map_eq_some_iff.1 hr'
  cases heq
  exact ⟨hmem, hn'⟩

/-! ## Inside comments -/

/-- Inside a comment a half mark with no other half is a token of its own. -/
private theorem firstRule?_comment_half {c : Char} {t : Text} {d : Nat} (before : Option Char)
    (hc : c = '/' ∧ t.head? ≠ some '*' ∨ c = '*' ∧ t.head? ≠ some '/') :
    firstRule? (LexMode.comment d).rules before (c :: t) =
      some (Rule.single (.one fun c => c == '*' || c == '/') .blockComment (.comment d), 1) := by
  have hopen : ¬ (c = '/' ∧ t.head? = some '*') := by
    rintro ⟨rfl, hnext⟩
    simp [hnext] at hc
  have hclose : ¬ (c = '*' ∧ t.head? = some '/') := by
    rintro ⟨rfl, hnext⟩
    simp [hnext] at hc
  have hhalf : c = '*' ∨ c = '/' := hc.symm.imp And.left And.left
  have hrun : ¬ (c != '*' && c != '/') = true := by
    simpa [Decidable.or_iff_not_imp_left] using hhalf
  rw [LexMode.rules, Rule.comment, firstRule?_cons_of_none (Pattern.run_eq_none hrun before),
    firstRule?_cons_of_none (Pattern.oneOf_mark_eq_none hopen before),
    firstRule?_cons_of_none (Pattern.oneOf_mark_eq_none hclose before)]
  exact firstRule?_cons_of_some (if_pos (by simpa using hhalf))

theorem movesAlike_comment (before : Option Char) (s d p : Nat) (c : Char) (t : Text) :
    MovesAlike (.comment d) before (.block s d) p c t := by
  by_cases hslash : c = '/'
  · subst hslash
    by_cases hnext : t.head? = some '*'
    · obtain ⟨t, rfl⟩ := List.head?_eq_some_iff.1 hnext
      have hrule : firstRule? (LexMode.comment d).rules before ('/' :: '*' :: t) =
          some (Rule.single (.oneOf [Vocabulary.blockOpen]) .blockComment (.comment (d + 1)), 2) :=
        rfl
      have hmarks : Scan.marks (.block s d) p ('/' :: '*' :: t) =
          [true, true] ++ Scan.marks (.block s (d + 1)) (p + 2) t := rfl
      exact .of_rule (p + 2) hrule (.comment s (d + 1)) hmarks
    · have hmarks : Scan.marks (.block s d) p ('/' :: t) =
          [true] ++ Scan.marks (.block s d) (p + 1) t :=
        congrArg (true :: ·) (Scan.marks_blockSlash hnext s d (p + 1))
      exact .of_rule (p + 1) (firstRule?_comment_half before (.inl ⟨rfl, hnext⟩)) (.comment s d)
        hmarks
  · by_cases hstar : c = '*'
    · subst hstar
      by_cases hnext : t.head? = some '/'
      · obtain ⟨t, rfl⟩ := List.head?_eq_some_iff.1 hnext
        obtain ⟨m, htracks, hstep⟩ := tracks_outside s d
        have hrule : firstRule? (LexMode.comment d).rules before ('*' :: '/' :: t) =
            some (Rule.single (.oneOf [Vocabulary.blockClose]) .blockComment (Rule.outside d), 2) :=
          rfl
        have hmarks : Scan.marks (.block s d) p ('*' :: '/' :: t) =
            [true, true] ++ Scan.marks m (p + 2) t := by
          rw [← hstep (p + 1)]
          rfl
        exact .of_rule (p + 2) hrule htracks hmarks
      · have hmarks : Scan.marks (.block s d) p ('*' :: t) =
            [true] ++ Scan.marks (.block s d) (p + 1) t :=
          congrArg (true :: ·) (Scan.marks_blockStar hnext s d (p + 1))
        exact .of_rule (p + 1) (firstRule?_comment_half before (.inr ⟨rfl, hnext⟩)) (.comment s d)
          hmarks
    · have hc : (c != '*' && c != '/') = true := by simp [hslash, hstar]
      refine .of_run (firstRule?_cons_of_some (Pattern.run_eq_some hc before)) hc (.comment s d) ?_
      intro x hx
      have hne : x ≠ '*' ∧ x ≠ '/' := by simpa using hx
      exact ⟨fun _ => by simp [Scan.step, Scan.dig, hne], fun _ => rfl⟩

/-! ## Inside strings -/

/-- No rule takes a backslash at the end of a line. -/
theorem firstRule?_string_none {t : Text} (h : ∀ x, t.head? = some x → x = '\n')
    (before : Option Char) (q : Quote) :
    firstRule? (LexMode.string q).rules before ('\\' :: t) = none := by
  have hescaped : Pattern.escaped before ('\\' :: t) = none := by
    cases t with
    | nil => rfl
    | cons x t =>
      obtain rfl : x = '\n' := h x rfl
      rfl
  have hquote : ¬ ('\\' == q.char) = true := by cases q <;> decide
  have hrun : ¬ ('\\' != q.char && '\\' != Vocabulary.escape && '\\' != '\n') = true := by
    cases q <;> decide
  rw [LexMode.rules, Rule.string, firstRule?_cons_of_none hescaped,
    firstRule?_cons_of_none (if_neg hquote), firstRule?_cons_of_none rfl,
    firstRule?_cons_of_none (Pattern.run_eq_none hrun before)]
  rfl

private theorem movesAlike_string_escape (before : Option Char) (q : Quote) (p : Nat) (t : Text) :
    MovesAlike (.string q) before (.quoted q.char) p '\\' t := by
  by_cases hnext : ∀ x, t.head? = some x → x = '\n'
  -- The lexer stays in the string after the error, the pass is about to leave it.
  · have hmarks : Scan.marks (.quoted q.char) p ('\\' :: t) =
        false :: Scan.marks (.quoted q.char) (p + 1) t :=
      congrArg (false :: ·) (Scan.marks_escaped hnext q (p + 1))
    exact .of_error (p + 1) (firstRule?_string_none hnext before q) (.string q) hmarks
  · cases t with
    | nil => simp at hnext
    | cons x t =>
      have hx : x ≠ '\n' := by simpa using hnext
      have hrule : firstRule? (LexMode.string q).rules before ('\\' :: x :: t) =
          some (Rule.single .escaped .escape (.string q), 2) :=
        firstRule?_cons_of_some (if_neg hx)
      have hstep : Scan.step (p + 1) x (.escaped q.char) = .quoted q.char := if_neg hx
      have hmarks : Scan.marks (.quoted q.char) p ('\\' :: x :: t) =
          [false, false] ++ Scan.marks (.quoted q.char) (p + 2) t := by
        show false :: false :: Scan.marks (Scan.step (p + 1) x (.escaped q.char)) (p + 2) t = _
        rw [hstep]
        rfl
      exact .of_rule (p + 2) hrule (.string q) hmarks

theorem movesAlike_string (before : Option Char) (q : Quote) (p : Nat) (c : Char) (t : Text) :
    MovesAlike (.string q) before (.quoted q.char) p c t := by
  by_cases hescape : c = Vocabulary.escape
  · subst hescape
    exact movesAlike_string_escape before q p t
  have hescaped : Pattern.escaped before (c :: t) = none := by
    unfold Pattern.escaped
    split
    next heq => exact absurd (List.cons.inj heq).1 hescape
    next => rfl
  -- The string ends with its quote or with its line.
  by_cases hend : c = q.char ∨ c = '\n'
  · have hmarks : Scan.marks (.quoted q.char) p (c :: t) =
        [false] ++ Scan.marks .code (p + 1) t := by
      have hstep : Scan.step p c (.quoted q.char) = .code := by
        rw [Scan.step, if_neg hescape, if_pos hend]
      rw [Scan.marks, hstep]
      rfl
    by_cases hquote : c = q.char
    · have hrule : firstRule? (LexMode.string q).rules before (c :: t) =
          some (Rule.single (.one (· == q.char)) (.string q) .root, 1) := by
        rw [LexMode.rules, Rule.string, firstRule?_cons_of_none hescaped]
        exact firstRule?_cons_of_some (if_pos (by simpa using hquote))
      refine .of_rule (p + 1) hrule .root (hmarks.trans ?_)
      cases q <;> rfl
    · have hnewline : c = '\n' := hend.resolve_left hquote
      have hrule : firstRule? (LexMode.string q).rules before (c :: t) =
          some (Rule.single (.one (· == '\n')) .whitespace .root, 1) := by
        rw [LexMode.rules, Rule.string, firstRule?_cons_of_none hescaped,
          firstRule?_cons_of_none (if_neg (by simpa using hquote))]
        exact firstRule?_cons_of_some (if_pos (by simpa using hnewline))
      exact .of_rule (p + 1) hrule .root hmarks
  · obtain ⟨hquote, hnewline⟩ := not_or.1 hend
    have hc : (c != q.char && c != Vocabulary.escape && c != '\n') = true := by
      simp [hquote, hnewline, hescape]
    refine .of_run (f := fun c => c != q.char && c != Vocabulary.escape && c != '\n')
      (k := .string q) ?_ hc (.string q) ?_
    · rw [LexMode.rules, Rule.string, firstRule?_cons_of_none hescaped,
        firstRule?_cons_of_none (if_neg (by simpa using hquote)),
        firstRule?_cons_of_none (if_neg (by simpa using hnewline))]
      exact firstRule?_cons_of_some (Pattern.run_eq_some hc before)
    · intro x hx
      obtain ⟨⟨hxq, hxe⟩, hxn⟩ : (x ≠ q.char ∧ x ≠ Vocabulary.escape) ∧ x ≠ '\n' := by
        simpa using hx
      refine ⟨fun _ => ?_, fun _ => by cases q <;> rfl⟩
      rw [Scan.step, if_neg hxe, if_neg (not_or.2 ⟨hxq, hxn⟩)]

/-! ## In code -/

/-- The rules for labels and for white space do not apply to a slash or a quote. -/
private theorem firstRule?_root_of_mem {c : Char} (hc : c ∈ '/' :: Vocabulary.quotes)
    (before : Option Char) (t : Text) :
    firstRule? LexMode.root.rules before (c :: t) =
      firstRule? (Rule.root.drop 3) before (c :: t) := by
  have hspace : Pattern.isSpaceOrTab c = false :=
    (by decide : InertClass Pattern.isSpaceOrTab).eq_false hc
  have hcolon : c ≠ ':' := by simpa using (by decide : InertClass (· == ':')).eq_false hc
  have hnewline : (c == '\n') = false := (by decide : InertClass (· == '\n')).eq_false hc
  have hgap : Rule.isGap c = false := (by decide : InertClass Rule.isGap).eq_false hc
  have hlabel : Pattern.label before (c :: t) = none := by
    have hindent : runLength Pattern.isSpaceOrTab (c :: t) = 0 := by simp [runLength, hspace]
    rw [Pattern.label, hindent]
    simp [hcolon]
  rw [LexMode.rules, Rule.root, firstRule?_cons_of_none hlabel,
    firstRule?_cons_of_none (if_neg (by simp [hnewline])),
    firstRule?_cons_of_none (Pattern.run_eq_none (by simp [hgap]) before)]
  rfl

/-- Two slashes take the rest of the line. -/
private theorem movesAlike_lineComment (before : Option Char) (p : Nat) (t : Text) :
    MovesAlike .root before .code p '/' ('/' :: t) := by
  have hrule : firstRule? LexMode.root.rules before ('/' :: '/' :: t) =
      some (Rule.single (.restOfLine Vocabulary.lineMark) .lineComment .root,
        2 + runLength (· != '\n') t) := by
    rw [firstRule?_root_of_mem (by decide)]
    exact firstRule?_cons_of_some rfl
  have hstays : ∀ c ∈ t.takeWhile (· != '\n'),
      (∀ r, Scan.step r c (.line p) = .line p) ∧
        ∀ next, (Scan.Mode.line p).inComment c next = true := by
    intro c hc
    have hne : (c != '\n') = true := List.all_eq_true.1 List.all_takeWhile c hc
    exact ⟨fun _ => if_neg (by simpa using hne), fun _ => hne⟩
  have hend : ∀ c, (t.dropWhile (· != '\n')).head? = some c → c = '\n' := by
    intro c hc
    have hhead := List.head?_dropWhile_not (· != '\n') t
    rw [hc] at hhead
    simpa using hhead
  have hline : Scan.marks (.line p) (p + 2) t =
      List.replicate (t.takeWhile (· != '\n')).length true ++
        Scan.marks .code (p + 2 + (t.takeWhile (· != '\n')).length) (t.dropWhile (· != '\n')) := by
    rw [← Scan.marks_line hend p, ← Scan.marks_append_of_stays hstays,
      List.takeWhile_append_dropWhile]
  have hlength : 2 + runLength (· != '\n') t - 1 = runLength (· != '\n') t + 1 := by omega
  refine .of_rule (p + 2 + (t.takeWhile (· != '\n')).length) hrule .root ?_
  rw [hlength, List.take_succ_cons, List.drop_succ_cons, take_runLength, drop_runLength,
    Rule.single, Token.marks_singleton]
  exact congrArg (true :: true :: ·) hline

private theorem movesAlike_blockComment (before : Option Char) (p : Nat) (t : Text) :
    MovesAlike .root before .code p '/' ('*' :: t) := by
  have hrule : firstRule? LexMode.root.rules before ('/' :: '*' :: t) =
      some (Rule.single (.oneOf [Vocabulary.blockOpen]) .blockComment (.comment 0), 2) := by
    rw [firstRule?_root_of_mem (by decide)]
    rfl
  have hmarks : Scan.marks .code p ('/' :: '*' :: t) =
      [true, true] ++ Scan.marks (.block p 0) (p + 2) t := rfl
  exact .of_rule (p + 2) hrule (.comment p 0) hmarks

private theorem movesAlike_quote (before : Option Char) (q : Quote) (p : Nat) (t : Text) :
    MovesAlike .root before .code p q.char t := by
  have hrule : firstRule? LexMode.root.rules before (q.char :: t) =
      some (Rule.single (.one (· == q.char)) (.string q) (.string q), 1) := by
    rw [firstRule?_root_of_mem (by cases q <;> decide)]
    cases q <;> rfl
  have hmarks : Scan.marks .code p (q.char :: t) =
      [false] ++ Scan.marks (.quoted q.char) (p + 1) t := by
    cases q <;> rfl
  refine .of_rule (p + 1) hrule (.string q) (hmarks.trans ?_)
  cases q <;> rfl

/-- In code there is always a rule that applies. -/
theorem firstRule?_root_ne_none (before : Option Char) (c : Char) (t : Text) :
    firstRule? LexMode.root.rules before (c :: t) ≠ none := by
  intro hnone
  have hall := List.findSome?_eq_none_iff.1 hnone
  have hnewline := hall (Rule.single (.one (· == '\n')) .whitespace .root)
    (List.mem_of_getElem? (i := 1) rfl)
  have hother := hall (Rule.single (.one (· != '\n')) .plain .root)
    (List.mem_of_getElem? (i := 23) rfl)
  by_cases hc : c = '\n'
  · simp [Rule.single, Pattern.one, hc] at hnewline
  · simp [Rule.single, Pattern.one, hc] at hother

/-- Where neither a comment nor a string starts, whatever rule applies stays in code. -/
private theorem movesAlike_calm (before : Option Char) (p : Nat) {c : Char} {t : Text}
    (hquote : c ∉ Vocabulary.quotes) (hopens : Scan.opensComment c t.head? = false) :
    MovesAlike .root before .code p c t := by
  cases hrule : firstRule? LexMode.root.rules before (c :: t) with
  | none => exact absurd hrule (firstRule?_root_ne_none before c t)
  | some result =>
    obtain ⟨r, n⟩ := result
    obtain ⟨hmem, hpattern⟩ := of_firstRule? hrule
    obtain ⟨hnext, hinert, hcut⟩ :=
      Rule.calm_of_mem_root hmem before c t n hquote hopens hpattern
    have htracks : Tracks r.next .code := by
      rw [hnext]
      exact .root
    refine .of_rule (p + 1 + (t.take (n - 1)).length) hrule htracks ?_
    rw [← List.take_append_drop (n - 1) t] at hopens
    rw [hcut, List.length_cons, ← Scan.marks_code hquote hopens hinert, List.take_append_drop]

theorem movesAlike_root (before : Option Char) (p : Nat) (c : Char) (t : Text) :
    MovesAlike .root before .code p c t := by
  by_cases hopens : Scan.opensComment c t.head? = true
  · obtain ⟨rfl, hnext⟩ : c = '/' ∧ (t.head? = some '/' ∨ t.head? = some '*') := by
      simpa [Scan.opensComment] using hopens
    rcases hnext with hslash | hstar
    · obtain ⟨t, rfl⟩ := List.head?_eq_some_iff.1 hslash
      exact movesAlike_lineComment before p t
    · obtain ⟨t, rfl⟩ := List.head?_eq_some_iff.1 hstar
      exact movesAlike_blockComment before p t
  · by_cases hquote : c ∈ Vocabulary.quotes
    · obtain ⟨q, rfl⟩ : ∃ q : Quote, c = q.char := by
        rcases (by simpa [Vocabulary.quotes] using hquote : c = '"' ∨ c = '\x27' ∨ c = '\x60')
          with rfl | rfl | rfl
        · exact ⟨.double, rfl⟩
        · exact ⟨.single, rfl⟩
        · exact ⟨.backtick, rfl⟩
      exact movesAlike_quote before q p t
    · exact movesAlike_calm before p hquote (Bool.eq_false_iff.2 hopens)

/-! ## Whole texts -/

/-- From related modes the lexer and the pass move alike. -/
theorem movesAlike_of_tracks {mode : LexMode} {m : Scan.Mode} (h : Tracks mode m)
    (before : Option Char) (p : Nat) (c : Char) (t : Text) : MovesAlike mode before m p c t := by
  cases h with
  | root => exact movesAlike_root before p c t
  | comment s d => exact movesAlike_comment before s d p c t
  | string q => exact movesAlike_string before q p c t

/-- From related modes the tokens of a text and the pass over it set the same marks. -/
theorem marks_tokensFrom {mode : LexMode} {m : Scan.Mode} (h : Tracks mode m)
    (before : Option Char) (p : Nat) (t : Text) :
    Token.marks (tokensFrom mode before t) = Scan.marks m p t := by
  -- A rule may take any number of characters, so the induction is on what is left.
  induction hlen : t.length using Nat.strongRecOn generalizing mode m before p t with
  | ind len ih =>
    cases t with
    | nil =>
      rw [tokensFrom]
      rfl
    | cons c t =>
      obtain ⟨ts, mode', before', m', p', rest, htokens, hshort, htracks, hmarks⟩ :=
        movesAlike_of_tracks h before p c t
      have hrest : rest.length < len := by
        rw [← hlen, List.length_cons]
        omega
      rw [htokens, Token.marks_append, ih _ hrest htracks before' p' rest rfl, hmarks]

end Lexer

namespace Token

/-! ## Positions -/

/-- A token with its position covers a position of the text. -/
def CoversAt (e : Nat × Token) (p : Nat) : Prop := e.1 ≤ p ∧ p < e.1 + e.2.text.length

theorem le_of_mem_positionsFrom {q : Nat} {ts : List Token} {e : Nat × Token}
    (h : e ∈ positionsFrom q ts) : q ≤ e.1 := by
  induction ts generalizing q with
  | nil => cases h
  | cons tok ts ih =>
    rcases List.mem_cons.1 h with rfl | hmem
    · exact Nat.le_refl q
    · exact Nat.le_trans (Nat.le_add_right q tok.text.length) (ih hmem)

/-- If every character of some tokens gets a value by the kind of its token, then the token that
covers a position gives it its value. -/
theorem getElem?_flatMap_of_coversAt {α : Type} (f : TokenKind → α) {q k : Nat} {ts : List Token}
    {e : Nat × Token} (h : e ∈ positionsFrom q ts) (hcovers : CoversAt e (q + k)) :
    (ts.flatMap fun tok => List.replicate tok.text.length (f tok.kind))[k]? =
      some (f e.2.kind) := by
  induction ts generalizing q k with
  | nil => cases h
  | cons tok ts ih =>
    obtain ⟨hlow, hhigh⟩ := hcovers
    rcases List.mem_cons.1 h with rfl | hmem
    · have hk : k < tok.text.length := by
        simp only at hhigh
        omega
      rw [List.flatMap_cons, List.getElem?_append_left (by simpa using hk),
        List.getElem?_replicate_of_lt hk]
    · have hk : tok.text.length ≤ k := by
        have := le_of_mem_positionsFrom hmem
        omega
      have hposition : q + k = q + tok.text.length + (k - tok.text.length) := by omega
      rw [List.flatMap_cons, List.getElem?_append_right (by simpa using hk), List.length_replicate]
      exact ih hmem (hposition ▸ ⟨hlow, hhigh⟩)

/-- The token that covers a position gives it its mark. -/
theorem getElem?_marks_of_coversAt {q k : Nat} {ts : List Token} {e : Nat × Token}
    (h : e ∈ positionsFrom q ts) (hcovers : CoversAt e (q + k)) :
    (marks ts)[k]? = some e.2.kind.isComment :=
  getElem?_flatMap_of_coversAt TokenKind.isComment h hcovers

/-- Each position of some tokens is covered by exactly one of them. -/
theorem existsUnique_coversAt {q k : Nat} {ts : List Token} (h : k < (marks ts).length) :
    ∃! e, e ∈ positionsFrom q ts ∧ CoversAt e (q + k) := by
  induction ts generalizing q k with
  | nil => simp [marks] at h
  | cons tok ts ih =>
    have hlength : (marks (tok :: ts)).length = tok.text.length + (marks ts).length := by
      simp [marks]
    by_cases hk : k < tok.text.length
    · refine ⟨(q, tok), ⟨List.mem_cons_self, Nat.le_add_right q k, by simp only; omega⟩, ?_⟩
      rintro e ⟨hmem, hlow, -⟩
      rcases List.mem_cons.1 hmem with rfl | hlater
      · rfl
      · have := le_of_mem_positionsFrom hlater
        omega
    · have hposition : q + k = q + tok.text.length + (k - tok.text.length) := by omega
      obtain ⟨e, ⟨hmem, hcovers⟩, honly⟩ :=
        ih (q := q + tok.text.length) (k := k - tok.text.length) (by omega)
      rw [hposition]
      refine ⟨e, ⟨List.mem_cons_of_mem _ hmem, hcovers⟩, ?_⟩
      rintro e' ⟨hmem', hcovers'⟩
      rcases List.mem_cons.1 hmem' with rfl | hlater
      · have := hcovers'.2
        simp only at this
        omega
      · exact honly e' ⟨hlater, hcovers'⟩

end Token

/-- At every position of a text the pass and the lexer agree on whether it lies in a comment:
exactly one token covers the position, and it is of a kind inside comments exactly if the position
is covered by the comments of the text. -/
theorem comments_cover_iff_token_isComment (t : Text) (p : Nat) (hp : p < t.length) :
    (∃! e, e ∈ Token.placedOfText t ∧ Token.CoversAt e p) ∧
    ∀ e ∈ Token.placedOfText t, Token.CoversAt e p →
      ((Comments.ofText t).covers p = true ↔ ["Comment"] <+: e.2.kind.path) := by
  have hmarks : Token.marks (Token.ofText t) = Scan.marks .code 0 t :=
    Lexer.marks_tokensFrom .root none 0 t
  have hzero : 0 + p = p := Nat.zero_add p
  constructor
  · have hone := Token.existsUnique_coversAt (q := 0) (k := p)
      (by rwa [hmarks, Scan.length_marks])
    rwa [hzero] at hone
  · intro e he hcovers
    have htoken := Token.getElem?_marks_of_coversAt (k := p) he (hzero.symm ▸ hcovers)
    -- The text before the position, the character there, and the text after it.
    have hsplit : t.take p ++ t[p] :: t.drop (p + 1) = t := by
      rw [← List.drop_eq_getElem_cons hp, List.take_append_drop]
    have hlength : (t.take p).length = p := List.length_take_of_le (Nat.le_of_lt hp)
    have hpass := Scan.getElem?_marks .code 0 (t.take p) t[p] (t.drop (p + 1))
    have hcover := Comments.covers_ofText (t.take p) t[p] (t.drop (p + 1))
    rw [hsplit, hlength] at hpass hcover
    rw [hmarks, hpass] at htoken
    rw [hcover, Option.some.inj htoken, TokenKind.isComment, List.isPrefixOf_iff_prefix]

/-- A string that breaks off after a backslash, then a comment whose opening mark overlaps with a
closing one and which holds a quote. -/
private def tangled : Text := "'a\\\n/*/ \"b */ c".toList

/-- The quote in the comment of `tangled` is covered, so its token is a comment. -/
theorem comments_cover_tangled :
    8 < tangled.length ∧ (Comments.ofText tangled).covers (8 : Nat) = true ∧
    (∃! e, e ∈ Token.placedOfText tangled ∧ Token.CoversAt e 8) ∧
    ∀ e ∈ Token.placedOfText tangled, Token.CoversAt e 8 →
      ((Comments.ofText tangled).covers (8 : Nat) = true ↔ ["Comment"] <+: e.2.kind.path) :=
  ⟨by decide, by decide +kernel, comments_cover_iff_token_isComment tangled 8 (by decide)⟩

end FabEdit
