import FabEdit.Proofs.LexerTiling

/-!
# Words are coloured whole

Where the lexer stands outside comments and strings at a letter or an underscore, the token there is
the whole word, and its colour is what the vocabularies say about the whole word. A word that
continues another one is a name.

Shape of the argument:

* The rules that are not for words take nothing where a word starts (`Pattern.Wordless`).
* Each rule for words looks for its words one after the other. As these consist of word characters,
  the one that it finds is the longest run of them (`Pattern.standsWhole_iff`), and the search is a
  lookup (`Pattern.wordOf_eq`, `Pattern.typeName_eq`).
* So the rule that applies is read off the word (`Lexer.firstRule?_root_of_isIdentStart`), and the
  order of the rules does not matter because no word stands in two vocabularies of different colours
  (`Pattern.not_mem_of_mem_constants`, `Pattern.not_mem_of_mem_types`).
-/

namespace FabEdit

/-! ## Where a word starts -/

theorem ne_of_isIdentStart {c d : Char} (hc : isIdentStart c = true)
    (hd : isIdentStart d = false) : c ≠ d := by
  rintro rfl
  exact Bool.false_ne_true (hd.symm.trans hc)

theorem isDigit_eq_false_of_isIdentStart {c : Char} (hc : isIdentStart c = true) :
    c.isDigit = false := by
  rw [← Bool.not_eq_true]
  intro hdigit
  have hnine : c.val ≤ '9'.val := of_decide_eq_true (Bool.and_eq_true_iff.1 hdigit).2
  rcases Bool.or_eq_true_iff.1 hc with halpha | hunderscore
  · -- Digits come before the capital letters, and these before the small ones.
    rcases Bool.or_eq_true_iff.1 halpha with hupper | hlower
    · have hcapital : 'A'.val ≤ c.val := (of_decide_eq_true hupper).1
      exact absurd (UInt32.le_trans hcapital hnine) (by decide)
    · have hsmall : 'a'.val ≤ c.val := of_decide_eq_true (Bool.and_eq_true_iff.1 hlower).1
      exact absurd (UInt32.le_trans hsmall hnine) (by decide)
  · rw [beq_iff_eq.1 hunderscore] at hdigit
    exact absurd hdigit (by decide)

theorem isGap_eq_false_of_isIdentStart {c : Char} (hc : isIdentStart c = true) :
    Rule.isGap c = false := by
  rw [← Bool.not_eq_true]
  intro hgap
  simp only [Rule.isGap, Bool.or_eq_true, beq_iff_eq] at hgap
  rcases hgap with (((rfl | rfl) | rfl) | rfl) | rfl <;> exact absurd hc (by decide)

namespace Pattern

/-- A pattern that takes nothing where a word starts. -/
def Wordless (pat : Pattern) : Prop :=
  ∀ before c t, isIdentStart c = true → pat before (c :: t) = none

theorem wordless_one {x : Char} (hx : isIdentStart x = false) : (one (· == x)).Wordless :=
  fun _ _ _ hc => if_neg (by simpa using ne_of_isIdentStart hc hx)

theorem wordless_run {p : Char → Bool} (hp : ∀ {c}, isIdentStart c = true → p c = false) :
    (run p).Wordless :=
  fun before _ _ hc => run_eq_none (by simp [hp hc]) before

theorem isPrefixOf_eq_false {x c : Char} (hx : isIdentStart x = false) (hc : isIdentStart c = true)
    (w t : Text) : (x :: w).isPrefixOf (c :: t) = false := by
  simp [List.isPrefixOf, (ne_of_isIdentStart hc hx).symm]

theorem wordless_restOfLine {x : Char} (hx : isIdentStart x = false) (w : Text) :
    (restOfLine (x :: w)).Wordless :=
  fun _ _ t hc => if_neg (by simp [isPrefixOf_eq_false hx hc w t])

theorem wordless_oneOf {x : Char} (hx : isIdentStart x = false) (w : Text) :
    (oneOf [x :: w]).Wordless := by
  intro before c t hc
  simp [oneOf, isPrefixOf_eq_false hx hc w t]

theorem wordless_label : label.Wordless := by
  intro before c t hc
  have hspace : c ≠ ' ' := ne_of_isIdentStart hc rfl
  have htab : c ≠ '\t' := ne_of_isIdentStart hc rfl
  have hcolon : c ≠ ':' := ne_of_isIdentStart hc rfl
  have hindent : runLength isSpaceOrTab (c :: t) = 0 := by
    simp [runLength, isSpaceOrTab, hspace, htab]
  simp [label, hindent, hcolon]

theorem wordless_marked {x : Char} (hx : isIdentStart x = false) : (marked x).Wordless :=
  fun _ _ _ hc => if_neg (ne_of_isIdentStart hc hx)

theorem wordless_markedDigits {x : Char} (hx : isIdentStart x = false) (p : Char → Bool) :
    (markedDigits x p).Wordless :=
  fun _ _ _ hc => if_neg (ne_of_isIdentStart hc hx)

theorem wordless_zeroDigits (lower upper : Char) (p : Char → Bool) :
    (zeroDigits lower upper p).Wordless := by
  intro before c t hc
  have hzero : c ≠ '0' := ne_of_isIdentStart hc rfl
  simp [zeroDigits, hzero]

theorem wordless_decimalFraction : decimalFraction.Wordless := by
  intro before c t hc
  have hrun : runLength Char.isDigit (c :: t) = 0 := by
    simp [runLength, isDigit_eq_false_of_isIdentStart hc]
  simp [decimalFraction, hrun, positive?]

/-! ## Whole words -/

/-- A word stands whole at the start of a text exactly if it is the longest run of word characters
there. -/
theorem standsWhole_iff {t w : Text} (hne : w ≠ []) (hw : w.all isWordChar = true) :
    standsWhole t w = true ↔ t.takeWhile isWordChar = w := by
  have hchars : ∀ c ∈ w, isWordChar c = true := List.all_eq_true.1 hw
  have hlast : w.getLast?.any isWordChar = true := by
    rw [List.getLast?_eq_some_getLast hne]
    exact hchars _ (List.getLast_mem hne)
  rw [standsWhole, Bool.and_eq_true, boundary, hlast, List.isPrefixOf_iff_prefix]
  constructor
  · rintro ⟨⟨v, rfl⟩, hend⟩
    rw [List.drop_left] at hend
    rw [List.takeWhile_append_of_pos hchars]
    cases v with
    | nil => simp
    | cons d v =>
      have hd : isWordChar d = false := by simpa using hend
      simp [hd]
  · rintro rfl
    refine ⟨List.takeWhile_prefix isWordChar, ?_⟩
    have hdrop : t.drop (t.takeWhile isWordChar).length = t.dropWhile isWordChar :=
      drop_runLength isWordChar t
    have hstop := List.head?_dropWhile_not isWordChar t
    rw [hdrop]
    cases hhead : (t.dropWhile isWordChar).head? with
    | none => rfl
    | some d =>
      rw [hhead] at hstop
      simpa using hstop

/-- Words of a vocabulary: they are not empty, and they are made of word characters. -/
def IsVocabulary (ws : WordSet) : Prop :=
  ws.words.all (fun w => !w.isEmpty && w.all isWordChar) = true

instance (ws : WordSet) : Decidable (IsVocabulary ws) :=
  inferInstanceAs (Decidable (_ = true))

/-- Two vocabularies without a word in common. -/
def Apart (ws vs : WordSet) : Prop :=
  ws.words.all (fun w => !decide (w ∈ vs)) = true

instance (ws vs : WordSet) : Decidable (Apart ws vs) :=
  inferInstanceAs (Decidable (_ = true))

theorem Apart.not_mem {ws vs : WordSet} (h : Apart ws vs) {w : Text} (hw : w ∈ ws) : w ∉ vs := by
  simpa using List.all_eq_true.1 h w hw

theorem not_mem_of_mem_constants {w : Text} (h : w ∈ Vocabulary.constants) :
    w ∉ Vocabulary.blockOpeners ∧ w ∉ Vocabulary.keywords :=
  ⟨Apart.not_mem (by decide +kernel) h, Apart.not_mem (by decide +kernel) h⟩

theorem not_mem_of_mem_types {w : Text} (h : w ∈ Vocabulary.types) :
    w ∉ Vocabulary.blockOpeners ∧ w ∉ Vocabulary.keywords ∧ w ∉ Vocabulary.constants :=
  ⟨Apart.not_mem (by decide +kernel) h, Apart.not_mem (by decide +kernel) h,
    Apart.not_mem (by decide +kernel) h⟩

theorem find?_standsWhole {ws : WordSet} (hws : IsVocabulary ws) (t : Text) :
    ws.words.find? (standsWhole t) =
      if t.takeWhile isWordChar ∈ ws then some (t.takeWhile isWordChar) else none := by
  have hwhole : ∀ w ∈ ws.words, standsWhole t w = true ↔ t.takeWhile isWordChar = w := by
    intro w hw
    obtain ⟨hne, hchars⟩ : w ≠ [] ∧ w.all isWordChar = true := by
      simpa using List.all_eq_true.1 hws w hw
    exact standsWhole_iff hne hchars
  split
  next hmem =>
    cases hfind : ws.words.find? (standsWhole t) with
    | none => exact absurd ((hwhole _ hmem).2 rfl) (List.find?_eq_none.1 hfind _ hmem)
    | some v =>
      rw [(hwhole v (List.mem_of_find?_eq_some hfind)).1 (List.find?_some hfind)]
  next hmem =>
    refine List.find?_eq_none.2 fun w hw hstands => hmem ?_
    rw [(hwhole w hw).1 hstands]
    exact hw

/-- Where a word starts, a vocabulary takes the whole word or nothing. -/
theorem wordOf_eq {ws : WordSet} (hws : IsVocabulary ws) (before : Option Char) {c : Char}
    (hc : isWordChar c = true) (t : Text) :
    wordOf ws before (c :: t) =
      if before.any isWordChar = false ∧ (c :: t).takeWhile isWordChar ∈ ws then
        some ((c :: t).takeWhile isWordChar).length
      else none := by
  rw [wordOf, find?_standsWhole hws, boundary]
  cases before.any isWordChar <;> simp [hc]

theorem typeName_eq {ws : WordSet} (hws : IsVocabulary ws) (before : Option Char) {c : Char}
    (hc : isWordChar c = true) (t : Text) :
    typeName ws before (c :: t) =
      if before.any isWordChar = false ∧ (c :: t).takeWhile isWordChar ∈ ws then
        some (((c :: t).takeWhile isWordChar).length +
          fixedPointLength ((c :: t).dropWhile isWordChar))
      else none := by
  have hdrop : (c :: t).drop ((c :: t).takeWhile isWordChar).length =
      (c :: t).dropWhile isWordChar := drop_runLength isWordChar (c :: t)
  rw [typeName, wordOf_eq hws before hc]
  split
  next => rw [Option.map_some, hdrop]
  next => rfl

theorem identifier_eq {c : Char} (hc : isIdentStart c = true) (before : Option Char) (t : Text) :
    identifier before (c :: t) = some ((c :: t).takeWhile isWordChar).length := by
  have hword := isWordChar_of_isIdentStart hc
  simp [identifier, hc, hword, runLength, Nat.add_comm]

/-- The point and the longest run of `F` behind it with which a text starts, if there is such a run
and no word character follows it. -/
def fixedPoint (t : Text) : Text :=
  if t.head? = some '.' ∧ (t.drop 1).takeWhile (· == 'F') ≠ [] ∧
      ((t.drop 1).dropWhile (· == 'F')).head?.any isWordChar = false then
    '.' :: (t.drop 1).takeWhile (· == 'F')
  else []

theorem take_fixedPointLength (t : Text) : t.take (fixedPointLength t) = fixedPoint t := by
  rcases t with _ | ⟨c, u⟩
  · rfl
  by_cases hpoint : c = '.'
  · subst hpoint
    have hnone : runLength (· == 'F') u = 0 ↔ u.takeWhile (· == 'F') = [] :=
      List.length_eq_zero_iff
    simp only [fixedPointLength, fixedPoint, drop_runLength, hnone, List.head?_cons,
      List.drop_succ_cons, List.drop_zero, true_and, ne_eq]
    split
    next hstop => rw [if_neg (by grind), List.take_zero]
    next hrun => rw [if_pos (by grind), List.take_succ_cons, take_runLength]
  · have hlength : fixedPointLength (c :: u) = 0 := by
      simp [fixedPointLength, hpoint]
    simp [hlength, fixedPoint, hpoint]

/-- A word and the fixed-point suffix behind it. -/
theorem take_word_fixedPointLength {t w rest : Text} (hw : t.takeWhile isWordChar = w)
    (hrest : t.dropWhile isWordChar = rest) :
    t.take (w.length + fixedPointLength rest) = w ++ fixedPoint rest := by
  have htake : t.take w.length = w := by
    rw [← hw]
    exact take_runLength isWordChar t
  have hdrop : t.drop w.length = rest := by
    rw [← hw, ← hrest]
    exact drop_runLength isWordChar t
  rw [List.take_add, htake, hdrop, take_fixedPointLength]

end Pattern

namespace Lexer

theorem firstRule?_append (rs rs' : List Rule) (before : Option Char) (t : Text) :
    firstRule? (rs ++ rs') before t = (firstRule? rs before t).or (firstRule? rs' before t) :=
  List.findSome?_append

theorem firstRule?_of_wordless {rs : List Rule} (h : ∀ r ∈ rs, r.pattern.Wordless)
    (before : Option Char) {c : Char} (hc : isIdentStart c = true) (t : Text) :
    firstRule? rs before (c :: t) = none :=
  List.findSome?_eq_none_iff.2 fun r hr => by rw [h r hr before c t hc]; rfl

open Pattern in
theorem wordless_of_mem_front {r : Rule} (h : r ∈ Rule.root.take 8) : r.pattern.Wordless := by
  revert r
  simp only [Rule.root, List.take_succ_cons, List.take_zero, List.forall_mem_cons]
  exact ⟨wordless_label, wordless_one rfl, wordless_run isGap_eq_false_of_isIdentStart,
    wordless_restOfLine rfl _, wordless_oneOf rfl _, wordless_one rfl, wordless_one rfl,
    wordless_one rfl, by simp⟩

open Pattern in
theorem wordless_of_mem_middle {r : Rule} (h : r ∈ (Rule.root.drop 12).take 7) :
    r.pattern.Wordless := by
  revert r
  simp only [Rule.root, List.drop_succ_cons, List.drop_zero, List.take_succ_cons, List.take_zero,
    List.forall_mem_cons]
  exact ⟨wordless_marked rfl, wordless_markedDigits rfl _, wordless_zeroDigits _ _ _,
    wordless_markedDigits rfl _, wordless_zeroDigits _ _ _, wordless_decimalFraction,
    wordless_run isDigit_eq_false_of_isIdentStart, by simp⟩

theorem firstRule?_cons_of_ite {r : Rule} {P : Prop} [Decidable P] {n : Nat} {before : Option Char}
    {t : Text} (h : r.pattern before t = if P then some n else none) (rs : List Rule) :
    firstRule? (r :: rs) before t = if P then some (r, n) else firstRule? rs before t := by
  split at h
  next hP => rw [firstRule?_cons_of_some h, if_pos hP]
  next hP => rw [firstRule?_cons_of_none h, if_neg hP]

/-- Where a word starts, the four vocabularies are asked for the whole word, one after the other,
unless the word continues another one. What none of them knows is a name. -/
theorem firstRule?_root_of_isIdentStart (before : Option Char) {t w rest : Text} {c : Char}
    (hhead : t.head? = some c) (hc : isIdentStart c = true) (hw : t.takeWhile isWordChar = w)
    (hrest : t.dropWhile isWordChar = rest) :
    firstRule? LexMode.root.rules before t =
      if before.any isWordChar = false ∧ w ∈ Vocabulary.blockOpeners then
        some (.single (.wordOf Vocabulary.blockOpeners) .keyword .root, w.length)
      else if before.any isWordChar = false ∧ w ∈ Vocabulary.keywords then
        some (.single (.wordOf Vocabulary.keywords) .keyword .root, w.length)
      else if before.any isWordChar = false ∧ w ∈ Vocabulary.constants then
        some (.single (.wordOf Vocabulary.constants) .constant .root, w.length)
      else if before.any isWordChar = false ∧ w ∈ Vocabulary.types then
        some (.single (.typeName Vocabulary.types) .typeName .root,
          w.length + Pattern.fixedPointLength rest)
      else some (.single .identifier .name .root, w.length) := by
  obtain ⟨t, rfl⟩ := List.head?_eq_some_iff.1 hhead
  subst hw hrest
  have hword := isWordChar_of_isIdentStart hc
  have hroot : LexMode.root.rules = Rule.root.take 8 ++
      (.single (.wordOf Vocabulary.blockOpeners) .keyword .root ::
        .single (.wordOf Vocabulary.keywords) .keyword .root ::
        .single (.wordOf Vocabulary.constants) .constant .root ::
        .single (.typeName Vocabulary.types) .typeName .root ::
        ((Rule.root.drop 12).take 7 ++ Rule.root.drop 19)) := rfl
  rw [hroot, firstRule?_append, firstRule?_of_wordless (fun _ => wordless_of_mem_front) before hc,
    Option.none_or,
    firstRule?_cons_of_ite (Pattern.wordOf_eq (by decide +kernel) before hword t),
    firstRule?_cons_of_ite (Pattern.wordOf_eq (by decide +kernel) before hword t),
    firstRule?_cons_of_ite (Pattern.wordOf_eq (by decide +kernel) before hword t),
    firstRule?_cons_of_ite (Pattern.typeName_eq (by decide +kernel) before hword t),
    firstRule?_append, firstRule?_of_wordless (fun _ => wordless_of_mem_middle) before hc,
    Option.none_or]
  rw [show firstRule? (Rule.root.drop 19) before (c :: t) = _ from
    firstRule?_cons_of_some (Pattern.identifier_eq hc before t)]

end Lexer

/-! ## Colours of words -/

namespace Token

/-- The token that starts at a position of a text, and the only one. -/
def OnlyAt (t : Text) (p : Nat) (tok : Token) : Prop :=
  ∀ tok', (p, tok') ∈ placedOfText t ↔ tok' = tok

end Token

/-- Where the lexer stands, a rule that makes one token of what it takes puts that token there. -/
theorem Lexer.Reaches.onlyAt_of_single {t : Text} {mode : LexMode} {p n : Nat} {pat : Pattern}
    {kind : TokenKind} {next : LexMode} {w : Text} (h : Lexer.Reaches t mode p)
    (hrule : Lexer.firstRule? mode.rules (t.take p).getLast? (t.drop p) =
      some (.single pat kind next, n)) (hw : (t.drop p).take n = w) :
    Token.OnlyAt t p ⟨kind, w⟩ := by
  subst hw
  intro tok
  rw [h.mem_placedOfText_iff, Lexer.tokensFrom_of_rule hrule]
  exact Option.some_inj.trans eq_comm

/-- The character before a position, if there is one. -/
theorem any_getLast?_take {t : Text} {p : Nat} (hp : p ≤ t.length) (f : Char → Bool) :
    (t.take p).getLast?.any f = true ↔ 0 < p ∧ t[p - 1]?.any f = true := by
  cases p with
  | zero => simp
  | succ q => simp [List.getLast?_take, List.getElem?_eq_getElem hp]

/-- Words are coloured whole. Let `w` be the longest run of word characters from a letter or an
underscore on at which the lexer stands outside comments and strings. Behind a word character it is
a name. Elsewhere it is what its vocabulary says: a keyword, a constant or a type name, the last
together with the fixed-point suffix behind it, and a name if it is in no vocabulary. -/
theorem words_coloured_whole {t w rest : Text} {p : Nat} {c : Char}
    (h : Lexer.Reaches t .root p) (hhere : t[p]? = some c) (hc : c.isAlpha = true ∨ c = '_')
    (hw : (t.drop p).takeWhile isWordChar = w) (hrest : (t.drop p).dropWhile isWordChar = rest) :
    (0 < p ∧ t[p - 1]?.any isWordChar = true → Token.OnlyAt t p ⟨.name, w⟩) ∧
    (p = 0 ∨ t[p - 1]?.any isWordChar = false →
      (w ∈ Vocabulary.blockOpeners ∨ w ∈ Vocabulary.keywords → Token.OnlyAt t p ⟨.keyword, w⟩) ∧
      (w ∈ Vocabulary.constants → Token.OnlyAt t p ⟨.constant, w⟩) ∧
      (w ∈ Vocabulary.types → Token.OnlyAt t p ⟨.typeName, w ++ Pattern.fixedPoint rest⟩) ∧
      (w ∉ Vocabulary.blockOpeners ∧ w ∉ Vocabulary.keywords ∧ w ∉ Vocabulary.constants ∧
        w ∉ Vocabulary.types → Token.OnlyAt t p ⟨.name, w⟩)) := by
  have hstart : isIdentStart c = true := by simpa [isIdentStart] using hc
  have hbefore := any_getLast?_take h.split.1 isWordChar
  have hwhole : (t.drop p).take w.length = w := by
    rw [← hw]
    exact take_runLength isWordChar (t.drop p)
  -- The rule that applies, by the vocabularies that the word is in.
  have hrule := Lexer.firstRule?_root_of_isIdentStart (t.take p).getLast?
    (List.head?_drop.trans hhere) hstart hw hrest
  refine ⟨fun hjoined => ?_, fun hfree => ?_⟩
  · simp only [hbefore.2 hjoined, Bool.true_eq_false, false_and, if_false] at hrule
    exact h.onlyAt_of_single hrule hwhole
  have hapart : (t.take p).getLast?.any isWordChar = false := by
    rw [← Bool.not_eq_true, hbefore]
    rintro ⟨hpos, hword⟩
    rcases hfree with rfl | hfree
    · exact Nat.lt_irrefl 0 hpos
    · exact Bool.false_ne_true (hfree.symm.trans hword)
  simp only [hapart, true_and] at hrule
  refine ⟨fun hkeyword => ?_, fun hconstant => ?_, fun htype => ?_, ?_⟩
  · by_cases hopener : w ∈ Vocabulary.blockOpeners
    · rw [if_pos hopener] at hrule
      exact h.onlyAt_of_single hrule hwhole
    · rw [if_neg hopener, if_pos (hkeyword.resolve_left hopener)] at hrule
      exact h.onlyAt_of_single hrule hwhole
  · obtain ⟨hopener, hkeyword⟩ := Pattern.not_mem_of_mem_constants hconstant
    rw [if_neg hopener, if_neg hkeyword, if_pos hconstant] at hrule
    exact h.onlyAt_of_single hrule hwhole
  · obtain ⟨hopener, hkeyword, hconstant⟩ := Pattern.not_mem_of_mem_types htype
    rw [if_neg hopener, if_neg hkeyword, if_neg hconstant, if_pos htype] at hrule
    exact h.onlyAt_of_single hrule (Pattern.take_word_fixedPointLength hw hrest)
  · rintro ⟨hopener, hkeyword, hconstant, htype⟩
    rw [if_neg hopener, if_neg hkeyword, if_neg hconstant, if_neg htype] at hrule
    exact h.onlyAt_of_single hrule hwhole

/-- A keyword directly behind a digit, and a type with a fixed-point suffix. -/
private def adjoining : Text := "9do UU.FF".toList

/-- Behind the digit of `adjoining` the keyword is a name, and the type takes its suffix. -/
theorem onlyAt_adjoining :
    Lexer.Reaches adjoining .root 1 ∧ Lexer.Reaches adjoining .root 4 ∧
      Token.OnlyAt adjoining 1 ⟨.name, "do".toList⟩ ∧
      Token.OnlyAt adjoining 4 ⟨.typeName, "UU.FF".toList⟩ := by
  have hdigit : Lexer.Reaches adjoining .root 1 :=
    .rule (r := .single (.run Char.isDigit) .integerNumber .root) (n := 1) .start rfl
  have hword : Lexer.Reaches adjoining .root 3 :=
    .rule (r := .single .identifier .name .root) (n := 2) hdigit rfl
  have htype : Lexer.Reaches adjoining .root 4 :=
    .rule (r := .single (.run Rule.isGap) .whitespace .root) (n := 1) hword rfl
  obtain ⟨hjoined, -⟩ := words_coloured_whole hdigit (c := 'd') rfl (.inl rfl) rfl rfl
  obtain ⟨-, hfree⟩ := words_coloured_whole htype (c := 'U') rfl (.inl rfl) rfl rfl
  obtain ⟨-, -, hnamed, -⟩ := hfree (.inr (by decide))
  exact ⟨hdigit, htype, hjoined (by decide), hnamed (by decide +kernel)⟩

end FabEdit
