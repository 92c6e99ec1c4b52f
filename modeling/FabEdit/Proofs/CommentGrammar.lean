import FabEdit.Proofs.LexerComments

/-!
# The grammar of comments

A text is a sequence of pieces: line comments, block comments, strings, and single characters of
code. At every point the next piece is determined by what stands there, so there is one way only to
cut a text into pieces. The scanner knows no pieces, it goes from character to character. This
module says that the spans it yields are the comments among the pieces.

Shape of the argument:

* `Scan.BlockBody` and `Scan.StringBody` say how far a block comment and a string reach,
  `Scan.Taken` what the next piece is, and `Scan.Decomposes` how a text is cut into pieces.
* Each of the four has exactly one solution: there is one (`exists_taken` and its like) and there
  are no two (`Taken.unique` and its like).
* A scan that stands in code in front of a piece stands in code behind it, and has found the piece
  if it is a comment (`Taken.spansFrom_eq`). A half mark in front of something else is forgotten
  (`spansFrom_slash` and its like).
-/

namespace FabEdit

namespace Scan

/-! ## Pieces -/

/-- What a piece of a text is. -/
inductive PieceKind where
  | lineComment
  | blockComment
  | string
  /-- A character that starts none of the others. -/
  | character
  deriving DecidableEq, Repr

/-- Whether a piece is a comment. -/
def PieceKind.isComment : PieceKind → Bool
  | .lineComment | .blockComment => true
  | .string | .character => false

/-- A piece of a text. -/
structure Piece where
  kind : PieceKind
  text : Text
  deriving DecidableEq, Repr

/-- `body` is what is left of a block comment with `depth` marks still to be closed, and `rest` is
what comes after it. Marks are read from left to right and do not overlap. -/
inductive BlockBody : (depth : Nat) → (body rest : Text) → Prop
  /-- All marks are closed. -/
  | closed (rest : Text) : BlockBody 0 [] rest
  /-- The text ends first. -/
  | unclosed (depth : Nat) : BlockBody (depth + 1) [] []
  | opens {depth : Nat} {body rest : Text} (h : BlockBody (depth + 2) body rest) :
      BlockBody (depth + 1) (Vocabulary.blockOpen ++ body) rest
  | closes {depth : Nat} {body rest : Text} (h : BlockBody depth body rest) :
      BlockBody (depth + 1) (Vocabulary.blockClose ++ body) rest
  | other {depth : Nat} {c : Char} {body rest : Text}
      (hopen : ¬ Vocabulary.blockOpen <+: c :: (body ++ rest))
      (hclose : ¬ Vocabulary.blockClose <+: c :: (body ++ rest))
      (h : BlockBody (depth + 1) body rest) : BlockBody (depth + 1) (c :: body) rest

/-- `body` is what is left of a string that ends with `quote`, its end included, and `rest` is what
comes after it. -/
inductive StringBody (quote : Char) : (body rest : Text) → Prop
  /-- The quote, or else the newline, belongs to the string. -/
  | closed {c : Char} (hc : c = quote ∨ c = '\n') (rest : Text) : StringBody quote [c] rest
  /-- The text ends first. -/
  | unclosed : StringBody quote [] []
  | escaped {c : Char} {body rest : Text} (hc : c ≠ '\n') (h : StringBody quote body rest) :
      StringBody quote (Vocabulary.escape :: c :: body) rest
  /-- A backslash is a character like any other if nothing follows on the line. -/
  | other {c : Char} {body rest : Text} (hquote : c ≠ quote) (hnewline : c ≠ '\n')
      (hescape : c = Vocabulary.escape → ∀ d ∈ (body ++ rest).head?, d = '\n')
      (h : StringBody quote body rest) : StringBody quote (c :: body) rest

/-- The piece that stands at the start of a text, in front of `rest`. -/
inductive Taken : (piece : Piece) → (rest : Text) → Prop
  | lineComment {body rest : Text} (hbody : '\n' ∉ body) (hrest : ∀ c ∈ rest.head?, c = '\n') :
      Taken ⟨.lineComment, Vocabulary.lineMark ++ body⟩ rest
  | blockComment {body rest : Text} (h : BlockBody 1 body rest) :
      Taken ⟨.blockComment, Vocabulary.blockOpen ++ body⟩ rest
  | string {quote : Char} {body rest : Text} (hquote : quote ∈ Vocabulary.quotes)
      (h : StringBody quote body rest) : Taken ⟨.string, quote :: body⟩ rest
  | character {c : Char} {rest : Text} (hline : ¬ Vocabulary.lineMark <+: c :: rest)
      (hblock : ¬ Vocabulary.blockOpen <+: c :: rest) (hquote : c ∉ Vocabulary.quotes) :
      Taken ⟨.character, [c]⟩ rest

/-- A text cut into pieces from left to right. -/
inductive Decomposes : (t : Text) → (pieces : List Piece) → Prop
  | nil : Decomposes [] []
  | cons {piece : Piece} {rest : Text} {pieces : List Piece} (h : Taken piece rest)
      (hrest : Decomposes rest pieces) : Decomposes (piece.text ++ rest) (piece :: pieces)

/-- The span of a piece that starts at `p`, if it is a comment. -/
def Piece.comment? (p : Nat) (piece : Piece) : Option Span :=
  if piece.kind.isComment then some ⟨p, (p + piece.text.length : Nat)⟩ else none

/-- The spans of the comments among pieces, the first of which starts at `p`. -/
def commentSpans : Nat → List Piece → List Span
  | _, [] => []
  | p, piece :: pieces =>
    (piece.comment? p).toList ++ commentSpans (p + piece.text.length) pieces

/-! ## There is one way at most -/

theorem mark_prefix_iff {a b c : Char} {t : Text} :
    [a, b] <+: c :: t ↔ c = a ∧ t.head? = some b := by
  rw [← List.isPrefixOf_iff_prefix, isPrefixOf_mark]

/-- A text that is cut behind a mark starts with it. -/
private theorem prefix_of_append_eq {mark body rest t : Text} (h : mark ++ body ++ rest = t) :
    mark <+: t :=
  ⟨body ++ rest, by rw [← List.append_assoc, h]⟩

theorem BlockBody.unique {depth : Nat} {body rest body' rest' : Text}
    (h : BlockBody depth body rest) (h' : BlockBody depth body' rest')
    (heq : body ++ rest = body' ++ rest') : body = body' := by
  induction h generalizing body' with
  | closed rest =>
    cases h'
    rfl
  | unclosed depth => exact (List.append_eq_nil_iff.1 heq.symm).1.symm
  | opens h ih =>
    cases h' with
    | unclosed => cases heq
    | opens h' => exact congrArg (Vocabulary.blockOpen ++ ·) (ih h' (by simpa using heq))
    | closes h' => simp [Vocabulary.blockOpen, Vocabulary.blockClose] at heq
    | other hopen => exact absurd (prefix_of_append_eq heq) hopen
  | closes h ih =>
    cases h' with
    | unclosed => cases heq
    | opens h' => simp [Vocabulary.blockOpen, Vocabulary.blockClose] at heq
    | closes h' => exact congrArg (Vocabulary.blockClose ++ ·) (ih h' (by simpa using heq))
    | other _ hclose => exact absurd (prefix_of_append_eq heq) hclose
  | other hopen hclose h ih =>
    cases h' with
    | unclosed => cases heq
    | opens h' => exact absurd (prefix_of_append_eq heq.symm) hopen
    | closes h' => exact absurd (prefix_of_append_eq heq.symm) hclose
    | other _ _ h' =>
      obtain ⟨rfl, htail⟩ := List.cons.inj heq
      rw [ih h' htail]

/-- A backslash ends no string. -/
private theorem escape_not_end {quote : Char} (hquote : quote ∈ Vocabulary.quotes) :
    ¬ (Vocabulary.escape = quote ∨ Vocabulary.escape = '\n') := by
  rintro (rfl | hnewline)
  · exact absurd hquote (by decide)
  · exact absurd hnewline (by decide)

theorem StringBody.unique {quote : Char} (hquote : quote ∈ Vocabulary.quotes)
    {body rest body' rest' : Text} (h : StringBody quote body rest)
    (h' : StringBody quote body' rest') (heq : body ++ rest = body' ++ rest') : body = body' := by
  induction h generalizing body' with
  | closed hc rest =>
    cases h' with
    | closed hc' => rw [(List.cons.inj heq).1]
    | unclosed => cases heq
    | escaped hd h' =>
      rw [(List.cons.inj heq).1] at hc
      exact absurd hc (escape_not_end hquote)
    | other hne hnewline =>
      rw [(List.cons.inj heq).1] at hc
      exact absurd hc (not_or.2 ⟨hne, hnewline⟩)
  | unclosed => exact (List.append_eq_nil_iff.1 heq.symm).1.symm
  | escaped hd h ih =>
    cases h' with
    | closed hc' =>
      rw [← (List.cons.inj heq).1] at hc'
      exact absurd hc' (escape_not_end hquote)
    | unclosed => cases heq
    | escaped hd' h' =>
      obtain ⟨rfl, htail⟩ := List.cons.inj (List.cons.inj heq).2
      rw [ih h' htail]
    | other _ _ hlast =>
      obtain ⟨rfl, htail⟩ := List.cons.inj heq
      exact absurd (hlast rfl _ (congrArg List.head? htail.symm)) hd
  | other hne hnewline hlast h ih =>
    cases h' with
    | closed hc' =>
      rw [← (List.cons.inj heq).1] at hc'
      exact absurd hc' (not_or.2 ⟨hne, hnewline⟩)
    | unclosed => cases heq
    | escaped hd' h' =>
      obtain ⟨rfl, htail⟩ := List.cons.inj heq
      exact absurd (hlast rfl _ (congrArg List.head? htail)) hd'
    | other _ _ _ h' =>
      obtain ⟨rfl, htail⟩ := List.cons.inj heq
      rw [ih h' htail]

/-- The kind of the piece at the start of a text: the first that fits what stands there. -/
def nextKind (t : Text) : PieceKind :=
  if Vocabulary.lineMark <+: t then .lineComment
  else if Vocabulary.blockOpen <+: t then .blockComment
  else if t.head?.any (· ∈ Vocabulary.quotes) then .string
  else .character

theorem Taken.kind_eq {piece : Piece} {rest : Text} (h : Taken piece rest) :
    piece.kind = nextKind (piece.text ++ rest) := by
  unfold nextKind
  cases h with
  | lineComment => rw [if_pos (prefix_of_append_eq rfl)]
  | blockComment =>
    rw [if_neg (by simp [Vocabulary.lineMark, Vocabulary.blockOpen]),
      if_pos (prefix_of_append_eq rfl)]
  | @string quote body rest hquote =>
    have hmark : ∀ b, ¬ ['/', b] <+: quote :: (body ++ rest) := by
      intro b h
      rw [(mark_prefix_iff.1 h).1] at hquote
      exact absurd hquote (by decide)
    have hhead : (quote :: (body ++ rest)).head?.any (· ∈ Vocabulary.quotes) = true := by
      simpa using hquote
    exact ((if_neg (hmark '/')).trans ((if_neg (hmark '*')).trans (if_pos hhead))).symm
  | @character c rest hline hblock hquote =>
    have hhead : ¬ (c :: rest).head?.any (· ∈ Vocabulary.quotes) = true := by simpa using hquote
    exact ((if_neg hline).trans ((if_neg hblock).trans (if_neg hhead))).symm

/-- Up to its newline a line is determined by the text from its start. -/
private theorem eq_takeWhile_of_line {body rest : Text} (hbody : '\n' ∉ body)
    (hrest : ∀ c ∈ rest.head?, c = '\n') : body = (body ++ rest).takeWhile (· != '\n') := by
  have hall : ∀ c ∈ body, (c != '\n') = true := by
    intro c hc
    simpa using fun heq : c = '\n' => hbody (heq ▸ hc)
  have hnil : rest.takeWhile (· != '\n') = [] := by
    cases rest with
    | nil => rfl
    | cons c rest => simp [hrest c rfl]
  rw [List.takeWhile_append_of_pos hall, hnil, List.append_nil]

theorem Taken.unique {piece piece' : Piece} {rest rest' : Text} (h : Taken piece rest)
    (h' : Taken piece' rest') (heq : piece.text ++ rest = piece'.text ++ rest') :
    piece = piece' := by
  have hkind : piece.kind = piece'.kind := by rw [h.kind_eq, h'.kind_eq, heq]
  cases h with
  | @lineComment body rest hbody hrest =>
    cases h' with
    | @lineComment body' rest' hbody' hrest' =>
      have htail : body ++ rest = body' ++ rest' := by simpa using heq
      rw [eq_takeWhile_of_line hbody hrest, htail, ← eq_takeWhile_of_line hbody' hrest']
    | _ => cases hkind
  | blockComment h =>
    cases h' with
    | blockComment h' => rw [h.unique h' (by simpa using heq)]
    | _ => cases hkind
  | string hquote h =>
    cases h' with
    | string _ h' =>
      obtain ⟨rfl, htail⟩ := List.cons.inj heq
      rw [h.unique hquote h' htail]
    | _ => cases hkind
  | character =>
    cases h' with
    | character => rw [(List.cons.inj heq).1]
    | _ => cases hkind

theorem Taken.text_ne_nil {piece : Piece} {rest : Text} (h : Taken piece rest) :
    piece.text ≠ [] := by
  cases h <;> exact List.cons_ne_nil _ _

theorem Decomposes.unique {t : Text} {pieces pieces' : List Piece} (h : Decomposes t pieces)
    (h' : Decomposes t pieces') : pieces = pieces' := by
  induction h generalizing pieces' with
  | nil =>
    generalize ht : ([] : Text) = t at h'
    cases h' with
    | nil => rfl
    | cons h' => exact absurd (List.append_eq_nil_iff.1 ht.symm).1 h'.text_ne_nil
  | @cons piece rest pieces h hrest ih =>
    generalize ht : piece.text ++ rest = t at h'
    cases h' with
    | nil => exact absurd (List.append_eq_nil_iff.1 ht).1 h.text_ne_nil
    | cons h' hrest' =>
      obtain rfl := h.unique h' ht
      obtain rfl := List.append_cancel_left ht
      rw [ih hrest']

/-! ## There is one way -/

theorem exists_blockBody (depth : Nat) (t : Text) :
    ∃ body rest, body ++ rest = t ∧ BlockBody depth body rest := by
  induction hlength : t.length using Nat.strongRecOn generalizing depth t with
  | ind n ih =>
    subst hlength
    have hshorter : ∀ u : Text, u.length < u.length + 2 := by
      intro u
      exact Nat.lt_add_of_pos_right Nat.two_pos
    obtain _ | depth := depth
    · exact ⟨[], t, rfl, .closed t⟩
    by_cases hopen : Vocabulary.blockOpen <+: t
    · obtain ⟨u, rfl⟩ := hopen
      obtain ⟨body, rest, rfl, h⟩ := ih u.length (hshorter u) (depth + 2) u rfl
      exact ⟨_, rest, List.append_assoc _ _ _, .opens h⟩
    by_cases hclose : Vocabulary.blockClose <+: t
    · obtain ⟨u, rfl⟩ := hclose
      obtain ⟨body, rest, rfl, h⟩ := ih u.length (hshorter u) depth u rfl
      exact ⟨_, rest, List.append_assoc _ _ _, .closes h⟩
    cases t with
    | nil => exact ⟨[], [], rfl, .unclosed depth⟩
    | cons c u =>
      obtain ⟨body, rest, rfl, h⟩ := ih u.length (Nat.lt_succ_self _) (depth + 1) u rfl
      exact ⟨c :: body, rest, rfl, .other hopen hclose h⟩

theorem exists_stringBody (quote : Char) (t : Text) :
    ∃ body rest, body ++ rest = t ∧ StringBody quote body rest := by
  induction hlength : t.length using Nat.strongRecOn generalizing t with
  | ind n ih =>
    subst hlength
    cases t with
    | nil => exact ⟨[], [], rfl, .unclosed⟩
    | cons c u =>
      by_cases hc : c = quote ∨ c = '\n'
      · exact ⟨[c], u, rfl, .closed hc u⟩
      obtain ⟨hquote, hnewline⟩ := not_or.1 hc
      by_cases hescape : c = Vocabulary.escape → ∀ d ∈ u.head?, d = '\n'
      · obtain ⟨body, rest, rfl, h⟩ := ih u.length (Nat.lt_succ_self _) u rfl
        exact ⟨c :: body, rest, rfl, .other hquote hnewline hescape h⟩
      · simp only [Classical.not_imp, Classical.not_forall] at hescape
        obtain ⟨rfl, d, hhead, hd⟩ := hescape
        obtain ⟨v, rfl⟩ := List.head?_eq_some_iff.1 hhead
        obtain ⟨body, rest, rfl, h⟩ := ih v.length (Nat.lt_add_of_pos_right Nat.two_pos) v rfl
        exact ⟨_, rest, rfl, .escaped hd h⟩

theorem exists_taken {t : Text} (ht : t ≠ []) :
    ∃ piece rest, piece.text ++ rest = t ∧ Taken piece rest := by
  by_cases hline : Vocabulary.lineMark <+: t
  · obtain ⟨u, rfl⟩ := hline
    have hbody : '\n' ∉ u.takeWhile (· != '\n') := by
      intro hmem
      exact absurd (List.all_eq_true.1 List.all_takeWhile _ hmem) (by decide)
    have hrest : ∀ c ∈ (u.dropWhile (· != '\n')).head?, c = '\n' := by
      intro c hc
      have hhead := List.head?_dropWhile_not (· != '\n') u
      rw [hc] at hhead
      simpa using hhead
    refine ⟨_, _, ?_, .lineComment hbody hrest⟩
    rw [List.append_assoc, List.takeWhile_append_dropWhile]
  by_cases hblock : Vocabulary.blockOpen <+: t
  · obtain ⟨u, rfl⟩ := hblock
    obtain ⟨body, rest, rfl, h⟩ := exists_blockBody 1 u
    exact ⟨_, rest, List.append_assoc _ _ _, .blockComment h⟩
  obtain ⟨c, u, rfl⟩ := List.exists_cons_of_ne_nil ht
  by_cases hquote : c ∈ Vocabulary.quotes
  · obtain ⟨body, rest, rfl, h⟩ := exists_stringBody c u
    exact ⟨_, rest, rfl, .string hquote h⟩
  · exact ⟨_, u, rfl, .character hline hblock hquote⟩

theorem exists_decomposes (t : Text) : ∃ pieces, Decomposes t pieces := by
  induction hlength : t.length using Nat.strongRecOn generalizing t with
  | ind n ih =>
    subst hlength
    by_cases ht : t = []
    · exact ⟨[], ht ▸ .nil⟩
    obtain ⟨piece, rest, rfl, h⟩ := exists_taken ht
    have hshorter : rest.length < (piece.text ++ rest).length := by
      rw [List.length_append]
      exact Nat.lt_add_of_pos_left (List.length_pos_iff.2 h.text_ne_nil)
    obtain ⟨pieces, hrest⟩ := ih rest.length hshorter rest rfl
    exact ⟨piece :: pieces, .cons h hrest⟩

/-! ## A scan goes from piece to piece -/

/-- Two modes inside of the same comment that treat the next character alike find the same
comments. -/
theorem spansFrom_congr {m m' : Mode} {p : Nat} {t : Text} (hopen : m.openSince = m'.openSince)
    (h : ∀ c ∈ t.head?, closed p c m = closed p c m' ∧ step p c m = step p c m') :
    spansFrom m p t = spansFrom m' p t := by
  cases t with
  | nil => rw [spansFrom, spansFrom, hopen]
  | cons c t =>
    obtain ⟨hclosed, hstep⟩ := h c rfl
    rw [spansFrom, spansFrom, hclosed, hstep]

private theorem ne_of_head?_ne {t : Text} {a c : Char} (h : t.head? ≠ some a) (hc : c ∈ t.head?) :
    c ≠ a := by
  rintro rfl
  exact h hc

theorem spansFrom_slash {t : Text} (hline : t.head? ≠ some '/') (hblock : t.head? ≠ some '*')
    (s p : Nat) : spansFrom (.slash s) p t = spansFrom .code p t := by
  refine spansFrom_congr rfl fun c hc => ?_
  exact ⟨rfl, (if_neg (ne_of_head?_ne hline hc)).trans (if_neg (ne_of_head?_ne hblock hc))⟩

theorem spansFrom_blockSlash {t : Text} (h : t.head? ≠ some '*') (s d p : Nat) :
    spansFrom (.blockSlash s d) p t = spansFrom (.block s d) p t := by
  refine spansFrom_congr rfl fun c hc => ?_
  exact ⟨rfl, if_neg (ne_of_head?_ne h hc)⟩

theorem spansFrom_blockStar {t : Text} (h : t.head? ≠ some '/') (s d p : Nat) :
    spansFrom (.blockStar s d) p t = spansFrom (.block s d) p t := by
  refine spansFrom_congr rfl fun c hc => ?_
  have hne := ne_of_head?_ne h hc
  cases d with
  | zero => exact ⟨if_neg hne, if_neg hne⟩
  | succ d => exact ⟨rfl, if_neg hne⟩

theorem spansFrom_escaped {t : Text} (h : ∀ c ∈ t.head?, c = '\n') (quote : Char) (p : Nat) :
    spansFrom (.escaped quote) p t = spansFrom (.quoted quote) p t := by
  refine spansFrom_congr rfl fun c hc => ?_
  rw [h c hc]
  exact ⟨rfl, by simp [step, Vocabulary.escape]⟩

/-- The position after two texts, from the position before them. -/
private theorem add_length_append (p : Nat) (u v : Text) :
    p + (u ++ v).length = p + u.length + v.length := by
  rw [List.length_append, Nat.add_assoc]

theorem spansFrom_line {body rest : Text} (hbody : '\n' ∉ body)
    (hrest : ∀ c ∈ rest.head?, c = '\n') (s p : Nat) :
    spansFrom (.line s) p (body ++ rest) =
      ⟨s, (p + body.length : Nat)⟩ :: spansFrom .code (p + body.length) rest := by
  induction body generalizing p with
  | nil =>
    cases rest with
    | nil => rfl
    | cons c rest =>
      rw [hrest c rfl]
      rfl
  | cons c body ih =>
    rw [List.mem_cons, not_or] at hbody
    have hne : c ≠ '\n' := Ne.symm hbody.1
    have hlength : p + (c :: body).length = p + 1 + body.length := add_length_append p [c] body
    rw [List.cons_append, spansFrom, closed, if_neg hne, step, if_neg hne, ih hbody.2, hlength]
    rfl

/-- Inside of a block comment a character that is part of no mark changes nothing. -/
theorem spansFrom_block_cons {c : Char} {t : Text} (hopen : ¬ Vocabulary.blockOpen <+: c :: t)
    (hclose : ¬ Vocabulary.blockClose <+: c :: t) (s d p : Nat) :
    spansFrom (.block s d) p (c :: t) = spansFrom (.block s d) (p + 1) t := by
  show spansFrom (dig s d c) (p + 1) t = _
  unfold dig
  split
  case isTrue hslash =>
    exact spansFrom_blockSlash (fun h => hopen (mark_prefix_iff.2 ⟨hslash, h⟩)) s d (p + 1)
  split
  case isTrue hstar =>
    exact spansFrom_blockStar (fun h => hclose (mark_prefix_iff.2 ⟨hstar, h⟩)) s d (p + 1)
  rfl

theorem BlockBody.spansFrom_eq {depth : Nat} {body rest : Text} (h : BlockBody depth body rest)
    {d : Nat} (hdepth : depth = d + 1) (s p : Nat) :
    spansFrom (.block s d) p (body ++ rest) =
      ⟨s, (p + body.length : Nat)⟩ :: spansFrom .code (p + body.length) rest := by
  induction h generalizing d p with
  | closed => cases hdepth
  | unclosed => rfl
  | opens h ih =>
    obtain rfl := Nat.succ.inj hdepth
    rw [add_length_append]
    exact ih rfl (p + 2)
  | @closes depth body rest h ih =>
    obtain rfl := Nat.succ.inj hdepth
    rw [add_length_append]
    cases depth with
    | zero =>
      -- The outermost mark: the comment ends here.
      cases h
      rfl
    | succ depth => exact ih rfl (p + 2)
  | @other depth c body rest hopen hclose h ih =>
    have hlength : p + (c :: body).length = p + 1 + body.length := add_length_append p [c] body
    rw [List.cons_append, spansFrom_block_cons hopen hclose, ih hdepth, hlength]

theorem StringBody.spansFrom_eq {quote : Char} (hquote : quote ∈ Vocabulary.quotes)
    {body rest : Text} (h : StringBody quote body rest) (p : Nat) :
    spansFrom (.quoted quote) p (body ++ rest) = spansFrom .code (p + body.length) rest := by
  induction h generalizing p with
  | @closed c hc rest =>
    have hescape : c ≠ Vocabulary.escape := by
      rintro rfl
      exact absurd hc (escape_not_end hquote)
    rw [List.cons_append, spansFrom, step, if_neg hescape, if_pos hc]
    rfl
  | unclosed => rfl
  | @escaped c body rest hc h ih =>
    have hlength : p + (Vocabulary.escape :: c :: body).length = p + 2 + body.length :=
      add_length_append p [Vocabulary.escape, c] body
    rw [hlength, ← ih (p + 2)]
    show spansFrom (step (p + 1) c (.escaped quote)) (p + 2) (body ++ rest) = _
    rw [step, if_neg hc]
  | @other c body rest hne hnewline hescape h ih =>
    have hlength : p + (c :: body).length = p + 1 + body.length := add_length_append p [c] body
    rw [hlength, ← ih (p + 1)]
    show spansFrom (step p c (.quoted quote)) (p + 1) (body ++ rest) = _
    rw [step]
    split
    case isTrue hc => exact spansFrom_escaped (hescape hc) quote (p + 1)
    rw [if_neg (not_or.2 ⟨hne, hnewline⟩)]

/-- In front of a piece a scan in code goes to the end of the piece, and has found it if it is a
comment. -/
theorem Taken.spansFrom_eq {piece : Piece} {rest : Text} (h : Taken piece rest) (p : Nat) :
    spansFrom .code p (piece.text ++ rest) =
      (piece.comment? p).toList ++ spansFrom .code (p + piece.text.length) rest := by
  cases h with
  | @lineComment body rest hbody hrest =>
    have hlength : p + (Vocabulary.lineMark ++ body).length = p + 2 + body.length :=
      add_length_append p Vocabulary.lineMark body
    show spansFrom (.line p) (p + 2) (body ++ rest) =
      ⟨p, (p + (Vocabulary.lineMark ++ body).length : Nat)⟩ :: spansFrom .code _ rest
    rw [spansFrom_line hbody hrest, hlength]
  | @blockComment body rest h =>
    have hlength : p + (Vocabulary.blockOpen ++ body).length = p + 2 + body.length :=
      add_length_append p Vocabulary.blockOpen body
    show spansFrom (.block p 0) (p + 2) (body ++ rest) =
      ⟨p, (p + (Vocabulary.blockOpen ++ body).length : Nat)⟩ :: spansFrom .code _ rest
    rw [h.spansFrom_eq rfl, hlength]
  | @string quote body rest hquote h =>
    have hlength : p + (quote :: body).length = p + 1 + body.length :=
      add_length_append p [quote] body
    have hslash : quote ≠ '/' := by
      rintro rfl
      exact absurd hquote (by decide)
    show spansFrom (enter p quote) (p + 1) (body ++ rest) =
      spansFrom .code (p + (quote :: body).length) rest
    rw [hlength, ← h.spansFrom_eq hquote, enter, if_neg hslash, if_pos hquote]
  | @character c rest hline hblock hquote =>
    show spansFrom (enter p c) (p + 1) rest = spansFrom .code (p + 1) rest
    rw [enter, if_neg hquote]
    split
    case isTrue hslash =>
      exact spansFrom_slash (fun h => hline (mark_prefix_iff.2 ⟨hslash, h⟩))
        (fun h => hblock (mark_prefix_iff.2 ⟨hslash, h⟩)) p (p + 1)
    rfl

theorem Decomposes.spansFrom_eq {t : Text} {pieces : List Piece} (h : Decomposes t pieces)
    (p : Nat) : spansFrom .code p t = commentSpans p pieces := by
  induction h generalizing p with
  | nil => rfl
  | cons h _ ih => rw [h.spansFrom_eq, ih, commentSpans]

end Scan

/-- Every text can be cut into pieces in exactly one way, and the comments found in it are the
pieces that are comments. -/
theorem Comments.spans_ofText_eq_commentSpans (t : Text) :
    ∃ pieces, (∀ pieces', Scan.Decomposes t pieces' ↔ pieces' = pieces) ∧
      (Comments.ofText t).spans.toList = Scan.commentSpans 0 pieces := by
  obtain ⟨pieces, h⟩ := Scan.exists_decomposes t
  refine ⟨pieces, fun pieces' => ⟨fun h' => h'.unique h, ?_⟩, ?_⟩
  · rintro rfl
    exact h
  · exact h.spansFrom_eq 0

end FabEdit
