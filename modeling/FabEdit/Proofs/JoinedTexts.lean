import FabEdit.Proofs.LineKinds

/-!
# Comments of joined texts

A pass can be cut anywhere and resumed. This module is about two places where the parts can be
scanned apart from each other: at a newline, and behind a comment.

Shape of the argument:

* `completed` are the spans that a text completes before its end, so that the spans of a joined text
  are those of its first part, without the comment that is still open, and what a pass in the mode
  reached by then finds in the second part (`spansFrom_append`).
* A newline ends everything but a block comment, and so does the end of the text, at the same
  position (`spansFrom_newline`).
* A pass that starts further to the right finds the same spans further to the right
  (`spansFrom_shift`).
* Behind a comment a pass is in code, or stands in front of the newline by which the comment ended
  (`modeAfter_stop`). Either way it goes on like a new pass (`Comments.covers_behind`).
-/

namespace FabEdit

/-- A text cut at one of its characters. -/
theorem Text.exists_eq_append_cons {t : Text} {j : Nat} {c : Char} (h : t[j]? = some c) :
    ∃ u v, t = u ++ c :: v ∧ u.length = j := by
  obtain ⟨hj, rfl⟩ := List.getElem?_eq_some_iff.1 h
  refine ⟨t.take j, t.drop (j + 1), ?_, List.length_take_of_le (Nat.le_of_lt hj)⟩
  rw [List.getElem_cons_drop, List.take_append_drop]

/-- A span further to the right. -/
def Span.shift (n : Nat) (s : Span) : Span := ⟨s.start + n, s.stop + n⟩

namespace Scan

/-! ## Cutting a pass -/

/-- The spans of the comments that end inside of a text, and not with it. -/
def completed : Mode → Nat → Text → List Span
  | _, _, [] => []
  | m, p, c :: t => (closed p c m).toList ++ completed (step p c m) (p + 1) t

theorem spansFrom_append (m : Mode) (p : Nat) (t u : Text) :
    spansFrom m p (t ++ u) = completed m p t ++ spansFrom (modeAfter m p t) (p + t.length) u := by
  induction t generalizing m p with
  | nil => rfl
  | cons c t ih =>
    have hlength : p + (c :: t).length = p + 1 + t.length := by
      rw [List.length_cons]
      omega
    rw [List.cons_append, spansFrom, ih, completed, modeAfter, hlength, List.append_assoc]

/-- Outside of block comments, a newline ends what the end of the text would end there. -/
theorem spansFrom_newline {m : Mode} (h : m.rest = .code) (p : Nat) (u : Text) :
    spansFrom m p ('\n' :: u) = spansFrom m p [] ++ spansFrom .code (p + 1) u := by
  have hclosed : (closed p '\n' m).toList = spansFrom m p [] := by
    cases m with
    | block | blockSlash | blockStar => cases h
    | _ => rfl
  rw [← hclosed, spansFrom, step_newline, h]

/-! ## Moving a pass -/

/-- A mode that remembers positions further to the right. -/
def Mode.shift (n : Nat) : Mode → Mode
  | .code => .code
  | .slash s => .slash (s + n)
  | .line s => .line (s + n)
  | .block s d => .block (s + n) d
  | .blockSlash s d => .blockSlash (s + n) d
  | .blockStar s d => .blockStar (s + n) d
  | .quoted q => .quoted q
  | .escaped q => .escaped q

private theorem enter_shift (n p : Nat) (c : Char) : enter (p + n) c = (enter p c).shift n := by
  unfold enter
  split
  · rfl
  · split <;> rfl

private theorem dig_shift (n s d : Nat) (c : Char) : dig (s + n) d c = (dig s d c).shift n := by
  unfold dig
  split
  · rfl
  · split <;> rfl

theorem step_shift (n p : Nat) (c : Char) (m : Mode) :
    step (p + n) c (m.shift n) = (step p c m).shift n := by
  cases m with
  | code => exact enter_shift n p c
  | slash s =>
    simp only [Mode.shift, step, enter_shift]
    split
    · rfl
    · split <;> rfl
  | line s =>
    simp only [Mode.shift, step]
    split <;> rfl
  | block s d => exact dig_shift n s d c
  | blockSlash s d =>
    simp only [Mode.shift, step, dig_shift]
    split <;> rfl
  | blockStar s d =>
    cases d <;> simp only [Mode.shift, step, dig_shift] <;> split <;> rfl
  | quoted q =>
    simp only [Mode.shift, step]
    split
    · rfl
    · split <;> rfl
  | escaped q =>
    simp only [Mode.shift, step]
    split <;> rfl

theorem closed_shift (n p : Nat) (c : Char) (m : Mode) :
    closed (p + n) c (m.shift n) = (closed p c m).map (Span.shift n) := by
  cases m with
  | line s =>
    simp only [Mode.shift, closed]
    split <;> simp [Span.shift]
  | blockStar s d =>
    cases d with
    | zero =>
      simp only [Mode.shift, closed]
      have hstop : (p : Int) + n + 1 = p + 1 + n := by omega
      split
      · simp [Span.shift, hstop]
      · rfl
    | succ d => rfl
  | _ => rfl

theorem openSince_shift (n : Nat) (m : Mode) : (m.shift n).openSince = m.openSince.map (· + n) := by
  cases m <;> rfl

/-- The step lemmas, carried through a whole text. -/
theorem spansFrom_shift (n p : Nat) (m : Mode) (t : Text) :
    spansFrom (m.shift n) (p + n) t = (spansFrom m p t).map (Span.shift n) := by
  induction t generalizing m p with
  | nil =>
    rw [spansFrom, spansFrom, openSince_shift]
    cases m.openSince <;> simp [Span.shift]
  | cons c t ih =>
    have hnext : p + n + 1 = p + 1 + n := by omega
    rw [spansFrom, spansFrom, closed_shift, step_shift, hnext, ih, List.map_append,
      Option.toList_map]

/-! ## Behind a comment -/

/-- The two characters that complete a comment: the newline behind a line comment, and the second
half of the mark that closes the outermost block comment. -/
theorem closed_cases {m : Mode} {p : Nat} {c : Char} {s : Span} (h : closed p c m = some s) :
    (c = '\n' ∧ ∃ start : Nat, m = .line start ∧ s = ⟨start, p⟩) ∨
      (c = '/' ∧ ∃ start : Nat, m = .blockStar start 0 ∧ s = ⟨start, p + 1⟩) := by
  cases m with
  | line start =>
    by_cases hc : c = '\n'
    · exact .inl ⟨hc, start, rfl, by simpa [closed, hc] using h.symm⟩
    · simp [closed, hc] at h
  | blockStar start d =>
    cases d with
    | zero =>
      by_cases hc : c = '/'
      · exact .inr ⟨hc, start, rfl, by simpa [closed, hc] using h.symm⟩
      · simp [closed, hc] at h
    | succ d => simp [closed] at h
  | _ => simp [closed] at h

theorem mem_spansFrom_cons {m : Mode} {p : Nat} {c : Char} {t : Text} {s : Span} :
    s ∈ spansFrom m p (c :: t) ↔ closed p c m = some s ∨ s ∈ spansFrom (step p c m) (p + 1) t := by
  rw [spansFrom, List.mem_append, Option.mem_toList]

/-- What a pass finds ends no earlier than where the pass starts. -/
theorem le_stop_of_mem_spansFrom {m : Mode} {p : Nat} {t : Text} {s : Span}
    (h : s ∈ spansFrom m p t) : (p : Int) ≤ s.stop := by
  induction t generalizing m p with
  | nil =>
    obtain ⟨start, -, rfl⟩ : ∃ start, m.openSince = some start ∧ ⟨start, p⟩ = s := by
      simpa [spansFrom] using h
    exact Int.le_refl _
  | cons c t ih =>
    rcases mem_spansFrom_cons.1 h with hclosed | hlater
    · rcases closed_cases hclosed with ⟨-, start, -, rfl⟩ | ⟨-, start, -, rfl⟩
      · exact Int.le_refl _
      · exact Int.le_add_one (Int.le_refl _)
    · have hle := ih hlater
      omega

/-- Behind a comment a pass is in code, unless the comment is ended by a newline that the pass has
yet to read. -/
theorem modeAfter_stop {m : Mode} {p : Nat} {u : Text} {c : Char} {v : Text} {s : Span}
    (h : s ∈ spansFrom m p (u ++ c :: v)) (hstop : s.stop = (p + u.length : Nat)) :
    modeAfter m p u = .code ∨ c = '\n' ∧ ∃ start, modeAfter m p u = .line start := by
  induction u generalizing m p with
  | nil =>
    rcases mem_spansFrom_cons.1 h with hclosed | hlater
    · rcases closed_cases hclosed with ⟨hc, start, hm, -⟩ | ⟨-, start, -, rfl⟩
      · exact .inr ⟨hc, start, hm⟩
      · simp only [List.length_nil] at hstop
        omega
    · have hle := le_stop_of_mem_spansFrom hlater
      simp only [List.length_nil] at hstop
      omega
  | cons x u ih =>
    rw [List.length_cons] at hstop
    rcases mem_spansFrom_cons.1 h with hclosed | hlater
    · rcases closed_cases hclosed with ⟨-, start, -, rfl⟩ | ⟨rfl, start, rfl, rfl⟩
      · simp only at hstop
        omega
      · -- The mark closes the comment with its last character, so nothing is left of `u`.
        obtain rfl : u = [] := List.length_eq_zero_iff.1 (by simp only at hstop; omega)
        exact .inl rfl
    · exact ih hlater (by rw [hstop]; omega)

theorem Mode.inComment_congr {m n : Mode} (h : m.shape = n.shape) (c : Char)
    (next : Option Char) : m.inComment c next = n.inComment c next := by
  have hshape : ∀ a : Mode, a.inComment c next = a.shape.inComment c next := by
    intro a
    cases a <;> rfl
  rw [hshape m, h, ← hshape n]

/-- In front of a newline a pass in a line comment goes on like one in code. -/
theorem inComment_modeAfter_line {u v t : Text} {c : Char} (h : u ++ c :: v = '\n' :: t)
    (start p : Nat) (next : Option Char) :
    (modeAfter (.line start) p u).inComment c next = (modeAfter .code p u).inComment c next := by
  cases u with
  | nil =>
    obtain ⟨rfl, -⟩ := List.cons.inj h
    rfl
  | cons x u =>
    obtain ⟨rfl, -⟩ := List.cons.inj h
    rfl

end Scan

namespace Comments

/-! ## Positions in joined texts -/

/-- What lies below a newline has no influence on the comments above it. -/
theorem covers_append_newline (t u : Text) {p : Int} (hp : p < t.length) :
    (ofText (t ++ '\n' :: u)).covers p = (ofText t).covers p := by
  by_cases hneg : p < 0
  · rw [covers_of_neg _ hneg, covers_of_neg _ hneg]
  · obtain ⟨j, rfl⟩ := Int.eq_ofNat_of_zero_le (Int.not_lt.1 hneg)
    obtain ⟨c, hc⟩ : ∃ c, t[j]? = some c := ⟨_, List.getElem?_eq_getElem (Int.ofNat_lt.1 hp)⟩
    obtain ⟨a, v, rfl, rfl⟩ := Text.exists_eq_append_cons hc
    rw [List.append_assoc, List.cons_append, covers_ofText, covers_ofText,
      Scan.Mode.inComment_append (by simp)]

/-- Behind one of its comments a text has the comments that the rest has by itself. -/
theorem covers_behind {u r w : Text} {s : Span} (hs : s ∈ (ofText (u ++ (r ++ w))).spans.toList)
    (hstop : s.stop = u.length) (hw : ∀ d ∈ w.head?, d = '\n') {j : Nat} {x : Char}
    (hx : r[j]? = some x) :
    (ofText (u ++ (r ++ w))).covers (u.length + j : Nat) = (ofText r).covers j := by
  obtain ⟨a, v, rfl, rfl⟩ := Text.exists_eq_append_cons hx
  have hcut : u ++ (a ++ x :: v ++ w) = (u ++ a) ++ x :: (v ++ w) := by simp
  rw [← List.length_append, hcut, covers_ofText, covers_ofText, Scan.Mode.inComment_append hw,
    Scan.modeAfter_append, Nat.zero_add]
  have hcode : (Scan.modeAfter .code u.length a).inComment x v.head? =
      (Scan.modeAfter .code 0 a).inComment x v.head? :=
    Scan.Mode.inComment_congr (Scan.shape_modeAfter rfl _ _ a) x v.head?
  obtain ⟨c, t, hrest⟩ := List.exists_cons_of_ne_nil (List.append_ne_nil_of_right_ne_nil a
    (List.cons_ne_nil x v))
  rw [hrest] at hs
  rcases Scan.modeAfter_stop hs (by rw [hstop, Nat.zero_add]) with hmode | ⟨rfl, start, hmode⟩
  · rw [hmode, hcode]
  · rw [hmode, Scan.inComment_modeAfter_line hrest, hcode]

/-- Below a newline that lies in no comment a text has the comments that the rest has by itself. -/
theorem spans_append_newline {t : Text} (h : (ofText (t ++ ['\n'])).covers t.length = false)
    (u : Text) :
    (ofText (t ++ '\n' :: u)).spans.toList =
      (ofText t).spans.toList ++ (ofText u).spans.toList.map (Span.shift (t.length + 1)) := by
  rw [covers_ofText] at h
  have hrest : (Scan.modeAfter .code 0 t).rest = .code := Scan.Mode.rest_eq_code h
  -- The first text by itself, cut at its end.
  have hfirst : Scan.spansFrom .code 0 t =
      Scan.completed .code 0 t ++ Scan.spansFrom (Scan.modeAfter .code 0 t) (0 + t.length) [] := by
    rw [← Scan.spansFrom_append, List.append_nil]
  have hsecond : Scan.spansFrom .code (0 + t.length + 1) u =
      (Scan.spansFrom .code 0 u).map (Span.shift (t.length + 1)) := by
    rw [Nat.add_assoc]
    exact Scan.spansFrom_shift (t.length + 1) 0 .code u
  calc Scan.spansFrom .code 0 (t ++ '\n' :: u)
      = Scan.completed .code 0 t ++
          Scan.spansFrom (Scan.modeAfter .code 0 t) (0 + t.length) ('\n' :: u) :=
        Scan.spansFrom_append .code 0 t ('\n' :: u)
    _ = Scan.completed .code 0 t ++
          (Scan.spansFrom (Scan.modeAfter .code 0 t) (0 + t.length) [] ++
            Scan.spansFrom .code (0 + t.length + 1) u) := by
        rw [Scan.spansFrom_newline hrest]
    _ = Scan.spansFrom .code 0 t ++ (Scan.spansFrom .code 0 u).map (Span.shift (t.length + 1)) := by
        rw [← List.append_assoc, ← hfirst, hsecond]

end Comments

/-- The comments of two texts with a newline between them. Up to the newline they cover the same
positions as the comments of the first text alone. If the newline itself lies in no comment, they
are the comments of the first text, and behind them those of the second one, moved by the length of
what comes before it. -/
theorem comments_of_joined_texts (t u : Text) :
    (∀ p : Int, p < t.length →
      (Comments.ofText (t ++ '\n' :: u)).covers p = (Comments.ofText t).covers p) ∧
    ((Comments.ofText (t ++ ['\n'])).covers t.length = false →
      (Comments.ofText (t ++ '\n' :: u)).spans.toList =
        (Comments.ofText t).spans.toList ++
          (Comments.ofText u).spans.toList.map (Span.shift (t.length + 1))) :=
  ⟨fun _ hp => Comments.covers_append_newline t u hp,
    fun hnewline => Comments.spans_append_newline hnewline u⟩

/-- A comment over a line end, then a string that breaks off after a backslash and holds a mark. -/
private def frayed : Text := "/* a\n*/ '// b\\".toList

/-- A line with an end mark that ends nothing, and a comment that is not closed. -/
private def dangling : Text := "*/ c /* d".toList

/-- Neither the string at the end of `frayed` nor the mark at the start of `dangling` reaches over
the newline. -/
theorem comments_of_frayed_dangling :
    (Comments.ofText (frayed ++ '\n' :: dangling)).covers 5 = (Comments.ofText frayed).covers 5 ∧
    (Comments.ofText (frayed ++ ['\n'])).covers frayed.length = false ∧
    (Comments.ofText (frayed ++ '\n' :: dangling)).spans.toList = [⟨0, 7⟩, ⟨20, 24⟩] := by
  have hjoined := comments_of_joined_texts frayed dangling
  have hnewline : (Comments.ofText (frayed ++ ['\n'])).covers frayed.length = false := by
    rw [Comments.covers_ofText]
    decide +kernel
  refine ⟨hjoined.1 5 (by decide), hnewline, ?_⟩
  rw [hjoined.2 hnewline]
  decide +kernel

end FabEdit
