import FabEdit.LineKind
import Mathlib.Data.List.DropRight

/-!
# The core of a line

Indenting a line changes its leading blanks, and handing it over as a plain line may cost it its
line end. What is left is the `Text.core` of the line. Everything that the engine reads off a line
other than its column is read off its core: whether it is blank, whether it starts a comment or an
annotation, its first word and its words.

Each such function comes with a lemma `..._core` which says that it gives the same on the core, so
that two lines with one core cannot be told apart by it.

Shape of the argument:

* The walk that measures a line tells spaces, tabs and other white space apart, yet it goes on
  exactly as long as it meets blanks (`measureFrom_eq`). So the lead and the content are the two
  halves into which the first character that is not blank cuts the line (`Text.lead_eq_takeWhile`,
  `Text.content_eq_dropWhile`).
* The core and the line end make up the content (`Text.exists_content_eq_core_append`).
* A line is cut into words at its blanks, all at once or from the front, with the same words
  (`Text.take_pieces`).
-/

namespace FabEdit

theorem isBlank_of_isLineEnd {c : Char} (h : Buffer.isLineEnd c = true) : isBlank c = true := by
  simp only [Buffer.isLineEnd, Bool.or_eq_true, beq_iff_eq] at h
  rcases h with rfl | rfl <;> decide

/-! ## The walk over the lead -/

/-- The column after one blank at column `col`: a tab goes to the next tab stop, and all other
blanks that take any room take one column. -/
def advance (tab col : Int) (c : Char) : Int :=
  if c = '\t' then col + (tab - col.fmod tab)
  else if c = '\x0c' ∨ c = '\x0b' ∨ c = '\r' then col
  else col + 1

/-- Whatever the walk takes a blank for, it goes on. -/
theorem measureFrom_cons_of_isBlank {c : Char} (h : isBlank c = true) (tab : Int) (m : Measure)
    (l : Text) :
    measureFrom tab m (c :: l) = measureFrom tab ⟨advance tab m.column c, m.start + 1⟩ l := by
  by_cases hspace : c = ' '
  · subst hspace
    rfl
  · rw [measureFrom, advance, if_neg hspace, if_pos h]
    split
    · rfl
    · split <;> rfl

/-- All characters that the walk knows by name are blank, so no other one keeps it going. -/
theorem measureFrom_cons_of_not_isBlank {c : Char} (h : isBlank c = false) (tab : Int) (m : Measure)
    (l : Text) : measureFrom tab m (c :: l) = m := by
  have hne : ∀ d, isBlank d = true → c ≠ d := by
    rintro d hd rfl
    rw [h] at hd
    cases hd
  have hroomless : ¬ (c = '\x0c' ∨ c = '\x0b' ∨ c = '\r') :=
    not_or.2 ⟨hne _ (by decide), not_or.2 ⟨hne _ (by decide), hne _ (by decide)⟩⟩
  rw [measureFrom, if_neg (hne ' ' (by decide)), if_neg (hne '\t' (by decide)), if_neg hroomless,
    if_neg (by simp [h])]

theorem measureFrom_eq (tab : Int) (m : Measure) (l : Text) :
    measureFrom tab m l =
      ⟨(l.takeWhile isBlank).foldl (advance tab) m.column,
        m.start + (l.takeWhile isBlank).length⟩ := by
  induction l generalizing m with
  | nil => rfl
  | cons c l ih =>
    cases h : isBlank c with
    | true =>
      rw [measureFrom_cons_of_isBlank h, ih, List.takeWhile_cons_of_pos h, List.foldl_cons,
        List.length_cons, Nat.add_right_comm, Nat.add_assoc]
    | false =>
      rw [measureFrom_cons_of_not_isBlank h, List.takeWhile_cons_of_neg (by simp [h])]
      rfl

theorem start_measure (tab : Int) (l : Text) :
    (measure tab l).start = (l.takeWhile isBlank).length := by
  rw [measure, measureFrom_eq]
  exact Nat.zero_add _

namespace Text

/-- A line without its leading blanks and without the line end that it may carry. -/
def core (l : Text) : Text := (dropEnd Buffer.isLineEnd l).content

/-! ## Leads and contents -/

theorem lead_eq_takeWhile (l : Text) : l.lead = l.takeWhile isBlank := by
  have hprefix := List.takeWhile_prefix (l := l) isBlank
  rw [lead, start, start_measure]
  exact (List.prefix_iff_eq_take.1 hprefix).symm

/-- The content starts where the walk ends, wherever the tab stops are. -/
theorem drop_start_measure (tab : Int) (l : Text) : l.drop (measure tab l).start = l.content := by
  rw [content, start, start_measure, start_measure]

theorem content_eq_dropWhile (l : Text) : l.content = l.dropWhile isBlank := by
  have hcut := l.lead_append_content
  rw [lead_eq_takeWhile] at hcut
  exact List.append_cancel_left (hcut.trans List.takeWhile_append_dropWhile.symm)

theorem isBlank_of_mem_lead {l : Text} {c : Char} (h : c ∈ l.lead) : isBlank c = true := by
  rw [lead_eq_takeWhile] at h
  exact List.mem_takeWhile_imp h

theorem isBlank_of_content_eq_cons {l v : Text} {c : Char} (h : l.content = c :: v) :
    isBlank c = false := by
  have hhead := List.head?_dropWhile_not isBlank l
  rw [← content_eq_dropWhile, h] at hhead
  exact hhead

/-- A line that starts with a character that is not blank is all content. -/
theorem content_cons_of_not_isBlank {c : Char} (h : isBlank c = false) (l : Text) :
    content (c :: l) = c :: l := by
  rw [content_eq_dropWhile, List.dropWhile_cons_of_neg (by simp [h])]

theorem content_eq_nil_iff {l : Text} : l.content = [] ↔ ∀ c ∈ l, isBlank c = true := by
  rw [content_eq_dropWhile]
  exact List.dropWhile_eq_nil_iff

@[simp] theorem content_content (l : Text) : l.content.content = l.content := by
  rw [content_eq_dropWhile, content_eq_dropWhile, List.dropWhile_idempotent]

/-- Only what is empty after the lead consists of blanks. -/
theorem all_isBlank_content_iff {l : Text} : l.content.all isBlank = true ↔ l.content = [] := by
  rw [List.all_eq_true, ← content_eq_nil_iff, content_content]

/-- Blanks in front of a line belong to its lead. -/
theorem content_blank_append {a : Text} (h : ∀ c ∈ a, isBlank c = true) (l : Text) :
    content (a ++ l) = l.content := by
  rw [content_eq_dropWhile, content_eq_dropWhile, List.dropWhile_append_of_pos h]

theorem lead_blank_append_content {a : Text} (h : ∀ c ∈ a, isBlank c = true) (l : Text) :
    lead (a ++ l.content) = a := by
  have hcut := lead_append_content (a ++ l.content)
  rw [content_blank_append h, content_content] at hcut
  exact List.append_cancel_right hcut

/-! ## The ends of a line -/

theorem dropEnd_append (p : Char → Bool) (a b : Text) :
    dropEnd p (a ++ b) = if dropEnd p b = [] then dropEnd p a else a ++ dropEnd p b := by
  rw [dropEnd, List.reverse_append, List.dropWhile_append]
  by_cases h : b.reverse.dropWhile p = [] <;> simp [dropEnd, h]

theorem dropEnd_dropEnd (p : Char → Bool) (t : Text) : dropEnd p (dropEnd p t) = dropEnd p t :=
  List.rdropWhile_idempotent p t

/-- A text that starts with a character outside a class starts with it when the class is taken off
its end. -/
private theorem head?_dropEnd_cons {p : Char → Bool} {c : Char} (hc : p c = false) (v : Text) :
    (dropEnd p (c :: v)).head? = some c := by
  have hsplit := dropEnd_append p [c] v
  have hhead : dropEnd p [c] = [c] := by simp [dropEnd, hc]
  rw [List.singleton_append] at hsplit
  rw [hsplit, hhead]
  split <;> rfl

theorem head?_trim (l : Text) : (l.trim isBlank).head? = l.content.head? := by
  rw [trim, ← content_eq_dropWhile]
  cases hl : l.content with
  | nil => rfl
  | cons c v => rw [head?_dropEnd_cons (isBlank_of_content_eq_cons hl), List.head?_cons]

theorem trim_eq_nil_iff {l : Text} : l.trim isBlank = [] ↔ l.content = [] := by
  rw [← List.head?_eq_none_iff, head?_trim, List.head?_eq_none_iff]

/-- The core is what the content has left without the line end. -/
theorem core_eq_dropEnd_content (l : Text) : l.core = dropEnd Buffer.isLineEnd l.content := by
  have hsplit := dropEnd_append Buffer.isLineEnd l.lead l.content
  rw [lead_append_content] at hsplit
  rw [core, hsplit]
  split
  next hnil =>
    rw [hnil, content_eq_nil_iff]
    exact fun c hc => isBlank_of_mem_lead ((List.rdropWhile_prefix _ _).subset hc)
  next hne =>
    rw [content_blank_append fun c hc => isBlank_of_mem_lead hc]
    obtain ⟨c, v, hv⟩ := List.exists_cons_of_ne_nil hne
    obtain ⟨e, he⟩ : dropEnd Buffer.isLineEnd l.content <+: l.content :=
      List.rdropWhile_prefix _ _
    rw [hv] at he ⊢
    exact content_cons_of_not_isBlank (isBlank_of_content_eq_cons he.symm) v

/-- The core and the line end make up the content; a blank line has neither. -/
theorem exists_content_eq_core_append (l : Text) :
    ∃ e, l.content = l.core ++ e ∧ (∀ c ∈ e, Buffer.isLineEnd c = true) ∧
      (l.core = [] → l.content = []) := by
  refine ⟨l.content.rtakeWhile Buffer.isLineEnd, ?_, fun c hc => List.mem_rtakeWhile_imp hc, ?_⟩
  · rw [core_eq_dropEnd_content]
    exact List.rdropWhile_append_rtakeWhile.symm
  · intro hnil
    rw [core_eq_dropEnd_content] at hnil
    cases hl : l.content with
    | nil => rfl
    | cons c v =>
      have hend := List.rdropWhile_eq_nil_iff.1 hnil c (by simp [hl])
      have hblank := isBlank_of_content_eq_cons hl
      simp [isBlank_of_isLineEnd hend] at hblank

theorem core_eq_nil_iff {l : Text} : l.core = [] ↔ l.content = [] := by
  obtain ⟨e, he, -, hnil⟩ := exists_content_eq_core_append l
  refine ⟨hnil, fun h => ?_⟩
  exact (List.append_eq_nil_iff.1 (he.symm.trans h)).1

theorem core_congr {l l' : Text} (h : l.content = l'.content) : l.core = l'.core := by
  rw [core_eq_dropEnd_content, core_eq_dropEnd_content, h]

@[simp] theorem core_dropEnd (l : Text) : (dropEnd Buffer.isLineEnd l).core = l.core := by
  rw [core, core, dropEnd_dropEnd]

@[simp] theorem content_core (l : Text) : l.core.content = l.core := content_content _

/-! ## What is read off a line -/

private theorem takeWhile_append_of_forall_not {p : Char → Bool} {e : Text}
    (h : ∀ c ∈ e, p c = false) (a : Text) : (a ++ e).takeWhile p = a.takeWhile p := by
  induction a with
  | nil =>
    cases e with
    | nil => rfl
    | cons c e => simp [h c (by simp)]
  | cons d a ih => simp only [List.cons_append, List.takeWhile_cons, ih]

@[simp] theorem firstWord_core (l : Text) : l.core.firstWord = l.firstWord := by
  obtain ⟨e, he, hend, -⟩ := exists_content_eq_core_append l
  have hblank : ∀ c ∈ e, (!isBlank c) = false := fun c hc => by
    simp [isBlank_of_isLineEnd (hend c hc)]
  rw [firstWord, firstWord, content_core, he, takeWhile_append_of_forall_not hblank]

/-- Words are cut at every blank. -/
theorem words_append_cons {c : Char} (hc : isBlank c = true) (t u : Text) :
    words (t ++ c :: u) = words t ++ words u := by
  rw [words, List.splitOnP_append_cons t u hc, List.filter_append]
  rfl

theorem words_blank_append {a : Text} (h : ∀ c ∈ a, isBlank c = true) (t : Text) :
    words (a ++ t) = words t := by
  induction a with
  | nil => rfl
  | cons c a ih =>
    have hcons := words_append_cons (h c (by simp)) [] (a ++ t)
    have hrest := ih fun d hd => h d (List.mem_cons_of_mem c hd)
    exact hcons.trans hrest

theorem words_append_blank {e : Text} (h : ∀ c ∈ e, isBlank c = true) (t : Text) :
    words (t ++ e) = words t := by
  cases e with
  | nil => rw [List.append_nil]
  | cons c e =>
    have hrest := words_blank_append (fun d hd => h d (List.mem_cons_of_mem c hd)) []
    rw [words_append_cons (h c (by simp)), show e = e ++ [] by simp, hrest]
    exact List.append_nil _

@[simp] theorem words_core (l : Text) : l.core.words = l.words := by
  obtain ⟨e, he, hend, -⟩ := exists_content_eq_core_append l
  have hblank : ∀ c ∈ e, isBlank c = true := fun c hc => isBlank_of_isLineEnd (hend c hc)
  have hlead : ∀ c ∈ l.lead, isBlank c = true := fun c hc => isBlank_of_mem_lead hc
  calc l.core.words
      = (l.core ++ e).words := (words_append_blank hblank _).symm
    _ = (l.lead ++ l.content).words := by rw [← he, words_blank_append hlead]
    _ = l.words := by rw [lead_append_content]

/-! ## Words one by one -/

theorem behindFirst_eq (l : Text) : l.behindFirst = l.content.dropWhile fun c => !isBlank c := by
  rw [behindFirst, content_eq_dropWhile]

/-- The first piece cut off a line is its first word. -/
theorem pieces_succ (n : Nat) (l : Text) :
    l.pieces (n + 1) = if l.content = [] then [] else l.firstWord :: pieces n l.behindFirst := by
  rw [pieces, firstWord, content_eq_dropWhile]

theorem firstWord_append_behindFirst (l : Text) : l.firstWord ++ l.behindFirst = l.content := by
  rw [behindFirst_eq]
  exact List.takeWhile_append_dropWhile

theorem isBlank_of_mem_firstWord {l : Text} {c : Char} (h : c ∈ l.firstWord) :
    isBlank c = false := by
  have hmem : c ∈ l.content.takeWhile fun c => !isBlank c := h
  simpa using List.mem_takeWhile_imp hmem

theorem firstWord_eq_nil_iff {l : Text} : l.firstWord = [] ↔ l.content = [] := by
  cases hl : l.content with
  | nil => simp [firstWord, hl]
  | cons c v => simp [firstWord, hl, isBlank_of_content_eq_cons hl]

theorem words_content (l : Text) : l.content.words = l.words := by
  have hlead : ∀ c ∈ l.lead, isBlank c = true := fun c hc => isBlank_of_mem_lead hc
  rw [← words_blank_append hlead, lead_append_content]

theorem words_of_content_eq_nil {l : Text} (h : l.content = []) : l.words = [] := by
  rw [← words_content, h]
  rfl

/-- A run of characters that are not blank is one word. -/
theorem words_of_forall_not_isBlank {w : Text} (hne : w ≠ []) (h : ∀ c ∈ w, isBlank c = false) :
    w.words = [w] := by
  rw [words, List.splitOnP_eq_singleton h]
  simp [hne]

/-- A word followed by a blank or by nothing is the first of the words. -/
theorem words_append_of_head?_isBlank {w r : Text} (hne : w ≠ []) (h : ∀ c ∈ w, isBlank c = false)
    (hr : ∀ c ∈ r.head?, isBlank c = true) : words (w ++ r) = w :: words r := by
  have hword := words_of_forall_not_isBlank hne h
  cases r with
  | nil =>
    rw [List.append_nil, hword]
    rfl
  | cons c r =>
    have hc : isBlank c = true := hr c rfl
    have hrest := words_append_cons hc [] r
    rw [words_append_cons hc, hword]
    exact congrArg (w :: ·) hrest.symm

/-- Behind the first word comes a blank or nothing. -/
theorem isBlank_of_head?_behindFirst {l : Text} {c : Char} (h : c ∈ l.behindFirst.head?) :
    isBlank c = true := by
  have hstop := List.head?_dropWhile_not (fun c => !isBlank c) l.content
  have hhead : l.behindFirst.head? = some c := h
  rw [← behindFirst_eq, hhead] at hstop
  simpa using hstop

theorem words_of_content_ne_nil {l : Text} (h : l.content ≠ []) :
    l.words = l.firstWord :: l.behindFirst.words := by
  rw [← words_content, ← firstWord_append_behindFirst]
  exact words_append_of_head?_isBlank (mt firstWord_eq_nil_iff.1 h)
    (fun c hc => isBlank_of_mem_firstWord hc) fun c hc => isBlank_of_head?_behindFirst hc

/-- The pieces of a line start with its words, as far as it was cut. -/
theorem take_pieces (n : Nat) (l : Text) : (l.pieces n).take n = l.words.take n := by
  induction n generalizing l with
  | zero => rw [List.take_zero, List.take_zero]
  | succ n ih =>
    rw [pieces_succ]
    split
    next hnil => rw [words_of_content_eq_nil hnil]
    next hne => rw [words_of_content_ne_nil hne, List.take_succ_cons, List.take_succ_cons, ih]

end Text

/-- The measure in closed form: the column adds up over the lead, and the content starts behind
it. -/
theorem measure_eq (tab : Int) (l : Text) :
    measure tab l = ⟨l.lead.foldl (advance tab) 0, l.lead.length⟩ := by
  rw [measure, measureFrom_eq, Text.lead_eq_takeWhile, Nat.zero_add]

theorem column_eq_foldl (tab : Int) (l : Text) : column tab l = l.lead.foldl (advance tab) 0 := by
  rw [column, measure_eq]

/-- A text without line ends starts a content exactly if it starts the core. -/
private theorem isPrefixOf_append_lineEnd {w : Text} (hw : ∀ c ∈ w, Buffer.isLineEnd c = false)
    {e : Text} (he : ∀ c ∈ e, Buffer.isLineEnd c = true) (a : Text) :
    w.isPrefixOf (a ++ e) = w.isPrefixOf a := by
  induction w generalizing a with
  | nil => rfl
  | cons c w ih =>
    cases a with
    | nil =>
      cases e with
      | nil => rfl
      | cons d e =>
        have hne : c ≠ d := by
          rintro rfl
          simpa [hw c (by simp)] using he c (by simp)
        simp [List.isPrefixOf, hne]
    | cons d a => simp [List.isPrefixOf, ih fun x hx => hw x (List.mem_cons_of_mem c hx)]

theorem startsComment_core (l : Text) : startsComment l.core = startsComment l := by
  obtain ⟨e, he, hend, -⟩ := Text.exists_content_eq_core_append l
  have hline : ∀ c ∈ Vocabulary.lineMark, Buffer.isLineEnd c = false := by
    simp [Vocabulary.lineMark, Buffer.isLineEnd]
  have hblock : ∀ c ∈ Vocabulary.blockOpen, Buffer.isLineEnd c = false := by
    simp [Vocabulary.blockOpen, Buffer.isLineEnd]
  rw [startsComment, startsComment, Text.content_core, he, isPrefixOf_append_lineEnd hline hend,
    isPrefixOf_append_lineEnd hblock hend]

theorem isAnnotationLine_core (l : Text) : isAnnotationLine l.core = isAnnotationLine l := by
  obtain ⟨e, he, -, hnil⟩ := Text.exists_content_eq_core_append l
  rw [isAnnotationLine, isAnnotationLine, Text.content_core]
  cases hcore : l.core with
  | nil => rw [hnil hcore]
  | cons c v => rw [he, hcore]; rfl

end FabEdit
