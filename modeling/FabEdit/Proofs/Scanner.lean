import FabEdit.Comment.Scan
import FabEdit.Proofs.CommentSpans

/-!
# What the comment scanner finds

The pass over a text yields spans; the questions asked of it are about single positions. This module
turns the one into the other.

Shape of the argument:

* `Mode.Placed` says that a mode remembers earlier positions only, and `Mode.since` is the earliest
  position that a comment found from now on can start at. Every step keeps the first and never
  lowers the second, so the spans come out in order (`spansFrom_spec`).
* `Mode.inComment` decides from the mode, a character and the one after it whether the character
  lies inside a comment. `exists_span_holds_iff` shows that the spans say the same, and
  `Comments.covers_ofText` that the search over them does.
* `Mode.shape` forgets positions. A pass that starts later in the text goes through the same shapes
  (`shape_modeAfter`).
* So the comments of a text are non-empty stretches of it, one behind the other
  (`Comments.bounds_of_mem_ofText`, `Comments.pairwise_ofText`), and the search misses none
  (`Comments.covers_ofText_iff`).
-/

namespace FabEdit

namespace Scan

/-! ## Order of the spans -/

/-- What a mode remembers lies before position `p`. -/
def Mode.Placed (p : Nat) : Mode → Prop
  | .slash s | .line s | .block s _ | .blockSlash s _ | .blockStar s _ => s < p
  | .code | .quoted _ | .escaped _ => True

/-- The earliest start of a comment that a pass finds from position `p` on. -/
def Mode.since (p : Nat) : Mode → Nat
  | .slash s | .line s | .block s _ | .blockSlash s _ | .blockStar s _ => s
  | .code | .quoted _ | .escaped _ => p

theorem Mode.Placed.since_le {m : Mode} {p : Nat} (h : m.Placed p) : m.since p ≤ p := by
  cases m <;> simp only [Placed] at h <;> simp only [since] <;> omega

theorem enter_cases (p : Nat) (c : Char) :
    (c = '/' ∧ enter p c = .slash p) ∨
      (c ≠ '/' ∧ c ∈ Vocabulary.quotes ∧ enter p c = .quoted c) ∨
      (c ≠ '/' ∧ c ∉ Vocabulary.quotes ∧ enter p c = .code) := by
  by_cases hslash : c = '/'
  · exact .inl ⟨hslash, by simp [enter, hslash]⟩
  · by_cases hquote : c ∈ Vocabulary.quotes
    · exact .inr (.inl ⟨hslash, hquote, by simp [enter, hslash, hquote]⟩)
    · exact .inr (.inr ⟨hslash, hquote, by simp [enter, hslash, hquote]⟩)

theorem dig_cases (s d : Nat) (c : Char) :
    (c = '/' ∧ dig s d c = .blockSlash s d) ∨ (c = '*' ∧ dig s d c = .blockStar s d) ∨
      (c ≠ '/' ∧ c ≠ '*' ∧ dig s d c = .block s d) := by
  by_cases hslash : c = '/'
  · exact .inl ⟨hslash, by simp [dig, hslash]⟩
  · by_cases hstar : c = '*'
    · exact .inr (.inl ⟨hstar, by simp [dig, hstar]⟩)
    · exact .inr (.inr ⟨hslash, hstar, by simp [dig, hslash, hstar]⟩)

@[simp] theorem openSince_dig (s d : Nat) (c : Char) : (dig s d c).openSince = some s := by
  rcases dig_cases s d c with ⟨-, h⟩ | ⟨-, h⟩ | ⟨-, -, h⟩ <;> simp [h, Mode.openSince]

/-- A comment that is open started before the present position. -/
theorem Mode.Placed.of_openSince {m : Mode} {s p : Nat} (h : m.openSince = some s) :
    m.Placed p ↔ s < p := by
  cases m <;> simp_all [openSince, Placed]

theorem Mode.since_of_openSince {m : Mode} {s : Nat} (h : m.openSince = some s) (p : Nat) :
    m.since p = s := by
  cases m <;> simp_all [openSince, since]

/-- Inside a comment, a character either completes it or leaves it open. -/
theorem openSince_step {m : Mode} {s : Nat} (h : m.openSince = some s) (p : Nat) (c : Char) :
    (∃ e : Nat, closed p c m = some ⟨s, e⟩ ∧ p ≤ e ∧ e ≤ p + 1 ∧ step p c m = .code) ∨
      (closed p c m = none ∧ (step p c m).openSince = some s) := by
  cases m with
  | code | slash | quoted | escaped => simp [Mode.openSince] at h
  | line s' =>
    obtain rfl : s' = s := by simpa [Mode.openSince] using h
    by_cases hc : c = '\n'
    · exact .inl ⟨p, by simp [closed, hc], by omega, by omega, by simp [step, hc]⟩
    · exact .inr ⟨by simp [closed, hc], by simp [step, hc, Mode.openSince]⟩
  | block s' d =>
    obtain rfl : s' = s := by simpa [Mode.openSince] using h
    exact .inr ⟨rfl, by simp [step]⟩
  | blockSlash s' d =>
    obtain rfl : s' = s := by simpa [Mode.openSince] using h
    refine .inr ⟨rfl, ?_⟩
    by_cases hc : c = '*'
    · simp [step, hc, Mode.openSince]
    · simp [step, hc]
  | blockStar s' d =>
    obtain rfl : s' = s := by simpa [Mode.openSince] using h
    by_cases hc : c = '/'
    · cases d with
      | zero => exact .inl ⟨p + 1, by simp [closed, hc], by omega, by omega, by simp [step, hc]⟩
      | succ d => exact .inr ⟨by simp [closed], by simp [step, hc, Mode.openSince]⟩
    · cases d with
      | zero => exact .inr ⟨by simp [closed, hc], by simp [step, hc]⟩
      | succ d => exact .inr ⟨by simp [closed], by simp [step, hc]⟩

/-- Outside comments nothing is completed. -/
theorem closed_of_openSince_none {m : Mode} (h : m.openSince = none) (p : Nat) (c : Char) :
    closed p c m = none := by
  cases m <;> simp_all [Mode.openSince, closed]

/-- Modes that remember no position. -/
def Mode.Free : Mode → Prop
  | .code | .quoted _ | .escaped _ => True
  | .slash _ | .line _ | .block _ _ | .blockSlash _ _ | .blockStar _ _ => False

theorem Mode.Free.placed {m : Mode} (h : m.Free) (p : Nat) : m.Placed p := by
  cases m <;> simp_all [Free, Placed]

theorem Mode.Free.since_eq {m : Mode} (h : m.Free) (p : Nat) : m.since p = p := by
  cases m <;> simp_all [Free, since]

private theorem free_step_quoted (p : Nat) (c q : Char) : (step p c (.quoted q)).Free := by
  simp only [step]
  split
  · trivial
  · split <;> trivial

private theorem free_step_escaped (p : Nat) (c q : Char) : (step p c (.escaped q)).Free := by
  simp only [step]
  split <;> trivial

/-- Outside comments, a character leads to a mode that remembers nothing, is the first half of a
mark, or is the second half of a mark that opens a comment. -/
theorem step_outside {m : Mode} (h : m.openSince = none) (p : Nat) (c : Char) :
    (step p c m).Free ∨ (c = '/' ∧ step p c m = .slash p) ∨
      ∃ s, m = .slash s ∧ (c = '/' ∨ c = '*') ∧ (step p c m).openSince = some s := by
  have henter : (enter p c).Free ∨ (c = '/' ∧ enter p c = .slash p) := by
    rcases enter_cases p c with ⟨hc, he⟩ | ⟨-, -, he⟩ | ⟨-, -, he⟩
    · exact .inr ⟨hc, he⟩
    · exact .inl (by simp [he, Mode.Free])
    · exact .inl (by simp [he, Mode.Free])
  cases m with
  | code => exact henter.imp_right .inl
  | slash s =>
    by_cases hslash : c = '/'
    · exact .inr (.inr ⟨s, rfl, .inl hslash, by simp [step, hslash, Mode.openSince]⟩)
    · by_cases hstar : c = '*'
      · exact .inr (.inr ⟨s, rfl, .inr hstar, by simp [step, hstar, Mode.openSince]⟩)
      · have hstep : step p c (.slash s) = enter p c := by simp [step, hslash, hstar]
        rw [hstep]
        exact henter.imp_right .inl
  | quoted q => exact .inl (free_step_quoted p c q)
  | escaped q => exact .inl (free_step_escaped p c q)
  | line | block | blockSlash | blockStar => simp [Mode.openSince] at h

/-- A step keeps what is remembered behind it, and what is found later does not start earlier. -/
theorem Mode.Placed.step {m : Mode} {p : Nat} (h : m.Placed p) (c : Char) :
    (step p c m).Placed (p + 1) ∧ m.since p ≤ (Scan.step p c m).since (p + 1) := by
  have hle := h.since_le
  cases hopen : m.openSince with
  | some s =>
    have hs : s < p := (of_openSince hopen).1 h
    rw [since_of_openSince hopen]
    rcases openSince_step hopen p c with ⟨e, -, -, -, hcode⟩ | ⟨-, hopen'⟩
    · rw [hcode]
      exact ⟨trivial, Nat.le_succ_of_le (Nat.le_of_lt hs)⟩
    · rw [of_openSince hopen', since_of_openSince hopen']
      omega
  | none =>
    rcases step_outside hopen p c with hfree | ⟨-, hslash⟩ | ⟨s, rfl, -, hopen'⟩
    · rw [hfree.since_eq]
      exact ⟨hfree.placed _, by omega⟩
    · rw [hslash]
      exact ⟨Nat.lt_succ_self p, hle⟩
    · rw [of_openSince hopen', since_of_openSince hopen']
      simp only [Placed, since] at h ⊢
      omega

/-- A completed comment lies between the start that was remembered and whatever is found later. -/
theorem closed_spec {m : Mode} {p : Nat} {c : Char} {s : Span} (h : m.Placed p)
    (hs : closed p c m = some s) :
    s.start = m.since p ∧ s.start < s.stop ∧ s.stop ≤ p + 1 ∧
      s.stop ≤ (step p c m).since (p + 1) := by
  cases hopen : m.openSince with
  | none => simp [closed_of_openSince_none hopen] at hs
  | some start =>
    have hstart : start < p := (Mode.Placed.of_openSince hopen).1 h
    rcases openSince_step hopen p c with ⟨e, hclosed, hlow, hhigh, hcode⟩ | ⟨hnone, -⟩
    · obtain rfl : Span.mk start e = s := by simpa [hclosed] using hs
      rw [Mode.since_of_openSince hopen, hcode]
      refine ⟨rfl, ?_, ?_, ?_⟩ <;> simp only [Mode.since] <;> omega
    · simp [hnone] at hs

/-- The spans of a pass are in order, not empty, and inside what the pass has seen. -/
theorem spansFrom_spec {m : Mode} {p : Nat} (h : m.Placed p) (t : Text) :
    Comments.Ordered (spansFrom m p t) ∧
      ∀ s ∈ spansFrom m p t, m.since p ≤ s.start ∧ s.start < s.stop ∧ s.stop ≤ p + t.length := by
  induction t generalizing m p with
  | nil =>
    rw [spansFrom]
    cases hopen : m.openSince with
    | none => simp [Comments.Ordered]
    | some start =>
      have hstart : start < p := (Mode.Placed.of_openSince hopen).1 h
      rw [Mode.since_of_openSince hopen]
      simp [Comments.Ordered]
      omega
  | cons c t ih =>
    obtain ⟨hplaced, hsince⟩ := h.step c
    obtain ⟨hordered, hbounds⟩ := ih hplaced
    have hlater : ∀ s ∈ spansFrom (step p c m) (p + 1) t,
        m.since p ≤ s.start ∧ s.start < s.stop ∧ s.stop ≤ p + (c :: t).length := by
      intro s hs
      obtain ⟨hlow, hproper, hhigh⟩ := hbounds s hs
      simp only [List.length_cons]
      omega
    rw [spansFrom]
    cases hclosed : closed p c m with
    | none => exact ⟨by simpa using hordered, by simpa using hlater⟩
    | some s =>
      obtain ⟨hstart, hproper, hend, hnext⟩ := closed_spec h hclosed
      constructor
      · refine List.pairwise_cons.2 ⟨fun s' hs' => ?_, hordered⟩
        have hlow := (hbounds s' hs').1
        omega
      · intro s' hs'
        rcases List.mem_cons.1 hs' with rfl | hs'
        · simp only [List.length_cons]
          omega
        · exact hlater s' hs'

/-! ## Single positions -/

/-- Whether two characters in a row open a comment. -/
def opensComment (c : Char) (next : Option Char) : Bool :=
  c == '/' && (next == some '/' || next == some '*')

/-- Whether a character that is read in a mode lies inside a comment, given the one after it. -/
def Mode.inComment (c : Char) (next : Option Char) : Mode → Bool
  | .code => opensComment c next
  | .slash _ => c == '/' || c == '*'
  | .line _ => c != '\n'
  | .block _ _ | .blockSlash _ _ | .blockStar _ _ => true
  | .quoted _ | .escaped _ => false

/-- Of the text after a character only the first one counts, and a newline there counts as
nothing. -/
theorem Mode.inComment_append {w : Text} (hw : ∀ d ∈ w.head?, d = '\n') (m : Mode) (c : Char)
    (v : Text) : m.inComment c (v ++ w).head? = m.inComment c v.head? := by
  cases v with
  | cons d v => rfl
  | nil =>
    cases w with
    | nil => rfl
    | cons d w =>
      obtain rfl := hw d rfl
      cases m <;> rfl

/-- A comment that is open ends up as a span that reaches to the present position. -/
theorem exists_span_of_openSince {m : Mode} {s : Nat} (h : m.openSince = some s) (p : Nat)
    (t : Text) : ∃ sp ∈ spansFrom m p t, sp.start = s ∧ (p : Int) ≤ sp.stop := by
  induction t generalizing m p with
  | nil => exact ⟨⟨s, p⟩, by simp [spansFrom, h], rfl, Int.le_refl _⟩
  | cons c t ih =>
    rcases openSince_step h p c with ⟨e, hclosed, hlow, -, -⟩ | ⟨hnone, hopen⟩
    · exact ⟨⟨s, e⟩, by simp [spansFrom, hclosed], rfl, Int.ofNat_le.2 hlow⟩
    · obtain ⟨sp, hmem, hstart, hstop⟩ := ih hopen (p + 1)
      exact ⟨sp, by simpa [spansFrom, hnone] using hmem, hstart, by omega⟩

/-- If a comment is open after a character, the character lies inside it. -/
private theorem exists_holds_of_step {m : Mode} {p s : Nat} {c : Char}
    (h : (step p c m).openSince = some s) (hs : s ≤ p) (t : Text) :
    ∃ sp ∈ spansFrom m p (c :: t), sp.holds p = true := by
  obtain ⟨sp, hmem, hstart, hstop⟩ := exists_span_of_openSince h (p + 1) t
  refine ⟨sp, by simp [spansFrom, hmem], Span.holds_iff.2 ?_⟩
  omega

/-- No span holds a position before the earliest start. -/
private theorem not_exists_holds {m : Mode} {p q : Nat} (h : m.Placed p) (hq : q < m.since p)
    (t : Text) : ¬ ∃ sp ∈ spansFrom m p t, sp.holds q = true := by
  rintro ⟨sp, hmem, hholds⟩
  have hlow := ((spansFrom_spec h t).2 sp hmem).1
  have hstart := (Span.holds_iff.1 hholds).1
  omega

/-- If a character completes nothing and everything found later starts after it, it is in no
comment. -/
private theorem not_exists_holds_head {m : Mode} {p : Nat} {c : Char} (h : m.Placed p)
    (hclosed : closed p c m = none) (hfree : (step p c m).Free) (t : Text) :
    ¬ ∃ sp ∈ spansFrom m p (c :: t), sp.holds p = true := by
  have hnone := not_exists_holds (h.step c).1 (q := p) (by rw [hfree.since_eq]; omega) t
  simpa [spansFrom, hclosed] using hnone

/-- A slash turns out to be the start of a comment by the character after it. -/
private theorem exists_holds_slash_iff (p : Nat) (t : Text) :
    (∃ sp ∈ spansFrom (.slash p) (p + 1) t, sp.holds p = true) ↔
      opensComment '/' t.head? = true := by
  cases t with
  | nil => simp [spansFrom, Mode.openSince, opensComment]
  | cons d t =>
    have hnone : closed (p + 1) d (.slash p) = none := rfl
    have hplaced : (Mode.slash p).Placed (p + 1) := Nat.lt_succ_self p
    rcases step_outside (m := .slash p) rfl (p + 1) d with
      hfree | ⟨rfl, hslash⟩ | ⟨s, hs, hd, hopen⟩
    · have hd : opensComment '/' (some d) = false := by
        by_cases h : d = '/' ∨ d = '*'
        · rcases h with rfl | rfl <;> simp [step, Mode.Free] at hfree
        · simpa [opensComment] using h
      have hlater := not_exists_holds (hplaced.step d).1 (q := p) (by rw [hfree.since_eq]; omega) t
      simpa [spansFrom, hnone, hd] using hlater
    · simp [step] at hslash
    · obtain rfl : p = s := by simpa using hs
      refine iff_of_true ?_ (by simpa [opensComment] using hd)
      obtain ⟨sp, hmem, hstart, hstop⟩ := exists_span_of_openSince hopen (p + 1 + 1) t
      exact ⟨sp, by simpa [spansFrom, hnone] using hmem, Span.holds_iff.2 (by omega)⟩

/-- The character at which a pass stands lies in one of its spans exactly if the mode says so. -/
theorem exists_span_holds_head_iff {m : Mode} {p : Nat} (h : m.Placed p) (c : Char) (t : Text) :
    (∃ sp ∈ spansFrom m p (c :: t), sp.holds p = true) ↔ m.inComment c t.head? = true := by
  cases m with
  | code =>
    by_cases hc : c = '/'
    · subst hc
      simpa [spansFrom, closed, step, enter, Mode.inComment] using exists_holds_slash_iff p t
    · have hfree : (step p c .code).Free := by
        simp only [step, enter, if_neg hc]
        split <;> trivial
      exact iff_of_false (not_exists_holds_head h rfl hfree t)
        (by simp [Mode.inComment, opensComment, hc])
  | slash s =>
    rcases step_outside (m := .slash s) rfl p c with hfree | ⟨rfl, hslash⟩ | ⟨s', hs, hc, hopen⟩
    · refine iff_of_false (not_exists_holds_head h rfl hfree t) ?_
      intro hin
      rcases (by simpa [Mode.inComment] using hin : c = '/' ∨ c = '*') with rfl | rfl <;>
        simp [step, Mode.Free] at hfree
    · simp [step] at hslash
    · obtain rfl : s = s' := by simpa using hs
      exact iff_of_true (exists_holds_of_step hopen (Nat.le_of_lt h) t)
        (by simpa [Mode.inComment] using hc)
  | line s =>
    by_cases hc : c = '\n'
    · subst hc
      have hlater := not_exists_holds (m := .code) (q := p) (p := p + 1) trivial
        (by simp [Mode.since]) t
      simpa [spansFrom, closed, step, Span.holds, Mode.inComment] using hlater
    · have hopen : (step p c (.line s)).openSince = some s := by simp [step, hc, Mode.openSince]
      exact iff_of_true (exists_holds_of_step hopen (Nat.le_of_lt h) t)
        (by simp [Mode.inComment, hc])
  | block s d =>
    have hopen : (step p c (.block s d)).openSince = some s := openSince_dig s d c
    exact iff_of_true (exists_holds_of_step hopen (Nat.le_of_lt h) t) rfl
  | blockSlash s d =>
    rcases openSince_step (m := .blockSlash s d) rfl p c with ⟨e, hclosed, -⟩ | ⟨-, hopen⟩
    · simp [closed] at hclosed
    · exact iff_of_true (exists_holds_of_step hopen (Nat.le_of_lt h) t) rfl
  | blockStar s d =>
    rcases openSince_step (m := .blockStar s d) rfl p c with ⟨e, hclosed, -⟩ | ⟨-, hopen⟩
    · have he : Span.mk s (p + 1) = ⟨s, e⟩ := by
        cases d <;> simp_all [closed]
      refine iff_of_true ⟨⟨s, e⟩, by simp [spansFrom, hclosed], Span.holds_iff.2 ?_⟩ rfl
      have hstop := congrArg Span.stop he
      simp only [Mode.Placed] at h hstop ⊢
      omega
    · exact iff_of_true (exists_holds_of_step hopen (Nat.le_of_lt h) t) rfl
  | quoted q =>
    exact iff_of_false (not_exists_holds_head h rfl (free_step_quoted p c q) t)
      (by simp [Mode.inComment])
  | escaped q =>
    exact iff_of_false (not_exists_holds_head h rfl (free_step_escaped p c q) t)
      (by simp [Mode.inComment])

/-- Any character after the start of a pass lies in one of its spans exactly if the mode that the
pass has reached by then says so. -/
theorem exists_span_holds_iff {m : Mode} {p : Nat} (h : m.Placed p) (u : Text) (c : Char)
    (v : Text) :
    (∃ sp ∈ spansFrom m p (u ++ c :: v), sp.holds (p + u.length : Nat) = true) ↔
      (modeAfter m p u).inComment c v.head? = true := by
  induction u generalizing m p with
  | nil => exact exists_span_holds_head_iff h c v
  | cons x u ih =>
    have hlen : p + (x :: u).length = p + 1 + u.length := by
      simp only [List.length_cons]
      omega
    rw [hlen, modeAfter, ← ih (h.step x).1, List.cons_append, spansFrom]
    -- A comment completed by `x` ends too early to reach the position.
    constructor
    · rintro ⟨sp, hmem, hholds⟩
      rcases List.mem_append.1 hmem with hclosed | hlater
      · have hend := (closed_spec h (by simpa using hclosed)).2.2.1
        have hstop := (Span.holds_iff.1 hholds).2
        omega
      · exact ⟨sp, hlater, hholds⟩
    · rintro ⟨sp, hmem, hholds⟩
      exact ⟨sp, List.mem_append_right _ hmem, hholds⟩

/-! ## Shapes -/

/-- A mode without the positions it remembers. -/
def Mode.shape : Mode → Mode
  | .code => .code
  | .slash _ => .slash 0
  | .line _ => .line 0
  | .block _ d => .block 0 d
  | .blockSlash _ d => .blockSlash 0 d
  | .blockStar _ d => .blockStar 0 d
  | .quoted q => .quoted q
  | .escaped q => .escaped q

private theorem shape_enter (p q : Nat) (c : Char) : (enter p c).shape = (enter q c).shape := by
  rcases enter_cases p c with ⟨rfl, -⟩ | ⟨hc, hq, -⟩ | ⟨hc, hq, -⟩
  · rfl
  · simp [enter, hc, hq]
  · simp [enter, hc, hq]

private theorem shape_dig (s s' d : Nat) (c : Char) : (dig s d c).shape = (dig s' d c).shape := by
  rcases dig_cases s d c with ⟨rfl, -⟩ | ⟨rfl, -⟩ | ⟨hslash, hstar, -⟩
  · rfl
  · rfl
  · simp [dig, hslash, hstar, Mode.shape]

/-- The shape of the next mode depends on the shape of the present one only. -/
theorem shape_step (p : Nat) (c : Char) (m : Mode) :
    (step p c m).shape = (step 0 c m.shape).shape := by
  cases m with
  | code => exact shape_enter p 0 c
  | slash s =>
    show (step p c (.slash s)).shape = (step 0 c (.slash 0)).shape
    by_cases hslash : c = '/'
    · simp [step, hslash, Mode.shape]
    · by_cases hstar : c = '*'
      · simp [step, hstar, Mode.shape]
      · simpa [step, hslash, hstar] using shape_enter p 0 c
  | line s =>
    by_cases hc : c = '\n' <;> simp [step, Mode.shape, hc]
  | block s d => exact shape_dig s 0 d c
  | blockSlash s d =>
    show (step p c (.blockSlash s d)).shape = (step 0 c (.blockSlash 0 d)).shape
    by_cases hstar : c = '*'
    · simp [step, hstar, Mode.shape]
    · simpa [step, hstar] using shape_dig s 0 d c
  | blockStar s d =>
    show (step p c (.blockStar s d)).shape = (step 0 c (.blockStar 0 d)).shape
    by_cases hslash : c = '/'
    · cases d <;> simp [step, hslash, Mode.shape]
    · cases d <;> simpa [step, hslash] using shape_dig s 0 _ c
  | quoted q => rfl
  | escaped q => rfl

/-- Passes that start with one shape end with one shape, wherever they start. -/
theorem shape_modeAfter {m n : Mode} (h : m.shape = n.shape) (p q : Nat) (t : Text) :
    (modeAfter m p t).shape = (modeAfter n q t).shape := by
  induction t generalizing m n p q with
  | nil => exact h
  | cons c t ih =>
    rw [modeAfter, modeAfter]
    apply ih
    rw [shape_step p, shape_step q, h]

end Scan

/-- The comments of a text are in order. -/
theorem Comments.ordered_ofText (t : Text) : Comments.Ordered (Comments.ofText t).spans.toList :=
  (Scan.spansFrom_spec (m := .code) (p := 0) trivial t).1

/-- A comment of a text is a stretch of it, and not an empty one. -/
theorem Comments.bounds_of_mem_ofText {t : Text} {s : Span}
    (h : s ∈ (Comments.ofText t).spans.toList) :
    0 ≤ s.start ∧ s.start < s.stop ∧ s.stop ≤ t.length := by
  have hbounds := (Scan.spansFrom_spec (m := .code) (p := 0) trivial t).2 s h
  simpa [Scan.Mode.since] using hbounds

/-- A comment of a text starts after the ones before it have started, and not before they have
ended. -/
theorem Comments.pairwise_ofText (t : Text) :
    (Comments.ofText t).spans.toList.Pairwise fun a b => a.start < b.start ∧ a.stop ≤ b.start := by
  refine (ordered_ofText t).imp_of_mem fun {a b} ha _ hab => ?_
  have hproper := (bounds_of_mem_ofText ha).2.1
  omega

/-- A position of any sign is covered by the comments of a text exactly if it lies in one. -/
theorem Comments.covers_ofText_iff (t : Text) (p : Int) :
    (Comments.ofText t).covers p = true ↔
      ∃ s ∈ (Comments.ofText t).spans.toList, s.start ≤ p ∧ p < s.stop := by
  rw [covers_iff_nonneg_and_exists (ordered_ofText t)]
  refine and_iff_right_of_imp ?_
  rintro ⟨s, hs, hstart, -⟩
  have hlow := (bounds_of_mem_ofText hs).1
  omega

/-- A position is covered exactly if the pass, having read what is before it, says so. -/
theorem Comments.covers_ofText (u : Text) (c : Char) (v : Text) :
    (Comments.ofText (u ++ c :: v)).covers u.length =
      (Scan.modeAfter .code 0 u).inComment c v.head? := by
  rw [Bool.eq_iff_iff, covers_iff (ordered_ofText _) (by omega),
    ← Scan.exists_span_holds_iff (m := .code) (p := 0) trivial u c v]
  simp [ofText]

/-- The comments of a text are non-empty stretches of it, each behind the ones before it. The search
over spans in order finds, from position 0 on, exactly the positions that some span holds; over the
comments of a text these are all positions that some span holds. -/
theorem Comments.ofText_apart_and_search_exact (t : Text) (c : Comments)
    (h : Ordered c.spans.toList) (p : Int) :
    (∀ s ∈ (ofText t).spans.toList, 0 ≤ s.start ∧ s.start < s.stop ∧ s.stop ≤ t.length) ∧
    (ofText t).spans.toList.Pairwise (fun a b => a.start < b.start ∧ a.stop ≤ b.start) ∧
    (c.covers p = true ↔ 0 ≤ p ∧ ∃ s ∈ c.spans.toList, s.start ≤ p ∧ p < s.stop) ∧
    ((ofText t).covers p = true ↔ ∃ s ∈ (ofText t).spans.toList, s.start ≤ p ∧ p < s.stop) :=
  ⟨fun _ hs => bounds_of_mem_ofText hs, pairwise_ofText t, covers_iff_nonneg_and_exists h p,
    covers_ofText_iff t p⟩

/-- A span that reaches out of the text, an empty one, and two that touch each other. -/
private def astray : Comments := ⟨#[⟨-5, 3⟩, ⟨4, 4⟩, ⟨6, 8⟩, ⟨8, 11⟩]⟩

/-- Position 8 of `astray`, where one span ends and the next one starts. -/
theorem Comments.covers_astray :
    Ordered astray.spans.toList ∧ astray.covers 8 = true ∧
    (astray.covers 8 = true ↔
      0 ≤ (8 : Int) ∧ ∃ s ∈ astray.spans.toList, s.start ≤ 8 ∧ 8 < s.stop) := by
  have hordered : Ordered astray.spans.toList := by
    unfold Ordered
    decide
  have hsearch := (ofText_apart_and_search_exact [] astray hordered 8).2.2.1
  exact ⟨hordered, hsearch.2 ⟨by decide, ⟨8, 11⟩, by decide, by decide, by decide⟩, hsearch⟩

/-- A span that starts before the text. -/
private def early : Comments := ⟨#[⟨-5, 3⟩]⟩

/-- What a span holds before the text is not covered. -/
theorem Comments.not_covers_early :
    Ordered early.spans.toList ∧ (∃ s ∈ early.spans.toList, s.start ≤ -2 ∧ -2 < s.stop) ∧
      early.covers (-2) = false := by
  refine ⟨?_, ⟨⟨-5, 3⟩, by decide, by decide, by decide⟩, covers_of_neg early (by decide)⟩
  unfold Ordered
  decide

end FabEdit
