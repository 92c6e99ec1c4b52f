import FabEdit.Token.Rule

/-!
# What patterns take

In code, only a slash or a quote can make a difference to whether what follows is a comment. All
other characters are inert. Most patterns take nothing else, and every pattern that the lexer uses
outside comments takes nothing else after its first character, the marks of comments apart.

`InertFor` says so about a length, `Pattern.Inert` and `Pattern.InertTail` about a pattern. The
lengths that patterns give are sums, so what a pattern takes is described piece by piece
(`InertFor.add`).
-/

namespace FabEdit

theorem take_runLength (p : Char → Bool) (t : Text) : t.take (runLength p t) = t.takeWhile p :=
  (List.prefix_iff_eq_take.1 (List.takeWhile_prefix p)).symm

theorem drop_runLength (p : Char → Bool) (t : Text) : t.drop (runLength p t) = t.dropWhile p := by
  induction t with
  | nil => rfl
  | cons c t ih =>
    rw [runLength] at ih ⊢
    by_cases hc : p c = true <;> simp [hc, ih]

theorem runLength_cons {p : Char → Bool} {c : Char} (h : p c = true) (t : Text) :
    runLength p (c :: t) = runLength p t + 1 := by
  simp [runLength, h]

/-- A character that, in code, starts neither a string nor a comment, and ends none. -/
def isInert (c : Char) : Bool := decide (c ∉ '/' :: Vocabulary.quotes)

/-- The slash and the quotes are not in a character class, so that all its members are inert. -/
def InertClass (p : Char → Bool) : Prop := ('/' :: Vocabulary.quotes).all (!p ·) = true

instance (p : Char → Bool) : Decidable (InertClass p) :=
  inferInstanceAs (Decidable (_ = true))

theorem InertClass.eq_false {p : Char → Bool} (hp : InertClass p) {c : Char}
    (h : c ∈ '/' :: Vocabulary.quotes) : p c = false := by
  simpa using List.all_eq_true.1 hp c h

theorem InertClass.isInert {p : Char → Bool} (hp : InertClass p) {c : Char} (h : p c = true) :
    isInert c = true := by
  rw [FabEdit.isInert, decide_eq_true_eq]
  intro hmem
  rw [hp.eq_false hmem] at h
  exact Bool.false_ne_true h

theorem inertClass_isWordChar : InertClass isWordChar := by decide

/-- The first `n` characters of a text are inert. -/
def InertFor (t : Text) (n : Nat) : Prop := ∀ d ∈ t.take n, isInert d = true

namespace InertFor

theorem zero (t : Text) : InertFor t 0 := by simp [InertFor]

theorem add {t : Text} {m n : Nat} (hm : InertFor t m) (hn : InertFor (t.drop m) n) :
    InertFor t (m + n) := by
  intro d hd
  rw [List.take_add, List.mem_append] at hd
  exact hd.elim (hm d) (hn d)

theorem cons {c : Char} {t : Text} {n : Nat} (hc : isInert c = true) (ht : InertFor t n) :
    InertFor (c :: t) (n + 1) := by
  intro d hd
  rcases List.mem_cons.1 hd with rfl | hmem
  · exact hc
  · exact ht d hmem

theorem tail {c : Char} {t : Text} {n : Nat} (h : InertFor (c :: t) n) : InertFor t (n - 1) := by
  cases n with
  | zero => exact zero t
  | succ n => exact fun d hd => h d (List.mem_cons_of_mem c hd)

theorem of_isPrefixOf {w t : Text} (h : w.isPrefixOf t = true) (hw : w.all isInert = true) :
    InertFor t w.length := by
  obtain ⟨rest, rfl⟩ := List.isPrefixOf_iff_prefix.1 h
  rw [InertFor, List.take_left]
  exact List.all_eq_true.1 hw

theorem runLength {p : Char → Bool} (hp : InertClass p) (t : Text) :
    InertFor t (runLength p t) := by
  intro d hd
  rw [take_runLength] at hd
  exact hp.isInert (List.all_eq_true.1 List.all_takeWhile d hd)

end InertFor

namespace Pattern

/-- A pattern takes inert characters only. -/
def Inert (pat : Pattern) : Prop := ∀ before t n, pat before t = some n → InertFor t n

/-- A pattern takes inert characters only after the first character it takes. -/
def InertTail (pat : Pattern) : Prop :=
  ∀ before c t n, pat before (c :: t) = some n → InertFor t (n - 1)

theorem Inert.inertTail {pat : Pattern} (h : pat.Inert) : pat.InertTail :=
  fun before c t n hn => (h before (c :: t) n hn).tail

/-! ## Characters and fixed texts -/

theorem eq_of_positive? {m n : Nat} (h : positive? m = some n) : m = n := by
  rw [positive?] at h
  split at h
  · cases h
  · exact Option.some.inj h

theorem run_eq_some {p : Char → Bool} {c : Char} {t : Text} (h : p c = true)
    (before : Option Char) : run p before (c :: t) = some (runLength p (c :: t)) := by
  rw [run, runLength_cons h]
  rfl

theorem run_eq_none {p : Char → Bool} {c : Char} {t : Text} (h : ¬ p c = true)
    (before : Option Char) : run p before (c :: t) = none := by
  simp [run, runLength, h, positive?]

theorem inert_run {p : Char → Bool} (hp : InertClass p) : (run p).Inert := by
  intro before t n hn
  rw [← eq_of_positive? hn]
  exact .runLength hp t

theorem inertTail_one (p : Char → Bool) : (one p).InertTail := by
  intro before c t n hn
  simp only [one] at hn
  split at hn
  · cases hn
    exact .zero t
  · cases hn

theorem inert_oneOf {ws : List Text} (hws : ws.all (·.all isInert) = true) :
    (oneOf ws).Inert := by
  intro before t n hn
  obtain ⟨w, hw, rfl⟩ := Option.map_eq_some_iff.1 hn
  have hfits : w.isPrefixOf t = true := by simpa using List.find?_some hw
  exact .of_isPrefixOf hfits (List.all_eq_true.1 hws w (List.mem_of_find?_eq_some hw))

/-! ## Words -/

theorem inert_wordOf {ws : WordSet} (hws : ws.words.all (·.all isInert) = true) :
    (wordOf ws).Inert := by
  intro before t n hn
  rw [wordOf] at hn
  split at hn
  · obtain ⟨w, hw, rfl⟩ := Option.map_eq_some_iff.1 hn
    have hwhole : standsWhole t w = true := List.find?_some hw
    rw [standsWhole, Bool.and_eq_true] at hwhole
    exact .of_isPrefixOf hwhole.1 (List.all_eq_true.1 hws w (List.mem_of_find?_eq_some hw))
  · cases hn

theorem inertFor_fixedPointLength (t : Text) : InertFor t (fixedPointLength t) := by
  unfold fixedPointLength
  split
  · simp only
    split
    · exact .zero _
    · exact .cons (by decide) (.runLength (by decide) _)
  · exact .zero _

theorem inert_typeName {ws : WordSet} (hws : ws.words.all (·.all isInert) = true) :
    (typeName ws).Inert := by
  intro before t n hn
  obtain ⟨m, hm, rfl⟩ := Option.map_eq_some_iff.1 hn
  exact (inert_wordOf hws before t m hm).add (inertFor_fixedPointLength _)

theorem inert_identifier : identifier.Inert := by
  intro before t n hn
  cases t with
  | nil => cases hn
  | cons c t =>
    simp only [identifier] at hn
    split at hn
    next hc =>
      cases hn
      rw [Nat.add_comm]
      exact .cons (inertClass_isWordChar.isInert (isWordChar_of_isIdentStart hc))
        (.runLength inertClass_isWordChar t)
    next => cases hn

theorem inertTail_marked (mark : Char) : (marked mark).InertTail := by
  intro before c t n hn
  simp only [marked] at hn
  split at hn
  · obtain ⟨m, hm, rfl⟩ := Option.map_eq_some_iff.1 hn
    rw [Nat.add_sub_cancel_left]
    exact inert_identifier _ t m hm
  · cases hn

theorem inertFor_isSpaceOrTab (t : Text) : InertFor t (runLength isSpaceOrTab t) :=
  .runLength (by decide) t

theorem inert_label : label.Inert := by
  intro before t n hn
  rw [label] at hn
  split at hn
  · simp only at hn
    split at hn
    next t' ht' =>
      obtain ⟨m, hm, rfl⟩ := Option.map_eq_some_iff.1 hn
      -- The indentation, the colon, the gap and the name, one after the other.
      have hname : InertFor t' (runLength isSpaceOrTab t' + m) :=
        (inertFor_isSpaceOrTab t').add (inert_identifier _ _ m hm)
      have hcolon : InertFor (':' :: t') (runLength isSpaceOrTab t' + m + 1) :=
        .cons (by decide) hname
      rw [← ht'] at hcolon
      have hlength : runLength isSpaceOrTab t + 1 + runLength isSpaceOrTab t' + m =
          runLength isSpaceOrTab t + (runLength isSpaceOrTab t' + m + 1) := by omega
      rw [hlength]
      exact (inertFor_isSpaceOrTab t).add hcolon
    next => cases hn
  · cases hn

/-! ## Numbers -/

section Numbers

variable {p : Char → Bool} (hp : InertClass p)

include hp

theorem inertFor_fractionLength (t : Text) : InertFor t (fractionLength p t) := by
  unfold fractionLength
  split
  · split
    · exact .zero _
    · exact .cons (by decide) (.runLength hp _)
  · exact .zero _

theorem inert_digits : (digits p).Inert := by
  intro before t n hn
  obtain ⟨m, hm, rfl⟩ := Option.map_eq_some_iff.1 hn
  rw [← eq_of_positive? hm]
  exact (InertFor.runLength hp t).add (inertFor_fractionLength hp _)

theorem inertTail_markedDigits (mark : Char) : (markedDigits mark p).InertTail := by
  intro before c t n hn
  simp only [markedDigits] at hn
  split at hn
  · obtain ⟨m, hm, rfl⟩ := Option.map_eq_some_iff.1 hn
    rw [Nat.add_sub_cancel_left]
    exact inert_digits hp _ t m hm
  · cases hn

theorem inertTail_zeroDigits {lower upper : Char} (hlower : isInert lower = true)
    (hupper : isInert upper = true) : (zeroDigits lower upper p).InertTail := by
  intro before c t n hn
  unfold zeroDigits at hn
  split at hn
  next d t' heq =>
    split at hn
    next hd =>
      obtain ⟨m, hm, rfl⟩ := Option.map_eq_some_iff.1 hn
      obtain ⟨-, rfl⟩ := List.cons.inj heq
      have hinert : isInert d = true := by rcases hd with rfl | rfl <;> assumption
      have hlength : 2 + m - 1 = m + 1 := by omega
      rw [hlength]
      exact .cons hinert (inert_digits hp _ t' m hm)
    next => cases hn
  next => cases hn

end Numbers

theorem inert_decimalFraction : decimalFraction.Inert := by
  intro before t n hn
  have hp : InertClass Char.isDigit := by decide
  rw [decimalFraction] at hn
  split at hn
  next => cases hn
  next m hm =>
    obtain ⟨k, hk, rfl⟩ := Option.map_eq_some_iff.1 hn
    cases eq_of_positive? hm
    rw [← eq_of_positive? hk]
    exact (InertFor.runLength hp t).add (inertFor_fractionLength hp _)

end Pattern

end FabEdit
