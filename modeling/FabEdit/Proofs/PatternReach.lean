import FabEdit.Proofs.InertPatterns
import Mathlib.Data.List.Find

/-!
# How far patterns reach

Two facts about what a pattern takes, for each pattern of the lexer.

* A pattern that fits takes at least one character, and no more than there are (`Pattern.Bounded`).
* Outside block comments a pattern does not look past the end of a line: in front of a newline it
  does what it does at the end of the text (`Pattern.LineBound`).

The second is about functions of a text in general, since patterns are built from measures of a
text: `EndsAtNewline` says that such a function takes a newline for the end. The pattern that takes
the newline itself is the reason why `LineBound` asks for a character before it.
-/

namespace FabEdit

/-! ## Measures of a text -/

theorem runLength_le (p : Char → Bool) (t : Text) : runLength p t ≤ t.length :=
  (List.takeWhile_prefix p).length_le

/-- A function of a text that takes a newline for the end of the text. -/
def EndsAtNewline {α : Type} (f : Text → α) : Prop := ∀ u v, f (u ++ '\n' :: v) = f u

namespace EndsAtNewline

/-- What takes a newline for the end may start anywhere in front of the newline. -/
theorem drop {α : Type} {f : Text → α} (hf : EndsAtNewline f) {u : Text} {n : Nat}
    (hn : n ≤ u.length) (v : Text) : f ((u ++ '\n' :: v).drop n) = f (u.drop n) := by
  rw [List.drop_append_of_le_length hn, hf]

theorem runLength {p : Char → Bool} (hp : p '\n' = false) : EndsAtNewline (runLength p) := by
  intro u v
  induction u with
  | nil => simp [FabEdit.runLength, hp]
  | cons c u ih =>
    simp only [FabEdit.runLength] at ih ⊢
    by_cases hc : p c = true <;> simp [hc, ih]

theorem isPrefixOf {w : Text} (hw : w.contains '\n' = false) : EndsAtNewline w.isPrefixOf := by
  intro u v
  induction w generalizing u with
  | nil => cases u <;> rfl
  | cons c w ih =>
    simp only [List.contains_cons, Bool.or_eq_false_iff, beq_eq_false_iff_ne] at hw
    cases u with
    | nil => simp [List.isPrefixOf, Ne.symm hw.1]
    | cons d u => simp only [List.cons_append, List.isPrefixOf, ih hw.2]

/-- A newline is no word character, and neither is the end. -/
theorem boundary (before : Option Char) :
    EndsAtNewline fun t => Pattern.boundary before t.head? := by
  intro u v
  cases u with
  | nil => rfl
  | cons c u => rfl

end EndsAtNewline

namespace Pattern

/-- A pattern that fits takes something, and nothing that is not there. -/
def Bounded (pat : Pattern) : Prop :=
  ∀ before t n, pat before t = some n → 0 < n ∧ n ≤ t.length

/-- In front of a newline a pattern does what it does at the end of a text. -/
def LineBound (pat : Pattern) : Prop :=
  ∀ before u v, u ≠ [] → pat before (u ++ '\n' :: v) = pat before u

theorem lineBound_of_endsAtNewline {pat : Pattern} (h : ∀ before, EndsAtNewline (pat before)) :
    pat.LineBound :=
  fun before u v _ => h before u v

/-! ## Characters and fixed texts -/

theorem pos_of_positive? {m n : Nat} (h : positive? m = some n) : 0 < n := by
  cases m with
  | zero => cases h
  | succ m =>
    rw [← eq_of_positive? h]
    exact Nat.succ_pos m

theorem eq_false_of_run_eq_none {p : Char → Bool} {c : Char} {t : Text} (before : Option Char)
    (h : run p before (c :: t) = none) : p c = false := by
  by_contra hc
  rw [run_eq_some (Bool.not_eq_false (p c) ▸ hc) before] at h
  cases h

theorem bounded_run (p : Char → Bool) : (run p).Bounded := by
  intro before t n hn
  refine ⟨pos_of_positive? hn, ?_⟩
  rw [← eq_of_positive? hn]
  exact runLength_le p t

theorem lineBound_run {p : Char → Bool} (hp : p '\n' = false) : (run p).LineBound :=
  lineBound_of_endsAtNewline fun _ u v => by rw [run, run, EndsAtNewline.runLength hp]

theorem bounded_one (p : Char → Bool) : (one p).Bounded := by
  intro before t n hn
  cases t with
  | nil => cases hn
  | cons c t =>
    simp only [one] at hn
    split at hn
    · cases hn
      exact ⟨Nat.one_pos, Nat.succ_le_succ (Nat.zero_le _)⟩
    · cases hn

theorem lineBound_one (p : Char → Bool) : (one p).LineBound := by
  intro before u v hu
  obtain ⟨c, u, rfl⟩ := List.exists_cons_of_ne_nil hu
  rfl

theorem bounded_oneOf {ws : List Text} (hws : ws.all (!·.isEmpty) = true) : (oneOf ws).Bounded := by
  intro before t n hn
  obtain ⟨w, hw, rfl⟩ := Option.map_eq_some_iff.1 hn
  have hfits : w.isPrefixOf t = true := by simpa using List.find?_some hw
  have hne : w ≠ [] := by simpa using List.all_eq_true.1 hws w (List.mem_of_find?_eq_some hw)
  exact ⟨List.length_pos_iff.2 hne, (List.isPrefixOf_iff_prefix.1 hfits).length_le⟩

theorem lineBound_oneOf {ws : List Text} (hws : ws.all (!·.contains '\n') = true) :
    (oneOf ws).LineBound := by
  refine lineBound_of_endsAtNewline fun before u v => ?_
  have hfind : (ws.find? fun w => w.isPrefixOf (u ++ '\n' :: v)) =
      ws.find? fun w => w.isPrefixOf u := by
    refine List.find?_congr fun w hw => ?_
    have hnewline : w.contains '\n' = false := by simpa using List.all_eq_true.1 hws w hw
    exact EndsAtNewline.isPrefixOf hnewline u v
  rw [oneOf, oneOf, hfind]

theorem bounded_restOfLine {mark : Text} (hmark : mark ≠ []) : (restOfLine mark).Bounded := by
  intro before t n hn
  rw [restOfLine] at hn
  split at hn
  next hfits =>
    cases hn
    have hlength := (List.isPrefixOf_iff_prefix.1 hfits).length_le
    have hrun := runLength_le (· != '\n') (t.drop mark.length)
    have hpos := List.length_pos_iff.2 hmark
    rw [List.length_drop] at hrun
    omega
  next => cases hn

theorem lineBound_restOfLine {mark : Text} (hmark : mark.contains '\n' = false) :
    (restOfLine mark).LineBound := by
  refine lineBound_of_endsAtNewline fun before u v => ?_
  rw [restOfLine, restOfLine, EndsAtNewline.isPrefixOf hmark u v]
  split
  next hfits =>
    have hlength := (List.isPrefixOf_iff_prefix.1 hfits).length_le
    rw [(EndsAtNewline.runLength (by rfl)).drop hlength]
  next => rfl

theorem bounded_escaped : escaped.Bounded := by
  intro before t n hn
  unfold escaped at hn
  split at hn
  · split at hn
    · cases hn
    · cases hn
      exact ⟨Nat.two_pos, by simp⟩
  · cases hn

theorem lineBound_escaped : escaped.LineBound := by
  intro before u v hu
  rcases u with _ | ⟨c, _ | ⟨d, u⟩⟩
  · exact absurd rfl hu
  · by_cases hc : c = '\\'
    · subst hc
      rfl
    · simp [escaped, hc]
  · by_cases hc : c = '\\'
    · subst hc
      rfl
    · simp [escaped, hc]

/-! ## Words -/

theorem bounded_wordOf {ws : WordSet} (hws : ws.words.all (!·.isEmpty) = true) :
    (wordOf ws).Bounded := by
  intro before t n hn
  rw [wordOf] at hn
  split at hn
  · obtain ⟨w, hw, rfl⟩ := Option.map_eq_some_iff.1 hn
    have hwhole : standsWhole t w = true := List.find?_some hw
    have hne : w ≠ [] := by simpa using List.all_eq_true.1 hws w (List.mem_of_find?_eq_some hw)
    rw [standsWhole, Bool.and_eq_true] at hwhole
    exact ⟨List.length_pos_iff.2 hne, (List.isPrefixOf_iff_prefix.1 hwhole.1).length_le⟩
  · cases hn

theorem endsAtNewline_standsWhole {w : Text} (hw : w.contains '\n' = false) :
    EndsAtNewline fun t => standsWhole t w := by
  intro u v
  simp only [standsWhole]
  rw [EndsAtNewline.isPrefixOf hw u v]
  cases hfits : w.isPrefixOf u with
  | false => rfl
  | true =>
    have hlength := (List.isPrefixOf_iff_prefix.1 hfits).length_le
    exact (EndsAtNewline.boundary w.getLast?).drop hlength v

theorem endsAtNewline_wordOf {ws : WordSet} (hws : ws.words.all (!·.contains '\n') = true)
    (before : Option Char) : EndsAtNewline (wordOf ws before) := by
  intro u v
  have hfind : ws.words.find? (standsWhole (u ++ '\n' :: v)) = ws.words.find? (standsWhole u) := by
    refine List.find?_congr fun w hw => ?_
    have hnewline : w.contains '\n' = false := by simpa using List.all_eq_true.1 hws w hw
    exact endsAtNewline_standsWhole hnewline u v
  have hstarts : boundary before (u ++ '\n' :: v).head? = boundary before u.head? :=
    EndsAtNewline.boundary before u v
  rw [wordOf, wordOf, hstarts, hfind]

theorem fixedPointLength_le (t : Text) : fixedPointLength t ≤ t.length := by
  unfold fixedPointLength
  split
  next t =>
    simp only
    split
    · exact Nat.zero_le _
    · exact Nat.succ_le_succ (runLength_le _ t)
  next => exact Nat.zero_le _

theorem endsAtNewline_fixedPointLength : EndsAtNewline fixedPointLength := by
  intro u v
  rcases u with _ | ⟨c, u⟩
  · rfl
  · by_cases hc : c = '.'
    · subst hc
      have hrun := EndsAtNewline.runLength (p := (· == 'F')) rfl u v
      have hnext : ((u ++ '\n' :: v).drop (runLength (· == 'F') u)).head?.any isWordChar =
          (u.drop (runLength (· == 'F') u)).head?.any isWordChar := by
        rw [List.drop_append_of_le_length (runLength_le _ u)]
        cases u.drop (runLength (· == 'F') u) <;> rfl
      simp only [List.cons_append, fixedPointLength, hrun, hnext]
    · simp [fixedPointLength, hc]

theorem bounded_typeName {ws : WordSet} (hws : ws.words.all (!·.isEmpty) = true) :
    (typeName ws).Bounded := by
  intro before t n hn
  obtain ⟨m, hm, rfl⟩ := Option.map_eq_some_iff.1 hn
  obtain ⟨hpos, hle⟩ := bounded_wordOf hws before t m hm
  have hsuffix := fixedPointLength_le (t.drop m)
  rw [List.length_drop] at hsuffix
  omega

theorem lineBound_typeName {ws : WordSet} (hne : ws.words.all (!·.isEmpty) = true)
    (hws : ws.words.all (!·.contains '\n') = true) : (typeName ws).LineBound := by
  refine lineBound_of_endsAtNewline fun before u v => ?_
  rw [typeName, typeName, endsAtNewline_wordOf hws before u v]
  cases hm : wordOf ws before u with
  | none => rfl
  | some m =>
    have hle := (bounded_wordOf hne before u m hm).2
    exact congrArg (fun k => some (m + k)) (endsAtNewline_fixedPointLength.drop hle v)

theorem bounded_identifier : identifier.Bounded := by
  intro before t n hn
  cases t with
  | nil => cases hn
  | cons c t =>
    simp only [identifier] at hn
    split at hn
    · cases hn
      have hrun := runLength_le isWordChar t
      rw [List.length_cons]
      omega
    · cases hn

theorem endsAtNewline_identifier (before : Option Char) : EndsAtNewline (identifier before) := by
  intro u v
  cases u with
  | nil => rfl
  | cons c u =>
    have hrun := EndsAtNewline.runLength (p := isWordChar) rfl u v
    simp only [List.cons_append, identifier, hrun]

theorem bounded_marked (mark : Char) : (marked mark).Bounded := by
  intro before t n hn
  cases t with
  | nil => cases hn
  | cons c t =>
    simp only [marked] at hn
    split at hn
    · obtain ⟨m, hm, rfl⟩ := Option.map_eq_some_iff.1 hn
      have hle := (bounded_identifier _ t m hm).2
      rw [List.length_cons]
      omega
    · cases hn

theorem lineBound_marked (mark : Char) : (marked mark).LineBound := by
  intro before u v hu
  obtain ⟨c, u, rfl⟩ := List.exists_cons_of_ne_nil hu
  simp only [List.cons_append, marked, endsAtNewline_identifier (some c) u v]

theorem bounded_label : label.Bounded := by
  intro before t n hn
  rw [label] at hn
  split at hn
  · simp only at hn
    split at hn
    next t' ht' =>
      obtain ⟨m, hm, rfl⟩ := Option.map_eq_some_iff.1 hn
      have hname := (bounded_identifier _ _ m hm).2
      have hgap := runLength_le isSpaceOrTab t'
      have hcolon := congrArg List.length ht'
      simp only [List.length_drop, List.length_cons] at hname hcolon
      omega
    next => cases hn
  · cases hn

theorem lineBound_label : label.LineBound := by
  refine lineBound_of_endsAtNewline fun before u v => ?_
  have hrun : ∀ w, runLength isSpaceOrTab (w ++ '\n' :: v) = runLength isSpaceOrTab w :=
    fun w => EndsAtNewline.runLength rfl w v
  simp only [label, hrun, List.drop_append_of_le_length (runLength_le isSpaceOrTab u)]
  split
  · rcases u.drop (runLength isSpaceOrTab u) with _ | ⟨c, w⟩
    · rfl
    · by_cases hc : c = ':'
      · subst hc
        simp only [List.cons_append, hrun]
        rw [(endsAtNewline_identifier none).drop (runLength_le _ w)]
      · simp [hc]
  · rfl

/-! ## Numbers -/

theorem fractionLength_le (p : Char → Bool) (t : Text) : fractionLength p t ≤ t.length := by
  unfold fractionLength
  split
  next t =>
    split
    · exact Nat.zero_le _
    · exact Nat.succ_le_succ (runLength_le p t)
  next => exact Nat.zero_le _

theorem endsAtNewline_fractionLength {p : Char → Bool} (hp : p '\n' = false) :
    EndsAtNewline (fractionLength p) := by
  intro u v
  rcases u with _ | ⟨c, u⟩
  · rfl
  · by_cases hc : c = '.'
    · subst hc
      simp only [List.cons_append, fractionLength, EndsAtNewline.runLength hp u v]
    · simp [fractionLength, hc]

theorem bounded_digits (p : Char → Bool) : (digits p).Bounded := by
  intro before t n hn
  obtain ⟨m, hm, rfl⟩ := Option.map_eq_some_iff.1 hn
  have hpos := pos_of_positive? hm
  have hrun := runLength_le p t
  have hfraction := fractionLength_le p (t.drop m)
  rw [eq_of_positive? hm] at hrun
  rw [List.length_drop] at hfraction
  omega

theorem endsAtNewline_digits {p : Char → Bool} (hp : p '\n' = false) (before : Option Char) :
    EndsAtNewline (digits p before) := by
  intro u v
  rw [digits, digits, EndsAtNewline.runLength hp u v]
  cases hm : positive? (runLength p u) with
  | none => rfl
  | some m =>
    have hle := runLength_le p u
    rw [eq_of_positive? hm] at hle
    exact congrArg (fun k => some (m + k)) ((endsAtNewline_fractionLength hp).drop hle v)

theorem bounded_markedDigits (mark : Char) (p : Char → Bool) : (markedDigits mark p).Bounded := by
  intro before t n hn
  cases t with
  | nil => cases hn
  | cons c t =>
    simp only [markedDigits] at hn
    split at hn
    · obtain ⟨m, hm, rfl⟩ := Option.map_eq_some_iff.1 hn
      have hle := (bounded_digits p none t m hm).2
      rw [List.length_cons]
      omega
    · cases hn

theorem lineBound_markedDigits (mark : Char) {p : Char → Bool} (hp : p '\n' = false) :
    (markedDigits mark p).LineBound := by
  intro before u v hu
  obtain ⟨c, u, rfl⟩ := List.exists_cons_of_ne_nil hu
  simp only [List.cons_append, markedDigits, endsAtNewline_digits hp none u v]

theorem bounded_zeroDigits (lower upper : Char) (p : Char → Bool) :
    (zeroDigits lower upper p).Bounded := by
  intro before t n hn
  unfold zeroDigits at hn
  split at hn
  next d t =>
    split at hn
    · obtain ⟨m, hm, rfl⟩ := Option.map_eq_some_iff.1 hn
      have hle := (bounded_digits p none t m hm).2
      rw [List.length_cons, List.length_cons]
      omega
    · cases hn
  next => cases hn

theorem lineBound_zeroDigits {lower upper : Char} (hlower : lower ≠ '\n') (hupper : upper ≠ '\n')
    {p : Char → Bool} (hp : p '\n' = false) : (zeroDigits lower upper p).LineBound := by
  intro before u v hu
  rcases u with _ | ⟨c, _ | ⟨d, u⟩⟩
  · exact absurd rfl hu
  · by_cases hc : c = '0'
    · subst hc
      simp [zeroDigits, hlower.symm, hupper.symm]
    · simp [zeroDigits, hc]
  · by_cases hc : c = '0'
    · subst hc
      simp only [List.cons_append, zeroDigits, endsAtNewline_digits hp none u v]
    · simp [zeroDigits, hc]

theorem bounded_decimalFraction : decimalFraction.Bounded := by
  intro before t n hn
  rw [decimalFraction] at hn
  split at hn
  next => cases hn
  next m hm =>
    obtain ⟨k, hk, rfl⟩ := Option.map_eq_some_iff.1 hn
    have hpos := pos_of_positive? hm
    have hrun := runLength_le Char.isDigit t
    have hfraction := fractionLength_le Char.isDigit (t.drop m)
    rw [eq_of_positive? hm] at hrun
    rw [eq_of_positive? hk, List.length_drop] at hfraction
    omega

theorem lineBound_decimalFraction : decimalFraction.LineBound := by
  refine lineBound_of_endsAtNewline fun before u v => ?_
  rw [decimalFraction, decimalFraction, EndsAtNewline.runLength rfl u v]
  cases hm : positive? (runLength Char.isDigit u) with
  | none => rfl
  | some m =>
    have hle := runLength_le Char.isDigit u
    rw [eq_of_positive? hm] at hle
    have hfraction := (endsAtNewline_fractionLength (p := Char.isDigit) rfl).drop hle v
    simp only [hfraction]

end Pattern

end FabEdit
