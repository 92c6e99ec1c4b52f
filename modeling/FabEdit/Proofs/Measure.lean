import FabEdit.Indentation
import FabEdit.Proofs.LineCore

/-!
# Writing a column and measuring it

`reindent` writes a column in front of a content, `column` measures it. Under a positive tab width
the measure of what was written is the column that was asked for (`column_reindent`), whether tabs
were used or not. Writing leaves the content alone (`content_reindent`), so only the last of several
columns written counts (`reindent_reindent`).

The same holds for arguments that nobody has checked, as far as the white space can be written at
all (`Writable`): `reindent?` gives a line exactly then, and `measure?` measures it back. White
space that cannot be written is too much for a word or for the room that the machine has, and the
fault says which (`RunFault.Explains`).
-/

namespace FabEdit

/-! ## Measuring -/

/-- Under a positive tab width no blank leads to the left. -/
theorem le_advance {tab : Int} (htab : 0 < tab) (col : Int) (c : Char) :
    col ≤ advance tab col c := by
  have hmod : col.fmod tab < tab := Int.fmod_lt_of_pos col htab
  simp only [advance]
  split
  · omega
  · split <;> omega

theorem le_foldl_advance {tab : Int} (htab : 0 < tab) (col : Int) (t : Text) :
    col ≤ t.foldl (advance tab) col := by
  induction t generalizing col with
  | nil => exact Int.le_refl col
  | cons c t ih => exact Int.le_trans (le_advance htab col c) (ih (advance tab col c))

theorem column_nonneg {tab : Int} (htab : 0 < tab) (l : Text) : 0 ≤ column tab l := by
  rw [column_eq_foldl]
  exact le_foldl_advance htab 0 l.lead

/-! ## Padding -/

theorem eq_tab_or_space_of_mem_padding {tabs : Bool} {tab col : Int} {c : Char}
    (h : c ∈ padding tabs tab col) : c = '\t' ∨ c = ' ' := by
  cases tabs with
  | false => exact .inr (List.eq_of_mem_replicate h)
  | true => exact (List.mem_append.1 h).imp List.eq_of_mem_replicate List.eq_of_mem_replicate

theorem isBlank_of_mem_padding {tabs : Bool} {tab col : Int} {c : Char}
    (h : c ∈ padding tabs tab col) : isBlank c = true := by
  rcases eq_tab_or_space_of_mem_padding h with rfl | rfl <;> decide

/-- Padding holds no line ends. -/
theorem dropEnd_padding (tabs : Bool) (tab col : Int) :
    (padding tabs tab col).dropEnd Buffer.isLineEnd = padding tabs tab col := by
  refine List.rdropWhile_eq_self_iff.2 fun hne => ?_
  rcases eq_tab_or_space_of_mem_padding (List.getLast_mem hne) with h | h <;> rw [h] <;> decide

private theorem foldl_advance_spaces (tab col : Int) (n : Nat) :
    (List.replicate n ' ').foldl (advance tab) col = col + n := by
  induction n generalizing col with
  | zero => simp
  | succ n ih =>
    have hstep : advance tab col ' ' = col + 1 := by simp [advance]
    rw [List.replicate_succ, List.foldl_cons, hstep, ih]
    omega

private theorem foldl_advance_tabs (tab : Int) (k : Int) (n : Nat) :
    (List.replicate n '\t').foldl (advance tab) (tab * k) = tab * (k + n) := by
  induction n generalizing k with
  | zero => simp
  | succ n ih =>
    have hstep : advance tab (tab * k) '\t' = tab * (k + 1) := by
      simp only [advance, if_pos, Int.mul_fmod_right]
      rw [Int.mul_add]
      omega
    rw [List.replicate_succ, List.foldl_cons, hstep, ih]
    congr 1
    omega

/-- Padding reaches the column it is made for. -/
theorem foldl_advance_padding {tab : Int} (htab : 0 < tab) {col : Int} (hcol : 0 ≤ col)
    (tabs : Bool) : (padding tabs tab col).foldl (advance tab) 0 = col := by
  cases tabs with
  | false =>
    rw [padding, if_neg (by simp), foldl_advance_spaces]
    omega
  | true =>
    have hdiv : 0 ≤ col.fdiv tab := Int.fdiv_nonneg hcol (by omega)
    have hmod : 0 ≤ col.fmod tab := Int.fmod_nonneg_of_pos col htab
    have hsum : tab * col.fdiv tab + col.fmod tab = col := Int.mul_fdiv_add_fmod col tab
    have htabs := foldl_advance_tabs tab 0 (col.fdiv tab).toNat
    rw [Int.mul_zero, Int.zero_add, Int.toNat_of_nonneg hdiv] at htabs
    rw [padding, if_pos rfl, List.foldl_append, htabs, foldl_advance_spaces,
      Int.toNat_of_nonneg hmod, hsum]

/-! ## Reindented lines -/

theorem reindent_eq (tabs : Bool) (tab col : Int) (l : Text) :
    reindent tabs tab col l = padding tabs tab (max col 0) ++ l.content := by
  rw [reindent, Text.drop_start_measure]

@[simp] theorem content_reindent (tabs : Bool) (tab col : Int) (l : Text) :
    (reindent tabs tab col l).content = l.content := by
  rw [reindent_eq, Text.content_blank_append fun c hc => isBlank_of_mem_padding hc,
    Text.content_content]

@[simp] theorem core_reindent (tabs : Bool) (tab col : Int) (l : Text) :
    (reindent tabs tab col l).core = l.core :=
  Text.core_congr (content_reindent tabs tab col l)

/-- The measure of a reindented line is the column it was moved to. -/
theorem column_reindent {tab : Int} (htab : 0 < tab) (tabs : Bool) (col : Int) (l : Text) :
    column tab (reindent tabs tab col l) = max col 0 := by
  rw [column_eq_foldl, reindent_eq,
    Text.lead_blank_append_content fun c hc => isBlank_of_mem_padding hc,
    foldl_advance_padding htab (Int.le_max_right col 0)]

theorem reindent_congr {l l' : Text} (h : l.content = l'.content) (tabs : Bool) (tab col : Int) :
    reindent tabs tab col l = reindent tabs tab col l' := by
  rw [reindent_eq, reindent_eq, h]

/-- The last column written counts. -/
theorem reindent_reindent (tabs tabs' : Bool) (tab tab' col col' : Int) (l : Text) :
    reindent tabs tab col (reindent tabs' tab' col' l) = reindent tabs tab col l :=
  reindent_congr (content_reindent tabs' tab' col' l) tabs tab col

/-! ## White space that can be written -/

/-- White space that can be written on a machine with some room. No character occurs more often in
it than a word can count, nor than there is room for; in padding all tabs are one run, and so are
all spaces. -/
def Writable (room : Nat) (t : Text) : Prop :=
  ∀ c : Char, FitsWord (t.count c) ∧ t.count c ≤ room

/-- A fault of white space is for good reason: a word cannot count some character in it, or it can,
but there is no room for so many. -/
def RunFault.Explains (room : Nat) (t : Text) : RunFault → Prop
  | .uncountable => ∃ c : Char, ¬ FitsWord (t.count c)
  | .noRoom => ∃ c : Char, FitsWord (t.count c) ∧ room < t.count c

theorem runFault?_eq_none_iff {room : Nat} {n : Int} :
    runFault? room n = none ↔ FitsWord n ∧ n ≤ room := by
  rw [runFault?]
  by_cases hword : FitsWord n
  · rw [if_neg (not_not.2 hword)]
    by_cases hroom : (room : Int) < n
    · simp [hroom]
    · simp [hroom, hword, Int.not_lt.1 hroom]
  · simp [hword]

/-- The fault of a run is explained by any white space in which the run is all there is of a
character. -/
theorem explains_of_runFault? {room n : Nat} {e : RunFault} (h : runFault? room n = some e)
    {t : Text} {c : Char} (hn : t.count c = n) : e.Explains room t := by
  subst hn
  rw [runFault?] at h
  split at h
  next hword =>
    cases h
    exact ⟨c, hword⟩
  next hword =>
    split at h
    next hroom =>
      cases h
      exact ⟨c, not_not.1 hword, Int.ofNat_lt.1 hroom⟩
    next => cases h

section Padding

variable {tab col : Int} (htab : 0 < tab) (hcol : 0 ≤ col)
include htab hcol

/-- Padding is a run of tabs and a run of spaces, which come to the column. -/
theorem exists_padding_eq (tabs : Bool) :
    ∃ m n : Nat, padding tabs tab col = List.replicate m '\t' ++ List.replicate n ' ' ∧
      (m : Int) ≤ col ∧ (n : Int) ≤ col ∧
      ∀ room, paddingFault? room tabs tab col = (runFault? room m).or (runFault? room n) := by
  cases tabs with
  | false =>
    have hnat : (col.toNat : Int) = col := Int.toNat_of_nonneg hcol
    refine ⟨0, col.toNat, rfl, by omega, by omega, fun room => ?_⟩
    have hempty : runFault? room (0 : Nat) = none :=
      runFault?_eq_none_iff.2 ⟨by decide, Int.natCast_nonneg room⟩
    rw [hempty, hnat]
    rfl
  | true =>
    have hdiv : 0 ≤ col.fdiv tab := Int.fdiv_nonneg hcol (by omega)
    have hmod : 0 ≤ col.fmod tab := Int.fmod_nonneg_of_pos col htab
    have hsum : tab * col.fdiv tab + col.fmod tab = col := Int.mul_fdiv_add_fmod col tab
    have hle : 1 * col.fdiv tab ≤ tab * col.fdiv tab := Int.mul_le_mul_of_nonneg_right htab hdiv
    refine ⟨(col.fdiv tab).toNat, (col.fmod tab).toNat, rfl, by omega, by omega, fun room => ?_⟩
    rw [Int.toNat_of_nonneg hdiv, Int.toNat_of_nonneg hmod]
    rfl

/-- Nothing stands against padding exactly if it can be written. -/
theorem paddingFault?_eq_none_iff (room : Nat) (tabs : Bool) :
    paddingFault? room tabs tab col = none ↔ Writable room (padding tabs tab col) := by
  obtain ⟨m, n, hpadding, -, -, hfault⟩ := exists_padding_eq htab hcol tabs
  rw [hfault, Option.or_eq_none_iff, runFault?_eq_none_iff, runFault?_eq_none_iff, hpadding,
    Int.ofNat_le, Int.ofNat_le]
  constructor
  · rintro ⟨htabs, hspaces⟩ c
    by_cases hc : c = '\t'
    · subst hc
      simpa [List.count_replicate] using htabs
    · by_cases hc' : c = ' '
      · subst hc'
        simpa [List.count_replicate] using hspaces
      · have hnone : (List.replicate m '\t' ++ List.replicate n ' ').count c = 0 := by
          simp [List.count_replicate, Ne.symm hc, Ne.symm hc']
        rw [hnone]
        exact ⟨by decide, Nat.zero_le room⟩
  · intro h
    have htabs := h '\t'
    have hspaces := h ' '
    simp only [List.count_append, List.count_replicate] at htabs hspaces
    exact ⟨by simpa using htabs, by simpa using hspaces⟩

theorem explains_of_paddingFault? {room : Nat} {tabs : Bool} {e : RunFault}
    (h : paddingFault? room tabs tab col = some e) : e.Explains room (padding tabs tab col) := by
  obtain ⟨m, n, hpadding, -, -, hfault⟩ := exists_padding_eq htab hcol tabs
  rw [hfault, Option.or_eq_some_iff] at h
  rcases h with htabs | ⟨-, hspaces⟩
  · exact explains_of_runFault? htabs (c := '\t') (by simp [hpadding, List.count_replicate])
  · exact explains_of_runFault? hspaces (c := ' ') (by simp [hpadding, List.count_replicate])

/-- A column that a word can count, and that is within the room there is, can be written. -/
theorem writable_padding_of_le {room : Nat} (hword : FitsWord col) (hroom : col ≤ room)
    (tabs : Bool) : Writable room (padding tabs tab col) := by
  obtain ⟨m, n, -, hm, hn, hfault⟩ := exists_padding_eq htab hcol tabs
  obtain ⟨-, hmax⟩ := hword
  rw [← paddingFault?_eq_none_iff htab hcol, hfault, Option.or_eq_none_iff, runFault?_eq_none_iff,
    runFault?_eq_none_iff]
  exact ⟨⟨⟨by omega, by omega⟩, by omega⟩, ⟨by omega, by omega⟩, by omega⟩

end Padding

section Checked

variable {tab : Int} (htab : 0 < tab) (room : Nat) (tabs : Bool) (col : Int)
include htab

/-- With tab stops, nothing but the length of the white space stands against moving a line. -/
theorem reindent?_eq (l : Text) :
    reindent? room tabs tab col l =
      match paddingFault? room tabs tab (max col 0) with
      | some e => .error (.padding e)
      | none => .ok (reindent tabs tab col l) := by
  unfold reindent?
  exact if_neg fun h => Int.ne_of_gt htab h.1

theorem reindent?_of_writable (h : Writable room (padding tabs tab (max col 0))) (l : Text) :
    reindent? room tabs tab col l = .ok (reindent tabs tab col l) := by
  rw [reindent?_eq htab, (paddingFault?_eq_none_iff htab (Int.le_max_right col 0) room tabs).2 h]

theorem reindent?_of_not_writable (h : ¬ Writable room (padding tabs tab (max col 0))) (l : Text) :
    ∃ e : RunFault, reindent? room tabs tab col l = .error (.padding e) ∧
      e.Explains room (padding tabs tab (max col 0)) := by
  rw [← paddingFault?_eq_none_iff htab (Int.le_max_right col 0)] at h
  obtain ⟨e, he⟩ := Option.ne_none_iff_exists'.1 h
  exact ⟨e, by rw [reindent?_eq htab, he],
    explains_of_paddingFault? htab (Int.le_max_right col 0) he⟩

/-- Lines with one content are moved alike, or the same stands against it. -/
theorem reindent?_congr {l l' : Text} (h : l.content = l'.content) :
    reindent? room tabs tab col l = reindent? room tabs tab col l' := by
  rw [reindent?_eq htab, reindent?_eq htab, reindent_congr h]

end Checked

/-- Writing an indentation and measuring it are inverse. Whatever the room, a line is moved to a
column exactly if the white space in front of it can be written, and otherwise there is a fault that
says why not. White space can be written at least up to the room, as far as a word can count it. The
moved line measures at that column, or at column 0 if the column lies left of it. What follows is
the content of the line, wherever the tab stops were when it was found, and to move the line once
more gives the same as if it had not been moved before. -/
theorem written_indentation_measures_back (room : Nat) (tabs : Bool) (tab col : Int) (l : Text)
    (htab : 1 ≤ tab) :
    (Writable room (padding tabs tab (max col 0)) →
      ∃ (r : Text) (start : Nat),
        reindent? room tabs tab col l = .ok r ∧
        measure? tab r = some ⟨max col 0, start⟩ ∧
        (∀ stops : Int, 1 ≤ stops →
          ∃ m, measure? stops l = some m ∧ r.drop start = l.drop m.start) ∧
        ∀ (tabs' : Bool) (tab' col' : Int), 1 ≤ tab' →
          reindent? room tabs' tab' col' r = reindent? room tabs' tab' col' l) ∧
    (¬ Writable room (padding tabs tab (max col 0)) →
      ∃ e : RunFault, reindent? room tabs tab col l = .error (.padding e) ∧
        e.Explains room (padding tabs tab (max col 0))) ∧
    (FitsWord (max col 0) → max col 0 ≤ room → Writable room (padding tabs tab (max col 0))) := by
  refine ⟨fun hwritable => ?_, fun hlong => reindent?_of_not_writable htab room tabs col hlong l,
    fun hword hroom => writable_padding_of_le htab (Int.le_max_right col 0) hword hroom tabs⟩
  have hcontent : (reindent tabs tab col l).content = l.content := content_reindent tabs tab col l
  refine ⟨reindent tabs tab col l, (measure tab (reindent tabs tab col l)).start,
    reindent?_of_writable htab room tabs col hwritable l, ?_, fun stops hstops => ?_,
    fun tabs' tab' col' htab' => reindent?_congr htab' room tabs' col' hcontent⟩
  · rw [measure?_of_pos htab, ← column_reindent htab tabs col l]
    rfl
  · refine ⟨_, measure?_of_pos hstops l, ?_⟩
    rw [Text.drop_start_measure, Text.drop_start_measure, hcontent]

/-- Blanks of many widths in front of a word: a tab, a space, a form feed, a no-break space and a
carriage return. -/
private def mixed : Text := "\t \x0c\u00a0\rx".toList

/-- Moved to column 11 with tabs of four columns, the word stands behind two tabs and three spaces,
for which a room of three is enough; from there it goes to column 0 as it would have gone
directly. -/
theorem written_indentation_mixed :
    Writable 3 (padding true 4 (max 11 0)) ∧
    ∃ (r : Text) (start : Nat),
      reindent? 3 true 4 11 mixed = .ok r ∧ r = "\t\t   x".toList ∧
      measure? 4 r = some ⟨11, start⟩ ∧
      (∃ m, measure? 8 mixed = some m ∧ r.drop start = mixed.drop m.start) ∧
      reindent? 3 false 8 (-7) r = reindent? 3 false 8 (-7) mixed := by
  obtain ⟨hwritten, -, -⟩ := written_indentation_measures_back 3 true 4 11 mixed (by decide)
  have hwritable : Writable 3 (padding true 4 (max 11 0)) :=
    (paddingFault?_eq_none_iff (by decide) (by decide) 3 true).1 (by decide)
  obtain ⟨r, start, hr, hmeasure, hcontent, hagain⟩ := hwritten hwritable
  have hline : reindent? 3 true 4 11 mixed = .ok "\t\t   x".toList := by rfl
  refine ⟨hwritable, r, start, hr, ?_, hmeasure, hcontent 8 (by decide),
    hagain false 8 (-7) (by decide)⟩
  exact Except.ok.inj (hr.symm.trans hline)

/-- Columns have no bound, but a run of spaces has one, whatever the room: a word cannot count
these. -/
theorem reindent?_beyond_word :
    ¬ ∃ (room : Nat) (r : Text), reindent? room false 8 9223372036854775808 "x".toList = .ok r := by
  rintro ⟨room, r, hr⟩
  have hfault : reindent? room false 8 9223372036854775808 "x".toList =
      .error (.padding .uncountable) := by rfl
  rw [hfault] at hr
  cases hr

end FabEdit
