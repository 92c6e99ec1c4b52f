import FabEdit.Proofs.LineKinds

/-!
# Scans for white space agree

A line is scanned for white space in several ways: its measure walks over the lead and tells spaces,
tabs and other white space apart, its kind asks whether the content is nothing but blanks, its first
word is the run that the content starts with, a rule cuts its words off one by one, and a region
that is formatted trims it at both ends. Here these scans are shown to see the same blanks, so that
no part of the engine takes a line for blank that another part takes for source.

Shape of the argument:

* Whatever the walk takes a character for, it ends at the first one that is not blank
  (`start_measure_eq_findIdx`).
* Trimming leaves the first character of the content in front (`Text.head?_trim`), and nothing
  exactly if the content is empty.
* The first piece that is cut off a line is its first word (`Text.pieces_succ`), and the pieces cut
  off are the words of the line (`Text.take_pieces`).
-/

namespace FabEdit

/-- The walk ends at the first character that is not blank, or at the end of the line. -/
theorem start_measure_eq_findIdx (tab : Int) (l : Text) :
    (measure tab l).start = l.findIdx fun c => !isBlank c := by
  rw [start_measure, List.takeWhile_eq_take_findIdx_not, List.length_take]
  exact Nat.min_eq_left List.findIdx_le_length

/-- A line is blank to the engine exactly if it has no content, whatever the oracle says. -/
theorem Buffer.kindAt_eq_blank_iff {b : Buffer} {o : Oracle} {k : Nat} :
    b.kindAt o k = .ok .blank ↔ (b.lineAt k).content = [] := by
  rw [Buffer.kindAt_eq]
  refine ⟨fun h => ?_, fun h => if_pos h⟩
  by_contra hne
  rw [if_neg hne] at h
  split at h
  · cases h
  · cases ho : o (b.contentAt k) with
    | error e =>
      rw [ho] at h
      cases h
    | ok inside =>
      rw [ho] at h
      cases inside <;> cases h

/-- The scans for white space agree on every line of a buffer. The measure finds the first character
that is not blank, or the end of the line, wherever the tab stops are. The line is blank exactly if
trimming leaves nothing of it, and exactly if its first word is empty; otherwise its first word is
the first piece when it is cut twice at its blanks, and the two words cut off are the first two of
its words. It is an annotation exactly if the trimmed line starts with a colon. -/
theorem scans_agree_on_blanks (b : Buffer) (o : Oracle) (i : Int) (hi : b.InRange i)
    (tab tab' : Int) (htab : 1 ≤ tab) (htab' : 1 ≤ tab') :
    ∃ l m m' w,
      b.get i = .ok l ∧ measure? tab l = some m ∧ measure? tab' l = some m' ∧
      b.firstWord i = .ok w ∧
      m.start = m'.start ∧ (m.start = l.findIdx fun c => !isBlank c) ∧
      (b.kind o i = .ok .blank ↔ l.trim isBlank = []) ∧
      (l.trim isBlank = [] ↔ w = []) ∧
      (b.kind o i ≠ .ok .blank → (l.pieces 2).head? = some w) ∧
      (l.pieces 2).take 2 = l.words.take 2 ∧
      b.isAnnotationLine i = .ok ((l.trim isBlank).head? == some ':') := by
  obtain ⟨k, rfl, hk⟩ := hi.exists_natCast
  have hblank : b.kind o k = .ok .blank ↔ (b.lineAt k).content = [] := by
    rw [Buffer.kind_natCast hk, Buffer.kindAt_eq_blank_iff]
  refine ⟨b.lineAt k, _, _, (b.lineAt k).firstWord, Buffer.get_natCast hk, measure?_of_pos htab _,
    measure?_of_pos htab' _, Buffer.firstWord_natCast hk, ?_, start_measure_eq_findIdx tab _,
    ?_, ?_, fun hsource => ?_, Text.take_pieces 2 _, ?_⟩
  · rw [start_measure, start_measure]
  · rw [hblank, Text.trim_eq_nil_iff]
  · rw [Text.trim_eq_nil_iff, Text.firstWord_eq_nil_iff]
  · rw [Text.pieces_succ, if_neg (mt hblank.2 hsource), List.head?_cons]
  · rw [Buffer.isAnnotationLine_natCast hk, isAnnotationLine, Text.head?_trim]
    rfl

/-- A line behind blanks of several kinds, and one of nothing but blanks. -/
private def speckled : Buffer :=
  ⟨["\x1f\t\u2003:a\u00a0b  c\r".toList, "\u3000\x0b".toList]⟩

/-- The first line is an annotation of three words, the last of which keeps its carriage return when
the line is cut twice. The second line is blank, though no oracle can judge it. -/
theorem scans_speckled :
    speckled.InRange 0 ∧ speckled.InRange 1 ∧
    (∃ l m m' w, speckled.get 0 = .ok l ∧ measure? 8 l = some m ∧ measure? 3 l = some m' ∧
      m.start = m'.start ∧ m.start = 3 ∧ speckled.firstWord 0 = .ok w ∧
      l.pieces 2 = [":a".toList, ['b'], "c\r".toList] ∧ (l.pieces 2).head? = some w ∧
      speckled.isAnnotationLine 0 = .ok true) ∧
    speckled.kind (.failing ⟨7, 2⟩) 1 = .ok .blank ∧ speckled.firstWord 1 = .ok [] := by
  have h0 : speckled.InRange 0 := by decide
  have h1 : speckled.InRange 1 := by decide
  refine ⟨h0, h1, ?_, ?_⟩
  · obtain ⟨l, m, m', w, hl, hm, hm', hw, hsame, hstart, -, -, hfirst, -, hnote⟩ :=
      scans_agree_on_blanks speckled .everywhere 0 h0 8 3 (by decide) (by decide)
    obtain rfl : "\x1f\t\u2003:a\u00a0b  c\r".toList = l := Except.ok.inj hl
    exact ⟨_, m, m', w, hl, hm, hm', hsame, hstart.trans (by decide), hw, by decide,
      hfirst (by decide), hnote.trans (by decide)⟩
  · obtain ⟨l, m, m', w, hl, -, -, hw, -, -, hkind, hempty, -⟩ :=
      scans_agree_on_blanks speckled (.failing ⟨7, 2⟩) 1 h1 8 8 (by decide) (by decide)
    obtain rfl : "\u3000\x0b".toList = l := Except.ok.inj hl
    have htrim : Text.trim isBlank "\u3000\x0b".toList = [] := by decide
    exact ⟨hkind.2 htrim, hempty.1 htrim ▸ hw⟩

end FabEdit
