import FabEdit.Trail
import FabEdit.Proofs.JoinedTexts

/-!
# Comment lines

A line counts as a comment by the start of its content: by a mark that stands there, or by the
answer of the oracle for that position. This module says what such a line has to do with the
comments of the buffer, if these are what the oracle knows.

Shape of the argument:

* No line starts inside of a string or of a line comment, so a mark at the start of a content always
  opens a comment, unless one is open already. The oracle knows of both, and asking it for every
  line with content gives the same kinds (`Buffer.kind_eq_kindAsked`).
* `Comments.Fill` says that a stretch of text holds comments and blanks only. The comment at the
  start of a content may end within the line. What stands behind it can be scanned by itself, and
  the line is filled exactly if that is (`Buffer.fill_lineAt_iff`). Code that stands there is not
  seen by a look upwards through the buffer.
-/

namespace FabEdit

namespace Text

theorem content_ne_nil_iff {l : Text} : l.content ≠ [] ↔ ∃ c ∈ l, isBlank c = false := by
  simp [content_eq_nil_iff]

/-- What is not blank stands behind the lead. -/
theorem length_lead_le {l : Text} {j : Nat} {c : Char} (h : l[j]? = some c)
    (hc : isBlank c = false) : l.lead.length ≤ j := by
  rcases Nat.lt_or_ge j l.lead.length with hlt | hge
  · rw [← lead_append_content l, List.getElem?_append_left hlt] at h
    have hblank := isBlank_of_mem_lead (List.mem_of_getElem? h)
    rw [hblank] at hc
    cases hc
  · exact hge

end Text

namespace Buffer

/-! ## The start of a content -/

/-- The kind of the line at an index, found without a look at marks: the oracle is asked whenever
the line has any content. -/
def kindAsked (b : Buffer) (o : Oracle) (i : Int) : Except LineFault LineKind :=
  if i < 0 then .ok .blank
  else if i < b.count then
    if (b.lineAt i.toNat).content = [] then .ok .blank
    else (o (b.contentAt i.toNat)).map fun inside => if inside then .comment else .source
  else .error ⟨i, b.count⟩

/-- With the buffer's own comments the marks tell nothing new. -/
theorem kind_eq_kindAsked (b : Buffer) (i : Int) :
    b.kind (.ofBuffer b) i = b.kindAsked (.ofBuffer b) i := by
  unfold kind kindAsked
  split
  next => rfl
  next hneg =>
    split
    next hlt =>
      have hk : i.toNat < b.count := by omega
      by_cases hblank : (b.lineAt i.toNat).content = []
      · rw [kindAt_eq, if_pos hblank, if_pos hblank]
      · rw [kindAt_eq, if_neg hblank, if_neg hblank, Oracle.ofBuffer, Oracle.ofComments,
          covers_contentAt hk hblank]
        cases startsComment (b.lineAt i.toNat) <;> rfl
    next => rfl

theorem kindAsked_natCast {b : Buffer} {k : Nat} (h : k < b.count) :
    b.kindAsked (.ofBuffer b) k =
      if (b.lineAt k).content = [] then .ok .blank
      else .ok (if (Comments.ofBuffer b).covers (b.contentAt k) then .comment else .source) := by
  rw [kindAsked, if_neg (by omega), if_pos (by omega), Int.toNat_natCast]
  rfl

/-- The content of a line stands in the text where it is said to start. -/
theorem getElem?_text_contentAt {b : Buffer} {k : Nat} (h : k < b.count) {c : Char}
    (hc : (b.lineAt k).content.head? = some c) : b.text[b.contentAt k]? = some c := by
  obtain ⟨v, hcontent⟩ := List.head?_eq_some_iff.1 hc
  obtain ⟨rest, htext, -⟩ := exists_text_eq h
  have hcut : b.text = (b.above k ++ (b.lineAt k).lead) ++ c :: (v ++ rest) := by
    rw [htext]
    conv_lhs => rw [← Text.lead_append_content (b.lineAt k), hcontent]
    simp
  have hpos : b.contentAt k = (b.above k ++ (b.lineAt k).lead).length := by
    rw [contentAt, List.length_append, length_above]
  rw [hcut, hpos, List.getElem?_append_right (Nat.le_refl _), Nat.sub_self]
  rfl

theorem kind_comment_iff {b : Buffer} {k : Nat} (h : k < b.count) :
    b.kind (.ofBuffer b) k = .ok .comment ↔
      (b.lineAt k).content ≠ [] ∧ (Comments.ofBuffer b).covers (b.contentAt k) = true := by
  rw [kind_eq_kindAsked, kindAsked_natCast h]
  by_cases hblank : (b.lineAt k).content = []
  · simp [hblank]
  · cases (Comments.ofBuffer b).covers (b.contentAt k) <;> simp [hblank]

/-- A line is a comment line exactly if it has a character that is not blank, and the first such
character lies inside a comment. The position that decides is the one at which this character stands
in the text, and a look at the marks of the line adds nothing to what the comments say. -/
theorem kind_comment_iff_content_covered (b : Buffer) (i : Int) (h : b.InRange i) :
    (b.kind (.ofBuffer b) i = .ok .comment ↔
      (∃ c ∈ b.lineAt i.toNat, isBlank c = false) ∧
        ∃ s ∈ (Comments.ofBuffer b).spans.toList,
          s.start ≤ b.contentAt i.toNat ∧ b.contentAt i.toNat < s.stop) ∧
    (∀ c, (b.lineAt i.toNat).content.head? = some c → b.text[b.contentAt i.toNat]? = some c) ∧
    b.kind (.ofBuffer b) i = b.kindAsked (.ofBuffer b) i := by
  obtain ⟨k, rfl, hk⟩ := h.exists_natCast
  rw [Int.toNat_natCast, kind_comment_iff hk, Text.content_ne_nil_iff]
  refine ⟨and_congr_right fun _ => ?_, fun c hc => getElem?_text_contentAt hk hc,
    kind_eq_kindAsked b k⟩
  exact Comments.covers_ofText_iff b.text (b.contentAt k)

/-- A string that breaks off after a backslash and holds a mark, and a comment that goes on in a
line with a newline of its own. -/
private def carried : Buffer := ⟨["x = '// a\\".toList, "/* b".toList, "\n c */ d".toList]⟩

/-- The last line of `carried` starts inside the comment, at position 18. -/
theorem kind_comment_carried :
    carried.InRange 2 ∧ (∃ c ∈ carried.lineAt 2, isBlank c = false) ∧
    (∃ s ∈ (Comments.ofBuffer carried).spans.toList,
      s.start ≤ carried.contentAt 2 ∧ carried.contentAt 2 < s.stop) ∧
    carried.kind (.ofBuffer carried) 2 = .ok .comment := by
  have hrange : carried.InRange 2 := by decide
  have hcontent : ∃ c ∈ carried.lineAt 2, isBlank c = false := ⟨'c', by decide, by decide⟩
  have hspan : ∃ s ∈ (Comments.ofBuffer carried).spans.toList,
      s.start ≤ carried.contentAt 2 ∧ carried.contentAt 2 < s.stop :=
    ⟨⟨11, 22⟩, by decide, by decide, by decide⟩
  exact ⟨hrange, hcontent, hspan,
    (kind_comment_iff_content_covered carried 2 hrange).1.2 ⟨hcontent, hspan⟩⟩

end Buffer

/-! ## The rest of a comment line -/

/-- In a stretch of text that starts at position `p`, every character that is not blank lies inside
a comment. -/
def Comments.Fill (c : Comments) (p : Nat) (t : Text) : Prop :=
  ∀ j x, t[j]? = some x → isBlank x = false →
    ∃ s ∈ c.spans.toList, s.start ≤ (p + j : Nat) ∧ (p + j : Nat) < s.stop

/-- Filling can be checked position by position. -/
instance (c : Comments) (p : Nat) (t : Text) : Decidable (c.Fill p t) :=
  decidable_of_iff
    (∀ j ∈ List.range t.length, isBlank (t.getD j ' ') = false →
      ∃ s ∈ c.spans.toList, s.start ≤ (p + j : Nat) ∧ (p + j : Nat) < s.stop)
    ⟨fun h j x hx => by
      obtain ⟨hj, rfl⟩ := List.getElem?_eq_some_iff.1 hx
      simpa [List.getD, hj] using h j (List.mem_range.2 hj),
    fun h j hj => h j _ (by simp [List.getD, List.mem_range.1 hj])⟩

theorem Comments.fill_ofText_iff (t : Text) (p : Nat) (u : Text) :
    (Comments.ofText t).Fill p u ↔
      ∀ j x, u[j]? = some x → isBlank x = false →
        (Comments.ofText t).covers (p + j : Nat) = true := by
  simp only [Fill, covers_ofText_iff]

namespace Buffer

/-- What line `k` holds behind a span: nothing, if the span reaches to the end of the line. -/
def behind (b : Buffer) (k : Nat) (s : Span) : Text :=
  (b.lineAt k).drop (s.stop - b.offsetAt k).toNat

/-- Behind a comment that ends within a line, the rest of the line has the comments that it has by
itself. -/
theorem covers_behind {b : Buffer} {k : Nat} (h : k < b.count) {s : Span}
    (hs : s ∈ (Comments.ofBuffer b).spans.toList) {d : Nat}
    (hstop : s.stop = (b.offsetAt k + d : Nat)) {j : Nat} {x : Char}
    (hx : ((b.lineAt k).drop d)[j]? = some x) :
    (Comments.ofBuffer b).covers (b.offsetAt k + (d + j) : Nat) =
      (Comments.ofText ((b.lineAt k).drop d)).covers j := by
  obtain ⟨w, htext, hw⟩ := exists_text_eq h
  have hd : d ≤ (b.lineAt k).length := by
    have hlt := (List.getElem?_eq_some_iff.1 hx).1
    rw [List.length_drop] at hlt
    omega
  have hcut : b.text = (b.above k ++ (b.lineAt k).take d) ++ ((b.lineAt k).drop d ++ w) := by
    rw [htext, List.append_assoc, ← List.append_assoc (List.take d _), List.take_append_drop]
  have hlength : (b.above k ++ (b.lineAt k).take d).length = b.offsetAt k + d := by
    rw [List.length_append, length_above, List.length_take_of_le hd]
  rw [Comments.ofBuffer, hcut] at hs ⊢
  rw [← Nat.add_assoc, ← hlength]
  exact Comments.covers_behind hs (by rw [hstop, hlength]) hw hx

/-- A line whose content starts inside a comment is filled exactly if what it holds behind that
comment is, as a text of its own. -/
theorem fill_lineAt_iff {b : Buffer} {k : Nat} (h : k < b.count) {s : Span}
    (hs : s ∈ (Comments.ofBuffer b).spans.toList) (hstart : s.start ≤ b.contentAt k)
    (hstop : b.contentAt k < s.stop) :
    (Comments.ofBuffer b).Fill (b.offsetAt k) (b.lineAt k) ↔
      (Comments.ofText (b.behind k s)).Fill 0 (b.behind k s) := by
  rw [contentAt] at hstart hstop
  obtain ⟨d, hd⟩ : ∃ d : Nat, s.stop = (b.offsetAt k + d : Nat) :=
    ⟨(s.stop - b.offsetAt k).toNat, by omega⟩
  have hbehind : b.behind k s = (b.lineAt k).drop d := by
    rw [behind, hd]
    congr 1
    omega
  rw [hbehind, Comments.ofBuffer, Comments.fill_ofText_iff, Comments.fill_ofText_iff]
  constructor
  · intro hfill j x hx hblank
    rw [Nat.zero_add, ← covers_behind h hs hd hx]
    exact hfill (d + j) x (by rwa [List.getElem?_drop] at hx) hblank
  · intro hfill j x hx hblank
    rcases Nat.lt_or_ge j d with hlt | hge
    · -- Up to its end the comment itself fills the line.
      have hlead := Text.length_lead_le hx hblank
      exact (Comments.covers_ofText_iff _ _).2 ⟨s, hs, by omega, by omega⟩
    · obtain ⟨j, rfl⟩ := Nat.exists_eq_add_of_le hge
      have hx' : ((b.lineAt k).drop d)[j]? = some x := by rwa [List.getElem?_drop]
      have hcovers := hfill j x hx' hblank
      rwa [Nat.zero_add, ← covers_behind h hs hd hx'] at hcovers

/-- A comment line starts inside a comment, and holds nothing but comments exactly if nothing else
stands behind that one. What stands there may be looked at by itself. -/
theorem comment_line_filled_iff_behind_filled (b : Buffer) (i : Int) (h : b.InRange i)
    (hkind : b.kind (.ofBuffer b) i = .ok .comment) :
    ∃ s ∈ (Comments.ofBuffer b).spans.toList,
      s.start ≤ b.contentAt i.toNat ∧ b.contentAt i.toNat < s.stop ∧
      ((Comments.ofBuffer b).Fill (b.offsetAt i.toNat) (b.lineAt i.toNat) ↔
        (Comments.ofText (b.behind i.toNat s)).Fill 0 (b.behind i.toNat s)) := by
  obtain ⟨k, rfl, hk⟩ := h.exists_natCast
  rw [Int.toNat_natCast]
  have hcovers := ((kind_comment_iff hk).1 hkind).2
  obtain ⟨s, hs, hstart, hstop⟩ :=
    (Comments.covers_ofText_iff b.text (b.contentAt k)).1 hcovers
  exact ⟨s, hs, hstart, hstop, fill_lineAt_iff hk hs hstart hstop⟩

/-- A comment that ends on the second line, in front of another one. -/
private def halved : Buffer := ⟨["x /* a".toList, "b */ // c".toList]⟩

/-- Behind the comment that ends on it, the second line of `halved` holds the other one only. -/
theorem comment_line_halved :
    halved.InRange 1 ∧ halved.kind (.ofBuffer halved) 1 = .ok .comment ∧
    (Comments.ofBuffer halved).Fill (halved.offsetAt 1) (halved.lineAt 1) := by
  have hrange : halved.InRange 1 := by decide
  have hkind : halved.kind (.ofBuffer halved) 1 = .ok .comment := by decide +kernel
  have hfirst : ∀ s ∈ (Comments.ofBuffer halved).spans.toList,
      s.start ≤ halved.contentAt 1 → s = ⟨2, 11⟩ := by decide
  obtain ⟨s, hs, hstart, -, hfill⟩ := comment_line_filled_iff_behind_filled halved 1 hrange hkind
  obtain rfl := hfirst s hs hstart
  exact ⟨hrange, hkind, hfill.2 (by decide)⟩

/-- A comment in front of a line that opens a block. -/
private def masked : Buffer := ⟨["/* a */ fn f()".toList, "x".toList]⟩

/-- The first line of `masked` is a comment line, although it holds code, and the look upwards from
the second line passes over its opener. -/
theorem comment_line_masked :
    masked.InRange 0 ∧ masked.kind (.ofBuffer masked) 0 = .ok .comment ∧
    ¬ (Comments.ofBuffer masked).Fill (masked.offsetAt 0) (masked.lineAt 0) ∧
    masked.openersAbove (.ofBuffer masked) Vocabulary.blockOpeners 1 = .done :=
  ⟨by decide, rfl, by decide, rfl⟩

end Buffer

end FabEdit
